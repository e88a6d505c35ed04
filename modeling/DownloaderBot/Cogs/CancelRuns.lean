import DownloaderBot.Core.TransitionSystem
import DownloaderBot.Cogs.JobControl
import DownloaderBot.Download.Ratelimit

/-!
# Downloads, cancellations and workers

The guild buckets, the job metas, the cancellation flags and the result and
progress keys as one state.  `/download` invocations, `/cancel` invocations and
worker attempts take their steps on it in any order; each step ends where the
source awaits.  `refunds`, `consumed` and `pastFirstWrite` record what happened
and influence nothing.
-/

namespace DownloaderBot.CancelRuns

open DownloaderBot.JobControl
open DownloaderBot.Jobs (JobMeta)
open DownloaderBot.Ratelimit

/-- A key of the result backend. -/
inductive Slot
  | unset
  | stored
  | dropped
  deriving DecidableEq, Repr

/-- Where a `/cancel` invocation is.  `jobMeta` is the meta it resolved. -/
inductive CancelPhase
  | idle
  | resolved (taskId : String) (jobMeta : JobMeta)
  | flagged (taskId : String) (jobMeta : JobMeta)
  | sawReady (taskId : String) (jobMeta : JobMeta) (ready : Bool)
  | refunding (guildId : ℕ)
  | ended
  deriving DecidableEq, Repr

/-- Where a worker attempt is.  `checked`: the wrapper found the flag unset and
calls the body; `past`: the body has made its first progress write. -/
inductive AttemptPhase
  | idle
  | checked (taskId : String)
  | past (taskId : String)
  | over (taskId : String)
  | gone
  deriving DecidableEq, Repr

structure State where
  bucket : ℕ → Option Bucket
  /-- The meta the cog has at hand once the task is published. -/
  published : String → Option JobMeta
  recorded : String → Bool
  metas : String → Option JobMeta
  flag : String → Bool
  result : String → Slot
  progress : String → Slot
  cancel : ℕ → CancelPhase
  attempt : ℕ → AttemptPhase
  consumed : String → ℕ
  refunds : String → ℕ
  pastFirstWrite : String → Bool

inductive Label
  | download (taskId : String) (caller : Caller) (channelId : ℕ)
      (enqueuedAtIso : String) (now : ℚ)
  | record (taskId : String)
  | forget (taskId : String)
  | resolve (invocation : ℕ) (caller : Caller) (taskId : String)
  | setFlag (invocation : ℕ)
  | readReady (invocation : ℕ)
  | readProgress (invocation : ℕ)
  | credit (invocation : ℕ) (now : ℚ)
  | abort (invocation : ℕ)
  | pickUp (attempt : ℕ) (taskId : String)
  | firstWrite (attempt : ℕ)
  | write (attempt : ℕ)
  | leaveBody (attempt : ℕ)
  | storeResult (attempt : ℕ)
  | lose (attempt : ℕ)

namespace State

variable (state : State)

def moveCancel (invocation : ℕ) (phase : CancelPhase) : State :=
  { state with cancel := Function.update state.cancel invocation phase }

def moveAttempt (attempt : ℕ) (phase : AttemptPhase) : State :=
  { state with attempt := Function.update state.attempt attempt phase }

/-- The task is on the queue, and the cog holds the meta to record. -/
def publish (taskId : String) (caller : Caller) (channelId : ℕ)
    (enqueuedAtIso : String) (consumedToken : Bool) : State :=
  { state with
    published := Function.update state.published taskId
      (some ⟨caller.authorId, caller.guild.map GuildContext.id, channelId,
        enqueuedAtIso, consumedToken⟩)
    consumed := Function.update state.consumed taskId
      (if consumedToken then 1 else 0) }

end State

variable (capacity refillPerHour : ℤ)

/-- `/download` up to its publication: the guild owner and direct messages bypass
the bucket, a denied caller gets no job. -/
def download (state : State) (taskId : String) (caller : Caller) (channelId : ℕ)
    (enqueuedAtIso : String) (now : ℚ) : Option State :=
  match caller.guild with
  | none => some (state.publish taskId caller channelId enqueuedAtIso false)
  | some guild =>
      if caller.authorId = guild.ownerId then
        some (state.publish taskId caller channelId enqueuedAtIso false)
      else
        match acquire capacity refillPerHour (state.bucket guild.id) now with
        | .ok (bucket, verdict) =>
            let written := { state with
              bucket := Function.update state.bucket guild.id (some bucket) }
            if verdict.allowed then
              some (written.publish taskId caller channelId enqueuedAtIso true)
            else some written
        | .error _ => none

/-- One step.  The refund is called in the step that reads the progress: the
source awaits nothing in between. -/
def step (state : State) : Label → Option State
  | .download taskId caller channelId enqueuedAtIso now =>
      if state.published taskId = none then
        download capacity refillPerHour state taskId caller channelId
          enqueuedAtIso now
      else none
  | .record taskId =>
      if state.recorded taskId = false ∧ state.published taskId ≠ none then
        some { state with
          metas := Function.update state.metas taskId (state.published taskId)
          recorded := Function.update state.recorded taskId true }
      else none
  | .forget taskId =>
      some { state with metas := Function.update state.metas taskId none }
  | .resolve invocation caller taskId =>
      match state.cancel invocation, state.metas taskId with
      | .idle, some jobMeta =>
          if canActOn caller jobMeta then
            some (state.moveCancel invocation (.resolved taskId jobMeta))
          else none
      | _, _ => none
  | .setFlag invocation =>
      match state.cancel invocation with
      | .resolved taskId jobMeta =>
          some { state.moveCancel invocation (.flagged taskId jobMeta) with
            flag := Function.update state.flag taskId true }
      | _ => none
  | .readReady invocation =>
      match state.cancel invocation with
      | .flagged taskId jobMeta =>
          some (state.moveCancel invocation
            (.sawReady taskId jobMeta (state.result taskId = .stored)))
      | _ => none
  | .readProgress invocation =>
      match state.cancel invocation with
      | .sawReady taskId jobMeta ready =>
          match refundDue jobMeta ready (state.progress taskId = .stored) with
          | some guildId =>
              some { state.moveCancel invocation (.refunding guildId) with
                refunds := Function.update state.refunds taskId
                  (state.refunds taskId + 1) }
          | none => some (state.moveCancel invocation .ended)
      | _ => none
  | .credit invocation now =>
      match state.cancel invocation with
      | .refunding guildId =>
          let raw := state.bucket guildId
          some { state.moveCancel invocation .ended with
            bucket := Function.update state.bucket guildId
              ((refund capacity refillPerHour raw now).or raw) }
      | _ => none
  | .abort invocation => some (state.moveCancel invocation .ended)
  | .pickUp attempt taskId =>
      if state.attempt attempt = .idle ∧ state.published taskId ≠ none then
        some (state.moveAttempt attempt
          (if state.flag taskId then .over taskId else .checked taskId))
      else none
  | .firstWrite attempt =>
      match state.attempt attempt with
      | .checked taskId =>
          some { state.moveAttempt attempt (.past taskId) with
            progress := Function.update state.progress taskId .stored
            pastFirstWrite := Function.update state.pastFirstWrite taskId true }
      | _ => none
  | .write attempt =>
      match state.attempt attempt with
      | .past taskId =>
          some { state with
            progress := Function.update state.progress taskId .stored }
      | _ => none
  | .leaveBody attempt =>
      match state.attempt attempt with
      | .checked taskId | .past taskId =>
          some (state.moveAttempt attempt (.over taskId))
      | _ => none
  | .storeResult attempt =>
      match state.attempt attempt with
      | .over taskId =>
          some { state.moveAttempt attempt .gone with
            result := Function.update state.result taskId .stored }
      | _ => none
  | .lose attempt => some (state.moveAttempt attempt .gone)

/-- Nothing downloaded, nothing stored; the buckets are what they are. -/
def start (bucket : ℕ → Option Bucket) : State where
  bucket := bucket
  published _ := none
  recorded _ := false
  metas _ := none
  flag _ := false
  result _ := .unset
  progress _ := .unset
  cancel _ := .idle
  attempt _ := .idle
  consumed _ := 0
  refunds _ := 0
  pastFirstWrite _ := false

/-! ## What a step can do -/

/-- The step of each label where its guard lets it through, whatever the buckets. -/
inductive Transition (state : State) : Label → State → Prop
  | deny (taskId : String) (caller : Caller) (channelId : ℕ) (enqueuedAtIso : String)
      (now : ℚ) (bucket : ℕ → Option Bucket) :
      Transition state (.download taskId caller channelId enqueuedAtIso now)
        { state with bucket := bucket }
  | publish (taskId : String) (caller : Caller) (channelId : ℕ) (enqueuedAtIso : String)
      (now : ℚ) (bucket : ℕ → Option Bucket) (consumedToken : Bool)
      (hfresh : state.published taskId = none) :
      Transition state (.download taskId caller channelId enqueuedAtIso now)
        ({ state with bucket := bucket }.publish taskId caller channelId enqueuedAtIso
          consumedToken)
  | record (taskId : String) :
      Transition state (.record taskId) { state with
        metas := Function.update state.metas taskId (state.published taskId)
        recorded := Function.update state.recorded taskId true }
  | forget (taskId : String) :
      Transition state (.forget taskId)
        { state with metas := Function.update state.metas taskId none }
  | resolve (invocation : ℕ) (caller : Caller) (taskId : String) (jobMeta : JobMeta)
      (hmeta : state.metas taskId = some jobMeta) :
      Transition state (.resolve invocation caller taskId)
        (state.moveCancel invocation (.resolved taskId jobMeta))
  | setFlag (invocation : ℕ) (taskId : String) (jobMeta : JobMeta)
      (hphase : state.cancel invocation = .resolved taskId jobMeta) :
      Transition state (.setFlag invocation)
        { state.moveCancel invocation (.flagged taskId jobMeta) with
          flag := Function.update state.flag taskId true }
  | readReady (invocation : ℕ) (taskId : String) (jobMeta : JobMeta)
      (hphase : state.cancel invocation = .flagged taskId jobMeta) :
      Transition state (.readReady invocation)
        (state.moveCancel invocation
          (.sawReady taskId jobMeta (state.result taskId = .stored)))
  | decideRefund (invocation : ℕ) (taskId : String) (jobMeta : JobMeta) (ready : Bool)
      (guildId : ℕ) (hphase : state.cancel invocation = .sawReady taskId jobMeta ready)
      (hdue : refundDue jobMeta ready (state.progress taskId = .stored) = some guildId) :
      Transition state (.readProgress invocation)
        { state.moveCancel invocation (.refunding guildId) with
          refunds := Function.update state.refunds taskId (state.refunds taskId + 1) }
  | decideNone (invocation : ℕ) :
      Transition state (.readProgress invocation) (state.moveCancel invocation .ended)
  | credit (invocation : ℕ) (now : ℚ) (bucket : ℕ → Option Bucket) :
      Transition state (.credit invocation now)
        { state.moveCancel invocation .ended with bucket := bucket }
  | abort (invocation : ℕ) :
      Transition state (.abort invocation) (state.moveCancel invocation .ended)
  | pickUp (attempt : ℕ) (taskId : String) :
      Transition state (.pickUp attempt taskId) (state.moveAttempt attempt
        (if state.flag taskId then .over taskId else .checked taskId))
  | firstWrite (attempt : ℕ) (taskId : String)
      (hphase : state.attempt attempt = .checked taskId) :
      Transition state (.firstWrite attempt)
        { state.moveAttempt attempt (.past taskId) with
          progress := Function.update state.progress taskId .stored
          pastFirstWrite := Function.update state.pastFirstWrite taskId true }
  | write (attempt : ℕ) (taskId : String) :
      Transition state (.write attempt)
        { state with progress := Function.update state.progress taskId .stored }
  | leaveBody (attempt : ℕ) (taskId : String) :
      Transition state (.leaveBody attempt) (state.moveAttempt attempt (.over taskId))
  | storeResult (attempt : ℕ) (taskId : String) :
      Transition state (.storeResult attempt) { state.moveAttempt attempt .gone with
        result := Function.update state.result taskId .stored }
  | lose (attempt : ℕ) : Transition state (.lose attempt) (state.moveAttempt attempt .gone)

section Transition

variable {capacity refillPerHour : ℤ} {state next : State} {label : Label}

/-- What `/download` does to the state: it may write a bucket, and either
publishes the task or leaves everything else alone. -/
theorem download_cases {taskId : String} {caller : Caller} {channelId : ℕ}
    {enqueuedAtIso : String} {now : ℚ}
    (hdownload : download capacity refillPerHour state taskId caller channelId
      enqueuedAtIso now = some next) :
    ∃ bucket, next = { state with bucket := bucket } ∨
      ∃ consumedToken, next = { state with bucket := bucket }.publish taskId
        caller channelId enqueuedAtIso consumedToken := by
  rw [download] at hdownload
  split at hdownload
  · cases hdownload
    exact ⟨state.bucket, .inr ⟨false, rfl⟩⟩
  · split at hdownload
    · cases hdownload
      exact ⟨state.bucket, .inr ⟨false, rfl⟩⟩
    · split at hdownload
      · dsimp only at hdownload
        split at hdownload
        · cases hdownload
          exact ⟨_, .inr ⟨true, rfl⟩⟩
        · cases hdownload
          exact ⟨_, .inl rfl⟩
      · cases hdownload

theorem Transition.of_resolve {invocation : ℕ} {caller : Caller} {taskId : String}
    (hstep : step capacity refillPerHour state (.resolve invocation caller taskId) =
      some next) :
    Transition state (.resolve invocation caller taskId) next := by
  simp only [step] at hstep
  split at hstep
  case h_1 jobMeta _ hmeta =>
    obtain ⟨-, hnext⟩ := Option.ite_none_right_eq_some.mp hstep
    cases hnext
    exact .resolve invocation caller taskId jobMeta hmeta
  case h_2 => cases hstep

theorem Transition.of_setFlag {invocation : ℕ}
    (hstep : step capacity refillPerHour state (.setFlag invocation) = some next) :
    Transition state (.setFlag invocation) next := by
  simp only [step] at hstep
  split at hstep
  case h_1 taskId jobMeta hphase =>
    cases hstep
    exact .setFlag invocation taskId jobMeta hphase
  case h_2 => cases hstep

theorem Transition.of_readReady {invocation : ℕ}
    (hstep : step capacity refillPerHour state (.readReady invocation) = some next) :
    Transition state (.readReady invocation) next := by
  simp only [step] at hstep
  split at hstep
  case h_1 taskId jobMeta hphase =>
    cases hstep
    exact .readReady invocation taskId jobMeta hphase
  case h_2 => cases hstep

/-- The decision to refund falls with the last read. -/
theorem Transition.of_readProgress {invocation : ℕ}
    (hstep : step capacity refillPerHour state (.readProgress invocation) = some next) :
    Transition state (.readProgress invocation) next := by
  simp only [step] at hstep
  split at hstep
  case h_1 taskId jobMeta ready hphase =>
    split at hstep
    case h_1 guildId hdue =>
      cases hstep
      exact .decideRefund invocation taskId jobMeta ready guildId hphase hdue
    case h_2 =>
      cases hstep
      exact .decideNone invocation
  case h_2 => cases hstep

theorem Transition.of_credit {invocation : ℕ} {now : ℚ}
    (hstep : step capacity refillPerHour state (.credit invocation now) = some next) :
    Transition state (.credit invocation now) next := by
  simp only [step] at hstep
  split at hstep
  case h_1 guildId _ =>
    cases hstep
    exact .credit invocation now _
  case h_2 => cases hstep

theorem Transition.of_firstWrite {attempt : ℕ}
    (hstep : step capacity refillPerHour state (.firstWrite attempt) = some next) :
    Transition state (.firstWrite attempt) next := by
  simp only [step] at hstep
  split at hstep
  case h_1 taskId hphase =>
    cases hstep
    exact .firstWrite attempt taskId hphase
  case h_2 => cases hstep

theorem Transition.of_write {attempt : ℕ}
    (hstep : step capacity refillPerHour state (.write attempt) = some next) :
    Transition state (.write attempt) next := by
  simp only [step] at hstep
  split at hstep
  case h_1 taskId _ =>
    cases hstep
    exact .write attempt taskId
  case h_2 => cases hstep

/-- The body ends with or without a first write behind it. -/
theorem Transition.of_leaveBody {attempt : ℕ}
    (hstep : step capacity refillPerHour state (.leaveBody attempt) = some next) :
    Transition state (.leaveBody attempt) next := by
  simp only [step] at hstep
  split at hstep
  case h_1 taskId _ =>
    cases hstep
    exact .leaveBody attempt taskId
  case h_2 taskId _ =>
    cases hstep
    exact .leaveBody attempt taskId
  case h_3 => cases hstep

theorem Transition.of_storeResult {attempt : ℕ}
    (hstep : step capacity refillPerHour state (.storeResult attempt) = some next) :
    Transition state (.storeResult attempt) next := by
  simp only [step] at hstep
  split at hstep
  case h_1 taskId _ =>
    cases hstep
    exact .storeResult attempt taskId
  case h_2 => cases hstep

theorem transition_of_step (hstep : step capacity refillPerHour state label = some next) :
    Transition state label next := by
  cases label with
  | download taskId caller channelId enqueuedAtIso now =>
      obtain ⟨hfresh, hdownload⟩ := Option.ite_none_right_eq_some.mp hstep
      obtain ⟨bucket, rfl | ⟨consumedToken, rfl⟩⟩ := download_cases hdownload
      · exact .deny taskId caller channelId enqueuedAtIso now bucket
      · exact .publish taskId caller channelId enqueuedAtIso now bucket consumedToken hfresh
  | record taskId =>
      obtain ⟨-, hnext⟩ := Option.ite_none_right_eq_some.mp hstep
      cases hnext
      exact .record taskId
  | forget taskId =>
      cases hstep
      exact .forget taskId
  | resolve invocation caller taskId => exact .of_resolve hstep
  | setFlag invocation => exact .of_setFlag hstep
  | readReady invocation => exact .of_readReady hstep
  | readProgress invocation => exact .of_readProgress hstep
  | credit invocation now => exact .of_credit hstep
  | abort invocation =>
      cases hstep
      exact .abort invocation
  | pickUp attempt taskId =>
      obtain ⟨-, hnext⟩ := Option.ite_none_right_eq_some.mp hstep
      cases hnext
      exact .pickUp attempt taskId
  | firstWrite attempt => exact .of_firstWrite hstep
  | write attempt => exact .of_write hstep
  | leaveBody attempt => exact .of_leaveBody hstep
  | storeResult attempt => exact .of_storeResult hstep
  | lose attempt =>
      cases hstep
      exact .lose attempt

end Transition

/-! ## Tokens and metas -/

/-- The job a `/cancel` invocation has resolved and not yet decided on. -/
def CancelPhase.job : CancelPhase → Option (String × JobMeta)
  | .resolved taskId jobMeta => some (taskId, jobMeta)
  | .flagged taskId jobMeta => some (taskId, jobMeta)
  | .sawReady taskId jobMeta _ => some (taskId, jobMeta)
  | _ => none

/-- Every meta in use is the one the cog published, it says whether the job
consumed its token, and only jobs that did are refunded. -/
structure Accounted (state : State) : Prop where
  token : ∀ taskId jobMeta, state.published taskId = some jobMeta →
    jobMeta.enqueueConsumedToken = true → state.consumed taskId = 1
  consumed_le : ∀ taskId, state.consumed taskId ≤ 1
  metas : ∀ taskId jobMeta, state.metas taskId = some jobMeta →
    state.published taskId = some jobMeta
  held : ∀ invocation taskId jobMeta,
    (state.cancel invocation).job = some (taskId, jobMeta) →
    state.published taskId = some jobMeta
  refunded : ∀ taskId, 0 < state.refunds taskId →
    ∃ jobMeta, state.published taskId = some jobMeta ∧
      jobMeta.enqueueConsumedToken = true

section Accounted

variable {capacity refillPerHour : ℤ} {state next : State} {label : Label}

theorem accounted_start (bucket : ℕ → Option Bucket) :
    Accounted (start bucket) := by
  constructor <;> simp [start, CancelPhase.job]

theorem Accounted.moveCancel (haccounted : Accounted state) (invocation : ℕ)
    {phase : CancelPhase}
    (hphase : ∀ taskId jobMeta, phase.job = some (taskId, jobMeta) →
      state.published taskId = some jobMeta) :
    Accounted (state.moveCancel invocation phase) where
  token := haccounted.token
  consumed_le := haccounted.consumed_le
  metas := haccounted.metas
  held other taskId jobMeta hjob := by
    rcases eq_or_ne other invocation with rfl | hother
    · exact hphase taskId jobMeta (by simpa [State.moveCancel] using hjob)
    · exact haccounted.held other taskId jobMeta
        (by simpa [State.moveCancel, hother] using hjob)
  refunded := haccounted.refunded

theorem Accounted.publish (haccounted : Accounted state) {taskId : String}
    (hfresh : state.published taskId = none) (caller : Caller) (channelId : ℕ)
    (enqueuedAtIso : String) (consumedToken : Bool) :
    Accounted
      (state.publish taskId caller channelId enqueuedAtIso consumedToken) := by
  -- What was published before concerns another task.
  have hkept : ∀ other jobMeta, state.published other = some jobMeta →
      (state.publish taskId caller channelId enqueuedAtIso
        consumedToken).published other = some jobMeta := by
    intro other jobMeta hother
    have hne : other ≠ taskId := by
      rintro rfl
      cases hfresh.symm.trans hother
    simpa [State.publish, hne] using hother
  refine ⟨?_, ?_, ?_, ?_, ?_⟩
  · intro other jobMeta hother htoken
    rcases eq_or_ne other taskId with rfl | hne
    · simp only [State.publish, Function.update_self, Option.some.injEq] at hother
      subst hother
      simp only at htoken
      simp [State.publish, htoken]
    · simp only [State.publish, Function.update_of_ne hne] at hother ⊢
      exact haccounted.token other jobMeta hother htoken
  · intro other
    rcases eq_or_ne other taskId with rfl | hne
    · cases consumedToken <;> simp [State.publish]
    · simpa [State.publish, hne] using haccounted.consumed_le other
  · intro other jobMeta hmeta
    exact hkept other jobMeta (haccounted.metas other jobMeta hmeta)
  · intro invocation other jobMeta hjob
    exact hkept other jobMeta (haccounted.held invocation other jobMeta hjob)
  · intro other hrefunds
    obtain ⟨jobMeta, hpublished, htoken⟩ := haccounted.refunded other hrefunds
    exact ⟨jobMeta, hkept other jobMeta hpublished, htoken⟩

/-- Buckets, keys of the result backend, flags and attempts play no part. -/
theorem Accounted.of_eq (haccounted : Accounted state)
    (hpublished : next.published = state.published)
    (hconsumed : next.consumed = state.consumed)
    (hmetas : next.metas = state.metas) (hcancel : next.cancel = state.cancel)
    (hrefunds : next.refunds = state.refunds) : Accounted next := by
  constructor
  · simpa only [hpublished, hconsumed] using haccounted.token
  · simpa only [hconsumed] using haccounted.consumed_le
  · simpa only [hpublished, hmetas] using haccounted.metas
  · simpa only [hpublished, hcancel] using haccounted.held
  · simpa only [hpublished, hrefunds] using haccounted.refunded

/-- The step lemma: in every run whatever, only jobs that consumed a token are
refunded. -/
theorem accounted_step (haccounted : Accounted state)
    (hstep : step capacity refillPerHour state label = some next) :
    Accounted next := by
  cases transition_of_step hstep with
  | deny | pickUp | firstWrite | write | leaveBody | storeResult | lose =>
      exact haccounted.of_eq rfl rfl rfl rfl rfl
  | publish taskId caller channelId enqueuedAtIso now bucket consumedToken hfresh =>
      have hwritten : Accounted { state with bucket := bucket } :=
        haccounted.of_eq rfl rfl rfl rfl rfl
      exact hwritten.publish hfresh caller channelId enqueuedAtIso consumedToken
  | record taskId =>
      refine ⟨haccounted.token, haccounted.consumed_le, ?_, haccounted.held,
        haccounted.refunded⟩
      intro other jobMeta hmeta
      rcases eq_or_ne other taskId with rfl | hne
      · simpa using hmeta
      · exact haccounted.metas other jobMeta (by simpa [hne] using hmeta)
  | forget taskId =>
      refine ⟨haccounted.token, haccounted.consumed_le, ?_, haccounted.held,
        haccounted.refunded⟩
      intro other jobMeta hmeta
      rcases eq_or_ne other taskId with rfl | hne
      · simp at hmeta
      · exact haccounted.metas other jobMeta (by simpa [hne] using hmeta)
  | resolve invocation caller taskId jobMeta hmeta =>
      apply haccounted.moveCancel invocation
      intro other otherMeta hjob
      cases hjob
      exact haccounted.metas taskId jobMeta hmeta
  | setFlag invocation taskId jobMeta hphase =>
      have hheld := haccounted.held invocation
      rw [hphase] at hheld
      have hmoved : Accounted (state.moveCancel invocation (.flagged taskId jobMeta)) :=
        haccounted.moveCancel invocation hheld
      exact hmoved.of_eq rfl rfl rfl rfl rfl
  | readReady invocation taskId jobMeta hphase =>
      have hheld := haccounted.held invocation
      rw [hphase] at hheld
      exact haccounted.moveCancel invocation hheld
  | decideRefund invocation taskId jobMeta ready guildId hphase hdue =>
      have hheld := haccounted.held invocation
      rw [hphase] at hheld
      have hmoved : Accounted (state.moveCancel invocation (.refunding guildId)) :=
        haccounted.moveCancel invocation nofun
      refine ⟨hmoved.token, hmoved.consumed_le, hmoved.metas, hmoved.held, ?_⟩
      intro other hrefunds
      rcases eq_or_ne other taskId with rfl | hne
      · exact ⟨jobMeta, hheld _ _ rfl, (refundDue_eq_some hdue).1.1⟩
      · exact haccounted.refunded other (by simpa [hne] using hrefunds)
  | decideNone invocation | abort invocation =>
      exact haccounted.moveCancel invocation nofun
  | credit invocation now bucket =>
      have hmoved : Accounted (state.moveCancel invocation .ended) :=
        haccounted.moveCancel invocation nofun
      exact hmoved.of_eq rfl rfl rfl rfl rfl

end Accounted

end DownloaderBot.CancelRuns
