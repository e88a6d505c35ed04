import DownloaderBot.Cogs.JobControl
import DownloaderBot.Tasks.DownloadRuns

/-!
# What `/status` tells of a job

One job with its message on the queue, the attempts at it, the keys of the result
backend, the cancellation flag and the meta, and any number of `/status`
invocations, which read these one after the other.
-/

namespace DownloaderBot.StatusRuns

open DownloaderBot.Embeds
open DownloaderBot.JobControl
open DownloaderBot.Jobs (JobMeta)
open DownloaderBot.Tasks
open DownloaderBot.TransitionSystem

/-- The phases the task reports, among those of a job. -/
def shownPhase : Phase → JobPhase
  | .pickedUp => .pickedUp
  | .stream => .stream
  | .deliver => .deliver
  | .done => .done

/-- Where the message of the job is.  The cancellable wrapper's own exception goes
under `cancelled`. -/
inductive Worker
  | queued
  | working
  | leaving (outcome : Except Exn DownloadResult)
  | settled

/-- Where a `/status` invocation is. -/
inductive StatusPhase
  | idle
  | resolved (jobMeta : JobMeta)
  | unflagged (jobMeta : JobMeta)
  | unready (jobMeta : JobMeta)
  | replied (embed : Embed)

/-- The reply says that the job is delivered. -/
def StatusPhase.ShowsDelivered : StatusPhase → Prop
  | .replied embed => embed.Delivered
  | _ => False

instance (phase : StatusPhase) : Decidable phase.ShowsDelivered :=
  match phase with
  | .replied embed => inferInstanceAs (Decidable embed.Delivered)
  | .idle | .resolved _ | .unflagged _ | .unready _ =>
      inferInstanceAs (Decidable False)

/-- `retries` counts the re-kicks; `result` and `progress` are what the result
backend holds. -/
structure State where
  attempts : Attempting
  worker : Worker
  retries : ℕ
  flag : Bool
  result : Option (Except Exn DownloadResult)
  progress : Option Phase
  jobMeta : Option JobMeta
  status : ℕ → StatusPhase

inductive Label
  | pickUp (clock : Clock)
  | succeed (proposed : (request : Call) → Reply request)
  | fail (exception : Exn)
  | finish
  | stop
  | settle
  | setFlag
  | record (jobMeta : JobMeta)
  | dropMeta
  | dropResult
  | dropProgress
  | resolve (invocation : ℕ) (caller : Caller)
  | readFlag (invocation : ℕ)
  | readReady (invocation : ℕ)
  | readProgress (invocation : ℕ) (details : JobDetails)

def Label.asksReady : Label → Bool
  | .readReady _ => true
  | _ => false

namespace State

variable (state : State)

def moveStatus (invocation : ℕ) (phase : StatusPhase) : State :=
  { state with status := Function.update state.status invocation phase }

/-- The attempts have moved on. -/
def advance (attempts : Attempting) (worker : Worker) : State :=
  { state with attempts, worker }

/-- The progress key once the pending call has succeeded. -/
def reported : Option Phase :=
  match state.attempts.pending with
  | some (.setProgress phase) => some phase
  | _ => state.progress

/-- The result of a failure is stored. -/
def failed : Bool :=
  match state.result with
  | some (.error _) => true
  | _ => false

/-- How the body has ended. -/
def outcome : Option (Except Exn DownloadResult) :=
  match state.attempts.running with
  | some (.ret result) => some (.ok result)
  | some (.raise exception) => some (.error exception)
  | _ => none

end State

/-- `CancelAwareRetryMiddleware.on_error`: a failure is retried unless it is a
cancellation or the last one allowed. -/
def retried (maxRetries retries : ℕ) : Except Exn DownloadResult → Bool
  | .ok _ => false
  | .error .cancelled => false
  | .error _ => retries + 1 < maxRetries

/-- One step.  A message whose attempt stops is delivered again; one that is
retried leaves no result. -/
def step (arguments : Arguments) (maxRetries : ℕ) (state : State) :
    Label → Option State
  | .pickUp clock =>
      match state.worker with
      | .queued =>
          if state.flag then
            some { state with worker := .leaving (.error .cancelled) }
          else
            (attemptStep arguments state.attempts (.begin clock)).map
              (state.advance · .working)
      | _ => none
  | .succeed proposed =>
      (attemptStep arguments state.attempts (.succeed proposed)).map fun attempts =>
        { state.advance attempts .working with progress := state.reported }
  | .fail exception =>
      (attemptStep arguments state.attempts (.fail exception)).map
        (state.advance · .working)
  | .finish =>
      match state.outcome with
      | some outcome =>
          (attemptStep arguments state.attempts .finish).map
            (state.advance · (.leaving outcome))
      | none => none
  | .stop =>
      (attemptStep arguments state.attempts .stop).map (state.advance · .queued)
  | .settle =>
      match state.worker with
      | .leaving outcome =>
          if retried maxRetries state.retries outcome then
            some { state with worker := .queued, retries := state.retries + 1 }
          else some { state with worker := .settled, result := some outcome }
      | _ => none
  | .setFlag => some { state with flag := true }
  | .record jobMeta => some { state with jobMeta := some jobMeta }
  | .dropMeta => some { state with jobMeta := none }
  | .dropResult => some { state with result := none }
  | .dropProgress => some { state with progress := none }
  | .resolve invocation caller =>
      match state.status invocation, state.jobMeta with
      | .idle, some jobMeta =>
          if canActOn caller jobMeta then
            some (state.moveStatus invocation (.resolved jobMeta))
          else none
      | _, _ => none
  | .readFlag invocation =>
      match state.status invocation with
      | .resolved jobMeta =>
          some (state.moveStatus invocation
            (if state.flag then
              .replied (jobStatus arguments.taskId .cancelled jobMeta.ownerUserId {})
            else .unflagged jobMeta))
      | _ => none
  | .readReady invocation =>
      match state.status invocation with
      | .unflagged jobMeta =>
          some (state.moveStatus invocation
            (if state.result.isSome then
              .replied (jobStatus arguments.taskId .done jobMeta.ownerUserId {})
            else .unready jobMeta))
      | _ => none
  | .readProgress invocation details =>
      match state.status invocation with
      | .unready jobMeta =>
          some (state.moveStatus invocation (.replied
            (match state.progress with
            | none => jobStatus arguments.taskId .queued jobMeta.ownerUserId {}
            | some phase =>
                jobStatus arguments.taskId (shownPhase phase)
                  jobMeta.ownerUserId details)))
      | _ => none

/-- Published, not yet picked up, and not yet recorded. -/
def start : State where
  attempts := attemptStart
  worker := .queued
  retries := 0
  flag := false
  result := none
  progress := none
  jobMeta := none
  status _ := .idle

/-! ## When Delivered is true -/

/-- An embed has been sent in some attempt. -/
def Notified (state : State) : Prop :=
  ∃ event ∈ state.attempts.log.trace, sends event

instance (state : State) : Decidable (Notified state) :=
  inferInstanceAs (Decidable (∃ event ∈ state.attempts.log.trace, sends event))

/-- A `/status` that asks whether the job is ready does not find the result of a
final failure before any embed was sent. -/
def NoUnsentFailure (state : State) (label : Label) : Prop :=
  label.asksReady = true → state.failed = true → Notified state

instance (state : State) (label : Label) :
    Decidable (NoUnsentFailure state label) :=
  inferInstanceAs (Decidable (_ = true → _ = true → Notified state))

/-- The successful ends, the final progress and the replies that say so come after
a send. -/
structure Sound (arguments : Arguments) (state : State) : Prop where
  attempts : Reaches (attemptStep arguments) unrestricted attemptStart
    state.attempts
  leaving : ∀ result, state.worker = .leaving (.ok result) → Notified state
  result : ∀ result, state.result = some (.ok result) → Notified state
  progress : state.progress = some .done → Notified state
  replied : ∀ invocation, (state.status invocation).ShowsDelivered →
    Notified state

section Sound

variable {arguments : Arguments} {maxRetries : ℕ} {state next : State}

theorem sound_start : Sound arguments start where
  attempts := .refl
  leaving _ hleaving := by cases hleaving
  result _ hresult := by cases hresult
  progress hprogress := by cases hprogress
  replied _ hshown := hshown.elim

/-- The attempts move on, and the progress with them. -/
theorem Sound.advance (hsound : Sound arguments state) {after : Attempting}
    {label : Attempts.Label Reply Exn Clock}
    (hstep : attemptStep arguments state.attempts label = some after)
    {worker : Worker} {progress : Option Phase}
    (hleaving : ∀ result, worker = .leaving (.ok result) →
      ∃ event ∈ after.log.trace, sends event)
    (hprogress : progress = some .done → progress = state.progress ∨
      ∃ event ∈ after.log.trace, sends event) :
    Sound arguments { state.advance after worker with progress := progress } := by
  have hkept : Notified state → ∃ event ∈ after.log.trace, sends event := by
    rintro ⟨event, hmem, hsent⟩
    exact ⟨event, (Attempts.trace_prefix_of_step hstep).subset hmem, hsent⟩
  refine ⟨hsound.attempts.tail label trivial hstep, hleaving, ?_, ?_, ?_⟩
  · exact fun result hresult => hkept (hsound.result result hresult)
  · intro hdone
    rcases hprogress hdone with hsame | hsent
    · exact hkept (hsound.progress (hsame.symm.trans hdone))
    · exact hsent
  · exact fun invocation hshown => hkept (hsound.replied invocation hshown)

/-- Steps of the broker and of the keys: nothing new is successful or final. -/
theorem Sound.frame (hsound : Sound arguments state)
    (hattempts : next.attempts = state.attempts) (hstatus : next.status = state.status)
    (hleaving : ∀ result, next.worker = .leaving (.ok result) →
      state.worker = .leaving (.ok result))
    (hresult : ∀ result, next.result = some (.ok result) →
      state.result = some (.ok result) ∨ state.worker = .leaving (.ok result))
    (hprogress : next.progress = some .done → state.progress = some .done) :
    Sound arguments next := by
  have hnotified : Notified state → Notified next := by
    rintro ⟨event, hmem, hsent⟩
    exact ⟨event, hattempts ▸ hmem, hsent⟩
  refine ⟨hattempts ▸ hsound.attempts, ?_, ?_, ?_, ?_⟩
  · exact fun result h => hnotified (hsound.leaving result (hleaving result h))
  · exact fun result h => hnotified
      ((hresult result h).elim (hsound.result result) (hsound.leaving result))
  · exact fun h => hnotified (hsound.progress (hprogress h))
  · exact fun invocation h => hnotified (hsound.replied invocation (hstatus ▸ h))

theorem Sound.moveStatus (hsound : Sound arguments state) (invocation : ℕ)
    {phase : StatusPhase}
    (hphase : phase.ShowsDelivered → Notified state) :
    Sound arguments (state.moveStatus invocation phase) := by
  refine ⟨hsound.attempts, hsound.leaving, hsound.result, hsound.progress, ?_⟩
  intro other hshown
  rcases eq_or_ne other invocation with rfl | hne
  · exact hphase (by simpa [State.moveStatus] using hshown)
  · exact hsound.replied other (by simpa [State.moveStatus, hne] using hshown)

theorem shownPhase_eq_done {phase : Phase} :
    shownPhase phase = .done ↔ phase = .done := by
  cases phase <;> decide

theorem Sound.good_of_step (hsound : Sound arguments state) {after : Attempting}
    {label : Attempts.Label Reply Exn Clock}
    (hstep : attemptStep arguments state.attempts label = some after) :
    Good arguments.userId after.log :=
  good_of_attempts arguments (hsound.attempts.tail label trivial hstep)

/-- The body has returned: an embed is out. -/
theorem Sound.notified_of_outcome (hsound : Sound arguments state)
    {result : DownloadResult} (houtcome : state.outcome = some (.ok result))
    {after : Attempting}
    (hstep : attemptStep arguments state.attempts .finish = some after) :
    ∃ event ∈ after.log.trace, sends event := by
  have hgood := hsound.good_of_step hstep
  simp only [State.outcome] at houtcome
  split at houtcome
  case h_1 returned hrunning =>
    simp only [attemptStep, Attempts.step, hrunning, Option.some.injEq] at hstep
    subst hstep
    obtain ⟨event, hmem, hsent⟩ := hgood.returned_sent state.attempts.log.trace
      (.returned returned) [] (by simp) rfl
    exact ⟨event, by simp [hmem], hsent⟩
  case h_2 => cases houtcome
  case h_3 => cases houtcome

/-- The task reports its end: an embed is out. -/
theorem Sound.notified_of_reported (hsound : Sound arguments state)
    (hdone : state.reported = some .done) {after : Attempting}
    {proposed : (request : Call) → Reply request}
    (hstep : attemptStep arguments state.attempts (.succeed proposed) = some after) :
    state.reported = state.progress ∨ ∃ event ∈ after.log.trace, sends event := by
  have hgood := hsound.good_of_step hstep
  obtain ⟨request, hpending, hlog⟩ := Attempts.log_of_succeed hstep
  simp only [State.reported, hpending] at hdone ⊢
  split at hdone
  case h_1 phase hrequest =>
    cases hrequest
    obtain rfl := Option.some.inj hdone
    exact .inr (hgood.done_sent (by rw [hlog]; rfl))
  case h_2 => exact .inl rfl

theorem Sound.pickUp (hsound : Sound arguments state) {clock : Clock}
    (hstep : step arguments maxRetries state (.pickUp clock) = some next) :
    Sound arguments next := by
  simp only [step] at hstep
  split at hstep
  case h_2 => cases hstep
  case h_1 =>
    split at hstep
    case isTrue =>
      cases hstep
      exact hsound.frame rfl rfl nofun (fun _ => .inl) id
    case isFalse =>
      obtain ⟨after, hafter, rfl⟩ := Option.map_eq_some_iff.mp hstep
      exact hsound.advance hafter (fun _ h => by cases h) fun _ => .inl rfl

theorem Sound.finish (hsound : Sound arguments state)
    (hstep : step arguments maxRetries state .finish = some next) :
    Sound arguments next := by
  simp only [step] at hstep
  split at hstep
  case h_2 => cases hstep
  case h_1 outcome houtcome =>
    obtain ⟨after, hafter, rfl⟩ := Option.map_eq_some_iff.mp hstep
    refine hsound.advance hafter (fun result h => ?_) fun _ => .inl rfl
    cases h
    exact hsound.notified_of_outcome houtcome hafter

/-- The outcome that is stored is the one the attempt has left with. -/
theorem Sound.settle (hsound : Sound arguments state)
    (hstep : step arguments maxRetries state .settle = some next) :
    Sound arguments next := by
  simp only [step] at hstep
  split at hstep
  case h_2 => cases hstep
  case h_1 outcome hworker =>
    split at hstep
    case isTrue =>
      cases hstep
      exact hsound.frame rfl rfl nofun (fun _ => .inl) id
    case isFalse =>
      cases hstep
      refine hsound.frame rfl rfl nofun (fun result hresult => .inr ?_) id
      cases hresult
      exact hworker

theorem Sound.resolve (hsound : Sound arguments state) {invocation : ℕ} {caller : Caller}
    (hstep : step arguments maxRetries state (.resolve invocation caller) = some next) :
    Sound arguments next := by
  simp only [step] at hstep
  split at hstep
  case h_2 => cases hstep
  case h_1 =>
    obtain ⟨-, hnext⟩ := Option.ite_none_right_eq_some.mp hstep
    cases hnext
    exact hsound.moveStatus invocation False.elim

theorem Sound.readFlag (hsound : Sound arguments state) {invocation : ℕ}
    (hstep : step arguments maxRetries state (.readFlag invocation) = some next) :
    Sound arguments next := by
  simp only [step] at hstep
  split at hstep
  case h_2 => cases hstep
  case h_1 =>
    cases hstep
    apply hsound.moveStatus invocation
    intro hshown
    split at hshown
    case isTrue => cases delivered_jobStatus.mp hshown
    case isFalse => exact hshown.elim

/-- A result that is found is that of a success or, where a send went before, of a
failure. -/
theorem Sound.readReady (hsound : Sound arguments state) {invocation : ℕ}
    (hsent : state.failed = true → Notified state)
    (hstep : step arguments maxRetries state (.readReady invocation) = some next) :
    Sound arguments next := by
  simp only [step] at hstep
  split at hstep
  case h_2 => cases hstep
  case h_1 =>
    cases hstep
    apply hsound.moveStatus invocation
    intro hshown
    split at hshown
    case isFalse => exact hshown.elim
    case isTrue hready =>
      obtain ⟨outcome, hresult⟩ := Option.isSome_iff_exists.mp hready
      cases outcome with
      | ok result => exact hsound.result result hresult
      | error _ => exact hsent (by simp [State.failed, hresult])

theorem Sound.readProgress (hsound : Sound arguments state) {invocation : ℕ}
    {details : JobDetails}
    (hstep : step arguments maxRetries state (.readProgress invocation details) = some next) :
    Sound arguments next := by
  simp only [step] at hstep
  split at hstep
  case h_2 => cases hstep
  case h_1 =>
    cases hstep
    apply hsound.moveStatus invocation
    intro hshown
    split at hshown
    case h_1 => cases delivered_jobStatus.mp hshown
    case h_2 phase hphase =>
      have hdone := shownPhase_eq_done.mp (delivered_jobStatus.mp hshown)
      exact hsound.progress (hphase.trans (congrArg some hdone))

theorem sound_step {label : Label} (hsound : Sound arguments state)
    (hallowed : NoUnsentFailure state label)
    (hstep : step arguments maxRetries state label = some next) :
    Sound arguments next := by
  cases label with
  | pickUp clock => exact hsound.pickUp hstep
  | succeed proposed =>
      obtain ⟨after, hafter, rfl⟩ := Option.map_eq_some_iff.mp hstep
      exact hsound.advance hafter (fun _ h => by cases h)
        fun hdone => hsound.notified_of_reported hdone hafter
  | fail exception =>
      obtain ⟨after, hafter, rfl⟩ := Option.map_eq_some_iff.mp hstep
      exact hsound.advance hafter (fun _ h => by cases h) fun _ => .inl rfl
  | finish => exact hsound.finish hstep
  | stop =>
      obtain ⟨after, hafter, rfl⟩ := Option.map_eq_some_iff.mp hstep
      exact hsound.advance hafter (fun _ h => by cases h) fun _ => .inl rfl
  | settle => exact hsound.settle hstep
  | setFlag | record jobMeta | dropMeta =>
      cases hstep
      exact hsound.frame rfl rfl (fun _ => id) (fun _ => .inl) id
  | dropResult =>
      cases hstep
      exact hsound.frame rfl rfl (fun _ => id) nofun id
  | dropProgress =>
      cases hstep
      exact hsound.frame rfl rfl (fun _ => id) (fun _ => .inl) nofun
  | resolve invocation caller => exact hsound.resolve hstep
  | readFlag invocation => exact hsound.readFlag hstep
  | readReady invocation => exact hsound.readReady (hallowed rfl) hstep
  | readProgress invocation details => exact hsound.readProgress hstep

end Sound

/-! ## The result -/

/-- Without the result of a failure that no embed went before, `/status` shows a
job as delivered only once an embed has been sent. -/
theorem notified_of_showsDelivered (arguments : Arguments) (maxRetries : ℕ)
    (state : State)
    (hrun : Reaches (step arguments maxRetries) NoUnsentFailure start state)
    (invocation : ℕ) (hshown : (state.status invocation).ShowsDelivered) :
    Notified state := by
  have hsound : Sound arguments state :=
    hrun.invariant sound_start fun _ _ _ h hallowed hstep =>
      sound_step h hallowed hstep
  exact hsound.replied invocation hshown

/-- The requester asks after the first attempt has returned. -/
theorem notified_of_showsDelivered_returned :
    ∃ state,
      Reaches (step ⟨"a", 3, 7, none, true, none⟩ 3) NoUnsentFailure start state ∧
      (state.status 0).ShowsDelivered ∧ Notified state := by
  obtain ⟨state, hrun, hcheck⟩ := exists_reaches_of_replay
    (guarded (step ⟨"a", 3, 7, none, true, none⟩ 3) NoUnsentFailure) start
    ([.record ⟨7, none, 3, "", false⟩, .pickUp inMay] ++
      List.replicate 13 (.succeed obliging) ++ [.finish, .settle,
      .resolve 0 ⟨7, false, none⟩, .readFlag 0, .readReady 0])
    (fun state => decide (state.status 0).ShowsDelivered) (by decide +kernel)
  have hshown := of_decide_eq_true hcheck
  exact ⟨state, hrun.of_guarded, hshown,
    notified_of_showsDelivered _ 3 state hrun.of_guarded 0 hshown⟩

/-- Every attempt fails at its first call, the last failure is stored as the
result, and the requester is told that the job is delivered. -/
theorem showsDelivered_unsent :
    ∃ state,
      Reaches (step ⟨"a", 3, 7, none, true, none⟩ 3) unrestricted start state ∧
      (state.status 0).ShowsDelivered ∧ ¬ Notified state := by
  obtain ⟨state, hrun, hcheck⟩ := exists_reaches_of_replay
    (step ⟨"a", 3, 7, none, true, none⟩ 3) start
    ([.record ⟨7, none, 3, "", false⟩] ++
      (List.replicate 3 [.pickUp inMay, .fail .other, .finish, .settle]).flatten ++
      [.resolve 0 ⟨7, false, none⟩, .readFlag 0, .readReady 0])
    (fun state => decide ((state.status 0).ShowsDelivered ∧ ¬ Notified state))
    (by decide +kernel)
  exact ⟨state, hrun, of_decide_eq_true hcheck⟩

end DownloaderBot.StatusRuns
