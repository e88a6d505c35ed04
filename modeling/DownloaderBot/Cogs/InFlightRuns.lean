import DownloaderBot.Cogs.JobPrivacy
import DownloaderBot.Cogs.RecordRuns
import DownloaderBot.Cogs.StatusRuns

/-!
# Finding a job that is in flight

The life of one job with the invocation that records it, and time passing.  The index
entry is written once; how long the job waits, runs and is retried is up to the worker.
-/

namespace DownloaderBot.InFlightRuns

open DownloaderBot.ExpiringStore (Cell fetch)
open DownloaderBot.JobControl
open DownloaderBot.Jobs
open DownloaderBot.RecordRuns (CogPhase)
open DownloaderBot.Tasks
open DownloaderBot.TransitionSystem

/-- What `record_job` was given and when.  `forgotten`: an attempt has executed
`forget_job` since. -/
structure Entry where
  jobMeta : JobMeta
  recordedAt : ℚ
  ttlSeconds : ℤ
  forgotten : Bool
  deriving DecidableEq, Repr

structure State where
  job : StatusRuns.State
  index : Index
  now : ℚ
  cog : CogPhase
  entry : Option Entry

inductive Label
  | work (label : StatusRuns.Label)
  | readSettings (row : Option GuildSettings)
  | settingsFail
  | record (stamp : ℚ) (enqueuedAtIso : String) (consumedToken : Bool)
  | recordFail
  | recordOther (taskId : String) (jobMeta : JobMeta) (ttlSeconds : ℤ) (stamp : ℚ)
  | forgetOther (taskId : String) (ownerUserId : ℕ)
  | elapse (seconds : ℚ)

/-- The worker, the broker, the result backend and the cancellation flag. -/
def isWork : StatusRuns.Label → Bool
  | .pickUp _ | .succeed _ | .fail _ | .finish | .stop | .settle | .setFlag
  | .dropResult | .dropProgress => true
  | .record _ | .dropMeta | .resolve .. | .readFlag _ | .readReady _
  | .readProgress .. => false

namespace State

variable (state : State)

/-- The step makes the task forget the job, on behalf of the user. -/
def forgets : StatusRuns.Label → Option ℕ
  | .succeed _ =>
      match state.job.attempts.pending with
      | some (.forgetJob ownerUserId) => some ownerUserId
      | _ => none
  | _ => none

/-- The job has moved on. -/
def advance (taskId : String) (label : StatusRuns.Label) (job : StatusRuns.State) :
    State :=
  match state.forgets label with
  | some ownerUserId =>
      { state with
        job := job
        index := forgetJob state.index state.now taskId ownerUserId
        entry := state.entry.map fun entry => { entry with forgotten := true } }
  | none => { state with job := job }

end State

/-- One step.  Other jobs have other ids. -/
def step (arguments : Arguments) (maxRetries : ℕ) (state : State) :
    Label → Option State
  | .work label =>
      if isWork label then
        (StatusRuns.step arguments maxRetries state.job label).map
          (state.advance arguments.taskId label)
      else none
  | .readSettings row =>
      match state.cog with
      | .published =>
          let guildSettings := RecordRuns.State.settings arguments.guildId row
          some { state with cog := .recording (guildSettings.retentionHours * 3600) }
      | _ => none
  | .settingsFail =>
      match state.cog with
      | .published => some { state with cog := .ended }
      | _ => none
  | .record stamp enqueuedAtIso consumedToken =>
      match state.cog with
      | .recording ttlSeconds =>
          let jobMeta : JobMeta := ⟨arguments.userId, arguments.guildId,
            arguments.channelId, enqueuedAtIso, consumedToken⟩
          let (index, outcome) :=
            recordJob state.index state.now stamp arguments.taskId jobMeta ttlSeconds
          some { state with
            index := index
            cog := .acknowledging
            entry :=
              match outcome with
              | .ok _ => some ⟨jobMeta, state.now, ttlSeconds, false⟩
              | .error _ => state.entry }
      | _ => none
  | .recordFail =>
      match state.cog with
      | .recording _ => some { state with cog := .acknowledging }
      | _ => none
  | .recordOther taskId jobMeta ttlSeconds stamp =>
      if taskId ≠ arguments.taskId then
        some { state with
          index := (recordJob state.index state.now stamp taskId jobMeta ttlSeconds).1 }
      else none
  | .forgetOther taskId ownerUserId =>
      if taskId ≠ arguments.taskId then
        some { state with
          index := forgetJob state.index state.now taskId ownerUserId }
      else none
  | .elapse seconds =>
      if 0 ≤ seconds then some { state with now := state.now + seconds } else none

/-- The task has just been published. -/
def start : State := ⟨StatusRuns.start, .empty, 0, .published, none⟩

/-- The job has neither finished successfully nor finally failed. -/
def Unfinished (maxRetries : ℕ) (job : StatusRuns.State) : Prop :=
  match job.worker with
  | .queued => True
  | .working => job.outcome.all (fun outcome => !outcome.isOk) = true
  | .leaving outcome => StatusRuns.retried maxRetries job.retries outcome = true
  | .settled => False

instance (maxRetries : ℕ) (job : StatusRuns.State) :
    Decidable (Unfinished maxRetries job) :=
  match hworker : job.worker with
  | .queued => isTrue (by simp only [Unfinished, hworker])
  | .working =>
      decidable_of_iff (job.outcome.all (fun outcome => !outcome.isOk) = true)
        (by simp only [Unfinished, hworker])
  | .leaving outcome =>
      decidable_of_iff (StatusRuns.retried maxRetries job.retries outcome = true)
        (by simp only [Unfinished, hworker])
  | .settled => isFalse (by simp only [Unfinished, hworker, not_false_eq_true])

/-- The job was recorded, under this entry, and is not over. -/
structure InFlight (maxRetries : ℕ) (state : State) (entry : Entry) : Prop where
  recorded : state.entry = some entry
  unfinished : Unfinished maxRetries state.job

/-- The time to live is not over, and no attempt has forgotten the job. -/
def Entry.Kept (entry : Entry) (now : ℚ) : Prop :=
  now < entry.recordedAt + entry.ttlSeconds ∧ entry.forgotten = false

instance (entry : Entry) (now : ℚ) : Decidable (entry.Kept now) :=
  inferInstanceAs (Decidable (_ ∧ _))

/-! ## What the index holds of the job -/

/-- The meta key is that of the entry, and the entry is its owner's. -/
structure Tracked (arguments : Arguments) (state : State) : Prop where
  owner : ∀ entry, state.entry = some entry →
    entry.jobMeta.ownerUserId = arguments.userId
  stored : ∀ entry, state.entry = some entry →
    state.index.metas arguments.taskId =
      if entry.forgotten then none
      else some ⟨entry.jobMeta, some (entry.recordedAt + entry.ttlSeconds)⟩

section Tracked

variable {arguments : Arguments} {maxRetries : ℕ} {state next : State}

theorem tracked_start : Tracked arguments start where
  owner := nofun
  stored := nofun

/-- Steps that touch neither the entry nor the meta. -/
theorem Tracked.frame (htracked : Tracked arguments state)
    (hentry : next.entry = state.entry)
    (hmetas : next.index.metas arguments.taskId = state.index.metas arguments.taskId) :
    Tracked arguments next where
  owner entry hsome := htracked.owner entry (hentry.symm.trans hsome)
  stored entry hsome := hmetas.trans (htracked.stored entry (hentry.symm.trans hsome))

theorem Tracked.advance (htracked : Tracked arguments state) (label : StatusRuns.Label)
    (job : StatusRuns.State) :
    Tracked arguments (state.advance arguments.taskId label job) := by
  rw [State.advance]
  split
  case h_2 => exact htracked.frame rfl rfl
  case h_1 ownerUserId _ =>
    constructor
    · intro entry hsome
      obtain ⟨before, hbefore, rfl⟩ := Option.map_eq_some_iff.mp hsome
      exact htracked.owner before hbefore
    · intro entry hsome
      obtain ⟨before, hbefore, rfl⟩ := Option.map_eq_some_iff.mp hsome
      simp [forgetJob]

theorem Tracked.record (htracked : Tracked arguments state) {jobMeta : JobMeta}
    (howner : jobMeta.ownerUserId = arguments.userId) (stamp : ℚ) (ttlSeconds : ℤ) :
    Tracked arguments { state with
      index :=
        (recordJob state.index state.now stamp arguments.taskId jobMeta ttlSeconds).1
      cog := .acknowledging
      entry :=
        match (recordJob state.index state.now stamp arguments.taskId jobMeta
          ttlSeconds).2 with
        | .ok _ => some ⟨jobMeta, state.now, ttlSeconds, false⟩
        | .error _ => state.entry } := by
  by_cases httl : 0 < ttlSeconds
  · rw [recordJob_of_pos _ _ _ _ _ httl]
    constructor
    · rintro entry ⟨⟩
      exact howner
    · rintro entry ⟨⟩
      exact Function.update_self _ _ _
  · have hrejected : recordJob state.index state.now stamp arguments.taskId jobMeta
        ttlSeconds = (⟨Function.update state.index.metas arguments.taskId
          (state.index.metas arguments.taskId), Function.update state.index.activeJobs
          jobMeta.ownerUserId none⟩, .error .invalidExpireTime) := by
      simp only [recordJob, setEx, expire, if_neg httl]
    rw [hrejected]
    exact htracked.frame rfl (Function.update_self _ _ _)

theorem tracked_step {label : Label} (htracked : Tracked arguments state)
    (hstep : step arguments maxRetries state label = some next) :
    Tracked arguments next := by
  cases label with
  | work label =>
      obtain ⟨-, hsome⟩ := Option.ite_none_right_eq_some.mp hstep
      obtain ⟨job, -, rfl⟩ := Option.map_eq_some_iff.mp hsome
      exact htracked.advance label job
  | readSettings row | settingsFail | recordFail =>
      simp only [step] at hstep
      split at hstep
      case h_2 => cases hstep
      case h_1 =>
        cases hstep
        exact htracked.frame rfl rfl
  | record stamp enqueuedAtIso consumedToken =>
      simp only [step] at hstep
      split at hstep
      case h_2 => cases hstep
      case h_1 ttlSeconds _ =>
        cases hstep
        exact htracked.record rfl stamp ttlSeconds
  | recordOther taskId jobMeta ttlSeconds stamp =>
      obtain ⟨hother, hnext⟩ := Option.ite_none_right_eq_some.mp hstep
      cases hnext
      exact htracked.frame rfl (Function.update_of_ne hother.symm _ _)
  | forgetOther taskId ownerUserId =>
      obtain ⟨hother, hnext⟩ := Option.ite_none_right_eq_some.mp hstep
      cases hnext
      exact htracked.frame rfl (Function.update_of_ne hother.symm _ _)
  | elapse seconds =>
      obtain ⟨-, hnext⟩ := Option.ite_none_right_eq_some.mp hstep
      cases hnext
      exact htracked.frame rfl rfl

/-- The meta is read as long as the entry is kept. -/
theorem Tracked.getJobMeta_eq_some_iff (htracked : Tracked arguments state)
    {entry : Entry} (hentry : state.entry = some entry) (jobMeta : JobMeta) :
    getJobMeta state.index state.now arguments.taskId = some jobMeta ↔
      jobMeta = entry.jobMeta ∧ entry.Kept state.now := by
  rw [getJobMeta, htracked.stored entry hentry, Entry.Kept]
  cases hforgotten : entry.forgotten with
  | true => simp
  | false => simp [fetch, Cell.Live, eq_comm, and_comm]

end Tracked

/-! ## The result -/

/-- The owner of a job in flight resolves it exactly as long as its entry is kept. -/
theorem resolves_iff_kept (arguments : Arguments) (maxRetries : ℕ)
    (htaskId : JobsCog.isHex32 arguments.taskId.toList = true) (state : State)
    (hrun : Reaches (step arguments maxRetries) unrestricted start state) (entry : Entry)
    (hinFlight : InFlight maxRetries state entry) (caller : Caller)
    (hcaller : caller.authorId = arguments.userId) (moment : JobsCog.Moment)
    (hmoment : moment.now = state.now) (world : JobsCog.World)
    (hworld : world.index = state.index) :
    (∃ jobMeta, (JobsCog.resolveJob caller (some arguments.taskId)).exec
        (JobsCog.serve moment) world =
          (.ok (some (arguments.taskId, jobMeta)), world)) ↔
      entry.Kept state.now := by
  have htracked : Tracked arguments state :=
    hrun.invariant tracked_start fun _ _ _ h _ hstep => tracked_step h hstep
  have hmatches : JobsCog.matchesTaskId arguments.taskId = true := by
    simp only [JobsCog.matchesTaskId, htaskId, Bool.true_or]
  have hmay : JobsCog.MayActOn caller entry.jobMeta :=
    .inl ((htracked.owner entry hinFlight.recorded).trans hcaller.symm)
  rw [JobsCog.exec_resolveJob_some, if_pos hmatches, hmoment, hworld]
  constructor
  · rintro ⟨jobMeta, hexec⟩
    obtain ⟨-, hmeta, -⟩ := JobsCog.authorised_eq_some.mp
      (Except.ok.inj (congrArg Prod.fst hexec))
    exact ((htracked.getJobMeta_eq_some_iff hinFlight.recorded _).mp hmeta).2
  · intro hkept
    have hmeta := (htracked.getJobMeta_eq_some_iff hinFlight.recorded _).mpr ⟨rfl, hkept⟩
    exact ⟨entry.jobMeta, by rw [JobsCog.authorised_eq_some.mpr ⟨rfl, hmeta, hmay⟩]⟩

/-- A job of a guild with a retention of one hour. -/
def inGuild : Arguments :=
  ⟨"0123456789abcdef0123456789abcdef", 3, 7, some 1, false, none⟩

/-- The row of that guild. -/
def oneHour : GuildSettings := { guildId := 1, retentionHours := 1 }

/-- A request without a side: nothing but the index matters. -/
def knowing (index : Index) : JobsCog.World :=
  ⟨index, fun _ => false, [], fun _ => false, fun _ => none, fun _ => none, []⟩

/-- The requester asks half an hour later, while the job waits for its retry. -/
theorem resolves_retried :
    ∃ state entry, Reaches (step inGuild 3) unrestricted start state ∧
      InFlight 3 state entry ∧
      ∃ jobMeta, (JobsCog.resolveJob ⟨7, false, none⟩ (some inGuild.taskId)).exec
        (JobsCog.serve ⟨Ratelimit.Limits.default, state.now⟩) (knowing state.index) =
          (.ok (some (inGuild.taskId, jobMeta)), knowing state.index) := by
  obtain ⟨state, hrun, hcheck⟩ := exists_reaches_of_replay (step inGuild 3) start
    [.readSettings (some oneHour), .record 0 "" true, .work (.pickUp inMay),
      .work (.fail .other), .work .finish, .work .settle, .elapse 1800]
    (fun state => decide (state.entry.any (fun entry => entry.Kept state.now) = true ∧
      Unfinished 3 state.job)) (by decide +kernel)
  obtain ⟨hentry, hunfinished⟩ := of_decide_eq_true hcheck
  obtain ⟨entry, hrecorded, hkept⟩ := (Option.any_eq_true _ _).mp hentry
  have hinFlight : InFlight 3 state entry := ⟨hrecorded, hunfinished⟩
  exact ⟨state, entry, hrun, hinFlight,
    (resolves_iff_kept inGuild 3 (by decide +kernel) state hrun entry hinFlight
      ⟨7, false, none⟩ rfl ⟨Ratelimit.Limits.default, state.now⟩ rfl
      (knowing state.index) rfl).mpr (of_decide_eq_true hkept)⟩

/-- The job waits for an hour, and its requester is told that there is none. -/
theorem not_resolves_queued :
    ∃ state entry, Reaches (step inGuild 3) unrestricted start state ∧
      InFlight 3 state entry ∧ 3600 ≤ entry.ttlSeconds ∧
      getJobMeta state.index state.now inGuild.taskId = none := by
  obtain ⟨state, hrun, hcheck⟩ := exists_reaches_of_replay (step inGuild 3) start
    [.readSettings (some oneHour), .record 0 "" true, .elapse 3600]
    (fun state => decide (state.entry.any (fun entry => 3600 ≤ entry.ttlSeconds) = true ∧
      Unfinished 3 state.job ∧
      getJobMeta state.index state.now inGuild.taskId = none)) (by decide +kernel)
  obtain ⟨hentry, hunfinished, hmeta⟩ := of_decide_eq_true hcheck
  obtain ⟨entry, hrecorded, httl⟩ := (Option.any_eq_true _ _).mp hentry
  exact ⟨state, entry, hrun, ⟨hrecorded, hunfinished⟩, of_decide_eq_true httl, hmeta⟩

end DownloaderBot.InFlightRuns
