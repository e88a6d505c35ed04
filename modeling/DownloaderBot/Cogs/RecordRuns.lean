import DownloaderBot.Download.Jobs
import DownloaderBot.Tasks.DownloadRuns

/-!
# Recording a job while it runs

`/download` publishes the task, then reads the settings and records the job; the
attempts at the task may be anywhere by then.  Other jobs use the index too.
-/

namespace DownloaderBot.RecordRuns

open DownloaderBot.Jobs
open DownloaderBot.Tasks
open DownloaderBot.TransitionSystem

/-- Where the `/download` invocation is. -/
inductive CogPhase
  | published
  | recording (ttlSeconds : ℤ)
  | acknowledging
  | ended
  deriving DecidableEq, Repr

structure State where
  index : Index
  now : ℚ
  attempts : Attempting
  cog : CogPhase
  redisFailed : Bool

inductive Label
  | work (label : Attempts.Label Reply Exn Clock)
  | readSettings (row : Option GuildSettings)
  | settingsFail
  | record (stamp : ℚ) (enqueuedAtIso : String) (consumedToken : Bool)
  | recordFail
  | acknowledge
  | recordOther (taskId : String) (jobMeta : JobMeta) (ttlSeconds : ℤ) (stamp : ℚ)
  | forgetOther (taskId : String) (ownerUserId : ℕ)
  | elapse (seconds : ℚ)

def Label.records : Label → Bool
  | .record .. => true
  | _ => false

/-- The calls of the task that go to Redis. -/
def onRedis : Call → Bool
  | .setProgress _ | .getCachedArchiveUrl | .cacheArchiveUrl .. | .isDelivered
  | .markDelivered _ | .forgetJob _ => true
  | _ => false

namespace State

variable (state : State)

/-- The index once the pending call of the task has succeeded. -/
def served (taskId : String) : Index :=
  match state.attempts.pending with
  | some (.forgetJob ownerUserId) => forgetJob state.index state.now taskId ownerUserId
  | _ => state.index

/-- The settings the cog reads in the guild of the job. -/
def settings (guildId : Option ℕ) (row : Option GuildSettings) : GuildSettings :=
  match guildId with
  | some guildId => .ofRow guildId row
  | none => { guildId := 0 }

end State

/-- One step.  A transaction that Redis rejects counts as failed. -/
def step (arguments : Arguments) (state : State) : Label → Option State
  | .work label =>
      (attemptStep arguments state.attempts label).map fun attempts =>
        match label with
        | .succeed _ =>
            { state with attempts, index := state.served arguments.taskId }
        | .fail _ =>
            { state with
              attempts
              redisFailed := state.redisFailed || state.attempts.pending.any onRedis }
        | _ => { state with attempts }
  | .readSettings row =>
      match state.cog with
      | .published =>
          let guildSettings := State.settings arguments.guildId row
          some { state with cog := .recording (guildSettings.retentionHours * 3600) }
      | _ => none
  | .settingsFail =>
      match state.cog with
      | .published => some { state with cog := .ended }
      | _ => none
  | .record stamp enqueuedAtIso consumedToken =>
      match state.cog with
      | .recording ttlSeconds =>
          let jobMeta : JobMeta := ⟨arguments.userId, arguments.guildId,
            arguments.channelId, enqueuedAtIso, consumedToken⟩
          let (index, outcome) :=
            recordJob state.index state.now stamp arguments.taskId jobMeta ttlSeconds
          some { state with
            index := index
            cog := .acknowledging
            redisFailed := state.redisFailed || !outcome.isOk }
      | _ => none
  | .recordFail =>
      match state.cog with
      | .recording _ => some { state with cog := .acknowledging, redisFailed := true }
      | _ => none
  | .acknowledge =>
      match state.cog with
      | .acknowledging => some { state with cog := .ended }
      | _ => none
  | .recordOther taskId jobMeta ttlSeconds stamp =>
      if taskId ≠ arguments.taskId then
        some { state with
          index := (recordJob state.index state.now stamp taskId jobMeta ttlSeconds).1 }
      else none
  | .forgetOther taskId ownerUserId =>
      if taskId ≠ arguments.taskId then
        some { state with
          index := forgetJob state.index state.now taskId ownerUserId }
      else none
  | .elapse seconds =>
      if 0 ≤ seconds then some { state with now := state.now + seconds } else none

/-- The task has just been published. -/
def start : State := ⟨.empty, 0, attemptStart, .published, false⟩

/-! ## When a finished job is gone -/

/-- The job has been forgotten. -/
def forgot : Happening → Bool
  | .served (.forgetJob _) => true
  | _ => false

theorem forgot_iff {event : Happening} :
    forgot event = true ↔ ∃ ownerUserId, event = .served (.forgetJob ownerUserId) := by
  constructor
  · intro hforgot
    cases event with
    | served request =>
        cases request with
        | forgetJob ownerUserId => exact ⟨ownerUserId, rfl⟩
        | _ => cases hforgot
    | _ => cases hforgot
  · rintro ⟨ownerUserId, rfl⟩
    rfl

/-- The invocation and an attempt that returned are over, and Redis never failed. -/
structure Over (state : State) : Prop where
  ended : state.cog = .ended
  returned : ∃ event ∈ state.attempts.log.trace, returns event
  redis : state.redisFailed = false

/-- The index knows nothing of the job. -/
structure Gone (arguments : Arguments) (state : State) : Prop where
  metas : getJobMeta state.index state.now arguments.taskId = none
  activeJobs : ¬ Listed state.index state.now arguments.userId arguments.taskId

/-- The job is not recorded after it has been forgotten. -/
def RecordsFirst (state : State) (label : Label) : Prop :=
  label.records = true → ∀ event ∈ state.attempts.log.trace, forgot event = false

instance (state : State) (label : Label) : Decidable (RecordsFirst state label) :=
  inferInstanceAs (Decidable (_ = true → ∀ event ∈ _, forgot event = false))

/-- A job that has been forgotten is in neither key, and without a failure of Redis
no attempt to forget it was in vain. -/
structure Tidy (arguments : Arguments) (state : State) : Prop where
  attempts : Reaches (attemptStep arguments) unrestricted attemptStart
    state.attempts
  lacks : (∃ event ∈ state.attempts.log.trace, forgot event) →
    state.index.Lacks arguments.taskId arguments.userId
  redis : state.redisFailed = false →
    ∀ event ∈ state.attempts.log.trace, forgets event = forgot event

section Tidy

variable {arguments : Arguments} {state next : State}

theorem tidy_start : Tidy arguments start where
  attempts := .refl
  lacks := by simp [start, attemptStart, Attempts.start, Attempts.Log.trace]
  redis := by simp [start, attemptStart, Attempts.start, Attempts.Log.trace]

/-- The attempts have moved on by some events. -/
theorem Tidy.advance (htidy : Tidy arguments state) {after : Attempting}
    {label : Attempts.Label Reply Exn Clock}
    (hstep : attemptStep arguments state.attempts label = some after)
    (events : List Happening)
    (htrace : after.log.trace = state.attempts.log.trace ++ events)
    {index : Index} {redisFailed : Bool}
    (hold : state.index.Lacks arguments.taskId arguments.userId →
      index.Lacks arguments.taskId arguments.userId)
    (hnew : ∀ event ∈ events, forgot event = true →
      index.Lacks arguments.taskId arguments.userId)
    (hredis : redisFailed = false → state.redisFailed = false ∧
      ∀ event ∈ events, forgets event = forgot event) :
    Tidy arguments { state with
      attempts := after, index := index, redisFailed := redisFailed } := by
  refine ⟨htidy.attempts.tail label trivial hstep, ?_, ?_⟩
  · rw [htrace]
    rintro ⟨event, hmem, hforgot⟩
    rcases List.mem_append.mp hmem with hearlier | hevent
    · exact hold (htidy.lacks ⟨event, hearlier, hforgot⟩)
    · exact hnew event hevent hforgot
  · rw [htrace]
    intro hnever event hmem
    rcases List.mem_append.mp hmem with hearlier | hevent
    · exact htidy.redis (hredis hnever).1 event hearlier
    · exact (hredis hnever).2 event hevent

theorem Tidy.work (htidy : Tidy arguments state)
    {label : Attempts.Label Reply Exn Clock}
    (hstep : step arguments state (.work label) = some next) :
    Tidy arguments next := by
  obtain ⟨after, hafter, rfl⟩ := Option.map_eq_some_iff.mp hstep
  have hgood := good_of_attempts arguments (htidy.attempts.tail label trivial hafter)
  cases label with
  | begin clock =>
      have hlog := Attempts.log_of_begin hafter
      exact htidy.advance hafter [] (by simp [hlog]) id (by simp)
        fun h => ⟨h, by simp⟩
  | succeed proposed =>
      obtain ⟨request, hpending, hlog⟩ := Attempts.log_of_succeed hafter
      refine htidy.advance hafter [.served request] (by simp [hlog]) ?_ ?_
        fun h => ⟨h, ?_⟩
      · intro hlacks
        simp only [State.served, hpending]
        split
        · exact hlacks.forgetJob _ _ _
        · exact hlacks
      · intro event hevent hforgot
        obtain rfl := List.mem_singleton.mp hevent
        obtain ⟨ownerUserId, hrequest⟩ := forgot_iff.mp hforgot
        cases hrequest
        -- The task forgets the job on behalf of its requester.
        obtain rfl := hgood.forgets_own ownerUserId (by simp [hlog])
        simp only [State.served, hpending]
        exact lacks_forgetJob _ _ _ _
      · intro event hevent
        obtain rfl := List.mem_singleton.mp hevent
        cases request <;> rfl
  | fail exception =>
      obtain ⟨request, hpending, hlog⟩ := Attempts.log_of_fail hafter
      apply htidy.advance hafter [.failed request exception] (by simp [hlog]) id
        (by simp [forgot])
      intro hnever
      simp only [hpending, Option.any_some, Bool.or_eq_false_iff] at hnever
      refine ⟨hnever.1, fun event hevent => ?_⟩
      obtain rfl := List.mem_singleton.mp hevent
      cases request <;> first | rfl | cases hnever.2
  | finish =>
      obtain ⟨outcome, hlog⟩ := Attempts.log_of_finish hafter
      refine htidy.advance hafter [.ofOutcome outcome] (by simp [hlog]) id ?_
        fun h => ⟨h, ?_⟩
      · cases outcome <;> simp [forgot, Attempts.Event.ofOutcome]
      · cases outcome <;> simp [forgot, forgets, Attempts.Event.ofOutcome]
  | stop =>
      have hlog := Attempts.log_of_stop hafter
      exact htidy.advance hafter [.stopped] (by simp [hlog]) id (by simp [forgot])
        fun h => ⟨h, by simp [forgot, forgets]⟩

theorem tidy_step {label : Label} (htidy : Tidy arguments state)
    (hallowed : RecordsFirst state label)
    (hstep : step arguments state label = some next) : Tidy arguments next := by
  cases label with
  | work label => exact htidy.work hstep
  | readSettings row | settingsFail | acknowledge =>
      simp only [step] at hstep
      split at hstep
      case h_2 => cases hstep
      case h_1 =>
        cases hstep
        exact ⟨htidy.attempts, htidy.lacks, htidy.redis⟩
  | record stamp enqueuedAtIso consumedToken =>
      simp only [step] at hstep
      split at hstep
      case h_2 => cases hstep
      case h_1 =>
        cases hstep
        refine ⟨htidy.attempts, ?_, fun h => htidy.redis ?_⟩
        · rintro ⟨event, hmem, hforgot⟩
          cases (hallowed rfl event hmem).symm.trans hforgot
        · exact (Bool.or_eq_false_iff.mp h).1
  | recordFail =>
      simp only [step] at hstep
      split at hstep
      case h_2 => cases hstep
      case h_1 =>
        cases hstep
        exact ⟨htidy.attempts, htidy.lacks, fun h => by cases h⟩
  | recordOther taskId jobMeta ttlSeconds stamp =>
      obtain ⟨hother, hnext⟩ := Option.ite_none_right_eq_some.mp hstep
      cases hnext
      exact ⟨htidy.attempts, fun hforgot => (htidy.lacks hforgot).recordJob
        (Ne.symm hother) _ _ _ _, htidy.redis⟩
  | forgetOther taskId ownerUserId =>
      obtain ⟨-, hnext⟩ := Option.ite_none_right_eq_some.mp hstep
      cases hnext
      exact ⟨htidy.attempts,
        fun hforgot => (htidy.lacks hforgot).forgetJob _ _ _, htidy.redis⟩
  | elapse seconds =>
      obtain ⟨-, hnext⟩ := Option.ite_none_right_eq_some.mp hstep
      cases hnext
      exact ⟨htidy.attempts, htidy.lacks, htidy.redis⟩

end Tidy

/-- If the job is not recorded after it has been forgotten, then it is in neither
key once the invocation and an attempt that returned are over. -/
theorem gone_of_over (arguments : Arguments) (state : State)
    (hrun : Reaches (step arguments) RecordsFirst start state)
    (hover : Over state) : Gone arguments state := by
  have htidy : Tidy arguments state :=
    hrun.invariant tidy_start fun _ _ _ h hallowed hstep => tidy_step h hallowed hstep
  obtain ⟨result, hmem, hreturned⟩ := hover.returned
  obtain ⟨before, after, hsplit⟩ := List.append_of_mem hmem
  obtain ⟨event, hbefore, hforgets⟩ :=
    (good_of_attempts arguments htidy.attempts).returned_forgotten before result after
      hsplit hreturned
  have hforgot : event ∈ state.attempts.log.trace := by simp [hsplit, hbefore]
  have hlacks := htidy.lacks
    ⟨event, hforgot, (htidy.redis hover.redis event hforgot).symm.trans hforgets⟩
  exact ⟨hlacks.getJobMeta state.now, hlacks.not_listed state.now⟩

/-- A job that is recorded is in both keys, even one that has been forgotten. -/
theorem not_gone_of_record (arguments : Arguments) {state next : State} {stamp : ℚ}
    {enqueuedAtIso : String} {consumedToken : Bool}
    (hstep : step arguments state (.record stamp enqueuedAtIso consumedToken) =
      some next)
    (hredis : next.redisFailed = false) : ¬ Gone arguments next := by
  simp only [step] at hstep
  split at hstep
  case h_2 => cases hstep
  case h_1 ttlSeconds _ =>
    cases hstep
    rcases lt_or_ge 0 ttlSeconds with httl | hnot
    · intro hgone
      exact hgone.activeJobs (listed_recordJob _ _ _ _ _ httl).2
    · simp [recordJob, setEx, not_lt.mpr hnot, Except.isOk, Except.toBool] at hredis

/-- Recorded, done and forgotten, with another job of the user in between. -/
theorem gone_of_over_recorded :
    ∃ state,
      Reaches (step ⟨"a", 3, 7, none, true, none⟩) RecordsFirst start state ∧
      Over state ∧ Listed state.index state.now 7 "b" ∧
      Gone ⟨"a", 3, 7, none, true, none⟩ state := by
  obtain ⟨state, hrun, hcheck⟩ := exists_reaches_of_replay
    (guarded (step ⟨"a", 3, 7, none, true, none⟩) RecordsFirst) start
    ([.work (.begin inMay), .readSettings none, .record 0 "" false, .acknowledge,
      .recordOther "b" ⟨7, none, 3, "", false⟩ 3600 1] ++
      List.replicate 13 (.work (.succeed obliging)) ++ [.work .finish])
    (fun state => decide ((state.cog = .ended ∧
      (∃ event ∈ state.attempts.log.trace, returns event) ∧
      state.redisFailed = false) ∧ Listed state.index state.now 7 "b"))
    (by decide +kernel)
  obtain ⟨⟨hended, hreturned, hredis⟩, hlisted⟩ := of_decide_eq_true hcheck
  exact ⟨state, hrun.of_guarded, ⟨hended, hreturned, hredis⟩, hlisted,
    gone_of_over _ state hrun.of_guarded ⟨hended, hreturned, hredis⟩⟩

/-- The worker is faster than the cog: the finished job is recorded and stays in
both keys. -/
theorem listed_though_over :
    ∃ state, Reaches (step ⟨"a", 3, 7, none, true, none⟩) unrestricted start state ∧
      Over state ∧ getJobMeta state.index state.now "a" ≠ none ∧
      Listed state.index state.now 7 "a" := by
  obtain ⟨state, hrun, hcheck⟩ := exists_reaches_of_replay
    (step ⟨"a", 3, 7, none, true, none⟩) start
    ([.work (.begin inMay)] ++ List.replicate 13 (.work (.succeed obliging)) ++
      [.work .finish, .readSettings none, .record 0 "" false, .acknowledge])
    (fun state => decide ((state.cog = .ended ∧
      (∃ event ∈ state.attempts.log.trace, returns event) ∧
      state.redisFailed = false) ∧ getJobMeta state.index state.now "a" ≠ none ∧
      Listed state.index state.now 7 "a"))
    (by decide +kernel)
  obtain ⟨⟨hended, hreturned, hredis⟩, hmeta, hlisted⟩ := of_decide_eq_true hcheck
  exact ⟨state, hrun, ⟨hended, hreturned, hredis⟩, hmeta, hlisted⟩

end DownloaderBot.RecordRuns
