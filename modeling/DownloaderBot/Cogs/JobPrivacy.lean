import DownloaderBot.Cogs.Jobs
import DownloaderBot.Core.TransitionSystem

/-!
# Jobs are private

To a caller who may not act on a job, `/status` and `/cancel` look the same whether or
not the job exists.  Whoever gives no id gets a job of their own.
-/

namespace DownloaderBot.JobsCog

open DownloaderBot.Embeds
open DownloaderBot.ExpiringStore (fetch_eq_some highest_eq_some)
open DownloaderBot.JobControl
open DownloaderBot.Jobs
open DownloaderBot.Program
open DownloaderBot.TransitionSystem

/-- The requester, the bot owner, the owner of the job's guild acting inside it. -/
def MayActOn (caller : Caller) (jobMeta : JobMeta) : Prop :=
  jobMeta.ownerUserId = caller.authorId ∨ caller.isBotOwner = true ∨
    ∃ guild, caller.guild = some guild ∧ jobMeta.guildId = some guild.id ∧
      caller.authorId = guild.ownerId

theorem canActOn_iff (caller : Caller) (jobMeta : JobMeta) :
    canActOn caller jobMeta = true ↔ MayActOn caller jobMeta := by
  obtain ⟨authorId, isBotOwner, guild⟩ := caller
  obtain ⟨ownerUserId, guildId, channelId, enqueuedAtIso, consumed⟩ := jobMeta
  rw [canActOn, MayActOn]
  by_cases hrequester : ownerUserId = authorId
  · simp [hrequester]
  · cases guild with
    | none => simp [hrequester]
    | some guild =>
        cases guildId with
        | none => simp [hrequester]
        | some guildId => simp [hrequester]

inductive Command
  | status
  | cancel
  deriving DecidableEq, Repr

def Command.body (clock : Clock) (caller : Caller) (taskId : Option String) :
    Command → Cog Unit
  | .status => JobsCog.status clock caller taskId
  | .cancel => JobsCog.cancel caller taskId

/-- The same world in which the job has no meta. -/
def World.without (world : World) (taskId : String) : World :=
  { world with
    index := { world.index with
      metas := Function.update world.index.metas taskId none } }

/-! ## Runs of the index -/

/-- `recorded` are the jobs recorded so far, under their task ids. -/
structure State where
  index : Index
  now : ℚ
  recorded : String → Option JobMeta

inductive Label
  | record (taskId : String) (jobMeta : JobMeta) (ttlSeconds : ℤ) (stamp : ℚ)
  | forget (taskId : String) (ownerUserId : ℕ)
  | elapse (seconds : ℚ)

/-- A task id is recorded once. -/
def step (state : State) : Label → Option State
  | .record taskId jobMeta ttlSeconds stamp =>
      if state.recorded taskId = none then
        some { state with
          index := (recordJob state.index state.now stamp taskId jobMeta ttlSeconds).1
          recorded := Function.update state.recorded taskId (some jobMeta) }
      else none
  | .forget taskId ownerUserId =>
      some { state with
        index := forgetJob state.index state.now taskId ownerUserId }
  | .elapse seconds =>
      if 0 ≤ seconds then some { state with now := state.now + seconds } else none

def start (now : ℚ) : State := ⟨.empty, now, fun _ => none⟩

/-- What the index holds was recorded, under the right owner. -/
structure Owned (state : State) : Prop where
  metas : ∀ taskId cell, state.index.metas taskId = some cell →
    state.recorded taskId = some cell.value
  activeJobs : ∀ userId cell, state.index.activeJobs userId = some cell →
    ∀ taskId score, cell.value.lookup taskId = some score →
      ∃ jobMeta, state.recorded taskId = some jobMeta ∧ jobMeta.ownerUserId = userId

theorem owned_start (now : ℚ) : Owned (start now) where
  metas := nofun
  activeJobs := nofun

theorem Owned.record {state : State} (howned : Owned state) {taskId : String}
    (hfresh : state.recorded taskId = none) (jobMeta : JobMeta) (ttlSeconds : ℤ)
    (stamp : ℚ) :
    Owned { state with
      index := (recordJob state.index state.now stamp taskId jobMeta ttlSeconds).1
      recorded := Function.update state.recorded taskId (some jobMeta) } where
  metas other cell hcell := by
    rcases eq_or_ne other taskId with rfl | hother
    · simp only [recordJob, Function.update_self, setEx] at hcell ⊢
      split at hcell
      · cases hcell
        rfl
      · cases hfresh.symm.trans (howned.metas other cell hcell)
    · simp only [recordJob, Function.update_of_ne hother] at hcell ⊢
      exact howned.metas other cell hcell
  activeJobs userId cell hcell other score hlookup := by
    have hkept : ∀ before, state.index.activeJobs userId = some before →
        before.value.lookup other = some score → other ≠ taskId →
        ∃ known, Function.update state.recorded taskId (some jobMeta) other =
          some known ∧ known.ownerUserId = userId := by
      intro before hbefore hold hother
      rw [Function.update_of_ne hother]
      exact howned.activeJobs userId before hbefore other score hold
    rcases eq_or_ne userId jobMeta.ownerUserId with rfl | huser
    · simp only [recordJob, Function.update_self, expire,
        Option.ite_none_right_eq_some, Option.some.injEq] at hcell
      obtain ⟨-, rfl⟩ := hcell
      rcases lookup_zadd hlookup with ⟨rfl, -⟩ | ⟨hother, before, hbefore, hold⟩
      · exact ⟨jobMeta, Function.update_self _ _ _, rfl⟩
      · exact hkept before hbefore hold hother
    · simp only [recordJob, Function.update_of_ne huser] at hcell
      apply hkept cell hcell hlookup
      rintro rfl
      obtain ⟨known, hknown, -⟩ := howned.activeJobs userId cell hcell other score hlookup
      cases hfresh.symm.trans hknown

theorem Owned.forget {state : State} (howned : Owned state) (taskId : String)
    (ownerUserId : ℕ) :
    Owned { state with
      index := forgetJob state.index state.now taskId ownerUserId } where
  metas other cell hcell := by
    rcases eq_or_ne other taskId with rfl | hother
    · simp only [forgetJob, Function.update_self] at hcell
      cases hcell
    · simp only [forgetJob, Function.update_of_ne hother] at hcell
      exact howned.metas other cell hcell
  activeJobs userId cell hcell other score hlookup := by
    rcases eq_or_ne userId ownerUserId with rfl | huser
    · simp only [forgetJob, Function.update_self] at hcell
      obtain ⟨-, before, hbefore, hold⟩ := lookup_zrem hcell hlookup
      exact howned.activeJobs userId before hbefore other score hold
    · simp only [forgetJob, Function.update_of_ne huser] at hcell
      exact howned.activeJobs userId cell hcell other score hlookup

theorem Owned.step {state next : State} (howned : Owned state) (label : Label)
    (hstep : step state label = some next) : Owned next := by
  cases label with
  | record taskId jobMeta ttlSeconds stamp =>
      obtain ⟨hfresh, rfl⟩ : state.recorded taskId = none ∧ _ = next := by
        simpa [JobsCog.step] using hstep
      exact howned.record hfresh jobMeta ttlSeconds stamp
  | forget taskId ownerUserId =>
      cases hstep
      exact howned.forget taskId ownerUserId
  | elapse seconds =>
      obtain ⟨-, rfl⟩ : 0 ≤ seconds ∧ _ = next := by
        simpa [JobsCog.step] using hstep
      exact ⟨howned.metas, howned.activeJobs⟩

theorem owned_of_reaches {now : ℚ} {state : State}
    (hrun : Reaches step unrestricted (start now) state) : Owned state :=
  hrun.invariant (owned_start now) fun _ label _ howned _ hstep => howned.step label hstep

/-! ## Resolving -/

section Resolving

variable {moment : Moment} {world : World} {caller : Caller} {taskId : String}

/-- What the lookup of a meta lets the caller have. -/
def authorised (caller : Caller) (taskId : String) (found : Option JobMeta) :
    Option (String × JobMeta) :=
  found.bind fun jobMeta => if canActOn caller jobMeta then some (taskId, jobMeta) else none

theorem exec_authorise (moment : Moment) (world : World) (caller : Caller)
    (taskId : String) :
    (authorise caller taskId).exec (serve moment) world =
      (.ok (authorised caller taskId (getJobMeta world.index moment.now taskId)),
        world) := by
  have hmeta : (await (.getJobMeta taskId)).exec (serve moment) world =
      (.ok (getJobMeta world.index moment.now taskId), world) :=
    Prog.exec_perform _ _
  apply (Prog.exec_bind_of_ok hmeta).trans
  cases getJobMeta world.index moment.now taskId with
  | none => rfl
  | some jobMeta =>
      simp only [authorised, Option.bind_some]
      split <;> rfl

theorem authorised_eq_some {found : Option JobMeta} {target : String} {jobMeta : JobMeta} :
    authorised caller taskId found = some (target, jobMeta) ↔
      target = taskId ∧ found = some jobMeta ∧ MayActOn caller jobMeta := by
  rw [← canActOn_iff]
  cases found with
  | none => simp [authorised]
  | some known =>
      simp only [authorised, Option.bind_some, Option.ite_none_right_eq_some,
        Option.some.injEq, Prod.mk.injEq]
      constructor
      · rintro ⟨hmay, rfl, rfl⟩
        exact ⟨rfl, rfl, hmay⟩
      · rintro ⟨rfl, rfl, hmay⟩
        exact ⟨hmay, rfl, rfl⟩

/-- An id that matches is looked up, any other is not. -/
theorem exec_resolveJob_some (moment : Moment) (world : World) (caller : Caller)
    (taskId : String) :
    (resolveJob caller (some taskId)).exec (serve moment) world =
      (.ok (if matchesTaskId taskId then
        authorised caller taskId (getJobMeta world.index moment.now taskId) else none),
        world) := by
  simp only [resolveJob]
  split
  · exact exec_authorise moment world caller taskId
  · rfl

/-- Without an id it is the newest job of the caller's set. -/
theorem exec_resolveJob_none (moment : Moment) (world : World) (caller : Caller) :
    (resolveJob caller none).exec (serve moment) world =
      (.ok ((latestJobForUser world.index moment.now caller.authorId).bind fun latest =>
        authorised caller latest (getJobMeta world.index moment.now latest)), world) := by
  have hlatest : (await (.latestJobForUser caller.authorId)).exec (serve moment) world =
      (.ok (latestJobForUser world.index moment.now caller.authorId), world) :=
    Prog.exec_perform _ _
  apply (Prog.exec_bind_of_ok hlatest).trans
  cases latestJobForUser world.index moment.now caller.authorId with
  | none => rfl
  | some latest => exact exec_authorise moment world caller latest

/-- A job that is missing, and one that is not the caller's, resolve to nothing. -/
theorem exec_resolveJob_of_unauthorised
    (hunauthorised : ∀ jobMeta, getJobMeta world.index moment.now taskId = some jobMeta →
      ¬ MayActOn caller jobMeta) :
    (resolveJob caller (some taskId)).exec (serve moment) world = (.ok none, world) := by
  have hnone : authorised caller taskId (getJobMeta world.index moment.now taskId) =
      none := by
    apply Option.eq_none_iff_forall_ne_some.mpr
    rintro ⟨target, jobMeta⟩ hsome
    obtain ⟨-, hfound, hmay⟩ := authorised_eq_some.mp hsome
    exact hunauthorised jobMeta hfound hmay
  rw [exec_resolveJob_some, hnone, ite_self]

/-- Both commands tell the caller that there is no such job, and do nothing else. -/
theorem exec_body_of_unauthorised (command : Command) (clock : Clock)
    (hunauthorised : ∀ jobMeta, getJobMeta world.index moment.now taskId = some jobMeta →
      ¬ MayActOn caller jobMeta) :
    (command.body clock caller (some taskId)).exec (serve moment) world =
      (.ok (), world.reply (jobNotFound (some taskId)) true) := by
  have hresolve := exec_resolveJob_of_unauthorised hunauthorised
  have hdefer : (await (.defer true)).exec (serve moment) world = (.ok (), world) :=
    Prog.exec_perform _ _
  cases command with
  | status =>
      exact (Prog.exec_bind_of_ok hdefer).trans
        ((Prog.exec_bind_of_ok hresolve).trans (Prog.exec_perform _ _))
  | cancel =>
      exact (Prog.exec_bind_of_ok hdefer).trans
        ((Prog.exec_bind_of_ok hresolve).trans (Prog.exec_perform _ _))

theorem getJobMeta_without (world : World) (now : ℚ) (taskId : String) :
    getJobMeta (world.without taskId).index now taskId = none := by
  simp [World.without, getJobMeta]

end Resolving

/-! ## The whole -/

/-- `hidden`: whether a job exists makes no difference to a caller who may not act on
it, and the commands then do nothing but reply.  `resolved`: an id of 32 hex digits
resolves for those who may act on its job, and only for them.  `own`: without an id,
whatever has been recorded and forgotten, only a job of the caller resolves. -/
structure Private : Prop where
  hidden : ∀ (moment : Moment) (clock : Clock) (caller : Caller) (command : Command)
    (taskId : String) (jobMeta : JobMeta) (world : World),
    getJobMeta world.index moment.now taskId = some jobMeta →
    ¬ MayActOn caller jobMeta →
    ∃ embed,
      (command.body clock caller (some taskId)).exec (serve moment) world =
        (.ok (), world.reply embed true) ∧
      (command.body clock caller (some taskId)).exec (serve moment)
          (world.without taskId) =
        (.ok (), (world.without taskId).reply embed true)
  resolved : ∀ (moment : Moment) (caller : Caller) (taskId : String) (world : World),
    isHex32 taskId.toList = true →
    ∀ target jobMeta,
      (resolveJob caller (some taskId)).exec (serve moment) world =
          (.ok (some (target, jobMeta)), world) ↔
        target = taskId ∧ getJobMeta world.index moment.now taskId = some jobMeta ∧
          MayActOn caller jobMeta
  own : ∀ (began : ℚ) (state : State), Reaches step unrestricted (start began) state →
    ∀ (moment : Moment) (caller : Caller) (world : World),
    moment.now = state.now → world.index = state.index →
    ∀ target jobMeta,
      (resolveJob caller none).exec (serve moment) world =
          (.ok (some (target, jobMeta)), world) →
        state.recorded target = some jobMeta ∧ jobMeta.ownerUserId = caller.authorId

theorem jobs_private : Private where
  hidden moment clock caller command taskId jobMeta world hmeta hmay := by
    refine ⟨jobNotFound (some taskId), exec_body_of_unauthorised command clock ?_,
      exec_body_of_unauthorised command clock ?_⟩
    · intro found hfound
      cases hmeta.symm.trans hfound
      exact hmay
    · intro found hfound
      cases (getJobMeta_without world moment.now taskId).symm.trans hfound
  resolved moment caller taskId world hhex target jobMeta := by
    have hmatches : matchesTaskId taskId = true := by
      simp only [matchesTaskId, hhex, Bool.true_or]
    rw [exec_resolveJob_some, if_pos hmatches, ← authorised_eq_some]
    simp
  own began state hrun moment caller world hnow hindex target jobMeta hexec := by
    have howned := owned_of_reaches hrun
    rw [exec_resolveJob_none, hnow, hindex] at hexec
    obtain ⟨latest, hlatest, hsome⟩ := Option.bind_eq_some_iff.mp
      (Except.ok.inj (congrArg Prod.fst hexec))
    obtain ⟨rfl, hfound, -⟩ := authorised_eq_some.mp hsome
    obtain ⟨cell, hcell, -, rfl⟩ := fetch_eq_some.mp hfound
    obtain ⟨set, hset, hhighest⟩ := Option.bind_eq_some_iff.mp hlatest
    obtain ⟨jobs, hjobs, -, rfl⟩ := fetch_eq_some.mp hset
    obtain ⟨score, hlookup, -⟩ := highest_eq_some hhighest
    have hrecorded := howned.metas target cell hcell
    obtain ⟨known, hknown, howner⟩ :=
      howned.activeJobs caller.authorId jobs hjobs target score hlookup
    cases hrecorded.symm.trans hknown
    exact ⟨hrecorded, howner⟩

def hexId : String := "0123456789abcdef0123456789ABCDEF"

/-- Member 7 has a job in guild 3, of which they are not the owner. -/
def memberMeta : JobMeta := ⟨7, some 3, 5, "2024-05-01T12:00:00+00:00", true⟩

/-- Their job is queued, and a refund would show in the guild's bucket. -/
def queuedJob : World where
  index := (recordJob .empty 0 0 hexId memberMeta 100).1
  flags _ := false
  notices := []
  ready _ := false
  progress _ := none
  buckets _ := some ⟨⟨0, 0⟩, some 100⟩
  replies := []

/-- Their job is hidden from another member of the guild, for whom the two worlds are the
same; it resolves for the owner of the guild. -/
theorem jobs_private_member :
    (getJobMeta queuedJob.index 1 hexId = some memberMeta ∧
        getJobMeta (queuedJob.without hexId).index 1 hexId = none) ∧
      (∀ command : Command, ∃ embed,
        (command.body ⟨fun _ => none⟩ ⟨8, false, some ⟨3, 9⟩⟩ (some hexId)).exec
            (serve ⟨.default, 1⟩) queuedJob =
          (.ok (), queuedJob.reply embed true) ∧
        (command.body ⟨fun _ => none⟩ ⟨8, false, some ⟨3, 9⟩⟩ (some hexId)).exec
            (serve ⟨.default, 1⟩) (queuedJob.without hexId) =
          (.ok (), (queuedJob.without hexId).reply embed true)) ∧
      (resolveJob ⟨9, false, some ⟨3, 9⟩⟩ (some hexId)).exec (serve ⟨.default, 1⟩) queuedJob =
        (.ok (some (hexId, memberMeta)), queuedJob) := by
  have hmeta : getJobMeta queuedJob.index 1 hexId = some memberMeta := by decide +kernel
  refine ⟨⟨hmeta, getJobMeta_without queuedJob 1 hexId⟩, fun command => ?_, ?_⟩
  · refine jobs_private.hidden ⟨.default, 1⟩ ⟨fun _ => none⟩ ⟨8, false, some ⟨3, 9⟩⟩ command
      hexId memberMeta queuedJob hmeta ?_
    rw [← canActOn_iff]
    decide
  · refine (jobs_private.resolved ⟨.default, 1⟩ ⟨9, false, some ⟨3, 9⟩⟩ hexId queuedJob
      (by decide) hexId memberMeta).mpr ⟨rfl, hmeta, ?_⟩
    rw [← canActOn_iff]
    decide

end DownloaderBot.JobsCog
