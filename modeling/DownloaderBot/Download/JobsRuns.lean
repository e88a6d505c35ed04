import DownloaderBot.Core.TransitionSystem
import DownloaderBot.Download.Jobs

/-!
# Runs of the index of jobs

`record_job` and `forget_job` by any users, with time passing in between.  The
ledger keeps what the index is meant to hold: the jobs recorded and not
forgotten.  Against it, `latest_job_for_user` is right exactly when no job is
left with one of its two index entries while every job that has both is older.
-/

namespace DownloaderBot.JobsRuns

open DownloaderBot.ExpiringStore
open DownloaderBot.Jobs
open DownloaderBot.TransitionSystem

/-- A recorded job: its task, its owner and the score it was recorded with. -/
structure Job where
  taskId : String
  userId : ℕ
  stamp : ℚ
  deriving DecidableEq, Repr

/-- `known` are the jobs ever recorded, `ledger` those not forgotten since. -/
structure State where
  index : Index
  now : ℚ
  known : List Job
  ledger : List Job

inductive Label
  | record (taskId : String) (jobMeta : JobMeta) (ttlSeconds : ℤ) (stamp : ℚ)
  | forget (taskId : String) (ownerUserId : ℕ)
  | elapse (seconds : ℚ)

/-- Task ids are distinct, record times increase and TTLs are positive; a job is
forgotten on its owner's behalf. -/
def step (state : State) : Label → Option State
  | .record taskId jobMeta ttlSeconds stamp =>
      if 0 < ttlSeconds ∧
          ∀ job ∈ state.known, job.taskId ≠ taskId ∧ job.stamp < stamp then
        let job : Job := ⟨taskId, jobMeta.ownerUserId, stamp⟩
        some { state with
          index := (recordJob state.index state.now stamp taskId jobMeta
            ttlSeconds).1
          known := state.known ++ [job]
          ledger := state.ledger ++ [job] }
      else none
  | .forget taskId ownerUserId =>
      if ∀ job ∈ state.known, job.taskId = taskId → job.userId = ownerUserId then
        some { state with
          index := forgetJob state.index state.now taskId ownerUserId
          ledger := state.ledger.filter fun job => job.taskId ≠ taskId }
      else none
  | .elapse seconds =>
      if 0 ≤ seconds then some { state with now := state.now + seconds } else none

def start : State := ⟨.empty, 0, [], []⟩

/-! ## The invariant -/

/-- The index holds nothing but entries of the ledger, under the right owner and
score. -/
structure Sound (state : State) : Prop where
  ledger_known : ∀ job ∈ state.ledger, job ∈ state.known
  taskId_inj : ∀ job ∈ state.known, ∀ other ∈ state.known,
    job.taskId = other.taskId → job = other
  stamp_inj : ∀ job ∈ state.known, ∀ other ∈ state.known,
    job.stamp = other.stamp → job = other
  metas : ∀ taskId cell, state.index.metas taskId = some cell →
    ∃ job ∈ state.ledger, job.taskId = taskId
  activeJobs : ∀ userId cell, state.index.activeJobs userId = some cell →
    ∀ taskId stamp, cell.value.lookup taskId = some stamp →
      ⟨taskId, userId, stamp⟩ ∈ state.ledger

theorem sound_start : Sound start where
  ledger_known := by simp [start]
  taskId_inj := by simp [start]
  stamp_inj := by simp [start]
  metas := by simp [start, Index.empty]
  activeJobs := by simp [start, Index.empty]

theorem Sound.record {state : State} (hsound : Sound state) {taskId : String}
    {jobMeta : JobMeta} {ttlSeconds : ℤ} {stamp : ℚ} (httl : 0 < ttlSeconds)
    (hfresh : ∀ job ∈ state.known, job.taskId ≠ taskId ∧ job.stamp < stamp) :
    Sound { state with
      index := (recordJob state.index state.now stamp taskId jobMeta
        ttlSeconds).1
      known := state.known ++ [⟨taskId, jobMeta.ownerUserId, stamp⟩]
      ledger := state.ledger ++ [⟨taskId, jobMeta.ownerUserId, stamp⟩] } := by
  rw [recordJob_of_pos _ _ _ _ _ httl]
  refine ⟨?_, ?_, ?_, ?_, ?_⟩
  · intro job hjob
    rcases List.mem_append.mp hjob with hold | hnew
    · exact List.mem_append_left _ (hsound.ledger_known job hold)
    · exact List.mem_append_right _ hnew
  · intro job hjob other hother heq
    rcases List.mem_append.mp hjob with hold | hnew <;>
      rcases List.mem_append.mp hother with hold' | hnew'
    · exact hsound.taskId_inj job hold other hold' heq
    · obtain rfl := List.mem_singleton.mp hnew'
      exact absurd heq (hfresh job hold).1
    · obtain rfl := List.mem_singleton.mp hnew
      exact absurd heq.symm (hfresh other hold').1
    · exact (List.mem_singleton.mp hnew).trans (List.mem_singleton.mp hnew').symm
  · intro job hjob other hother heq
    rcases List.mem_append.mp hjob with hold | hnew <;>
      rcases List.mem_append.mp hother with hold' | hnew'
    · exact hsound.stamp_inj job hold other hold' heq
    · obtain rfl := List.mem_singleton.mp hnew'
      exact absurd heq (hfresh job hold).2.ne
    · obtain rfl := List.mem_singleton.mp hnew
      exact absurd heq.symm (hfresh other hold').2.ne
    · exact (List.mem_singleton.mp hnew).trans (List.mem_singleton.mp hnew').symm
  · intro other cell hcell
    rcases eq_or_ne other taskId with rfl | hother
    · exact ⟨_, List.mem_append_right _ (List.mem_singleton_self _), rfl⟩
    · simp only [Function.update_of_ne hother] at hcell
      obtain ⟨job, hjob, htask⟩ := hsound.metas other cell hcell
      exact ⟨job, List.mem_append_left _ hjob, htask⟩
  · intro userId cell hcell other score hlookup
    rcases eq_or_ne userId jobMeta.ownerUserId with rfl | huser
    · simp only [Function.update_self, Option.some.injEq] at hcell
      subst hcell
      rcases lookup_zadd hlookup with ⟨rfl, rfl⟩ | ⟨-, before, hbefore, hold⟩
      · exact List.mem_append_right _ (List.mem_singleton_self _)
      · exact List.mem_append_left _
          (hsound.activeJobs _ before hbefore other score hold)
    · simp only [Function.update_of_ne huser] at hcell
      exact List.mem_append_left _
        (hsound.activeJobs userId cell hcell other score hlookup)

theorem Sound.forget {state : State} (hsound : Sound state) {taskId : String}
    {ownerUserId : ℕ}
    (howner : ∀ job ∈ state.known, job.taskId = taskId →
      job.userId = ownerUserId) :
    Sound { state with
      index := forgetJob state.index state.now taskId ownerUserId
      ledger := state.ledger.filter fun job => job.taskId ≠ taskId } := by
  refine ⟨?_, hsound.taskId_inj, hsound.stamp_inj, ?_, ?_⟩
  · intro job hjob
    exact hsound.ledger_known job (List.mem_filter.mp hjob).1
  · intro other cell hcell
    rcases eq_or_ne other taskId with rfl | hother
    · simp [forgetJob] at hcell
    · simp only [forgetJob, Function.update_of_ne hother] at hcell
      obtain ⟨job, hjob, rfl⟩ := hsound.metas other cell hcell
      exact ⟨job, List.mem_filter.mpr ⟨hjob, by simpa using hother⟩, rfl⟩
  · intro userId cell hcell other score hlookup
    rcases eq_or_ne userId ownerUserId with rfl | huser
    · simp only [forgetJob, Function.update_self] at hcell
      obtain ⟨hother, before, hbefore, hold⟩ := lookup_zrem hcell hlookup
      exact List.mem_filter.mpr
        ⟨hsound.activeJobs _ before hbefore other score hold, by simpa using hother⟩
    · simp only [forgetJob, Function.update_of_ne huser] at hcell
      have hledger := hsound.activeJobs userId cell hcell other score hlookup
      refine List.mem_filter.mpr ⟨hledger, ?_⟩
      -- Only the owner's set lists a task, and this is another user's set.
      have hother : other ≠ taskId := by
        rintro rfl
        exact huser (howner _ (hsound.ledger_known _ hledger) rfl)
      simpa using hother

/-- The step lemma. -/
theorem sound_step {state next : State} {label : Label} (hsound : Sound state)
    (hstep : step state label = some next) : Sound next := by
  cases label with
  | record taskId jobMeta ttlSeconds stamp =>
      simp only [step, Option.ite_none_right_eq_some, Option.some.injEq] at hstep
      obtain ⟨⟨httl, hfresh⟩, rfl⟩ := hstep
      exact hsound.record httl hfresh
  | forget taskId ownerUserId =>
      simp only [step, Option.ite_none_right_eq_some, Option.some.injEq] at hstep
      obtain ⟨howner, rfl⟩ := hstep
      exact hsound.forget howner
  | elapse seconds =>
      simp only [step, Option.ite_none_right_eq_some, Option.some.injEq] at hstep
      obtain ⟨-, rfl⟩ := hstep
      exact ⟨hsound.ledger_known, hsound.taskId_inj, hsound.stamp_inj,
        hsound.metas, hsound.activeJobs⟩

theorem sound_of_reaches {state : State}
    (hrun : Reaches step unrestricted start state) : Sound state :=
  hrun.invariant sound_start fun _ _ _ hsound _ hstep => sound_step hsound hstep

/-! ## The latest job of a user -/

/-- The job's meta has not expired. -/
def State.Alive (state : State) (job : Job) : Prop :=
  (getJobMeta state.index state.now job.taskId).isSome = true

instance (state : State) (job : Job) : Decidable (state.Alive job) :=
  inferInstanceAs (Decidable (_ = true))

def State.aliveJobs (state : State) (userId : ℕ) : Set Job :=
  { job | job ∈ state.ledger ∧ job.userId = userId ∧ state.Alive job }

def State.listedJobs (state : State) (userId : ℕ) : Set Job :=
  { job | job ∈ state.ledger ∧ job.userId = userId ∧
    Listed state.index state.now userId job.taskId }

/-- `latest_job_for_user` answers with the most recently recorded job of the user
that is not forgotten and whose meta has not expired, and with `None` only when
there is no such job. -/
def LatestRight (state : State) (userId : ℕ) : Prop :=
  match latestJobForUser state.index state.now userId with
  | none => ∀ job ∈ state.ledger, job.userId = userId → ¬ state.Alive job
  | some taskId => ∃ job ∈ state.ledger, job.taskId = taskId ∧
      job.userId = userId ∧ state.Alive job ∧
      ∀ other ∈ state.ledger, other.userId = userId → state.Alive other →
        other.stamp ≤ job.stamp

instance (state : State) (userId : ℕ) : Decidable (LatestRight state userId) :=
  match h : latestJobForUser state.index state.now userId with
  | none =>
      decidable_of_iff
        (∀ job ∈ state.ledger, job.userId = userId → ¬ state.Alive job)
        (by rw [LatestRight, h])
  | some taskId =>
      decidable_of_iff
        (∃ job ∈ state.ledger, job.taskId = taskId ∧ job.userId = userId ∧
          state.Alive job ∧ ∀ other ∈ state.ledger, other.userId = userId →
            state.Alive other → other.stamp ≤ job.stamp)
        (by rw [LatestRight, h])

/-- Every job of the user that is left with only one of its meta and its place in
the user's set was recorded before one that has both. -/
def EntriesCovered (state : State) (userId : ℕ) : Prop :=
  ∀ job ∈ state.ledger, job.userId = userId →
    ¬ (state.Alive job ↔ Listed state.index state.now userId job.taskId) →
    ∃ newer ∈ state.ledger, newer.userId = userId ∧ state.Alive newer ∧
      Listed state.index state.now userId newer.taskId ∧ job.stamp < newer.stamp

instance (state : State) (userId : ℕ) : Decidable (EntriesCovered state userId) :=
  inferInstanceAs (Decidable (∀ job ∈ state.ledger, _ → _ → _))

section Latest

variable {state : State}

/-- What the user's set lists is in the ledger, with the score it has there. -/
theorem Sound.listed (hsound : Sound state) {userId : ℕ} {taskId : String}
    {set : ScoredSet String ℚ} {stamp : ℚ}
    (hset : fetch state.now (state.index.activeJobs userId) = some set)
    (hlookup : set.lookup taskId = some stamp) :
    ⟨taskId, userId, stamp⟩ ∈ state.listedJobs userId := by
  obtain ⟨cell, hcell, -, rfl⟩ := fetch_eq_some.mp hset
  refine ⟨hsound.activeJobs userId cell hcell taskId stamp hlookup, rfl, ?_⟩
  refine ⟨_, hset, AList.lookup_isSome.mp ?_⟩
  rw [hlookup]
  rfl

/-- The code's answer is the newest of the listed jobs. -/
theorem exists_isNewest_listed (hsound : Sound state) (userId : ℕ) :
    ∃ answer, IsNewest Job.stamp (state.listedJobs userId) answer ∧
      latestJobForUser state.index state.now userId =
        answer.map Job.taskId := by
  simp only [latestJobForUser, latestOf]
  cases hset : fetch state.now (state.index.activeJobs userId) with
  | none =>
      refine ⟨none, ?_, rfl⟩
      apply Set.eq_empty_iff_forall_notMem.mpr
      intro job hjob
      obtain ⟨set, hfound, -⟩ := hjob.2.2
      cases hset.symm.trans hfound
  | some set =>
      -- A listed job is the member of the set it stands for.
      have hmember : ∀ job ∈ state.listedJobs userId,
          set.lookup job.taskId = some job.stamp := by
        rintro job ⟨hledger, -, found, hfound, hmem⟩
        obtain rfl := Option.some.inj (hset.symm.trans hfound)
        obtain ⟨stamp, hstamp⟩ :=
          Option.isSome_iff_exists.mp (AList.lookup_isSome.mpr hmem)
        have hother := (hsound.listed hset hstamp).1
        have hsame := hsound.taskId_inj _ (hsound.ledger_known _ hother) _
          (hsound.ledger_known _ hledger) rfl
        rw [hstamp, ← hsame]
      cases hhighest : highest set with
      | none =>
          refine ⟨none, ?_, hhighest⟩
          apply Set.eq_empty_iff_forall_notMem.mpr
          intro job hjob
          cases (highest_eq_none.mp hhighest _).symm.trans (hmember job hjob)
      | some taskId =>
          obtain ⟨stamp, hstamp, hhigh⟩ := highest_eq_some hhighest
          refine ⟨some ⟨taskId, userId, stamp⟩, ⟨hsound.listed hset hstamp, ?_⟩,
            hhighest⟩
          intro other hother
          exact hhigh _ _ (hmember other hother)

/-- The answer is right when it is the newest of the living jobs, too. -/
theorem latestRight_iff_isNewest (hsound : Sound state) {userId : ℕ}
    {answer : Option Job}
    (hnewest : IsNewest Job.stamp (state.listedJobs userId) answer)
    (hanswer : latestJobForUser state.index state.now userId =
      answer.map Job.taskId) :
    LatestRight state userId ↔
      IsNewest Job.stamp (state.aliveJobs userId) answer := by
  rw [LatestRight]
  rw [hanswer]
  cases answer with
  | none =>
      simp only [Option.map_none, IsNewest, Set.eq_empty_iff_forall_notMem,
        State.aliveJobs, Set.mem_ofPred_eq, not_and]
  | some job =>
      constructor
      · rintro ⟨other, hother, htask, huser, halive, hlatest⟩
        obtain rfl := hsound.taskId_inj other (hsound.ledger_known _ hother) job
          (hsound.ledger_known _ hnewest.1.1) htask
        exact ⟨⟨hother, huser, halive⟩,
          fun older holder => hlatest older holder.1 holder.2.1 holder.2.2⟩
      · rintro ⟨⟨hledger, huser, halive⟩, hlatest⟩
        exact ⟨job, hledger, rfl, huser, halive, fun older holder hsame hmeta =>
          hlatest older ⟨holder, hsame, hmeta⟩⟩

/-- The jobs in which the two sets differ. -/
def State.halfJobs (state : State) (userId : ℕ) : Set Job :=
  (state.aliveJobs userId \ state.listedJobs userId) ∪
    (state.listedJobs userId \ state.aliveJobs userId)

/-- They are those with only one of the two entries. -/
theorem mem_halfJobs {userId : ℕ} {job : Job} :
    job ∈ state.halfJobs userId ↔
      job ∈ state.ledger ∧ job.userId = userId ∧
        ¬ (state.Alive job ↔
          Listed state.index state.now userId job.taskId) := by
  simp only [State.halfJobs, State.aliveJobs, State.listedJobs, Set.mem_union,
    Set.mem_sdiff, Set.mem_ofPred_eq]
  tauto

theorem entriesCovered_iff {userId : ℕ} :
    EntriesCovered state userId ↔
      ∀ job ∈ state.halfJobs userId,
        ∃ newer ∈ state.aliveJobs userId ∩ state.listedJobs userId,
          job.stamp < newer.stamp := by
  constructor
  · intro hcovered job hjob
    obtain ⟨hledger, huser, hone⟩ := mem_halfJobs.mp hjob
    obtain ⟨newer, hmem, hsame, halive, hlisted, hlt⟩ :=
      hcovered job hledger huser hone
    exact ⟨newer, ⟨⟨hmem, hsame, halive⟩, hmem, hsame, hlisted⟩, hlt⟩
  · intro hcovered job hledger huser hone
    obtain ⟨newer, ⟨⟨hmem, hsame, halive⟩, -, -, hlisted⟩, hlt⟩ :=
      hcovered job (mem_halfJobs.mpr ⟨hledger, huser, hone⟩)
    exact ⟨newer, hmem, hsame, halive, hlisted, hlt⟩

/-- At every moment of every run: the latest job of a user is right if and only
if every job with only one of its two entries is older than one with both. -/
theorem latestRight_iff_entriesCovered (state : State)
    (hrun : Reaches step unrestricted start state) (userId : ℕ) :
    LatestRight state userId ↔ EntriesCovered state userId := by
  have hsound := sound_of_reaches hrun
  obtain ⟨answer, hnewest, hanswer⟩ := exists_isNewest_listed hsound userId
  have hknown : ∀ job ∈ state.aliveJobs userId ∪ state.listedJobs userId,
      job ∈ state.known := by
    rintro job (hjob | hjob)
    · exact hsound.ledger_known job hjob.1
    · exact hsound.ledger_known job hjob.1
  have hinj : Set.InjOn Job.stamp
      (state.aliveJobs userId ∪ state.listedJobs userId) :=
    fun job hjob other hother heq =>
      hsound.stamp_inj job (hknown job hjob) other (hknown other hother) heq
  rw [latestRight_iff_isNewest hsound hnewest hanswer, entriesCovered_iff]
  exact isNewest_iff hinj hnewest

/-- Two jobs with a meta and a place in the set each, the newer one forgotten. -/
theorem latestRight_after_forget :
    ∃ state, Reaches step unrestricted start state ∧
      latestJobForUser state.index state.now 7 = some "a" ∧
      LatestRight state 7 := by
  obtain ⟨state, hrun, hcheck⟩ := exists_reaches_of_replay step start
    [.record "a" ⟨7, some 1, 2, "", true⟩ 3600 0,
      .record "b" ⟨7, some 1, 2, "", true⟩ 3600 1, .elapse 60, .forget "b" 7]
    (fun state => decide
      (latestJobForUser state.index state.now 7 = some "a" ∧
        EntriesCovered state 7))
    (by decide +kernel)
  obtain ⟨hlatest, hcovered⟩ := of_decide_eq_true hcheck
  exact ⟨state, hrun, hlatest,
    (latestRight_iff_entriesCovered state hrun 7).mpr hcovered⟩

/-- The shorter TTL of a later job ends the whole set while the meta of an
earlier one lives on: the user seems to have no job. -/
theorem not_latestRight_of_shorter_ttl :
    ∃ state, Reaches step unrestricted start state ∧
      latestJobForUser state.index state.now 7 = none ∧
      ¬ LatestRight state 7 := by
  obtain ⟨state, hrun, hcheck⟩ := exists_reaches_of_replay step start
    [.record "a" ⟨7, some 1, 2, "", true⟩ 86400 0,
      .record "b" ⟨7, some 3, 4, "", true⟩ 3600 1, .elapse 3600]
    (fun state => decide
      (latestJobForUser state.index state.now 7 = none ∧
        ¬ LatestRight state 7))
    (by decide +kernel)
  exact ⟨state, hrun, of_decide_eq_true hcheck⟩

end Latest

end DownloaderBot.JobsRuns
