import DownloaderBot.Core.ExpiringStore
import Mathlib.Algebra.Order.Field.Rat
import Mathlib.Data.String.Basic
import Mathlib.Logic.Function.Basic
import Mathlib.Tactic.Linarith

/-!
# The index of jobs

The two key shapes behind `/status` and `/cancel`: a meta for every task and a
scored set of task ids for every user.  Each operation is one `MULTI`/`EXEC`, so
it is one function on the index.  `now` is the moment Redis executes it.
-/

namespace DownloaderBot.Jobs

open DownloaderBot.ExpiringStore

/-- The payload under `task:{task_id}:meta`. -/
structure JobMeta where
  ownerUserId : ℕ
  guildId : Option ℕ
  channelId : ℕ
  enqueuedAtIso : String
  enqueueConsumedToken : Bool
  deriving DecidableEq, Repr

/-- The keys `task:{task_id}:meta` and `user:{user_id}:active_jobs`. -/
structure Index where
  metas : String → Option (Cell JobMeta ℚ)
  activeJobs : ℕ → Option (Cell (ScoredSet String ℚ) ℚ)

/-- An error reply of Redis, raised once the whole transaction has run. -/
inductive ResponseError
  | invalidExpireTime
  deriving DecidableEq, Repr

def Index.empty : Index := ⟨fun _ => none, fun _ => none⟩

/-- `SET` with `EX`: refused, and without effect, unless the TTL is positive.  Redis
also refuses one that it cannot count in milliseconds within 64 bits; `retention_hours`, an
`INTEGER`, stays far below that. -/
def setEx (now : ℚ) (value : JobMeta) (ttlSeconds : ℤ)
    (key : Option (Cell JobMeta ℚ)) :
    Option (Cell JobMeta ℚ) × Except ResponseError Unit :=
  if 0 < ttlSeconds then (some ⟨value, some (now + ttlSeconds)⟩, .ok ())
  else (key, .error .invalidExpireTime)

/-- `ZADD` of one member.  An expired set is gone, and its deadline with it. -/
def zadd (now : ℚ) (member : String) (score : ℚ)
    (key : Option (Cell (ScoredSet String ℚ) ℚ)) :
    Cell (ScoredSet String ℚ) ℚ :=
  match key with
  | none => ⟨AList.insert member score ∅, none⟩
  | some cell =>
      if cell.Live now then ⟨cell.value.insert member score, cell.deadline⟩
      else ⟨AList.insert member score ∅, none⟩

/-- `EXPIRE` of the whole set: a TTL that is not positive deletes it. -/
def expire (now : ℚ) (ttlSeconds : ℤ) (cell : Cell (ScoredSet String ℚ) ℚ) :
    Option (Cell (ScoredSet String ℚ) ℚ) :=
  if 0 < ttlSeconds then some { cell with deadline := some (now + ttlSeconds) }
  else none

/-- `ZREM` of one member.  A set that becomes empty is deleted. -/
def zrem (now : ℚ) (member : String)
    (key : Option (Cell (ScoredSet String ℚ) ℚ)) :
    Option (Cell (ScoredSet String ℚ) ℚ) :=
  match key with
  | none => none
  | some cell =>
      if cell.Live now then
        if (cell.value.erase member).entries = [] then none
        else some { cell with value := cell.value.erase member }
      else none

/-- `ZREVRANGE 0 0`, and `None` for an empty answer. -/
def latestOf (now : ℚ) (key : Option (Cell (ScoredSet String ℚ) ℚ)) :
    Option String :=
  (fetch now key).bind highest

/-- `stamp` is what `time.time()` reads in the client. -/
def recordJob (index : Index) (now stamp : ℚ) (taskId : String)
    (jobMeta : JobMeta) (ttlSeconds : ℤ) : Index × Except ResponseError Unit :=
  let user := jobMeta.ownerUserId
  let (stored, outcome) := setEx now jobMeta ttlSeconds (index.metas taskId)
  let added := zadd now taskId stamp (index.activeJobs user)
  (⟨Function.update index.metas taskId stored,
    Function.update index.activeJobs user (expire now ttlSeconds added)⟩,
    outcome)

def getJobMeta (index : Index) (now : ℚ) (taskId : String) : Option JobMeta :=
  fetch now (index.metas taskId)

def latestJobForUser (index : Index) (now : ℚ) (userId : ℕ) : Option String :=
  latestOf now (index.activeJobs userId)

def forgetJob (index : Index) (now : ℚ) (taskId : String) (ownerUserId : ℕ) :
    Index :=
  ⟨Function.update index.metas taskId none,
    Function.update index.activeJobs ownerUserId
      (zrem now taskId (index.activeJobs ownerUserId))⟩

/-- The user's set lists the task. -/
def Listed (index : Index) (now : ℚ) (userId : ℕ) (taskId : String) : Prop :=
  ∃ set, fetch now (index.activeJobs userId) = some set ∧ taskId ∈ set

instance (index : Index) (now : ℚ) (userId : ℕ) (taskId : String) :
    Decidable (Listed index now userId taskId) :=
  decidable_of_iff
    ((fetch now (index.activeJobs userId)).any fun set => decide (taskId ∈ set))
    (by simp [Listed, Option.any_eq_true])

/-! ## What the operations leave in the keys -/

theorem recordJob_of_pos (index : Index) (now stamp : ℚ) (taskId : String)
    (jobMeta : JobMeta) {ttlSeconds : ℤ} (httl : 0 < ttlSeconds) :
    recordJob index now stamp taskId jobMeta ttlSeconds =
      (⟨Function.update index.metas taskId
          (some ⟨jobMeta, some (now + ttlSeconds)⟩),
        Function.update index.activeJobs jobMeta.ownerUserId
          (some { zadd now taskId stamp (index.activeJobs jobMeta.ownerUserId)
            with deadline := some (now + ttlSeconds) })⟩, .ok ()) := by
  simp only [recordJob, setEx, expire, if_pos httl]

/-- A member of the set after `ZADD` is the new one or was there before. -/
theorem lookup_zadd {now score found : ℚ} {member other : String}
    {key : Option (Cell (ScoredSet String ℚ) ℚ)}
    (hlookup : (zadd now member score key).value.lookup other = some found) :
    (other = member ∧ found = score) ∨
      (other ≠ member ∧ ∃ cell, key = some cell ∧
        cell.value.lookup other = some found) := by
  simp only [zadd] at hlookup
  by_cases hother : other = member
  · subst hother
    refine .inl ⟨rfl, ?_⟩
    split at hlookup
    · exact (Option.some.inj ((AList.lookup_insert _).symm.trans hlookup)).symm
    · split at hlookup
      · exact (Option.some.inj ((AList.lookup_insert _).symm.trans hlookup)).symm
      · exact (Option.some.inj ((AList.lookup_insert _).symm.trans hlookup)).symm
  · refine .inr ⟨hother, ?_⟩
    have hnew : (AList.insert member score
        (∅ : ScoredSet String ℚ)).lookup other = none := by
      rw [AList.lookup_insert_ne hother, AList.lookup_empty]
    split at hlookup
    · cases hnew.symm.trans hlookup
    · split at hlookup
      · exact ⟨_, rfl, (AList.lookup_insert_ne hother).symm.trans hlookup⟩
      · cases hnew.symm.trans hlookup

theorem mem_zadd_self (now score : ℚ) (member : String)
    (key : Option (Cell (ScoredSet String ℚ) ℚ)) :
    member ∈ (zadd now member score key).value := by
  simp only [zadd]
  split
  · exact (AList.mem_insert _).mpr (.inl rfl)
  · split
    · exact (AList.mem_insert _).mpr (.inl rfl)
    · exact (AList.mem_insert _).mpr (.inl rfl)

/-- A member of the set after `ZREM` was there before and is not the one
removed. -/
theorem lookup_zrem {now found : ℚ} {member other : String}
    {key : Option (Cell (ScoredSet String ℚ) ℚ)}
    {cell : Cell (ScoredSet String ℚ) ℚ} (hcell : zrem now member key = some cell)
    (hlookup : cell.value.lookup other = some found) :
    other ≠ member ∧ ∃ before, key = some before ∧
      before.value.lookup other = some found := by
  simp only [zrem] at hcell
  split at hcell
  · cases hcell
  · split at hcell
    · split at hcell
      · cases hcell
      · cases hcell
        by_cases hother : other = member
        · subst hother
          simp at hlookup
        · exact ⟨hother, _, rfl, by simpa [hother] using hlookup⟩
    · cases hcell

/-! ## Jobs that are in neither key -/

/-- Neither the meta of the task nor a place in the user's set is stored. -/
structure Index.Lacks (index : Index) (taskId : String) (userId : ℕ) : Prop where
  metas : index.metas taskId = none
  activeJobs : ∀ cell, index.activeJobs userId = some cell →
    cell.value.lookup taskId = none

section Lacks

variable {index : Index} {taskId other : String} {userId : ℕ}

/-- Other jobs do not bring this one back. -/
theorem Index.Lacks.recordJob (hlacks : index.Lacks taskId userId)
    (hother : taskId ≠ other) (now stamp : ℚ) (jobMeta : JobMeta)
    (ttlSeconds : ℤ) :
    (Jobs.recordJob index now stamp other jobMeta ttlSeconds).1.Lacks taskId
      userId where
  metas := (Function.update_of_ne hother _ _).trans hlacks.metas
  activeJobs cell hcell := by
    apply Option.eq_none_iff_forall_ne_some.mpr
    intro score hlookup
    rcases eq_or_ne userId jobMeta.ownerUserId with rfl | huser
    · simp only [Jobs.recordJob, Function.update_self, expire,
        Option.ite_none_right_eq_some, Option.some.injEq] at hcell
      obtain ⟨-, rfl⟩ := hcell
      rcases lookup_zadd hlookup with ⟨hsame, -⟩ | ⟨-, before, hbefore, hold⟩
      · exact hother hsame
      · cases (hlacks.activeJobs before hbefore).symm.trans hold
    · simp only [Jobs.recordJob, Function.update_of_ne huser] at hcell
      cases (hlacks.activeJobs cell hcell).symm.trans hlookup

theorem Index.Lacks.forgetJob (hlacks : index.Lacks taskId userId)
    (now : ℚ) (other : String) (ownerUserId : ℕ) :
    (Jobs.forgetJob index now other ownerUserId).Lacks taskId userId where
  metas := by
    rcases eq_or_ne taskId other with rfl | hother
    · exact Function.update_self _ _ _
    · exact (Function.update_of_ne hother _ _).trans hlacks.metas
  activeJobs cell hcell := by
    apply Option.eq_none_iff_forall_ne_some.mpr
    intro score hlookup
    rcases eq_or_ne userId ownerUserId with rfl | huser
    · simp only [Jobs.forgetJob, Function.update_self] at hcell
      obtain ⟨-, before, hbefore, hold⟩ := lookup_zrem hcell hlookup
      cases (hlacks.activeJobs before hbefore).symm.trans hold
    · simp only [Jobs.forgetJob, Function.update_of_ne huser] at hcell
      cases (hlacks.activeJobs cell hcell).symm.trans hlookup

/-- A forgotten job is in neither key. -/
theorem lacks_forgetJob (index : Index) (now : ℚ) (taskId : String)
    (userId : ℕ) : (forgetJob index now taskId userId).Lacks taskId userId where
  metas := Function.update_self _ _ _
  activeJobs cell hcell := by
    apply Option.eq_none_iff_forall_ne_some.mpr
    intro score hlookup
    simp only [forgetJob, Function.update_self] at hcell
    exact (lookup_zrem hcell hlookup).1 rfl

theorem Index.Lacks.getJobMeta (hlacks : index.Lacks taskId userId) (now : ℚ) :
    Jobs.getJobMeta index now taskId = none := by
  rw [Jobs.getJobMeta, hlacks.metas, fetch_none]

theorem Index.Lacks.not_listed (hlacks : index.Lacks taskId userId) (now : ℚ) :
    ¬ Listed index now userId taskId := by
  rintro ⟨set, hset, hmem⟩
  obtain ⟨cell, hcell, -, rfl⟩ := fetch_eq_some.mp hset
  exact AList.lookup_eq_none.mp (hlacks.activeJobs cell hcell) hmem

/-- A recorded job is in both keys. -/
theorem listed_recordJob (index : Index) (now stamp : ℚ) (taskId : String)
    (jobMeta : JobMeta) {ttlSeconds : ℤ} (httl : 0 < ttlSeconds) :
    Jobs.getJobMeta (Jobs.recordJob index now stamp taskId jobMeta ttlSeconds).1 now
        taskId = some jobMeta ∧
      Listed (Jobs.recordJob index now stamp taskId jobMeta ttlSeconds).1 now
        jobMeta.ownerUserId taskId := by
  have hlater : now < now + ttlSeconds := by
    have : (0 : ℚ) < ttlSeconds := by exact_mod_cast httl
    linarith
  rw [recordJob_of_pos _ _ _ _ _ httl]
  constructor
  · refine fetch_eq_some.mpr ⟨_, Function.update_self _ _ _, ?_, rfl⟩
    simpa [Cell.Live] using hlater
  · refine ⟨_, fetch_eq_some.mpr ⟨_, Function.update_self _ _ _, ?_, rfl⟩,
      mem_zadd_self now stamp taskId _⟩
    simpa [Cell.Live] using hlater

end Lacks

end DownloaderBot.Jobs
