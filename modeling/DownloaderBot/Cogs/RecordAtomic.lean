import DownloaderBot.Cogs.Setup
import DownloaderBot.Download.Jobs

/-!
# Is recording a job atomic?

The three commands of `record_job` run in one `MULTI`/`EXEC`, and Redis undoes none of them
when another one errors.  The TTL is the retention of the guild in seconds, and
`/setup set` accepts every retention that fits its column.
-/

namespace DownloaderBot.RecordAtomic

open DownloaderBot.ExpiringStore
open DownloaderBot.Jobs
open DownloaderBot.SetupCog (Command)

/-- The score of a task in the set of the user. -/
def score (index : Index) (now : ℚ) (userId : ℕ) (taskId : String) : Option ℚ :=
  (fetch now (index.activeJobs userId)).bind (AList.lookup taskId)

/-- Both keys reflect the new job, and nothing else has changed. -/
structure Registered (before after : Index) (now : ℚ) (taskId : String)
    (jobMeta : JobMeta) : Prop where
  readable : getJobMeta after now taskId = some jobMeta
  listed : Listed after now jobMeta.ownerUserId taskId
  others : ∀ other ≠ taskId,
    score after now jobMeta.ownerUserId other = score before now jobMeta.ownerUserId other
  metas : ∀ other ≠ taskId, after.metas other = before.metas other
  activeJobs : ∀ userId ≠ jobMeta.ownerUserId,
    after.activeJobs userId = before.activeJobs userId

/-- Every key reads as it did, now and at any later time. -/
structure Untouched (before after : Index) (now : ℚ) : Prop where
  metas : ∀ taskId, ∀ time ≥ now,
    fetch time (after.metas taskId) = fetch time (before.metas taskId)
  activeJobs : ∀ userId, ∀ time ≥ now,
    fetch time (after.activeJobs userId) = fetch time (before.activeJobs userId)

/-- All or nothing. -/
def Atomic (before : Index) (now : ℚ) (taskId : String) (jobMeta : JobMeta) :
    Index × Except ResponseError Unit → Prop
  | (after, .ok ()) => Registered before after now taskId jobMeta
  | (after, .error _) => Untouched before after now

section Outcomes

variable {now stamp : ℚ} {taskId : String} {jobMeta : JobMeta} {ttlSeconds : ℤ}

/-- Of the members of a key, `ZADD` changes the one it adds. -/
theorem lookup_zadd_of_ne {other : String} (hother : other ≠ taskId)
    (key : Option (Cell (ScoredSet String ℚ) ℚ)) :
    (zadd now taskId stamp key).value.lookup other =
      (fetch now key).bind (AList.lookup other) := by
  cases key with
  | none => exact AList.lookup_insert_ne hother
  | some cell =>
      by_cases hlive : cell.Live now
      · simp only [zadd, fetch, if_pos hlive, AList.lookup_insert_ne hother,
          Option.bind_some]
      · simp only [zadd, fetch, if_neg hlive, AList.lookup_insert_ne hother,
          AList.lookup_empty, Option.bind_none]

/-- With a positive TTL all three commands succeed. -/
theorem registered_recordJob (index : Index) (httl : 0 < ttlSeconds) :
    Registered index (recordJob index now stamp taskId jobMeta ttlSeconds).1 now taskId
      jobMeta := by
  obtain ⟨hreadable, hlisted⟩ := listed_recordJob index now stamp taskId jobMeta httl
  refine ⟨hreadable, hlisted, fun other hother => ?_, fun other hother => ?_,
    fun userId huser => ?_⟩
  · have hlater : now < now + ttlSeconds := by
      have : (0 : ℚ) < ttlSeconds := by exact_mod_cast httl
      linarith
    have hset : fetch now ((recordJob index now stamp taskId jobMeta ttlSeconds).1.activeJobs
        jobMeta.ownerUserId) =
          some (zadd now taskId stamp (index.activeJobs jobMeta.ownerUserId)).value := by
      rw [recordJob_of_pos _ _ _ _ _ httl]
      refine fetch_eq_some.mpr ⟨_, Function.update_self _ _ _, ?_, rfl⟩
      simpa [Cell.Live] using hlater
    rw [score, hset]
    exact lookup_zadd_of_ne hother _
  · exact Function.update_of_ne hother _ _
  · exact Function.update_of_ne huser _ _

/-- With any other one the first command errors, and the last deletes the whole set. -/
theorem recordJob_of_nonpos (index : Index) (httl : ttlSeconds ≤ 0) :
    recordJob index now stamp taskId jobMeta ttlSeconds =
      ({ index with
          activeJobs := Function.update index.activeJobs jobMeta.ownerUserId none },
        .error .invalidExpireTime) := by
  simp only [recordJob, setEx, expire, if_neg httl.not_gt, Function.update_eq_self]

/-- Deleting the set goes unnoticed if and only if there was none. -/
theorem untouched_update_none {index : Index} {userId : ℕ} :
    Untouched index
        { index with activeJobs := Function.update index.activeJobs userId none } now ↔
      fetch now (index.activeJobs userId) = none := by
  constructor
  · intro huntouched
    have hsame := huntouched.activeJobs userId now le_rfl
    simp only [Function.update_self, fetch_none] at hsame
    exact hsame.symm
  · intro hnone
    refine ⟨fun _ _ _ => rfl, fun other time htime => ?_⟩
    rcases eq_or_ne other userId with rfl | hother
    · simp only [Function.update_self, fetch_none, fetch_eq_none_of_le htime hnone]
    · simp only [Function.update_of_ne hother]

end Outcomes

/-- Recording a job is all or nothing if and only if the retention of the guild is at
least an hour, or the user has no set to lose. -/
theorem recordJob_atomic_iff (index : Index) (now stamp : ℚ) (taskId : String)
    (jobMeta : JobMeta) (retentionHours : ℤ) :
    Atomic index now taskId jobMeta
        (recordJob index now stamp taskId jobMeta (retentionHours * 3600)) ↔
      1 ≤ retentionHours ∨ fetch now (index.activeJobs jobMeta.ownerUserId) = none := by
  by_cases hhours : 1 ≤ retentionHours
  · have httl : 0 < retentionHours * 3600 := by omega
    have hregistered : Registered index
        (recordJob index now stamp taskId jobMeta (retentionHours * 3600)).1 now taskId
        jobMeta := registered_recordJob index httl
    rw [recordJob_of_pos _ _ _ _ _ httl] at hregistered ⊢
    exact iff_of_true hregistered (.inl hhours)
  · have httl : retentionHours * 3600 ≤ 0 := by omega
    rw [recordJob_of_nonpos index httl]
    exact untouched_update_none.trans (or_iff_right hhours).symm

/-- The user has one job running, in a guild where `/setup set` has accepted a retention of
no hours: recording a second one fails and unlists the first. -/
theorem recordJob_not_atomic :
    let row := SetupCog.setRow 1 "dm" none 0
    let running : JobMeta := ⟨7, some 1, 2, "", true⟩
    let index := (recordJob .empty 0 0 "a" running 86400).1
    let recorded := recordJob index 60 60 "b" running (row.retentionHours * 3600)
    (Command.setupSet "dm" none 0).overwrites 1 = some row ∧
      recorded.2 = .error .invalidExpireTime ∧
      Listed index 60 7 "a" ∧ ¬ Listed recorded.1 60 7 "a" ∧
      ¬ Atomic index 60 "b" running recorded := by
  intro row running index recorded
  have hlisted : Listed index 60 7 "a" := by decide +kernel
  refine ⟨by decide +kernel, by decide +kernel, hlisted, by decide +kernel, ?_⟩
  intro hatomic
  rw [show recorded = _ from recordJob_of_nonpos index (by decide)] at hatomic
  obtain ⟨set, hset, -⟩ := hlisted
  rw [untouched_update_none.mp hatomic] at hset
  cases hset

end DownloaderBot.RecordAtomic
