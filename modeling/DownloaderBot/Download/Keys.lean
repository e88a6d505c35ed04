import DownloaderBot.Worker.Healthcheck

/-!
# The keys

Everything that the program keeps in Redis stands under six shapes of keys.  Whatever the
task ids and the roles are, no two keys coincide, and none is a bare task id, under which
Taskiq keeps a result.
-/

namespace DownloaderBot.Keys

open DownloaderBot.Healthcheck (sentinelKey sentinelPrefix heartbeatNamespace)
open DownloaderBot.Text (append_separator_inj toString_injective)

/-- What a key is for. -/
inductive Slot
  | jobMeta (taskId : String)
  | activeJobs (userId : ℕ)
  | archiveUrl (taskId : String)
  | delivered (taskId : String)
  | bucket (guildId : ℕ)
  | sentinel (role : String) (pid : ℕ)
  deriving DecidableEq, Repr

/-- `jobs._META_KEY`. -/
def metaKey (taskId : String) : String := "task:" ++ taskId ++ ":meta"

/-- `jobs._USER_JOBS_KEY`. -/
def userJobsKey (userId : ℕ) : String := "user:" ++ toString userId ++ ":active_jobs"

/-- `idempotency._ARCHIVE_URL_KEY`. -/
def archiveUrlKey (taskId : String) : String := "task:" ++ taskId ++ ":archive_url"

/-- `idempotency._DELIVERED_KEY`. -/
def deliveredKey (taskId : String) : String := "task:" ++ taskId ++ ":delivered"

/-- `ratelimit._KEY`. -/
def bucketKey (guildId : ℕ) : String := "ratelimit:guild:" ++ toString guildId

def Slot.key : Slot → String
  | .jobMeta taskId => metaKey taskId
  | .activeJobs userId => userJobsKey userId
  | .archiveUrl taskId => archiveUrlKey taskId
  | .delivered taskId => deliveredKey taskId
  | .bucket guildId => bucketKey guildId
  | .sentinel role pid => sentinelKey role pid

/-- The first five characters of a key and, for the keys of a task, the last one. -/
def Slot.mark : Slot → List Char × Option Char
  | .jobMeta _ => (['t', 'a', 's', 'k', ':'], some 'a')
  | .activeJobs _ => (['u', 's', 'e', 'r', ':'], none)
  | .archiveUrl _ => (['t', 'a', 's', 'k', ':'], some 'l')
  | .delivered _ => (['t', 'a', 's', 'k', ':'], some 'd')
  | .bucket _ => (['r', 'a', 't', 'e', 'l'], none)
  | .sentinel .. => (['t', 'a', 's', 'k', 'i'], none)

def markOf (text : List Char) : List Char × Option Char :=
  (text.take 5, if text.take 5 = ['t', 'a', 's', 'k', ':'] then text.getLast? else none)

/-- The shape of a key can be read off it. -/
theorem markOf_key (slot : Slot) : markOf slot.key.toList = slot.mark := by
  have htake (leading rest : String) (hlength : 5 ≤ leading.toList.length) :
      (leading ++ rest).toList.take 5 = leading.toList.take 5 := by
    rw [String.toList_append, List.take_append_of_le_length hlength]
  have htask (taskId ending : String) (last : Char)
      (hlast : ending.toList.getLast? = some last) :
      markOf ("task:" ++ taskId ++ ending).toList = (['t', 'a', 's', 'k', ':'], some last) := by
    have hfirst : ("task:" ++ taskId ++ ending).toList.take 5 = ['t', 'a', 's', 'k', ':'] := by
      rw [String.append_assoc, htake "task:" _ (by decide)]
      rfl
    have hend : ("task:" ++ taskId ++ ending).toList.getLast? = some last := by
      rw [String.toList_append, List.getLast?_append, hlast]
      rfl
    rw [markOf, hfirst, if_pos rfl, hend]
  have hother (leading rest : String) (hlength : 5 ≤ leading.toList.length)
      (hne : leading.toList.take 5 ≠ ['t', 'a', 's', 'k', ':']) :
      markOf (leading ++ rest).toList = (leading.toList.take 5, none) := by
    rw [markOf, htake leading rest hlength, if_neg hne]
  cases slot with
  | jobMeta taskId => exact htask taskId ":meta" 'a' (by decide)
  | archiveUrl taskId => exact htask taskId ":archive_url" 'l' (by decide)
  | delivered taskId => exact htask taskId ":delivered" 'd' (by decide)
  | activeJobs userId =>
      rw [Slot.key, userJobsKey, String.append_assoc]
      exact hother "user:" _ (by decide) (by decide)
  | bucket guildId => exact hother "ratelimit:guild:" _ (by decide) (by decide)
  | sentinel role pid =>
      rw [Slot.key, sentinelKey, sentinelPrefix, String.append_assoc, String.append_assoc]
      exact hother heartbeatNamespace _ (by decide) (by decide)

theorem taskKey_injective (ending : String) :
    Function.Injective fun taskId => "task:" ++ taskId ++ ending := by
  intro taskId other heq
  have hlist := congrArg String.toList heq
  simp only [String.toList_append, List.append_cancel_right_eq,
    List.append_cancel_left_eq] at hlist
  exact String.toList_injective hlist

theorem userJobsKey_injective : Function.Injective userJobsKey := by
  intro userId other heq
  have hlist : ("user:" ++ toString userId ++ ":active_jobs").toList =
      ("user:" ++ toString other ++ ":active_jobs").toList := congrArg String.toList heq
  simp only [String.toList_append, List.append_cancel_right_eq,
    List.append_cancel_left_eq] at hlist
  exact toString_injective (String.toList_injective hlist)

theorem bucketKey_injective : Function.Injective bucketKey := by
  intro guildId other heq
  have hlist : ("ratelimit:guild:" ++ toString guildId).toList =
      ("ratelimit:guild:" ++ toString other).toList := congrArg String.toList heq
  simp only [String.toList_append, List.append_cancel_left_eq] at hlist
  exact toString_injective (String.toList_injective hlist)

/-- The process id is what comes after the last colon. -/
theorem sentinelKey_injective {role other : String} {pid otherPid : ℕ}
    (heq : sentinelKey role pid = sentinelKey other otherPid) :
    role = other ∧ pid = otherPid := by
  have hcolon (number : ℕ) : ':' ∉ (toString number).toList.reverse := by
    rw [List.mem_reverse, Nat.toString_eq_ofList_toDigits, String.toList_ofList]
    intro hmem
    exact absurd (Nat.isDigit_of_mem_toDigits (by decide) (by decide) hmem) (by decide)
  have hreverse (role : String) (pid : ℕ) : (sentinelKey role pid).toList.reverse =
      (toString pid).toList.reverse ++
        ':' :: (role.toList.reverse ++ heartbeatNamespace.toList.reverse) := by
    rw [sentinelKey, sentinelPrefix]
    simp only [String.toList_append, List.reverse_append]
    rfl
  have hlist := congrArg (fun key => key.toList.reverse) heq
  simp only [hreverse] at hlist
  obtain ⟨hpid, hrole⟩ := (append_separator_inj (hcolon pid) (hcolon otherPid)).mp hlist
  exact ⟨String.toList_injective (List.reverse_injective (List.append_cancel_right hrole)),
    toString_injective (String.toList_injective (List.reverse_injective hpid))⟩

/-- No two slots share a key. -/
theorem key_injective : Function.Injective Slot.key := by
  intro slot other heq
  have hmark : slot.mark = other.mark := by rw [← markOf_key, ← markOf_key, heq]
  cases slot with
  | jobMeta taskId =>
      cases other with
      | jobMeta _ => exact congrArg _ (taskKey_injective ":meta" heq)
      | _ => simp [Slot.mark] at hmark
  | archiveUrl taskId =>
      cases other with
      | archiveUrl _ => exact congrArg _ (taskKey_injective ":archive_url" heq)
      | _ => simp [Slot.mark] at hmark
  | delivered taskId =>
      cases other with
      | delivered _ => exact congrArg _ (taskKey_injective ":delivered" heq)
      | _ => simp [Slot.mark] at hmark
  | activeJobs userId =>
      cases other with
      | activeJobs _ => exact congrArg _ (userJobsKey_injective heq)
      | _ => simp [Slot.mark] at hmark
  | bucket guildId =>
      cases other with
      | bucket _ => exact congrArg _ (bucketKey_injective heq)
      | _ => simp [Slot.mark] at hmark
  | sentinel role pid =>
      cases other with
      | sentinel _ _ =>
          obtain ⟨rfl, rfl⟩ := sentinelKey_injective heq
          rfl
      | _ => simp [Slot.mark] at hmark

/-- A key has a colon in it, a bare task id has none. -/
theorem key_ne {taskId : String} (hbare : ':' ∉ taskId.toList) (slot : Slot) :
    slot.key ≠ taskId := by
  rintro rfl
  have hcolon {leading rest : String} (hleading : ':' ∈ leading.toList) :
      ':' ∈ (leading ++ rest).toList := by
    rw [String.toList_append]
    exact List.mem_append_left _ hleading
  apply hbare
  cases slot with
  | jobMeta taskId => exact hcolon (hcolon (by decide))
  | activeJobs userId => exact hcolon (hcolon (by decide))
  | archiveUrl taskId => exact hcolon (hcolon (by decide))
  | delivered taskId => exact hcolon (hcolon (by decide))
  | bucket guildId => exact hcolon (by decide)
  | sentinel role pid => exact hcolon (hcolon (hcolon (by decide)))

end DownloaderBot.Keys
