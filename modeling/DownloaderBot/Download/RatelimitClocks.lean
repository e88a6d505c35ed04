import DownloaderBot.Download.RatelimitLocking

/-!
# The bucket under clocks that disagree

Committed calls with any clock readings, as several instances of the bot make them.  A call
that finds the key credits the time from the stored `last_refill` to its own reading, none
when the reading is the earlier one, and stores its reading either way.
-/

namespace DownloaderBot.RatelimitClocks

open DownloaderBot.Ratelimit
open DownloaderBot.RatelimitLocking (alone)
open DownloaderBot.RatelimitRuns (Operation)
open DownloaderBot.TokenBucket
open DownloaderBot.TransitionSystem

/-- A call that commits, and what its clock reads. -/
structure Commit where
  operation : Operation
  now : ℚ
  deriving DecidableEq, Repr

variable (capacity refillPerHour : ℤ)

/-- The hash after a committed call; `none` when the call commits nothing. -/
def commit (raw : Option Bucket) (call : Commit) : Option (Option Bucket) :=
  (alone capacity refillPerHour call.operation raw call.now).map Prod.fst

/-- The values of `last_refill` that the calls find and leave. -/
def stored : Option Bucket → List Commit → List ℚ
  | raw, [] => raw.toList.map Bucket.lastRefill
  | raw, call :: calls =>
      raw.toList.map Bucket.lastRefill ++
        ((commit capacity refillPerHour raw call).map fun after => stored after calls).getD []

/-- What a call that finds the bucket refills it for. -/
def stretch (bucket : Bucket) (now : ℚ) : Stretch ℚ := ⟨bucket.lastRefill, now⟩

/-- The stretches of time that the calls credit. -/
def credited : Option Bucket → List Commit → List (Stretch ℚ)
  | _, [] => []
  | raw, call :: calls =>
      raw.toList.map (stretch · call.now) ++
        ((commit capacity refillPerHour raw call).map fun after =>
          credited after calls).getD []

/-- `last_refill` never decreases, and no instant is credited twice. -/
structure CreditsOnce (raw : Option Bucket) (calls : List Commit) : Prop where
  lastRefill : (stored capacity refillPerHour raw calls).Pairwise (· ≤ ·)
  credited : ∀ instant,
    (credited capacity refillPerHour raw calls).countP (Stretch.Covers instant ·) ≤ 1

/-- No clock reading of the run steps back, not even behind the `last_refill` it starts
from. -/
def ReadInOrder (raw : Option Bucket) (calls : List Commit) : Prop :=
  (raw.toList.map Bucket.lastRefill ++ calls.map Commit.now).Pairwise (· ≤ ·)

variable {capacity refillPerHour : ℤ}

/-- Whatever the call, it stores its own clock reading. -/
theorem lastRefill_of_commit {raw after : Option Bucket} {call : Commit}
    (hcommit : commit capacity refillPerHour raw call = some after) :
    ∃ bucket, after = some bucket ∧ bucket.lastRefill = call.now := by
  obtain ⟨operation, now⟩ := call
  cases operation with
  | acquire =>
      simp only [commit, alone, acquire] at hcommit
      split at hcommit
      case h_1 bucket verdict hacquire =>
        cases hcommit
        refine ⟨bucket, rfl, ?_⟩
        split at hacquire
        · cases hacquire
          rfl
        · cases hdiv : trueDiv (1 - available capacity refillPerHour raw now)
            (refillRate refillPerHour) with
          | ok retryAfter =>
              rw [hdiv] at hacquire
              cases hacquire
              rfl
          | error raised =>
              rw [hdiv] at hacquire
              cases hacquire
      case h_2 => cases hcommit
  | refund =>
      cases raw with
      | none => cases hcommit
      | some bucket =>
          simp only [commit, alone, refund] at hcommit
          split at hcommit
          · cases hcommit
          · cases hcommit
            exact ⟨_, rfl, rfl⟩

/-- What is stored is what is read. -/
theorem stored_eq {raw last : Option Bucket} {calls : List Commit}
    (hrun : replay (commit capacity refillPerHour) raw calls = some last) :
    stored capacity refillPerHour raw calls =
      raw.toList.map Bucket.lastRefill ++ calls.map Commit.now := by
  induction calls generalizing raw with
  | nil => simp [stored]
  | cons call calls ih =>
      simp only [replay, Option.bind_eq_some_iff] at hrun
      obtain ⟨after, hcommit, hrest⟩ := hrun
      obtain ⟨bucket, rfl, hnow⟩ := lastRefill_of_commit hcommit
      simp [stored, hcommit, ih hrest, hnow]

/-- What is credited lies between one stored value and the next. -/
theorem credited_eq {raw last : Option Bucket} {calls : List Commit}
    (hrun : replay (commit capacity refillPerHour) raw calls = some last) :
    credited capacity refillPerHour raw calls =
      Stretch.consecutive (stored capacity refillPerHour raw calls) := by
  induction calls generalizing raw with
  | nil => cases raw <;> rfl
  | cons call calls ih =>
      simp only [replay, Option.bind_eq_some_iff] at hrun
      obtain ⟨after, hcommit, hrest⟩ := hrun
      obtain ⟨bucket, rfl, hnow⟩ := lastRefill_of_commit hcommit
      have hstored := stored_eq hrest
      cases raw with
      | none => simp [credited, stored, hcommit, ih hrest]
      | some found =>
          simp [credited, stored, hcommit, ih hrest, hstored, Stretch.consecutive, stretch,
            hnow]

/-- In a run of committed calls `last_refill` never decreases and no time is credited
twice if and only if no clock reading steps back. -/
theorem creditsOnce_iff {raw last : Option Bucket} {calls : List Commit}
    (hrun : replay (commit capacity refillPerHour) raw calls = some last) :
    CreditsOnce capacity refillPerHour raw calls ↔ ReadInOrder raw calls := by
  constructor
  · intro honce
    rw [ReadInOrder, ← stored_eq hrun]
    exact honce.lastRefill
  · intro horder
    have hstored : (stored capacity refillPerHour raw calls).Pairwise (· ≤ ·) := by
      rw [stored_eq hrun]
      exact horder
    refine ⟨hstored, fun instant => ?_⟩
    rw [credited_eq hrun]
    exact Stretch.countP_covers_consecutive_le_one hstored instant

/-- Three instances, the last reading being the latest. -/
theorem creditsOnce_iff_in_order :
    CreditsOnce 2 5 (some ⟨2, 0⟩) [⟨.acquire, 5⟩, ⟨.refund, 7⟩, ⟨.acquire, 10⟩] ↔
      ReadInOrder (some ⟨2, 0⟩) [⟨.acquire, 5⟩, ⟨.refund, 7⟩, ⟨.acquire, 10⟩] := by
  have hrun : replay (commit 2 5) (some ⟨2, 0⟩)
      [⟨.acquire, 5⟩, ⟨.refund, 7⟩, ⟨.acquire, 10⟩] = some (some ⟨1, 10⟩) := by
    decide +kernel
  exact creditsOnce_iff hrun

/-- The clock of the second call is five seconds behind: `last_refill` goes back, and the
third call credits those seconds again. -/
theorem not_creditsOnce :
    let calls : List Commit := [⟨.acquire, 10⟩, ⟨.acquire, 5⟩, ⟨.acquire, 10⟩]
    (replay (commit 2 5) (some ⟨2, 0⟩) calls).isSome = true ∧
      stored 2 5 (some ⟨2, 0⟩) calls = [0, 10, 5, 10] ∧
      (credited 2 5 (some ⟨2, 0⟩) calls).countP (Stretch.Covers 7 ·) = 2 ∧
      ¬ CreditsOnce 2 5 (some ⟨2, 0⟩) calls := by
  intro calls
  have hcredited : (credited 2 5 (some ⟨2, 0⟩) calls).countP (Stretch.Covers 7 ·) = 2 := by
    decide +kernel
  refine ⟨by decide +kernel, by decide +kernel, hcredited, fun honce => ?_⟩
  have htwice := honce.credited 7
  rw [hcredited] at htwice
  omega

end DownloaderBot.RatelimitClocks
