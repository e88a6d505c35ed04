import DownloaderBot.Core.OptimisticLock
import DownloaderBot.Download.RatelimitRuns

/-!
# Concurrent calls on one guild's bucket

`acquire` and `refund` as optimistic transactions on the raw hash: `HMGET`, then
the clock, then `MULTI`/`EXEC`.  `refund` has the two exits by `UNWATCH`, one on
each side of the clock reading; `acquire` leaves without a commit only by the
exception of its division.  Committed calls are linearizable.
-/

namespace DownloaderBot.RatelimitLocking

open DownloaderBot.OptimisticLock
open DownloaderBot.Ratelimit
open DownloaderBot.RatelimitRuns (Operation Reply)
open DownloaderBot.TransitionSystem

/-- How a call ends: by a return or by an exception. -/
abbrev Ending := Except ArithmeticError Reply

/-- One pass through the retry loop of `acquire`. -/
def acquireTransaction (capacity refillPerHour : ℤ) :
    Transaction (Option Bucket) ℚ Ending where
  peek _ := none
  decide raw now :=
    match acquire capacity refillPerHour raw now with
    | .ok (bucket, verdict) => .write (some bucket) (.ok (.verdict verdict))
    | .error error => .leave (.error error)

/-- One pass through the retry loop of `refund`. -/
def refundTransaction (capacity refillPerHour : ℤ) :
    Transaction (Option Bucket) ℚ Ending where
  peek
    | none => some (.ok .refunded)
    | some _ => none
  decide raw now :=
    match refund capacity refillPerHour raw now with
    | some bucket => .write (some bucket) (.ok .refunded)
    | none => .leave (.ok .refunded)

def transaction (capacity refillPerHour : ℤ) :
    Operation → Transaction (Option Bucket) ℚ Ending
  | .acquire => acquireTransaction capacity refillPerHour
  | .refund => refundTransaction capacity refillPerHour

/-- The call executed alone: the hash it writes and what it returns, or `none`
when it writes nothing. -/
def alone (capacity refillPerHour : ℤ) (operation : Operation)
    (raw : Option Bucket) (now : ℚ) : Option (Option Bucket × Ending) :=
  match operation with
  | .acquire =>
      match acquire capacity refillPerHour raw now with
      | .ok (bucket, verdict) => some (some bucket, .ok (.verdict verdict))
      | .error _ => none
  | .refund =>
      (refund capacity refillPerHour raw now).map fun bucket =>
        (some bucket, .ok .refunded)

/-- Read, clock reading and commit with nobody in between are the call alone. -/
theorem atomic_transaction (capacity refillPerHour : ℤ) (operation : Operation) :
    (transaction capacity refillPerHour operation).atomic =
      alone capacity refillPerHour operation := by
  funext raw now
  cases operation with
  | acquire =>
      simp only [Transaction.atomic, transaction, acquireTransaction, alone]
      cases acquire capacity refillPerHour raw now <;> rfl
  | refund =>
      simp only [Transaction.atomic, transaction, refundTransaction, alone]
      cases raw with
      | none => rfl
      | some bucket =>
          cases hrefund : refund capacity refillPerHour (some bucket) now <;>
            simp

variable {Client : Type} [DecidableEq Client]

/-- Any interleaving of any number of calls: the committed calls return what
they return one at a time in the order of their commits, with clock readings
that never step back, and leave the bucket they leave then.  Each takes effect
once, between its start and its end, and nothing but a commit changes the
bucket. -/
theorem concurrent_calls_linearized (capacity refillPerHour : ℤ)
    (operation : Client → Operation) (initial : Option Bucket) (clock : ℚ)
    {state : OptimisticLock.State Client (Option Bucket) ℚ Ending}
    (hrun : Reaches
      (step fun client => transaction capacity refillPerHour (operation client))
      unrestricted (start initial clock) state) :
    Linearized (fun client => alone capacity refillPerHour (operation client))
        initial state.value state.trace ∧
      (∀ commit ∈ commits state.trace, ∀ answer,
        .returned commit.client answer ∈ state.trace → answer = commit.result) ∧
      (∀ label next,
        step (fun client => transaction capacity refillPerHour (operation client))
            state label = some next →
          commits next.trace = commits state.trace →
            next.value = state.value) := by
  have hlinear :
      Linearized (fun client => alone capacity refillPerHour (operation client))
        initial state.value state.trace := by
    simpa only [atomic_transaction] using linearized_of_reaches hrun
  refine ⟨hlinear, fun commit hcommit answer hanswer =>
    hlinear.answer_eq hcommit hanswer, ?_⟩
  intro label next hstep hquiet
  rcases step_value hstep with ⟨client, now, result, htrace⟩ | ⟨hvalue, -, -⟩
  · rw [htrace, commits_concat] at hquiet
    simp [Event.commit] at hquiet
  · exact hvalue

/-- A refund that read the bucket before an acquire took the last token is
refused at `EXEC`, and credits what it then finds. -/
theorem concurrent_calls_linearized_refused :
    ∃ state, Reaches (step (transaction 2 5)) unrestricted
        (start (some ⟨1, 0⟩) 0) state ∧
      state.value = some ⟨241 / 240, 3⟩ ∧
      (commits state.trace).map Commit.client = [.acquire, .refund] ∧
      Linearized (alone 2 5) (some ⟨1, 0⟩) state.value state.trace := by
  obtain ⟨state, hrun, hcheck⟩ := exists_reaches_of_replay
    (step (transaction 2 5)) (start (some ⟨1, 0⟩) 0)
    [.invoke .refund, .watch .refund, .read .refund, .invoke .acquire,
      .watch .acquire, .read .acquire, .readClock .acquire, .exec .acquire,
      .readClock .refund, .exec .refund, .tick 3, .watch .refund, .read .refund,
      .readClock .refund, .exec .refund, .ret .refund]
    (fun state => decide (state.value = some ⟨241 / 240, 3⟩ ∧
      (commits state.trace).map Commit.client = [.acquire, .refund]))
    (by decide +kernel)
  obtain ⟨hvalue, hcommits⟩ := of_decide_eq_true hcheck
  exact ⟨state, hrun, hvalue, hcommits,
    (concurrent_calls_linearized 2 5 id (some ⟨1, 0⟩) 0 hrun).1⟩

end DownloaderBot.RatelimitLocking
