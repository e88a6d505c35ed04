import DownloaderBot.Cogs.CancelRuns

/-!
# One refund for one token

`/cancel` keeps no record of a refund: it refunds whenever it finds neither a
result nor progress.  Two cancellations of a job that no worker has touched both
find that.  Runs in which no `/cancel` comes that late refund every token at most
once.
-/

namespace DownloaderBot.CancelRuns

open DownloaderBot.JobControl
open DownloaderBot.TransitionSystem

/-- A `/cancel` sets the flag of a refundable job anew only once a worker has
left a result or progress. -/
def CancelledOnce (state : State) : Label → Prop
  | .setFlag invocation =>
      match state.cancel invocation with
      | .resolved taskId jobMeta =>
          state.flag taskId = true → Refundable jobMeta →
            state.result taskId = .stored ∨ state.progress taskId = .stored
      | _ => True
  | _ => True

instance (state : State) (label : Label) : Decidable (CancelledOnce state label) :=
  match label with
  | .setFlag invocation =>
      match h : state.cancel invocation with
      | .resolved taskId jobMeta =>
          decidable_of_iff (state.flag taskId = true → Refundable jobMeta →
            state.result taskId = .stored ∨ state.progress taskId = .stored)
            (by simp only [CancelledOnce, h])
      | .idle | .flagged .. | .sawReady .. | .refunding _ | .ended =>
          isTrue (by simp only [CancelledOnce, h])
  | .download .. | .record _ | .forget _ | .resolve .. | .readReady _
  | .readProgress _ | .credit .. | .abort _ | .pickUp .. | .firstWrite _
  | .write _ | .leaveBody _ | .storeResult _ | .lose _ => isTrue trivial

/-- An invocation in this phase refunds the job unless a worker interferes. -/
def DueRefund (state : State) (taskId : String) : CancelPhase → Prop
  | .flagged target jobMeta =>
      target = taskId ∧ Refundable jobMeta ∧ state.result taskId ≠ .stored ∧
        state.progress taskId ≠ .stored
  | .sawReady target jobMeta ready =>
      target = taskId ∧ Refundable jobMeta ∧ ready = false ∧
        state.progress taskId ≠ .stored
  | _ => False

/-- At most one invocation is about to refund a job, none is once it has been
refunded, and nobody refunds before the flag is set. -/
structure Exclusive (state : State) : Prop where
  flagged : ∀ invocation taskId,
    DueRefund state taskId (state.cancel invocation) → state.flag taskId = true
  refunded : ∀ taskId, 0 < state.refunds taskId → state.flag taskId = true
  unpaid : ∀ invocation taskId,
    DueRefund state taskId (state.cancel invocation) → state.refunds taskId = 0
  unique : ∀ invocation other taskId,
    DueRefund state taskId (state.cancel invocation) →
    DueRefund state taskId (state.cancel other) → invocation = other
  once : ∀ taskId, state.refunds taskId ≤ 1

section Exclusive

variable {capacity refillPerHour : ℤ} {state next : State} {label : Label}

theorem exclusive_start (bucket : ℕ → Option Ratelimit.Bucket) :
    Exclusive (start bucket) := by
  constructor <;> simp [start, DueRefund]

/-- Steps that refund nothing and make nobody's refund due. -/
theorem Exclusive.shrink (hexclusive : Exclusive state)
    (hdue : ∀ invocation taskId, DueRefund next taskId (next.cancel invocation) →
      DueRefund state taskId (state.cancel invocation))
    (hflag : next.flag = state.flag) (hrefunds : next.refunds = state.refunds) :
    Exclusive next where
  flagged invocation taskId h := by
    rw [hflag]
    exact hexclusive.flagged invocation taskId (hdue invocation taskId h)
  refunded taskId h := by
    rw [hflag]
    exact hexclusive.refunded taskId (hrefunds ▸ h)
  unpaid invocation taskId h := by
    rw [hrefunds]
    exact hexclusive.unpaid invocation taskId (hdue invocation taskId h)
  unique invocation other taskId h h' :=
    hexclusive.unique invocation other taskId (hdue invocation taskId h)
      (hdue other taskId h')
  once taskId := by
    rw [hrefunds]
    exact hexclusive.once taskId

/-- A cancellation that moves on to a phase with no refund due that was not. -/
theorem Exclusive.moveCancel (hexclusive : Exclusive state) (invocation : ℕ)
    {phase : CancelPhase}
    (hphase : ∀ taskId, DueRefund state taskId phase →
      DueRefund state taskId (state.cancel invocation)) :
    Exclusive (state.moveCancel invocation phase) := by
  refine hexclusive.shrink ?_ rfl rfl
  intro other taskId hmoved
  have hdue : DueRefund state taskId
      (Function.update state.cancel invocation phase other) := hmoved
  rcases eq_or_ne other invocation with rfl | hother
  · exact hphase taskId (by simpa using hdue)
  · simpa [hother] using hdue

/-- Storing a key of the result backend makes no refund due. -/
theorem Exclusive.store (hexclusive : Exclusive state)
    (hcancel : next.cancel = state.cancel) (hflag : next.flag = state.flag)
    (hrefunds : next.refunds = state.refunds)
    (hresult : ∀ taskId, state.result taskId = .stored →
      next.result taskId = .stored)
    (hprogress : ∀ taskId, state.progress taskId = .stored →
      next.progress taskId = .stored) : Exclusive next := by
  refine hexclusive.shrink (fun invocation taskId hdue => ?_) hflag hrefunds
  rw [hcancel] at hdue
  cases hphase : state.cancel invocation with
  | flagged target jobMeta =>
      rw [hphase] at hdue
      exact ⟨hdue.1, hdue.2.1, fun h => hdue.2.2.1 (hresult taskId h),
        fun h => hdue.2.2.2 (hprogress taskId h)⟩
  | sawReady target jobMeta ready =>
      rw [hphase] at hdue
      exact ⟨hdue.1, hdue.2.1, hdue.2.2.1, fun h => hdue.2.2.2 (hprogress taskId h)⟩
  | _ =>
      rw [hphase] at hdue
      exact hdue.elim

/-- Setting the flag: the refund falls due for the first invocation only. -/
theorem Exclusive.setFlag (hexclusive : Exclusive state) {invocation : ℕ}
    {taskId : String} {jobMeta : Jobs.JobMeta}
    (hfirst : state.flag taskId = true → Refundable jobMeta →
      state.result taskId = .stored ∨ state.progress taskId = .stored) :
    Exclusive { state.moveCancel invocation (.flagged taskId jobMeta) with
      flag := Function.update state.flag taskId true } := by
  have hnew : ∀ {target}, DueRefund state target (.flagged taskId jobMeta) →
      target = taskId ∧ state.flag taskId = false := by
    rintro target ⟨rfl, hrefundable, hresult, hprogress⟩
    refine ⟨rfl, ?_⟩
    rw [← Bool.not_eq_true]
    intro hflag
    exact (hfirst hflag hrefundable).elim hresult hprogress
  have hkept : ∀ {target}, state.flag target = true →
      Function.update state.flag taskId true target = true := by
    intro target hflag
    rcases eq_or_ne target taskId with rfl | hne
    · simp
    · simpa [hne] using hflag
  -- Who is due afterwards: the others as before, or the invocation itself.
  have hdue : ∀ {other target},
      DueRefund state target
        (Function.update state.cancel invocation (.flagged taskId jobMeta) other) →
      (other ≠ invocation ∧ DueRefund state target (state.cancel other)) ∨
        (other = invocation ∧ target = taskId ∧ state.flag taskId = false) := by
    intro other target h
    rcases eq_or_ne other invocation with rfl | hother
    · exact .inr ⟨rfl, hnew (by simpa using h)⟩
    · exact .inl ⟨hother, by simpa [hother] using h⟩
  refine ⟨?_, ?_, ?_, ?_, hexclusive.once⟩
  · intro other target h
    rcases hdue h with ⟨-, hold⟩ | ⟨-, rfl, -⟩
    · exact hkept (hexclusive.flagged other target hold)
    · simp
  · intro target h
    exact hkept (hexclusive.refunded target h)
  · intro other target h
    rcases hdue h with ⟨-, hold⟩ | ⟨-, rfl, hflag⟩
    · exact hexclusive.unpaid other target hold
    · by_contra hpaid
      have := hexclusive.refunded target (Nat.pos_of_ne_zero hpaid)
      simp [hflag] at this
  · intro left right target hleft hright
    rcases hdue hleft with ⟨-, hold⟩ | ⟨rfl, rfl, hflag⟩ <;>
      rcases hdue hright with ⟨-, hold'⟩ | ⟨rfl, heq, hflag'⟩
    · exact hexclusive.unique left right target hold hold'
    · subst heq
      simp [hexclusive.flagged left _ hold] at hflag'
    · simp [hexclusive.flagged right _ hold'] at hflag
    · rfl

/-- The refund: it was due for this invocation, hence for no other, and is made
for the first time. -/
theorem Exclusive.refund (hexclusive : Exclusive state) {invocation : ℕ}
    {taskId : String} {phase : CancelPhase}
    (hdue : DueRefund state taskId (state.cancel invocation))
    (hphase : ∀ target, ¬ DueRefund state target phase) :
    Exclusive { state.moveCancel invocation phase with
      refunds := Function.update state.refunds taskId
        (state.refunds taskId + 1) } := by
  have hmoved : Exclusive (state.moveCancel invocation phase) :=
    hexclusive.moveCancel invocation fun target h => absurd h (hphase target)
  -- Nobody is left whose refund of this job is due.
  have hnone : ∀ {other target},
      DueRefund state target (Function.update state.cancel invocation phase other) →
      target ≠ taskId := by
    rintro other target h rfl
    rcases eq_or_ne other invocation with rfl | hother
    · exact hphase target (by simpa using h)
    · exact hother (hexclusive.unique other invocation target
        (by simpa [hother] using h) hdue)
  refine ⟨hmoved.flagged, ?_, ?_, hmoved.unique, ?_⟩
  · intro target h
    rcases eq_or_ne target taskId with rfl | hne
    · exact hexclusive.flagged invocation target hdue
    · exact hexclusive.refunded target (by simpa [hne] using h)
  · intro other target h
    have hne : target ≠ taskId := hnone h
    have hzero : state.refunds target = 0 := hmoved.unpaid other target h
    simpa [hne] using hzero
  · intro target
    rcases eq_or_ne target taskId with rfl | hne
    · simp [hexclusive.unpaid invocation target hdue]
    · simpa [hne] using hexclusive.once target

theorem stored_update {slots : String → Slot} {taskId other : String}
    (hstored : slots other = .stored) :
    Function.update slots taskId .stored other = .stored := by
  rcases eq_or_ne other taskId with rfl | hne
  · simp
  · simpa [hne] using hstored

/-- The step lemma. -/
theorem exclusive_step (hexclusive : Exclusive state)
    (honce : CancelledOnce state label)
    (hstep : step capacity refillPerHour state label = some next) :
    Exclusive next := by
  cases transition_of_step hstep with
  | deny | publish | record | pickUp | forget | leaveBody | lose =>
      exact hexclusive.store rfl rfl rfl (fun _ h => h) fun _ h => h
  | resolve invocation | decideNone invocation | abort invocation =>
      exact hexclusive.moveCancel invocation fun _ h => h.elim
  | setFlag invocation taskId jobMeta hphase =>
      simp only [CancelledOnce, hphase] at honce
      exact hexclusive.setFlag honce
  | readReady invocation taskId jobMeta hphase =>
      apply hexclusive.moveCancel invocation
      intro target hdue
      obtain ⟨rfl, hrefundable, hready, hprogress⟩ := hdue
      rw [hphase]
      exact ⟨rfl, hrefundable, of_decide_eq_false hready, hprogress⟩
  | decideRefund invocation taskId jobMeta ready guildId hphase hdue =>
      obtain ⟨hrefundable, hready, hprogress⟩ := refundDue_eq_some hdue
      refine hexclusive.refund ?_ fun _ h => h.elim
      rw [hphase]
      exact ⟨rfl, hrefundable, hready, of_decide_eq_false hprogress⟩
  | credit invocation now bucket =>
      have hmoved : Exclusive (state.moveCancel invocation .ended) :=
        hexclusive.moveCancel invocation fun _ h => h.elim
      exact hmoved.store rfl rfl rfl (fun _ h => h) fun _ h => h
  | firstWrite attempt taskId | write attempt taskId =>
      exact hexclusive.store rfl rfl rfl (fun _ h => h) fun _ h => stored_update h
  | storeResult attempt taskId =>
      exact hexclusive.store rfl rfl rfl (fun _ h => stored_update h) fun _ h => h

end Exclusive

/-- In every run in which no `/cancel` sets the flag of a refundable job anew
while the job has neither a result nor progress, no job is refunded more often
than it consumed a token, which it did at most once. -/
theorem refunds_le_consumed (capacity refillPerHour : ℤ)
    (bucket : ℕ → Option Ratelimit.Bucket) (state : State)
    (hrun : Reaches (step capacity refillPerHour) CancelledOnce (start bucket)
      state) (taskId : String) :
    state.refunds taskId ≤ state.consumed taskId ∧ state.consumed taskId ≤ 1 := by
  have haccounted : Accounted state :=
    hrun.invariant (accounted_start bucket)
      fun _ _ _ h _ hstep => accounted_step h hstep
  have hexclusive : Exclusive state :=
    hrun.invariant (exclusive_start bucket)
      fun _ _ _ h honce hstep => exclusive_step h honce hstep
  refine ⟨?_, haccounted.consumed_le taskId⟩
  rcases Nat.eq_zero_or_pos (state.refunds taskId) with hzero | hpos
  · omega
  · obtain ⟨jobMeta, hpublished, htoken⟩ := haccounted.refunded taskId hpos
    rw [haccounted.token taskId jobMeta hpublished htoken]
    exact hexclusive.once taskId

/-- A second cancellation after the worker has refused the job and stored so:
the one token is refunded once. -/
theorem refunds_le_consumed_refused :
    ∃ state, Reaches (step 2 5) CancelledOnce (start fun _ => none) state ∧
      state.refunds "a" = 1 ∧
      state.refunds "a" ≤ state.consumed "a" ∧ state.consumed "a" ≤ 1 := by
  obtain ⟨state, hrun, hcheck⟩ := exists_reaches_of_replay
    (guarded (step 2 5) CancelledOnce) (start fun _ => none)
    [.download "a" ⟨7, false, some ⟨1, 9⟩⟩ 3 "" 0, .record "a",
      .resolve 0 ⟨7, false, some ⟨1, 9⟩⟩ "a", .setFlag 0, .readReady 0,
      .readProgress 0, .credit 0 1, .pickUp 0 "a", .storeResult 0,
      .resolve 1 ⟨7, false, some ⟨1, 9⟩⟩ "a", .setFlag 1, .readReady 1,
      .readProgress 1]
    (fun state => state.refunds "a" = 1) (by decide +kernel)
  exact ⟨state, hrun.of_guarded, of_decide_eq_true hcheck,
    refunds_le_consumed 2 5 (fun _ => none) state hrun.of_guarded "a"⟩

/-- Two downloads take both tokens of a guild; cancelling the first of them
twice while it is queued gives both back. -/
theorem refunded_twice :
    ∃ state, Reaches (step 2 5) unrestricted (start fun _ => none) state ∧
      state.consumed "a" = 1 ∧ state.refunds "a" = 2 ∧
      state.bucket 1 = some ⟨2, 0⟩ := by
  obtain ⟨state, hrun, hcheck⟩ := exists_reaches_of_replay
    (step 2 5) (start fun _ => none)
    [.download "a" ⟨7, false, some ⟨1, 9⟩⟩ 3 "" 0, .record "a",
      .download "b" ⟨7, false, some ⟨1, 9⟩⟩ 4 "" 0, .record "b",
      .resolve 0 ⟨7, false, some ⟨1, 9⟩⟩ "a", .setFlag 0, .readReady 0,
      .readProgress 0, .credit 0 0,
      .resolve 1 ⟨7, false, some ⟨1, 9⟩⟩ "a", .setFlag 1, .readReady 1,
      .readProgress 1, .credit 1 0]
    (fun state => decide (state.consumed "a" = 1 ∧ state.refunds "a" = 2 ∧
      state.bucket 1 = some ⟨2, 0⟩))
    (by decide +kernel)
  exact ⟨state, hrun, of_decide_eq_true hcheck⟩

end DownloaderBot.CancelRuns
