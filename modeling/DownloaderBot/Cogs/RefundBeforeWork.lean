import DownloaderBot.Cogs.CancelRuns

/-!
# A refund means no work

`/cancel` takes absent progress for "no worker got there".  That is wrong in two
ways: a worker that has read the flag as unset may not have written yet, and the
result backend may have dropped what was written.  Runs without refunds at these
moments never refund a job that is worked on, before the refund or after it.
-/

namespace DownloaderBot.CancelRuns

open DownloaderBot.JobControl
open DownloaderBot.TransitionSystem

/-- The steps with the result backend dropping what it holds of a task. -/
inductive AgingLabel
  | act (label : Label)
  | dropResult (taskId : String)
  | dropProgress (taskId : String)

def agingStep (capacity refillPerHour : ℤ) (state : State) :
    AgingLabel → Option State
  | .act label => step capacity refillPerHour state label
  | .dropResult taskId =>
      if state.result taskId = .stored then
        some { state with
          result := Function.update state.result taskId .dropped }
      else none
  | .dropProgress taskId =>
      if state.progress taskId = .stored then
        some { state with
          progress := Function.update state.progress taskId .dropped }
      else none

/-- When a `/cancel` of a refundable job that found no result reads the progress,
what was stored has not been dropped, and if nothing was stored yet, no attempt
is between its look at the flag and its first write. -/
def UntouchedRefund (state : State) : AgingLabel → Prop
  | .act (.readProgress invocation) =>
      match state.cancel invocation with
      | .sawReady taskId jobMeta ready =>
          Refundable jobMeta → ready = false →
            state.progress taskId ≠ .dropped ∧
            (state.progress taskId = .unset →
              ∀ attempt, state.attempt attempt ≠ .checked taskId)
      | _ => True
  | _ => True

/-- The task an invocation has set the flag of and still decides on. -/
def CancelPhase.deciding : CancelPhase → Option String
  | .flagged taskId _ => some taskId
  | .sawReady taskId _ _ => some taskId
  | _ => none

/-- Work shows in the progress key, and a refunded job has its flag set, has not
been worked on, and has no attempt that is about to. -/
structure Untouched (state : State) : Prop where
  past : ∀ attempt taskId, state.attempt attempt = .past taskId →
    state.pastFirstWrite taskId = true
  written : ∀ taskId, state.pastFirstWrite taskId = true →
    state.progress taskId ≠ .unset
  flagged : ∀ invocation taskId,
    (state.cancel invocation).deciding = some taskId → state.flag taskId = true
  refunded : ∀ taskId, 0 < state.refunds taskId →
    state.flag taskId = true ∧ state.pastFirstWrite taskId = false ∧
      ∀ attempt, state.attempt attempt ≠ .checked taskId

section Untouched

variable {capacity refillPerHour : ℤ} {state next : State}

theorem untouched_start (bucket : ℕ → Option Ratelimit.Bucket) :
    Untouched (start bucket) := by
  constructor <;> simp [start, CancelPhase.deciding]

/-- Steps of `/download` and of the index, and changes of the stored result. -/
theorem Untouched.of_eq (huntouched : Untouched state)
    (hattempt : next.attempt = state.attempt)
    (hpast : next.pastFirstWrite = state.pastFirstWrite)
    (hprogress : next.progress = state.progress)
    (hcancel : next.cancel = state.cancel) (hflag : next.flag = state.flag)
    (hrefunds : next.refunds = state.refunds) : Untouched next := by
  constructor
  · simpa only [hattempt, hpast] using huntouched.past
  · simpa only [hpast, hprogress] using huntouched.written
  · simpa only [hcancel, hflag] using huntouched.flagged
  · simpa only [hrefunds, hflag, hpast, hattempt] using huntouched.refunded

/-- A progress key that is written or dropped was or becomes set. -/
theorem Untouched.setProgress (huntouched : Untouched state) (taskId : String)
    {slot : Slot} (hslot : slot ≠ .unset) :
    Untouched { state with
      progress := Function.update state.progress taskId slot } := by
  refine ⟨huntouched.past, ?_, huntouched.flagged, huntouched.refunded⟩
  intro other hpast
  rcases eq_or_ne other taskId with rfl | hne
  · simpa using hslot
  · simpa [hne] using huntouched.written other hpast

theorem Untouched.moveCancel (huntouched : Untouched state) (invocation : ℕ)
    {phase : CancelPhase}
    (hphase : ∀ taskId, phase.deciding = some taskId →
      state.flag taskId = true) :
    Untouched (state.moveCancel invocation phase) := by
  refine ⟨huntouched.past, huntouched.written, ?_, huntouched.refunded⟩
  intro other taskId hdeciding
  rcases eq_or_ne other invocation with rfl | hother
  · exact hphase taskId (by simpa [State.moveCancel] using hdeciding)
  · exact huntouched.flagged other taskId
      (by simpa [State.moveCancel, hother] using hdeciding)

theorem Untouched.setFlag (huntouched : Untouched state) (taskId : String) :
    Untouched { state with
      flag := Function.update state.flag taskId true } := by
  have hkept : ∀ {other}, state.flag other = true →
      Function.update state.flag taskId true other = true := by
    intro other hflag
    rcases eq_or_ne other taskId with rfl | hne
    · simp
    · simpa [hne] using hflag
  refine ⟨huntouched.past, huntouched.written, ?_, ?_⟩
  · exact fun invocation other hdeciding =>
      hkept (huntouched.flagged invocation other hdeciding)
  · intro other hrefunds
    obtain ⟨hflag, hrest⟩ := huntouched.refunded other hrefunds
    exact ⟨hkept hflag, hrest⟩

/-- An attempt that moves on, to the body only past an unset flag and past the
first write only where that is on record. -/
theorem Untouched.moveAttempt (huntouched : Untouched state) (attempt : ℕ)
    {phase : AttemptPhase}
    (hpast : ∀ taskId, phase = .past taskId → state.pastFirstWrite taskId = true)
    (hchecked : ∀ taskId, phase = .checked taskId → state.flag taskId = false) :
    Untouched (state.moveAttempt attempt phase) := by
  refine ⟨?_, huntouched.written, huntouched.flagged, ?_⟩
  · intro other taskId hphase
    rcases eq_or_ne other attempt with rfl | hother
    · exact hpast taskId (by simpa [State.moveAttempt] using hphase)
    · exact huntouched.past other taskId
        (by simpa [State.moveAttempt, hother] using hphase)
  · intro taskId hrefunds
    obtain ⟨hflag, hunworked, hnone⟩ := huntouched.refunded taskId hrefunds
    refine ⟨hflag, hunworked, fun other hphase => ?_⟩
    rcases eq_or_ne other attempt with rfl | hother
    · have := hchecked taskId (by simpa [State.moveAttempt] using hphase)
      exact absurd (hflag.symm.trans this) (by simp)
    · exact hnone other (by simpa [State.moveAttempt, hother] using hphase)

/-- The first write of an attempt that found the flag unset: no such attempt is
left once the job has been refunded. -/
theorem Untouched.firstWrite (huntouched : Untouched state) {attempt : ℕ}
    {taskId : String} (hphase : state.attempt attempt = .checked taskId) :
    Untouched { state.moveAttempt attempt (.past taskId) with
      progress := Function.update state.progress taskId .stored
      pastFirstWrite := Function.update state.pastFirstWrite taskId true } := by
  refine ⟨?_, ?_, huntouched.flagged, ?_⟩
  · intro other target hother
    rcases eq_or_ne target taskId with rfl | hne
    · simp
    · rcases eq_or_ne other attempt with rfl | hattempt
      · have heq : taskId = target := by
          simpa [State.moveAttempt] using hother
        exact absurd heq.symm hne
      · simpa [State.moveAttempt, hne] using huntouched.past other target
          (by simpa [State.moveAttempt, hattempt] using hother)
  · intro target hpast
    rcases eq_or_ne target taskId with rfl | hne
    · simp
    · simpa [State.moveAttempt, hne] using huntouched.written target
        (by simpa [hne] using hpast)
  · intro target hrefunds
    obtain ⟨hflag, hunworked, hnone⟩ := huntouched.refunded target hrefunds
    have hne : target ≠ taskId := by
      rintro rfl
      exact hnone attempt hphase
    refine ⟨hflag, by simpa [State.moveAttempt, hne] using hunworked,
      fun other hother => ?_⟩
    rcases eq_or_ne other attempt with rfl | hattempt
    · simp [State.moveAttempt] at hother
    · exact hnone other (by simpa [State.moveAttempt, hattempt] using hother)

/-- The refund of a job that nobody has touched. -/
theorem Untouched.refund (huntouched : Untouched state) {taskId : String}
    (hflag : state.flag taskId = true)
    (hunset : state.progress taskId = .unset)
    (hnone : ∀ attempt, state.attempt attempt ≠ .checked taskId) :
    Untouched { state with
      refunds := Function.update state.refunds taskId
        (state.refunds taskId + 1) } := by
  refine ⟨huntouched.past, huntouched.written, huntouched.flagged, ?_⟩
  intro target hrefunds
  rcases eq_or_ne target taskId with rfl | hne
  · refine ⟨hflag, ?_, hnone⟩
    rw [← Bool.not_eq_true]
    exact fun hpast => huntouched.written target hpast hunset
  · exact huntouched.refunded target (by simpa [hne] using hrefunds)

/-- The step lemma for the steps of the parties. -/
theorem untouched_step {label : Label} (huntouched : Untouched state)
    (hallowed : UntouchedRefund state (.act label))
    (hstep : step capacity refillPerHour state label = some next) :
    Untouched next := by
  cases transition_of_step hstep with
  | deny | publish | record | forget =>
      exact huntouched.of_eq rfl rfl rfl rfl rfl rfl
  | resolve invocation | decideNone invocation | abort invocation =>
      exact huntouched.moveCancel invocation nofun
  | setFlag invocation taskId jobMeta hphase =>
      refine (huntouched.setFlag taskId).moveCancel invocation fun target h => ?_
      obtain rfl : taskId = target := by simpa [CancelPhase.deciding] using h
      simp
  | readReady invocation taskId jobMeta hphase =>
      have hflagged := huntouched.flagged invocation
      rw [hphase] at hflagged
      exact huntouched.moveCancel invocation hflagged
  | decideRefund invocation taskId jobMeta ready guildId hphase hdue =>
      have hflagged := huntouched.flagged invocation
      rw [hphase] at hflagged
      simp only [UntouchedRefund, hphase] at hallowed
      obtain ⟨hrefundable, hready, habsent⟩ := refundDue_eq_some hdue
      obtain ⟨hkept, hidle⟩ := hallowed hrefundable hready
      have hunset : state.progress taskId = .unset := by
        cases hslot : state.progress taskId with
        | unset => rfl
        | stored => exact absurd hslot (of_decide_eq_false habsent)
        | dropped => exact absurd hslot hkept
      exact (huntouched.refund (hflagged taskId rfl) hunset
        (hidle hunset)).moveCancel invocation nofun
  | credit invocation now bucket =>
      have hmoved : Untouched (state.moveCancel invocation .ended) :=
        huntouched.moveCancel invocation nofun
      exact hmoved.of_eq rfl rfl rfl rfl rfl rfl
  | pickUp attempt taskId =>
      refine huntouched.moveAttempt attempt ?_ ?_
      · intro target hphase
        split at hphase <;> cases hphase
      · intro target hphase
        split at hphase <;> cases hphase
        simpa using ‹¬ state.flag taskId = true›
  | firstWrite attempt taskId hphase => exact huntouched.firstWrite hphase
  | write attempt taskId => exact huntouched.setProgress _ nofun
  | leaveBody attempt taskId => exact huntouched.moveAttempt attempt nofun nofun
  | storeResult attempt taskId =>
      have hmoved : Untouched (state.moveAttempt attempt .gone) :=
        huntouched.moveAttempt attempt nofun nofun
      exact hmoved.of_eq rfl rfl rfl rfl rfl rfl
  | lose attempt => exact huntouched.moveAttempt attempt nofun nofun

/-- The step lemma. -/
theorem untouched_agingStep {label : AgingLabel} (huntouched : Untouched state)
    (hallowed : UntouchedRefund state label)
    (hstep : agingStep capacity refillPerHour state label = some next) :
    Untouched next := by
  cases label with
  | act label => exact untouched_step huntouched hallowed hstep
  | dropResult taskId =>
      simp only [agingStep, Option.ite_none_right_eq_some, Option.some.injEq]
        at hstep
      obtain ⟨-, rfl⟩ := hstep
      exact huntouched.of_eq rfl rfl rfl rfl rfl rfl
  | dropProgress taskId =>
      simp only [agingStep, Option.ite_none_right_eq_some, Option.some.injEq]
        at hstep
      obtain ⟨-, rfl⟩ := hstep
      exact huntouched.setProgress taskId (by simp)

end Untouched

/-- In every run whose refunds fall on untouched jobs, no refunded job is ever
executed past its first progress write, neither before the refund nor after. -/
theorem not_pastFirstWrite_of_refunded (capacity refillPerHour : ℤ)
    (bucket : ℕ → Option Ratelimit.Bucket) (state : State)
    (hrun : Reaches (agingStep capacity refillPerHour) UntouchedRefund
      (start bucket) state) (taskId : String)
    (hrefunded : 0 < state.refunds taskId) :
    state.pastFirstWrite taskId = false := by
  have huntouched : Untouched state :=
    hrun.invariant (untouched_start bucket)
      fun _ _ _ h hallowed hstep => untouched_agingStep h hallowed hstep
  exact (huntouched.refunded taskId hrefunded).2.1

/-- A cancellation before any worker looks at the job, which the worker then
refuses: refunded, and never worked on. -/
theorem not_pastFirstWrite_of_refunded_queued :
    ∃ state, Reaches (agingStep 2 5) UntouchedRefund (start fun _ => none)
        state ∧
      state.refunds "a" = 1 ∧ state.pastFirstWrite "a" = false := by
  have hqueued : ∃ state,
      replay (agingStep 2 5) (start fun _ => none)
        [.act (.download "a" ⟨7, false, some ⟨1, 9⟩⟩ 3 "" 0), .act (.record "a"),
          .act (.resolve 0 ⟨7, false, some ⟨1, 9⟩⟩ "a"), .act (.setFlag 0),
          .act (.readReady 0)] = some state ∧
        state.cancel 0 = .sawReady "a" ⟨7, some 1, 3, "", true⟩ false ∧
        state.progress "a" = .unset ∧ (∀ attempt, state.attempt attempt = .idle) ∧
        state.refunds "a" = 0 :=
    ⟨_, rfl, rfl, rfl, fun _ => rfl, rfl⟩
  obtain ⟨queued, hreplay, hcancel, hprogress, hidle, hrefunds⟩ := hqueued
  have hprefix : Reaches (agingStep 2 5) UntouchedRefund (start fun _ => none)
      queued := by
    refine reaches_of_replay (fun label hlabel state => ?_) hreplay
    simp only [List.mem_cons, List.not_mem_nil, or_false] at hlabel
    rcases hlabel with rfl | rfl | rfl | rfl | rfl <;> trivial
  have hstep : agingStep 2 5 queued (.act (.readProgress 0)) =
      some { queued.moveCancel 0 (.refunding 1) with
        refunds := Function.update queued.refunds "a" 1 } := by
    simp [agingStep, step, hcancel, hprogress, hrefunds, refundDue]
  have hallowed : UntouchedRefund queued (.act (.readProgress 0)) := by
    simp [UntouchedRefund, hcancel, hprogress, hidle]
  have hrun := hprefix.tail _ hallowed hstep
  have hone : (Function.update queued.refunds "a" 1) "a" = 1 := by simp
  refine ⟨_, hrun, hone, ?_⟩
  exact not_pastFirstWrite_of_refunded 2 5 (fun _ => none) _ hrun "a"
    (hone ▸ Nat.one_pos)

/-- A worker reads the flag just before it is set and writes just after the
progress has been read: the job is refunded and worked on. -/
theorem refunded_and_worked_on :
    ∃ state, Reaches (agingStep 2 5) unrestricted (start fun _ => none) state ∧
      state.refunds "a" = 1 ∧ state.pastFirstWrite "a" = true := by
  obtain ⟨state, hrun, hcheck⟩ := exists_reaches_of_replay
    (agingStep 2 5) (start fun _ => none)
    [.act (.download "a" ⟨7, false, some ⟨1, 9⟩⟩ 3 "" 0), .act (.record "a"),
      .act (.resolve 0 ⟨7, false, some ⟨1, 9⟩⟩ "a"), .act (.pickUp 0 "a"),
      .act (.setFlag 0), .act (.readReady 0), .act (.readProgress 0),
      .act (.firstWrite 0)]
    (fun state => decide
      (state.refunds "a" = 1 ∧ state.pastFirstWrite "a" = true))
    (by decide +kernel)
  exact ⟨state, hrun, of_decide_eq_true hcheck⟩

end DownloaderBot.CancelRuns
