import Mathlib.Algebra.Order.Field.Basic
import Mathlib.Algebra.BigOperators.Group.List.Basic
import Mathlib.Tactic.Linarith
import Mathlib.Tactic.Ring

/-!
# Token buckets over an ordered field

A token bucket holds at most `capacity` tokens and refills at `rate` tokens per
unit of time.  Two general facts are developed here.  The first part is the
arithmetic of a lazily refilled balance: what a balance written at one time is
worth at a later one.  The second part is the long-run cap: whoever never pays
out more than the balance covers has paid, in every time window, at most the
capacity and what refills in that window.
-/

namespace DownloaderBot.TokenBucket

variable {K : Type*} [Field K] [LinearOrder K] [IsStrictOrderedRing K]

/-! ## Lazily refilled balances -/

/-- What `tokens`, written at time `since`, are worth at time `now`: they refill
at `rate` and stop at `capacity`.  A clock that stepped back refills nothing. -/
def level (capacity rate tokens since now : K) : K :=
  min capacity (tokens + max 0 (now - since) * rate)

variable {capacity rate tokens since now later : K}

omit [IsStrictOrderedRing K] in
theorem level_le_capacity : level capacity rate tokens since now ≤ capacity :=
  min_le_left _ _

omit [IsStrictOrderedRing K] in
@[simp]
theorem level_self (htokens : tokens ≤ capacity) :
    level capacity rate tokens now now = tokens := by
  simp [level, htokens]

theorem level_nonneg (hcapacity : 0 ≤ capacity) (hrate : 0 ≤ rate)
    (htokens : 0 ≤ tokens) : 0 ≤ level capacity rate tokens since now := by
  have hrefill : 0 ≤ max 0 (now - since) * rate :=
    mul_nonneg (le_max_left _ _) hrate
  exact le_min hcapacity (add_nonneg htokens hrefill)

/-- A balance long enough untouched is full. -/
theorem level_eq_capacity (hrate : 0 ≤ rate) (htokens : 0 ≤ tokens)
    (hfull : capacity ≤ (now - since) * rate) :
    level capacity rate tokens since now = capacity := by
  have hrefill : (now - since) * rate ≤ max 0 (now - since) * rate :=
    mul_le_mul_of_nonneg_right (le_max_right _ _) hrate
  exact min_eq_left (by linarith)

/-- A full balance stays full. -/
theorem level_eq_capacity_of_le (hrate : 0 ≤ rate) (htime : now ≤ later)
    (hfull : level capacity rate tokens since now = capacity) :
    level capacity rate tokens since later = capacity := by
  have hcovered : capacity ≤ tokens + max 0 (now - since) * rate :=
    min_eq_left_iff.mp hfull
  have hrefill : max 0 (now - since) * rate ≤ max 0 (later - since) * rate :=
    mul_le_mul_of_nonneg_right
      (max_le_max (le_refl 0) (sub_le_sub_right htime since)) hrate
  exact min_eq_left (hcovered.trans (by linarith))

/-- Between two times a balance grows by at most what refills. -/
theorem level_le_add (hrate : 0 ≤ rate) (htime : now ≤ later) :
    level capacity rate tokens since later ≤
      level capacity rate tokens since now + (later - now) * rate := by
  have hrefill : 0 ≤ (later - now) * rate :=
    mul_nonneg (sub_nonneg.mpr htime) hrate
  have hgap : max 0 (later - since) ≤ max 0 (now - since) + (later - now) := by
    apply max_le
    · linarith [le_max_left 0 (now - since)]
    · linarith [le_max_right 0 (now - since)]
  have hgrow := mul_le_mul_of_nonneg_right hgap hrate
  rw [add_mul] at hgrow
  simp only [level]
  rw [min_add]
  apply le_min
  · exact (min_le_left _ _).trans (by linarith)
  · exact (min_le_right _ _).trans (by linarith)

/-- Writing down what a balance is worth changes nothing later on, unless the clock
has stepped back. -/
theorem level_level (hrate : 0 ≤ rate) (hsince : since ≤ now) (htime : now ≤ later) :
    level capacity rate (level capacity rate tokens since now) now later =
      level capacity rate tokens since later := by
  have hrefill : 0 ≤ (later - now) * rate := mul_nonneg (sub_nonneg.mpr htime) hrate
  simp only [level, max_eq_right (sub_nonneg.mpr hsince),
    max_eq_right (sub_nonneg.mpr htime), max_eq_right (sub_nonneg.mpr (hsince.trans htime))]
  calc
    min capacity (min capacity (tokens + (now - since) * rate) + (later - now) * rate)
        = min capacity (min (capacity + (later - now) * rate)
            (tokens + (now - since) * rate + (later - now) * rate)) := by rw [min_add]
    _ = min capacity (tokens + (now - since) * rate + (later - now) * rate) := by
      rw [← min_assoc, min_eq_left (by linarith : capacity ≤ capacity + _)]
    _ = min capacity (tokens + (later - since) * rate) := by
      congr 1
      ring

/-- Written down by a clock that has stepped back, a balance that is not full refills
too early. -/
theorem level_lt_level_of_lt (hrate : 0 < rate) (hearly : now < later)
    (hlate : later ≤ since) (htokens : level capacity rate tokens since now < capacity) :
    level capacity rate tokens since later <
      level capacity rate (level capacity rate tokens since now) now later := by
  have hback : ∀ time ≤ since, max 0 (time - since) = 0 := fun time htime =>
    max_eq_left (sub_nonpos.mpr htime)
  have hrefill : 0 < (later - now) * rate := mul_pos (sub_pos.mpr hearly) hrate
  simp only [level, hback later hlate, hback now (hearly.le.trans hlate), zero_mul,
    add_zero, max_eq_right (sub_nonneg.mpr hearly.le)] at htokens ⊢
  exact lt_min htokens (by linarith)

/-- More tokens are worth at least as much at any time. -/
theorem level_le_level {more : K} (htokens : tokens ≤ more) :
    level capacity rate tokens since now ≤ level capacity rate more since now :=
  min_le_min (le_refl _) (add_le_add_left htokens _)

/-- When a balance covers a need. -/
theorem le_level_iff (hrate : 0 < rate) {need : K} (hneed : need ≤ capacity)
    (htime : since ≤ now) :
    need ≤ level capacity rate tokens since now ↔
      since + (need - tokens) / rate ≤ now := by
  rw [level, max_eq_right (sub_nonneg.mpr htime), le_min_iff, and_iff_right hneed,
    ← le_sub_iff_add_le', div_le_iff₀ hrate, sub_le_iff_le_add']

omit [IsStrictOrderedRing K] in
/-- As long as a balance is not full again, giving back what has been taken makes up for
the taking. -/
theorem min_level_sub_add {amount : K}
    (hroom : level capacity rate (tokens - amount) since now < capacity) :
    min capacity (level capacity rate (tokens - amount) since now + amount) =
      level capacity rate tokens since now := by
  have hbelow : tokens - amount + max 0 (now - since) * rate < capacity := by
    by_contra hfull
    exact hroom.ne (min_eq_left (not_lt.mp hfull))
  simp only [level, min_eq_right hbelow.le]
  congr 1
  ring

/-! ## Credited stretches of time -/

/-- The time after `start`, up to `stop`; none when a clock has stepped back. -/
structure Stretch (K : Type*) where
  start : K
  stop : K

namespace Stretch

def Covers (instant : K) (stretch : Stretch K) : Prop :=
  stretch.start < instant ∧ instant ≤ stretch.stop

instance (instant : K) : DecidablePred (Covers instant) :=
  fun _ => inferInstanceAs (Decidable (_ ∧ _))

/-- The stretches between one time and the next. -/
def consecutive : List K → List (Stretch K)
  | [] => []
  | [_] => []
  | start :: stop :: times => ⟨start, stop⟩ :: consecutive (stop :: times)

omit [IsStrictOrderedRing K] [Field K] in
theorem le_start_of_mem_consecutive {first : K} {times : List K}
    (hordered : (first :: times).Pairwise (· ≤ ·)) {stretch : Stretch K}
    (hstretch : stretch ∈ consecutive (first :: times)) : first ≤ stretch.start := by
  induction times generalizing first with
  | nil => cases hstretch
  | cons next times ih =>
      obtain ⟨hfirst, hrest⟩ := List.pairwise_cons.mp hordered
      rcases List.mem_cons.mp hstretch with rfl | hlater
      · exact le_refl first
      · exact (hfirst next List.mem_cons_self).trans (ih hrest hlater)

omit [IsStrictOrderedRing K] [Field K] in
/-- Between times that never step back, no instant is covered twice. -/
theorem countP_covers_consecutive_le_one {times : List K}
    (hordered : times.Pairwise (· ≤ ·)) (instant : K) :
    (consecutive times).countP (Covers instant ·) ≤ 1 := by
  induction times with
  | nil => exact Nat.zero_le 1
  | cons first times ih =>
      obtain ⟨hfirst, hrest⟩ := List.pairwise_cons.mp hordered
      cases times with
      | nil => exact Nat.zero_le 1
      | cons next times =>
          rw [consecutive, List.countP_cons]
          by_cases hcovers : Covers instant (⟨first, next⟩ : Stretch K)
          · have hnone : (consecutive (next :: times)).countP (Covers instant ·) = 0 := by
              rw [List.countP_eq_zero]
              intro later hlater
              have hstart := le_start_of_mem_consecutive hrest hlater
              simpa using fun hagain : Covers instant later =>
                absurd (hcovers.2.trans hstart) hagain.1.not_ge
            simp [hnone, hcovers]
          · simpa [hcovers] using ih hrest

end Stretch

/-! ## The long-run cap -/

/-- Something paid out of a balance at a time; a credit is a negative amount. -/
structure Charge (K : Type*) where
  time : K
  amount : K

/-- The total of the charges made in the window `[start, stop]`. -/
def spent (log : List (Charge K)) (start stop : K) : K :=
  ((log.filter fun charge => start ≤ charge.time ∧ charge.time ≤ stop).map
    Charge.amount).sum

omit [IsStrictOrderedRing K] in
@[simp]
theorem spent_nil (start stop : K) : spent [] start stop = 0 := rfl

omit [IsStrictOrderedRing K] in
/-- One more charge counts in exactly the windows its time lies in. -/
theorem spent_concat (log : List (Charge K)) (charge : Charge K)
    (start stop : K) :
    spent (log ++ [charge]) start stop = spent log start stop +
      if start ≤ charge.time ∧ charge.time ≤ stop then charge.amount else 0 := by
  by_cases hwindow : start ≤ charge.time ∧ charge.time ≤ stop <;>
    simp [spent, List.filter_append, hwindow]

omit [IsStrictOrderedRing K] in
theorem spent_eq_zero {log : List (Charge K)} {start stop : K}
    (hearlier : ∀ charge ∈ log, charge.time < start) :
    spent log start stop = 0 := by
  have hnone : log.filter (fun charge =>
      start ≤ charge.time ∧ charge.time ≤ stop) = [] := by
    apply List.filter_eq_nil_iff.mpr
    intro charge hcharge
    simpa using fun hstart => absurd (hearlier charge hcharge) hstart.not_gt
  rw [spent, hnone]
  rfl

omit [IsStrictOrderedRing K] in
/-- Past the last charge a window no longer depends on where it stops. -/
theorem spent_stop_congr {log : List (Charge K)} {start stop stop' : K}
    (hstop : ∀ charge ∈ log, charge.time ≤ stop)
    (hstop' : ∀ charge ∈ log, charge.time ≤ stop') :
    spent log start stop = spent log start stop' := by
  have hsame : log.filter (fun charge =>
        start ≤ charge.time ∧ charge.time ≤ stop) =
      log.filter (fun charge => start ≤ charge.time ∧ charge.time ≤ stop') := by
    apply List.filter_congr
    intro charge hcharge
    simp [hstop charge hcharge, hstop' charge hcharge]
  rw [spent, spent, hsame]

/-- A balance that covers what has been charged: it lies between nothing and the
capacity, and together with all charges since any `start` it is at most the
capacity and what refilled since then. -/
structure Covers (capacity rate balance now : K) (log : List (Charge K)) :
    Prop where
  nonneg : 0 ≤ balance
  le_capacity : balance ≤ capacity
  past : ∀ charge ∈ log, charge.time ≤ now
  paid : ∀ start ≤ now,
    spent log start now + balance ≤ capacity + (now - start) * rate
  window : ∀ start stop, start ≤ stop →
    spent log start stop ≤ capacity + (stop - start) * rate

theorem Covers.initial {balance : K} (hnonneg : 0 ≤ balance)
    (hcapacity : balance ≤ capacity) (hrate : 0 ≤ rate) :
    Covers capacity rate balance now [] where
  nonneg := hnonneg
  le_capacity := hcapacity
  past := by simp
  paid start hstart := by
    have := mul_nonneg (sub_nonneg.mpr hstart) hrate
    simpa using by linarith
  window start stop hwindow := by
    have := mul_nonneg (sub_nonneg.mpr hwindow) hrate
    simpa using by linarith

/-- Time passing: the balance may grow by what refills meanwhile. -/
theorem Covers.pass {balance next : K} {log : List (Charge K)}
    (hcovers : Covers capacity rate balance now log) (hrate : 0 ≤ rate)
    (htime : now ≤ later) (hnonneg : 0 ≤ next) (hcapacity : next ≤ capacity)
    (hrefill : next ≤ balance + (later - now) * rate) :
    Covers capacity rate next later log where
  nonneg := hnonneg
  le_capacity := hcapacity
  past charge hcharge := (hcovers.past charge hcharge).trans htime
  paid start hstart := by
    by_cases hold : start ≤ now
    · have hsame : spent log start later = spent log start now :=
        spent_stop_congr
          (fun charge hcharge => (hcovers.past charge hcharge).trans htime)
          hcovers.past
      have hpaid := hcovers.paid start hold
      have hsplit : (later - start) * rate =
          (later - now) * rate + (now - start) * rate := by ring
      linarith
    · -- Nothing has been charged since `start`: the capacity alone suffices.
      have hnone : spent log start later = 0 :=
        spent_eq_zero fun charge hcharge =>
          (hcovers.past charge hcharge).trans_lt (not_le.mp hold)
      have := mul_nonneg (sub_nonneg.mpr hstart) hrate
      linarith
  window := hcovers.window

/-- Paying: what is charged now and what is left come out of the balance. -/
theorem Covers.pay {balance next : K} {log : List (Charge K)}
    (hcovers : Covers capacity rate balance now log) (hrate : 0 ≤ rate)
    {amount : K} (hnonneg : 0 ≤ next) (hcapacity : next ≤ capacity)
    (hpaid : amount + next ≤ balance) :
    Covers capacity rate next now (log ++ [⟨now, amount⟩]) where
  nonneg := hnonneg
  le_capacity := hcapacity
  past charge hcharge := by
    rcases List.mem_append.mp hcharge with hold | hnew
    · exact hcovers.past charge hold
    · exact (congrArg Charge.time (List.mem_singleton.mp hnew)).le
  paid start hstart := by
    have hold := hcovers.paid start hstart
    rw [spent_concat, if_pos ⟨hstart, le_refl _⟩]
    linarith
  window start stop hwindow := by
    rw [spent_concat]
    by_cases hinside : start ≤ now ∧ now ≤ stop
    · have hold := hcovers.paid start hinside.1
      have hsame : spent log start stop = spent log start now :=
        spent_stop_congr
          (fun charge hcharge => (hcovers.past charge hcharge).trans hinside.2)
          hcovers.past
      have hrefill : (now - start) * rate ≤ (stop - start) * rate :=
        mul_le_mul_of_nonneg_right (sub_le_sub_right hinside.2 start) hrate
      rw [if_pos hinside]
      linarith
    · rw [if_neg hinside, add_zero]
      exact hcovers.window start stop hwindow

end DownloaderBot.TokenBucket
