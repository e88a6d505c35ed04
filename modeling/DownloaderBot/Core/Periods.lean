import Mathlib.Order.Lattice

/-!
# Periods of time

Instants are numbered by the period they lie in, consecutive periods by consecutive
numbers.  A period is the window from its first instant to that of the next one.
-/

namespace DownloaderBot.Periods

variable {Time : Type*} [LinearOrder Time]

/-- `start` is the first instant of this period. -/
structure Begins (number : Time → ℕ) (start : Time) (period : ℕ) : Prop where
  number_start : number start = period
  le_iff : ∀ instant, start ≤ instant ↔ period ≤ number instant

variable {number : Time → ℕ} {start next : Time} {period : ℕ}

theorem Begins.lt (hstart : Begins number start period)
    (hnext : Begins number next (period + 1)) : start < next := by
  refine lt_of_not_ge fun hle => ?_
  have hlate := (hnext.le_iff start).mp hle
  rw [hstart.number_start] at hlate
  exact Nat.not_succ_le_self period hlate

/-- A period has one first instant. -/
theorem Begins.unique {other : Time} (hstart : Begins number start period)
    (hother : Begins number other period) : start = other :=
  le_antisymm ((hstart.le_iff other).mpr hother.number_start.ge)
    ((hother.le_iff start).mpr hstart.number_start.ge)

/-- The window of a period, its end excluded. -/
theorem Begins.window_iff (hstart : Begins number start period)
    (hnext : Begins number next (period + 1)) (instant : Time) :
    start ≤ instant ∧ instant < next ↔ number instant = period := by
  rw [hstart.le_iff, ← not_le, hnext.le_iff]
  omega

/-- The window of the present period, up to the present. -/
theorem Begins.present_iff {now : Time} (hstart : Begins number start (number now))
    (hmonotone : Monotone number) (instant : Time) :
    start ≤ instant ∧ instant ≤ now ↔ number instant = number now ∧ instant ≤ now := by
  refine and_congr_left fun hpast => ?_
  have hle := hmonotone hpast
  rw [hstart.le_iff]
  omega

end DownloaderBot.Periods
