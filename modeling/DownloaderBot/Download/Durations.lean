import DownloaderBot.Download.Filters
import Mathlib.Data.List.TakeWhile

/-!
# The grammar of durations

White space, decimal digits, a unit, white space: what `parse_duration` accepts, and
where it raises what is not a `FilterParseError`.
-/

namespace DownloaderBot.Filters

open DownloaderBot.Calendar
open DownloaderBot.Text

/-! ## The grammar -/

/-- These are the digits of the string and the seconds of its unit. -/
structure Spells (value : String) (digits : List Char) (unitSeconds : ℕ) : Prop where
  nonempty : digits ≠ []
  decimal : ∀ char ∈ digits, isDecimal char = true
  around : ∃ leading unit trailing, value.toList = leading ++ (digits ++ unit :: trailing) ∧
    (∀ char ∈ leading, isSpace char = true) ∧ unitToSeconds unit = some unitSeconds ∧
      ∀ char ∈ trailing, isSpace char = true

/-- A duration of so many seconds can be represented. -/
def Fits (seconds : ℕ) : Prop := seconds / 86400 ≤ 999999999

instance (seconds : ℕ) : Decidable (Fits seconds) := inferInstanceAs (Decidable (_ ≤ _))

/-- The string stands for this duration: one or more of a unit. -/
def Means (value : String) (delta : TimeDelta) : Prop :=
  ∃ digits unitSeconds, Spells value digits unitSeconds ∧ 1 ≤ ofDecimals digits ∧
    Fits (ofDecimals digits * unitSeconds) ∧
      delta = (ofDecimals digits * unitSeconds : ℕ) * 1000000

section Characters

variable {char : Char}

theorem isSpaceCode_digit :
    ∀ first ∈ decimalZeros, ∀ offset < 10, isSpaceCode (first + offset) = false := by
  decide +kernel

/-- A digit is not white space. -/
theorem isSpace_of_isDecimal (hdecimal : isDecimal char = true) : isSpace char = false := by
  rw [isDecimal, decimalValue, Option.isSome_map, Option.isSome_iff_exists] at hdecimal
  obtain ⟨first, hfirst⟩ := hdecimal
  have hmem := List.mem_of_find?_eq_some hfirst
  have hblock := List.find?_some hfirst
  simp only [Bool.and_eq_true, decide_eq_true_eq] at hblock
  have hcode := isSpaceCode_digit first hmem (char.toNat - first) (by omega)
  rwa [Nat.add_sub_cancel' hblock.1] at hcode

theorem isDecimal_of_unit {unitSeconds : ℕ} (hunit : unitToSeconds char = some unitSeconds) :
    isDecimal char = false := by
  rw [unitToSeconds.eq_def] at hunit
  split at hunit
  case h_5 => cases hunit
  all_goals decide

end Characters

section Grammar

variable {value : String} {digits : List Char} {unitSeconds : ℕ}

theorem Spells.of_matchDuration (hmatch : matchDuration value = some (digits, unitSeconds)) :
    Spells value digits unitSeconds := by
  rw [matchDuration] at hmatch
  split at hmatch
  case h_1 => cases hmatch
  case h_2 unit trailing hrest =>
    obtain ⟨⟨hnonempty, htrailing⟩, hsome⟩ := Option.ite_none_right_eq_some.mp hmatch
    obtain ⟨seconds, hunit, hpair⟩ := Option.map_eq_some_iff.mp hsome
    obtain ⟨rfl, rfl⟩ := Prod.mk.inj hpair
    refine ⟨hnonempty, fun char hchar => List.mem_takeWhile_imp hchar,
      value.toList.takeWhile isSpace, unit, trailing, ?_,
      fun char hchar => List.mem_takeWhile_imp hchar, hunit, List.all_eq_true.mp htrailing⟩
    rw [← hrest, List.takeWhile_append_dropWhile, List.takeWhile_append_dropWhile]

theorem Spells.matchDuration (hspells : Spells value digits unitSeconds) :
    matchDuration value = some (digits, unitSeconds) := by
  obtain ⟨hnonempty, hdecimal, leading, unit, trailing, hvalue, hleading, hunit, htrailing⟩ :=
    hspells
  have hrest : value.toList.dropWhile isSpace = digits ++ unit :: trailing := by
    rw [hvalue, List.dropWhile_append_of_pos hleading]
    cases digits with
    | nil => exact absurd rfl hnonempty
    | cons digit digits =>
        have hdigit := isSpace_of_isDecimal (hdecimal digit List.mem_cons_self)
        exact List.dropWhile_cons_of_neg (by simp [hdigit])
  have hstop : isDecimal unit = false := isDecimal_of_unit hunit
  have hdigits : (digits ++ unit :: trailing).takeWhile isDecimal = digits := by
    rw [List.takeWhile_append_of_pos hdecimal, List.takeWhile_cons_of_neg (by simp [hstop]),
      List.append_nil]
  have hunitFirst : (digits ++ unit :: trailing).dropWhile isDecimal = unit :: trailing := by
    rw [List.dropWhile_append_of_pos hdecimal, List.dropWhile_cons_of_neg (by simp [hstop])]
  rw [Filters.matchDuration, hrest, hdigits, hunitFirst]
  dsimp only
  rw [if_pos ⟨hnonempty, List.all_eq_true.mpr htrailing⟩, hunit]
  rfl

/-- A string spells one duration at most. -/
theorem Spells.unique {other : List Char} {otherSeconds : ℕ}
    (hspells : Spells value digits unitSeconds) (hother : Spells value other otherSeconds) :
    digits = other ∧ unitSeconds = otherSeconds :=
  Prod.mk.inj (Option.some.inj (hspells.matchDuration.symm.trans hother.matchDuration))

theorem Spells.means_iff {delta : TimeDelta} (hspells : Spells value digits unitSeconds) :
    Means value delta ↔ 1 ≤ ofDecimals digits ∧ Fits (ofDecimals digits * unitSeconds) ∧
      delta = (ofDecimals digits * unitSeconds : ℕ) * 1000000 := by
  constructor
  · rintro ⟨other, otherSeconds, hother, hmeans⟩
    obtain ⟨rfl, rfl⟩ := hspells.unique hother
    exact hmeans
  · exact fun hmeans => ⟨digits, unitSeconds, hspells, hmeans⟩

end Grammar

/-! ## What parsing a duration raises -/

section Parsing

variable {value : String} {digits : List Char} {unitSeconds : ℕ}

/-- The spelled duration is within the limits of Python's integers and durations. -/
def WithinLimits (value : String) : Prop :=
  ∀ digits unitSeconds, Spells value digits unitSeconds →
    digits.length ≤ maxIntDigits ∧ Fits (ofDecimals digits * unitSeconds)

theorem parseDuration_of_not_spells (hnot : ∀ digits unitSeconds,
    ¬ Spells value digits unitSeconds) :
    ∃ message, parseDuration value = .error (.parse message) := by
  rw [parseDuration]
  cases hmatch : matchDuration value with
  | none => exact ⟨_, rfl⟩
  | some pair => exact absurd (Spells.of_matchDuration hmatch) (hnot _ _)

theorem parseDuration_of_long (hspells : Spells value digits unitSeconds)
    (hlong : maxIntDigits < digits.length) : parseDuration value = .error (.time .value) := by
  rw [parseDuration, hspells.matchDuration]
  exact if_pos hlong

theorem parseDuration_of_zero (hspells : Spells value digits unitSeconds)
    (hshort : digits.length ≤ maxIntDigits) (hzero : ofDecimals digits = 0) :
    ∃ message, parseDuration value = .error (.parse message) := by
  rw [parseDuration, hspells.matchDuration]
  exact ⟨_, (if_neg hshort.not_gt).trans (if_pos hzero)⟩

theorem timedeltaSeconds_natCast (seconds : ℕ) :
    timedeltaSeconds seconds =
      if Fits seconds then .ok (seconds * 1000000) else .error .overflow := by
  have hfits : ((seconds : ℤ) / 86400).natAbs ≤ 999999999 ↔ Fits seconds := by
    rw [Fits]
    omega
  rw [timedeltaSeconds]
  exact if_congr hfits rfl rfl

/-- The number of seconds is handed to `timedelta`. -/
theorem parseDuration_of_pos (hspells : Spells value digits unitSeconds)
    (hshort : digits.length ≤ maxIntDigits) (hpos : 1 ≤ ofDecimals digits) :
    parseDuration value =
      if Fits (ofDecimals digits * unitSeconds) then
        .ok ((ofDecimals digits * unitSeconds : ℕ) * 1000000)
      else .error (.time .overflow) := by
  have hparse : parseDuration value =
      (timedeltaSeconds (ofDecimals digits * unitSeconds : ℕ)).mapError .time := by
    rw [parseDuration, hspells.matchDuration, Nat.cast_mul]
    exact (if_neg hshort.not_gt).trans (if_neg (Nat.pos_iff_ne_zero.mp hpos))
  rw [hparse, timedeltaSeconds_natCast]
  split <;> rfl

/-- What parsing returns is what the string means. -/
theorem means_of_parseDuration {delta : TimeDelta} (hparse : parseDuration value = .ok delta) :
    Means value delta := by
  by_cases hspelled : ∃ digits unitSeconds, Spells value digits unitSeconds
  · obtain ⟨digits, unitSeconds, hspells⟩ := hspelled
    by_cases hshort : digits.length ≤ maxIntDigits
    · rcases Nat.eq_zero_or_pos (ofDecimals digits) with hzero | hpos
      · obtain ⟨message, herror⟩ := parseDuration_of_zero hspells hshort hzero
        cases hparse.symm.trans herror
      · rw [parseDuration_of_pos hspells hshort hpos] at hparse
        by_cases hfits : Fits (ofDecimals digits * unitSeconds)
        · rw [if_pos hfits] at hparse
          exact hspells.means_iff.mpr ⟨hpos, hfits, (Except.ok.inj hparse).symm⟩
        · rw [if_neg hfits] at hparse
          cases hparse
    · cases hparse.symm.trans (parseDuration_of_long hspells (not_le.mp hshort))
  · obtain ⟨message, herror⟩ := parseDuration_of_not_spells fun digits unitSeconds hspells =>
      hspelled ⟨digits, unitSeconds, hspells⟩
    cases hparse.symm.trans herror

end Parsing

end DownloaderBot.Filters
