import Mathlib.Algebra.Order.Field.Rat
import Mathlib.Algebra.Order.Round
import Mathlib.Algebra.Ring.Int.Parity
import Mathlib.Data.Int.Log
import Mathlib.Data.Rat.Floor
import Mathlib.Tactic.Linarith
import Mathlib.Tactic.Positivity

/-!
# Floating-point numbers

A format has so many bits of mantissa and a least exponent.  Its numbers are those with
such a mantissa, and rounding goes to the nearest of them, among two to the even one.  The
exponents are not bounded from above: where they end is left to the user of this file.
The numbers of a format are taken from zero on; rounding is symmetric about zero.
-/

namespace DownloaderBot.Floats

/-! ## The nearest integer -/

/-- The fraction is more than a half, or is a half above an odd integer. -/
def RoundsUp (x : ℚ) : Prop := 1 / 2 < Int.fract x ∨ Int.fract x = 1 / 2 ∧ ¬ Even ⌊x⌋

instance (x : ℚ) : Decidable (RoundsUp x) := inferInstanceAs (Decidable (_ ∨ _ ∧ _))

/-- The nearest integer, among two the even one. -/
def nearest (x : ℚ) : ℤ := if RoundsUp x then ⌊x⌋ + 1 else ⌊x⌋

theorem floor_le_nearest (x : ℚ) : ⌊x⌋ ≤ nearest x := by
  rw [nearest]
  split <;> omega

theorem nearest_le_floor_add_one (x : ℚ) : nearest x ≤ ⌊x⌋ + 1 := by
  rw [nearest]
  split <;> omega

theorem nearest_intCast (number : ℤ) : nearest number = number := by
  have hnot : ¬ RoundsUp (number : ℚ) := by
    rw [RoundsUp, Int.fract_intCast]
    norm_num
  rw [nearest, if_neg hnot, Int.floor_intCast]

theorem nearest_mono {x y : ℚ} (hle : x ≤ y) : nearest x ≤ nearest y := by
  rcases Int.lt_or_eq_of_le (Int.floor_mono hle) with hlt | hsame
  · have hx := nearest_le_floor_add_one x
    have hy := floor_le_nearest y
    omega
  · have hfract : Int.fract x ≤ Int.fract y := by
      rw [Int.fract, Int.fract, hsame]
      exact sub_le_sub_right hle _
    have hup : RoundsUp x → RoundsUp y := by
      rintro (hmore | ⟨hhalf, hodd⟩)
      · exact .inl (hmore.trans_le hfract)
      · rcases (hhalf.symm.le.trans hfract).lt_or_eq with hmore | heq
        · exact .inl hmore
        · exact .inr ⟨heq.symm, hsame ▸ hodd⟩
    rw [nearest, nearest, hsame]
    split
    case isTrue hroundsUp => rw [if_pos (hup hroundsUp)]
    case isFalse =>
      split <;> omega

theorem nearest_neg (x : ℚ) : nearest (-x) = -nearest x := by
  rcases eq_or_ne (Int.fract x) 0 with hwhole | hfract
  · obtain ⟨number, rfl⟩ := Int.fract_eq_zero_iff.mp hwhole
    rw [← Int.cast_neg, nearest_intCast, nearest_intCast]
  · have hneg : Int.fract (-x) = 1 - Int.fract x := Int.fract_neg hfract
    have hfloor : ⌊-x⌋ = -⌊x⌋ - 1 := by
      rw [Int.fract, Int.fract] at hneg
      have hcast : ((⌊-x⌋ : ℤ) : ℚ) = ((-⌊x⌋ - 1 : ℤ) : ℚ) := by
        push_cast
        linarith
      exact_mod_cast hcast
    -- A half is rounded to the even side, which is the other one of the floor.
    have hup : RoundsUp (-x) ↔ ¬ RoundsUp x := by
      rw [RoundsUp, RoundsUp, hneg, hfloor]
      have heven : Even (-⌊x⌋ - 1) ↔ ¬ Even ⌊x⌋ := by grind
      rw [heven, not_not]
      rcases lt_trichotomy (Int.fract x) (1 / 2) with hless | hhalf | hmore
      · simp only [not_lt.mpr hless.le, hless.ne, false_and, or_false, not_false_eq_true, iff_true]
        exact .inl (by linarith)
      · simp only [hhalf, lt_irrefl, false_or, true_and, not_not]
        norm_num
      · simp only [hmore, true_or, not_true_eq_false, iff_false, not_or, not_lt]
        exact ⟨by linarith, fun ⟨hhalf, _⟩ => by linarith⟩
    rw [nearest, nearest, hfloor]
    split
    case isTrue hroundsUp =>
      rw [if_neg (hup.mp hroundsUp)]
      omega
    case isFalse hdown =>
      rw [if_pos (not_not.mp (mt hup.mpr hdown))]
      omega

theorem abs_nearest_sub_le (x : ℚ) : |nearest x - x| ≤ 1 / 2 := by
  have hsplit := Int.floor_add_fract x
  have hnonneg := Int.fract_nonneg x
  have hlt := Int.fract_lt_one x
  rw [nearest, abs_le]
  split
  case isTrue hup =>
    have hhalf : 1 / 2 ≤ Int.fract x := hup.elim le_of_lt fun ⟨heq, _⟩ => heq.ge
    push_cast
    constructor <;> linarith
  case isFalse hdown =>
    have hhalf : Int.fract x ≤ 1 / 2 := not_lt.mp fun hmore => hdown (.inl hmore)
    constructor <;> linarith

/-! ## Formats -/

/-- `minExponent` is the exponent of the least positive number. -/
structure Format where
  precision : ℕ
  minExponent : ℤ
  precision_pos : 0 < precision

/-- Double precision. -/
def double : Format := ⟨53, -1074, by decide⟩

variable (format : Format)

/-- The exponent of the last place of a mantissa for the number. -/
def Format.exponent (x : ℚ) : ℤ :=
  max format.minExponent (Int.log 2 |x| + 1 - format.precision)

/-- A unit in the last place. -/
def Format.ulp (x : ℚ) : ℚ := 2 ^ format.exponent x

/-- The nearest number of the format. -/
def Format.round (x : ℚ) : ℚ := nearest (x / format.ulp x) * format.ulp x

/-- A number of the format, from zero on. -/
def Format.IsFloat (x : ℚ) : Prop :=
  ∃ (mantissa : ℕ) (exponent : ℤ), mantissa < 2 ^ format.precision ∧
    format.minExponent ≤ exponent ∧ x = mantissa * 2 ^ exponent

namespace Format

variable {format : Format} {x y : ℚ}

theorem ulp_pos (x : ℚ) : 0 < format.ulp x :=
  zpow_pos two_pos _

@[simp]
theorem round_zero : format.round 0 = 0 := by
  have hnearest : nearest 0 = 0 := nearest_intCast 0
  rw [round, zero_div, hnearest, Int.cast_zero, zero_mul]

theorem div_ulp_lt (hx : 0 < x) : x / format.ulp x < 2 ^ format.precision := by
  have hlog : x < 2 ^ (Int.log 2 |x| + 1) := by
    have hlt := Int.lt_zpow_succ_log_self (b := 2) (by decide) |x|
    rwa [abs_of_pos hx] at hlt ⊢
  have hexponent : Int.log 2 |x| + 1 ≤ format.precision + format.exponent x := by
    have := le_max_right format.minExponent (Int.log 2 |x| + 1 - format.precision)
    rw [exponent]
    omega
  rw [div_lt_iff₀ (ulp_pos x), ulp, ← zpow_natCast, ← zpow_add₀ two_ne_zero]
  exact hlog.trans_le (zpow_le_zpow_right₀ one_le_two hexponent)

/-- Above the least exponent, the mantissa is full. -/
theorem le_div_ulp (hx : 0 < x) (hexponent : format.minExponent < format.exponent x) :
    2 ^ (format.precision - 1) ≤ x / format.ulp x := by
  have hlog : (2 : ℚ) ^ Int.log 2 |x| ≤ x := by
    have hle := Int.zpow_log_le_self (b := 2) (by decide) (abs_pos.mpr hx.ne')
    rwa [abs_of_pos hx] at hle ⊢
  have hsame : ((format.precision - 1 : ℕ) : ℤ) + format.exponent x = Int.log 2 |x| := by
    have hpos := format.precision_pos
    rw [exponent] at hexponent ⊢
    rcases max_choice format.minExponent (Int.log 2 |x| + 1 - format.precision) with h | h <;>
      rw [h] at hexponent ⊢ <;> omega
  rw [le_div_iff₀ (ulp_pos x), ulp, ← zpow_natCast, ← zpow_add₀ two_ne_zero, hsame]
  exact hlog

/-- A mantissa may also be the first that is too long. -/
theorem isFloat_of_le {mantissa : ℕ} {exponent : ℤ} (hmantissa : mantissa ≤ 2 ^ format.precision)
    (hexponent : format.minExponent ≤ exponent) :
    format.IsFloat (mantissa * 2 ^ exponent) := by
  rcases hmantissa.lt_or_eq with hlt | rfl
  · exact ⟨mantissa, exponent, hlt, hexponent, rfl⟩
  · refine ⟨1, format.precision + exponent, Nat.one_lt_two_pow format.precision_pos.ne', ?_, ?_⟩
    · omega
    · rw [zpow_add₀ two_ne_zero, zpow_natCast]
      push_cast
      ring

theorem isFloat_natCast {number : ℕ} (hnumber : number ≤ 2 ^ format.precision)
    (hexponent : format.minExponent ≤ 0) : format.IsFloat number := by
  have hfloat := isFloat_of_le hnumber hexponent
  rwa [zpow_zero, mul_one] at hfloat

theorem isFloat_zpow {exponent : ℤ} (hexponent : format.minExponent ≤ exponent) :
    format.IsFloat (2 ^ exponent) := by
  have hfloat := isFloat_of_le (Nat.one_le_two_pow (n := format.precision)) hexponent
  rwa [Nat.cast_one, one_mul] at hfloat

theorem nearest_nonneg {x : ℚ} (hx : 0 ≤ x) : 0 ≤ nearest x := by
  have hmono := nearest_mono hx
  rwa [← Int.cast_zero, nearest_intCast] at hmono

theorem isFloat_zero : format.IsFloat 0 :=
  ⟨0, format.minExponent, Nat.two_pow_pos _, le_rfl, by simp⟩

theorem round_nonneg (hx : 0 ≤ x) : 0 ≤ format.round x := by
  have hnearest : (0 : ℚ) ≤ nearest (x / format.ulp x) := by
    exact_mod_cast nearest_nonneg (div_nonneg hx (ulp_pos x).le)
  exact mul_nonneg hnearest (ulp_pos x).le

/-- A rounded mantissa is at most the first that is too long. -/
theorem nearest_div_ulp_le (hx : 0 < x) :
    nearest (x / format.ulp x) ≤ 2 ^ format.precision := by
  have hle := nearest_mono (@div_ulp_lt format x hx).le
  have hcast : ((2 ^ format.precision : ℤ) : ℚ) = 2 ^ format.precision := by push_cast; rfl
  rwa [← hcast, nearest_intCast] at hle

theorem isFloat_round (hx : 0 ≤ x) : format.IsFloat (format.round x) := by
  rcases hx.eq_or_lt with rfl | hpos
  · rw [round_zero]
    exact isFloat_zero
  · have hnonneg : 0 ≤ nearest (x / format.ulp x) :=
      nearest_nonneg (div_nonneg hx (ulp_pos x).le)
    obtain ⟨mantissa, hmantissa⟩ := Int.eq_ofNat_of_zero_le hnonneg
    have hle : mantissa ≤ 2 ^ format.precision := by
      have hle := @nearest_div_ulp_le format x hpos
      rw [hmantissa] at hle
      exact_mod_cast hle
    have hround : format.round x = mantissa * 2 ^ format.exponent x := by
      rw [round, hmantissa, Int.cast_natCast, ulp]
    rw [hround]
    exact isFloat_of_le hle (le_max_left _ _)

/-- The numbers of the format are not rounded. -/
theorem IsFloat.round_eq (hfloat : format.IsFloat x) : format.round x = x := by
  obtain ⟨mantissa, exponent, hmantissa, hexponent, rfl⟩ := hfloat
  rcases Nat.eq_zero_or_pos mantissa with rfl | hpos
  · simp
  · have hx : (0 : ℚ) < mantissa * 2 ^ exponent :=
      mul_pos (Nat.cast_pos.mpr hpos) (zpow_pos two_pos _)
    have hlt : (mantissa : ℚ) * 2 ^ exponent < 2 ^ (format.precision + exponent : ℤ) := by
      rw [zpow_add₀ two_ne_zero, zpow_natCast]
      have hcast : (mantissa : ℚ) < 2 ^ format.precision := by exact_mod_cast hmantissa
      exact mul_lt_mul_of_pos_right hcast (zpow_pos two_pos _)
    have hlog : Int.log 2 ((mantissa : ℚ) * 2 ^ exponent) < format.precision + exponent :=
      (Int.lt_zpow_iff_log_lt (b := 2) (by decide) hx).mp (by exact_mod_cast hlt)
    have hle : format.exponent (mantissa * 2 ^ exponent) ≤ exponent := by
      rw [Format.exponent, abs_of_pos hx]
      omega
    -- The last place of the number is a multiple of the one it is rounded to.
    obtain ⟨places, hplaces⟩ := Int.eq_ofNat_of_zero_le (Int.sub_nonneg_of_le hle)
    have hdiv : (mantissa : ℚ) * 2 ^ exponent / format.ulp (mantissa * 2 ^ exponent) =
        ((mantissa * 2 ^ places : ℤ) : ℚ) := by
      rw [ulp, mul_div_assoc, ← zpow_sub₀ two_ne_zero, hplaces]
      push_cast
      rfl
    rw [round, hdiv, nearest_intCast, ← hdiv, div_mul_cancel₀ _ (ulp_pos _).ne']

theorem round_mono (hx : 0 ≤ x) (hle : x ≤ y) : format.round x ≤ format.round y := by
  rcases hx.eq_or_lt with rfl | hpos
  · rw [round_zero]
    exact round_nonneg hle
  · have hy : 0 < y := hpos.trans_le hle
    have hexponents : format.exponent x ≤ format.exponent y := by
      have hlog : Int.log 2 |x| ≤ Int.log 2 |y| := by
        rw [abs_of_pos hpos, abs_of_pos hy]
        exact Int.log_mono_right hpos hle
      rw [exponent, exponent]
      omega
    rcases hexponents.eq_or_lt with hsame | hlt
    · have hulp : format.ulp x = format.ulp y := by rw [ulp, ulp, hsame]
      have hnearest : (nearest (x / format.ulp y) : ℚ) ≤ nearest (y / format.ulp y) := by
        exact_mod_cast nearest_mono (div_le_div_of_nonneg_right hle (ulp_pos y).le)
      rw [round, round, hulp]
      exact mul_le_mul_of_nonneg_right hnearest (ulp_pos y).le
    · have hfull : (2 : ℤ) ^ (format.precision - 1) ≤ nearest (y / format.ulp y) := by
        have hmono := nearest_mono (le_div_ulp hy ((le_max_left _ _).trans_lt hlt))
        have hcast : ((2 ^ (format.precision - 1) : ℤ) : ℚ) = 2 ^ (format.precision - 1) := by
          push_cast
          rfl
        rwa [← hcast, nearest_intCast] at hmono
      have hplaces : (format.precision : ℤ) + format.exponent x ≤
          ((format.precision - 1 : ℕ) : ℤ) + format.exponent y := by
        have := format.precision_pos
        omega
      calc
        format.round x ≤ 2 ^ format.precision * format.ulp x := by
          have hmantissa := @nearest_div_ulp_le format x hpos
          exact mul_le_mul_of_nonneg_right (by exact_mod_cast hmantissa) (ulp_pos x).le
        _ = 2 ^ ((format.precision : ℤ) + format.exponent x) := by
          rw [zpow_add₀ two_ne_zero, zpow_natCast, ulp]
        _ ≤ 2 ^ (((format.precision - 1 : ℕ) : ℤ) + format.exponent y) :=
          zpow_le_zpow_right₀ one_le_two hplaces
        _ = 2 ^ (format.precision - 1) * format.ulp y := by
          rw [zpow_add₀ two_ne_zero, zpow_natCast, ulp]
        _ ≤ format.round y :=
          mul_le_mul_of_nonneg_right (by exact_mod_cast hfull) (ulp_pos y).le

theorem round_neg (x : ℚ) : format.round (-x) = -format.round x := by
  have hulp : format.ulp (-x) = format.ulp x := by
    rw [ulp, ulp, exponent, exponent, abs_neg]
  rw [round, round, hulp, neg_div, nearest_neg]
  push_cast
  exact neg_mul _ _

theorem monotone_round : Monotone format.round := by
  intro x y hle
  rcases le_total 0 x with hx | hx
  · exact round_mono hx hle
  have hnegx : format.round x = -format.round (-x) := by rw [round_neg, neg_neg]
  rcases le_total 0 y with hy | hy
  · rw [hnegx]
    exact (neg_nonpos.mpr (round_nonneg (neg_nonneg.mpr hx))).trans (round_nonneg hy)
  · have hnegy : format.round y = -format.round (-y) := by rw [round_neg, neg_neg]
    rw [hnegx, hnegy]
    exact neg_le_neg (round_mono (neg_nonneg.mpr hy) (neg_le_neg hle))

theorem abs_round_sub_le (x : ℚ) : |format.round x - x| ≤ format.ulp x / 2 := by
  have hpos := @ulp_pos format x
  have hscaled : format.round x - x =
      (nearest (x / format.ulp x) - x / format.ulp x) * format.ulp x := by
    rw [round, sub_mul, div_mul_cancel₀ _ hpos.ne']
  rw [hscaled, abs_mul, abs_of_pos hpos]
  calc
    |(nearest (x / format.ulp x) : ℚ) - x / format.ulp x| * format.ulp x ≤
        1 / 2 * format.ulp x :=
      mul_le_mul_of_nonneg_right (abs_nearest_sub_le _) hpos.le
    _ = format.ulp x / 2 := by ring

/-- A number of the format below what is rounded stays below it. -/
theorem IsFloat.le_round (hfloat : format.IsFloat x) (hx : 0 ≤ x) (hle : x ≤ y) :
    x ≤ format.round y := by
  rw [← hfloat.round_eq]
  exact round_mono hx hle

theorem IsFloat.round_le (hfloat : format.IsFloat y) (hx : 0 ≤ x) (hle : x ≤ y) :
    format.round x ≤ y := by
  rw [← hfloat.round_eq (x := y)]
  exact round_mono hx hle

theorem IsFloat.min (hx : format.IsFloat x) (hy : format.IsFloat y) :
    format.IsFloat (min x y) := by
  rcases min_choice x y with h | h <;> rw [h] <;> assumption

/-- Below 1 the numbers of the format keep a distance. -/
theorem IsFloat.le_one_sub (hfloat : format.IsFloat x) (hlt : x < 1) :
    x ≤ 1 - 2 ^ (-format.precision : ℤ) := by
  obtain ⟨mantissa, exponent, hmantissa, -, rfl⟩ := hfloat
  have hunit : (0 : ℚ) < 2 ^ (-format.precision : ℤ) := zpow_pos two_pos _
  rcases le_or_gt (-format.precision : ℤ) exponent with hle | hsmall
  · -- The number is a multiple of the distance.
    obtain ⟨places, hplaces⟩ := Int.eq_ofNat_of_zero_le (Int.sub_nonneg_of_le hle)
    have hmultiple : (mantissa : ℚ) * 2 ^ exponent =
        (mantissa * 2 ^ places : ℕ) * 2 ^ (-format.precision : ℤ) := by
      have hsplit : exponent = places + -format.precision := by omega
      rw [hsplit, zpow_add₀ two_ne_zero, zpow_natCast]
      push_cast
      ring
    have hone : (2 ^ format.precision : ℕ) * (2 : ℚ) ^ (-format.precision : ℤ) = 1 := by
      rw [zpow_neg, zpow_natCast]
      push_cast
      exact mul_inv_cancel₀ (pow_ne_zero _ two_ne_zero)
    rw [hmultiple] at hlt ⊢
    rw [← hone, mul_lt_mul_iff_left₀ hunit, Nat.cast_lt] at hlt
    have hnext : ((mantissa * 2 ^ places : ℕ) : ℚ) + 1 ≤ (2 ^ format.precision : ℕ) := by
      exact_mod_cast hlt
    linarith [mul_le_mul_of_nonneg_right hnext hunit.le]
  · -- The number is at most a half.
    have hpos := format.precision_pos
    have hhalf : (2 : ℚ) ^ format.precision * 2 ^ exponent ≤ 2 ^ (-1 : ℤ) := by
      rw [← zpow_natCast, ← zpow_add₀ two_ne_zero]
      exact zpow_le_zpow_right₀ one_le_two (by omega)
    have hunit_le : (2 : ℚ) ^ (-format.precision : ℤ) ≤ 2 ^ (-1 : ℤ) :=
      zpow_le_zpow_right₀ one_le_two (by omega)
    have hcast : (mantissa : ℚ) ≤ 2 ^ format.precision := by exact_mod_cast hmantissa.le
    have hscaled := mul_le_mul_of_nonneg_right hcast
      (zpow_pos (two_pos : (0 : ℚ) < 2) exponent).le
    rw [zpow_neg_one] at hhalf hunit_le
    linarith

/-- Up to 1, rounding is exact to half the last place of the numbers below 1. -/
theorem abs_round_sub_le_of_le_one (hexponent : format.minExponent ≤ -format.precision)
    (hx : 0 ≤ x) (hle : x ≤ 1) :
    |format.round x - x| ≤ 2 ^ (-format.precision : ℤ) / 2 := by
  have hunit : (0 : ℚ) < 2 ^ (-format.precision : ℤ) := zpow_pos two_pos _
  rcases hx.eq_or_lt with rfl | hpos
  · rw [round_zero, sub_zero, abs_zero]
    linarith
  rcases hle.eq_or_lt with rfl | hlt
  · have hone : format.IsFloat 1 := @isFloat_zpow format 0 (by omega)
    rw [hone.round_eq, sub_self, abs_zero]
    linarith
  · have hlog : Int.log 2 |x| < 0 := by
      rw [abs_of_pos hpos]
      exact (Int.lt_zpow_iff_log_lt (b := 2) (by decide) hpos).mp (by rwa [zpow_zero])
    have hlast : format.exponent x ≤ -format.precision := by
      rw [exponent]
      omega
    have hulp : format.ulp x ≤ 2 ^ (-format.precision : ℤ) :=
      zpow_le_zpow_right₀ one_le_two hlast
    linarith [@abs_round_sub_le format x]

/-- Up to 1, numbers that are more than a unit apart are not rounded to one. -/
theorem round_lt_round (hexponent : format.minExponent ≤ -format.precision) (hx : 0 ≤ x)
    (hy : y ≤ 1) (hapart : 2 ^ (-format.precision : ℤ) < y - x) :
    format.round x < format.round y := by
  have hunit : (0 : ℚ) < 2 ^ (-format.precision : ℤ) := zpow_pos two_pos _
  have hlower := abs_le.mp (abs_round_sub_le_of_le_one hexponent hx (by linarith))
  have hupper := abs_le.mp (abs_round_sub_le_of_le_one hexponent (by linarith) hy)
  linarith [hlower.2, hupper.1]

/-- A whole number is rounded to one. -/
theorem exists_round_natCast (hexponent : format.minExponent ≤ 0) (number : ℕ) :
    ∃ whole : ℕ, format.round number = whole := by
  rcases le_or_gt number (2 ^ format.precision) with hle | hlarge
  · exact ⟨number, (isFloat_natCast hle hexponent).round_eq⟩
  · have hpos : (0 : ℚ) < number := by exact_mod_cast (Nat.two_pow_pos _).trans hlarge
    have hlog : (format.precision : ℤ) ≤ Int.log 2 (number : ℚ) := by
      apply (Int.zpow_le_iff_le_log (b := 2) (by decide) hpos).mp
      rw [zpow_natCast]
      exact_mod_cast hlarge.le
    have hplaces : 0 ≤ format.exponent number := by
      rw [exponent, abs_of_pos hpos]
      omega
    obtain ⟨places, hplaces⟩ := Int.eq_ofNat_of_zero_le hplaces
    obtain ⟨mantissa, hmantissa⟩ := Int.eq_ofNat_of_zero_le
      (nearest_nonneg (div_nonneg hpos.le (@ulp_pos format (number : ℚ)).le))
    refine ⟨mantissa * 2 ^ places, ?_⟩
    rw [round, hmantissa, ulp, hplaces]
    push_cast
    rfl

end Format

end DownloaderBot.Floats
