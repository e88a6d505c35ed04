import Mathlib.Algebra.Order.Ring.Int
import Mathlib.Data.Nat.Find
import Mathlib.Tactic.IntervalCases

/-!
# Dates, times and durations

UTC datetimes of the years 1 to 9999 in the proleptic Gregorian calendar, to the
microsecond, and durations in microseconds.  Arithmetic that leaves the
representable range raises.
-/

namespace DownloaderBot.Calendar

/-- What date and time arithmetic raises. -/
inductive TimeError
  | overflow
  | value
  deriving DecidableEq, Repr

def isLeap (year : ℕ) : Bool :=
  year % 4 = 0 && (year % 100 ≠ 0 || year % 400 = 0)

def daysInMonth (year month : ℕ) : ℕ :=
  if month = 2 then if isLeap year then 29 else 28
  else if month = 4 ∨ month = 6 ∨ month = 9 ∨ month = 11 then 30
  else 31

def daysInYear (year : ℕ) : ℕ := if isLeap year then 366 else 365

/-- The days before the first of January of the year. -/
def daysBeforeYear (year : ℕ) : ℕ :=
  (year - 1) * 365 + (year - 1) / 4 + (year - 1) / 400 - (year - 1) / 100

/-- The days of the year before the first of the month. -/
def daysBeforeMonth (year month : ℕ) : ℕ :=
  ((List.range (month - 1)).map fun before => daysInMonth year (before + 1)).sum

/-- A date by its calendar fields. -/
structure Civil where
  year : ℕ
  month : ℕ
  day : ℕ
  deriving DecidableEq, Repr

/-- The calendar has the date. -/
def Civil.Valid (civil : Civil) : Prop :=
  (1 ≤ civil.year ∧ civil.year ≤ 9999) ∧ (1 ≤ civil.month ∧ civil.month ≤ 12) ∧
    1 ≤ civil.day ∧ civil.day ≤ daysInMonth civil.year civil.month

instance (civil : Civil) : Decidable civil.Valid :=
  inferInstanceAs (Decidable (_ ∧ _))

/-- The number of the day, counted from 1 on the first of January of year 1. -/
def Civil.toOrdinal (civil : Civil) : ℕ :=
  daysBeforeYear civil.year + daysBeforeMonth civil.year civil.month + civil.day

/-- The number of the last day of year 9999. -/
def maxOrdinal : ℕ := 3652059

/-- The calendar fields of a day: the last year, and in it the last month, that
begins before the day is over. -/
def Civil.ofOrdinal (ordinal : ℕ) : Civil :=
  let year := Nat.findGreatest (fun year => daysBeforeYear year < ordinal)
    (ordinal / 365 + 1)
  let dayOfYear := ordinal - daysBeforeYear year
  let month := Nat.findGreatest (fun month => daysBeforeMonth year month < dayOfYear)
    12
  ⟨year, month, dayOfYear - daysBeforeMonth year month⟩

theorem daysBeforeMonth_add_le {year month day : ℕ} (hmonth : 1 ≤ month)
    (hlast : month ≤ 12) (hday : day ≤ daysInMonth year month) :
    daysBeforeMonth year month + day ≤ daysInYear year := by
  rw [daysInYear]
  interval_cases month <;>
    cases hleap : isLeap year <;>
    simp [daysBeforeMonth, daysInMonth, List.range_succ, hleap] at hday ⊢ <;>
    omega

theorem isLeap_iff {year : ℕ} :
    isLeap year = true ↔ year % 4 = 0 ∧ (year % 100 ≠ 0 ∨ year % 400 = 0) := by
  simp [isLeap]

theorem daysBeforeYear_add_daysInYear {year : ℕ} (hyear : 1 ≤ year) :
    daysBeforeYear year + daysInYear year = daysBeforeYear (year + 1) := by
  obtain ⟨before, rfl⟩ : ∃ before, year = before + 1 := ⟨year - 1, by omega⟩
  have hcenturies : before / 100 ≤ before / 4 :=
    Nat.div_le_div_left (by omega) (by omega)
  have hleap := @isLeap_iff (before + 1)
  simp only [daysInYear, daysBeforeYear, Nat.add_sub_cancel, Nat.succ_div, hleap]
  by_cases hfour : 4 ∣ before + 1
  · by_cases hhundred : 100 ∣ before + 1
    · by_cases hfourHundred : 400 ∣ before + 1
      · have hyes : (before + 1) % 4 = 0 ∧
          ((before + 1) % 100 ≠ 0 ∨ (before + 1) % 400 = 0) := by omega
        simp only [if_pos hyes, if_pos hfour, if_pos hhundred, if_pos hfourHundred]
        omega
      · have hno : ¬ ((before + 1) % 4 = 0 ∧
          ((before + 1) % 100 ≠ 0 ∨ (before + 1) % 400 = 0)) := by omega
        simp only [if_neg hno, if_pos hfour, if_pos hhundred, if_neg hfourHundred]
        omega
    · have hfourHundred : ¬ 400 ∣ before + 1 := by omega
      have hyes : (before + 1) % 4 = 0 ∧
        ((before + 1) % 100 ≠ 0 ∨ (before + 1) % 400 = 0) := by omega
      simp only [if_pos hyes, if_pos hfour, if_neg hhundred, if_neg hfourHundred]
      omega
  · have hhundred : ¬ 100 ∣ before + 1 := by omega
    have hfourHundred : ¬ 400 ∣ before + 1 := by omega
    have hno : ¬ ((before + 1) % 4 = 0 ∧
      ((before + 1) % 100 ≠ 0 ∨ (before + 1) % 400 = 0)) := by omega
    simp only [if_neg hno, if_neg hfour, if_neg hhundred, if_neg hfourHundred]
    omega

theorem daysBeforeYear_le {year later : ℕ} (hyear : 1 ≤ year)
    (hle : year ≤ later) : daysBeforeYear year ≤ daysBeforeYear later := by
  induction later, hle using Nat.le_induction with
  | base => exact le_refl _
  | succ later hle ih =>
      have := daysBeforeYear_add_daysInYear (hyear.trans hle)
      omega

theorem valid_newYear {year : ℕ} (hyear : 1 ≤ year) (hlast : year ≤ 9999) :
    (⟨year, 1, 1⟩ : Civil).Valid := by
  simp [Civil.Valid, daysInMonth, hyear, hlast]

/-- Every date of the calendar has its number in the range. -/
theorem Civil.Valid.toOrdinal_le {civil : Civil} (hvalid : civil.Valid) :
    1 ≤ civil.toOrdinal ∧ civil.toOrdinal ≤ maxOrdinal := by
  obtain ⟨⟨hyear, hlastYear⟩, ⟨hmonth, hlastMonth⟩, hday, hlastDay⟩ := hvalid
  have hinYear := daysBeforeMonth_add_le hmonth hlastMonth hlastDay
  have hnext := daysBeforeYear_add_daysInYear hyear
  have hend : daysBeforeYear (civil.year + 1) ≤ daysBeforeYear 10000 :=
    daysBeforeYear_le (by omega) (by omega)
  have hmax : daysBeforeYear 10000 = maxOrdinal := by decide
  rw [Civil.toOrdinal]
  omega

/-! ## The calendar fields of a day -/

theorem daysBeforeMonth_succ {year month : ℕ} (hmonth : 1 ≤ month) :
    daysBeforeMonth year (month + 1) =
      daysBeforeMonth year month + daysInMonth year month := by
  obtain ⟨before, rfl⟩ : ∃ before, month = before + 1 := ⟨month - 1, by omega⟩
  simp [daysBeforeMonth, List.range_succ]

theorem daysBeforeMonth_thirteen (year : ℕ) :
    daysBeforeMonth year 13 = daysInYear year := by
  rw [daysInYear]
  cases hleap : isLeap year <;>
    simp [daysBeforeMonth, daysInMonth, List.range_succ, hleap]

theorem daysBeforeMonth_le {year month later : ℕ} (hmonth : 1 ≤ month)
    (hle : month ≤ later) : daysBeforeMonth year month ≤ daysBeforeMonth year later := by
  induction later, hle using Nat.le_induction with
  | base => exact le_refl _
  | succ later hle ih =>
      rw [daysBeforeMonth_succ (hmonth.trans hle)]
      omega

/-- A year has at least the days of its bound in `Civil.ofOrdinal`. -/
theorem mul_le_daysBeforeYear (year : ℕ) : (year - 1) * 365 ≤ daysBeforeYear year := by
  have hcenturies : (year - 1) / 100 ≤ (year - 1) / 4 :=
    Nat.div_le_div_left (by omega) (by omega)
  rw [daysBeforeYear]
  omega

section Fields

variable {ordinal : ℕ}

theorem daysBeforeYear_year_lt (hordinal : 1 ≤ ordinal) :
    1 ≤ (Civil.ofOrdinal ordinal).year ∧
      daysBeforeYear (Civil.ofOrdinal ordinal).year < ordinal := by
  have hfirst : daysBeforeYear 1 < ordinal := hordinal
  constructor
  · exact Nat.le_findGreatest (by omega) hfirst
  · exact Nat.findGreatest_spec (P := fun year => daysBeforeYear year < ordinal)
      (by omega : 1 ≤ ordinal / 365 + 1) hfirst

theorem le_daysBeforeYear_year_succ :
    ordinal ≤ daysBeforeYear ((Civil.ofOrdinal ordinal).year + 1) := by
  by_contra hlt
  have hbound : (Civil.ofOrdinal ordinal).year + 1 ≤ ordinal / 365 + 1 := by
    have := mul_le_daysBeforeYear ((Civil.ofOrdinal ordinal).year + 1)
    omega
  have := Nat.le_findGreatest (P := fun year => daysBeforeYear year < ordinal)
    hbound (not_le.mp hlt)
  exact absurd this (by simp [Civil.ofOrdinal])

/-- The day of the year, which the month and the day of the month are read off. -/
theorem dayOfYear_bounds (hordinal : 1 ≤ ordinal) :
    1 ≤ ordinal - daysBeforeYear (Civil.ofOrdinal ordinal).year ∧
      ordinal - daysBeforeYear (Civil.ofOrdinal ordinal).year ≤
        daysInYear (Civil.ofOrdinal ordinal).year := by
  obtain ⟨hyear, hbefore⟩ := daysBeforeYear_year_lt hordinal
  have hafter := @le_daysBeforeYear_year_succ ordinal
  have hnext := daysBeforeYear_add_daysInYear hyear
  omega

theorem month_bounds (hordinal : 1 ≤ ordinal) :
    1 ≤ (Civil.ofOrdinal ordinal).month ∧ (Civil.ofOrdinal ordinal).month ≤ 12 := by
  have hfirst : daysBeforeMonth (Civil.ofOrdinal ordinal).year 1 <
      ordinal - daysBeforeYear (Civil.ofOrdinal ordinal).year :=
    (dayOfYear_bounds hordinal).1
  constructor
  · exact Nat.le_findGreatest (by omega) hfirst
  · exact Nat.findGreatest_le
      (P := fun month => daysBeforeMonth (Civil.ofOrdinal ordinal).year month <
        ordinal - daysBeforeYear (Civil.ofOrdinal ordinal).year) 12

theorem day_bounds (hordinal : 1 ≤ ordinal) :
    1 ≤ (Civil.ofOrdinal ordinal).day ∧ (Civil.ofOrdinal ordinal).day ≤
      daysInMonth (Civil.ofOrdinal ordinal).year (Civil.ofOrdinal ordinal).month := by
  obtain ⟨hday, hlastDay⟩ := dayOfYear_bounds hordinal
  obtain ⟨hmonth, hlastMonth⟩ := month_bounds hordinal
  set year := (Civil.ofOrdinal ordinal).year with hyear
  set month := (Civil.ofOrdinal ordinal).month with hmonthEq
  have hdayEq : (Civil.ofOrdinal ordinal).day =
      ordinal - daysBeforeYear year - daysBeforeMonth year month := rfl
  have hbefore : daysBeforeMonth year month < ordinal - daysBeforeYear year :=
    Nat.findGreatest_spec
      (P := fun month => daysBeforeMonth year month < ordinal - daysBeforeYear year)
      (by decide : 1 ≤ 12) hday
  have hafter : ordinal - daysBeforeYear year ≤ daysBeforeMonth year (month + 1) := by
    rcases lt_or_eq_of_le hlastMonth with hlt | heq
    · by_contra hnot
      have := Nat.le_findGreatest
        (P := fun month => daysBeforeMonth year month < ordinal - daysBeforeYear year)
        hlt (not_le.mp hnot)
      exact absurd this (by simp [hmonthEq, Civil.ofOrdinal, hyear])
    · rw [heq, daysBeforeMonth_thirteen]
      exact hlastDay
  rw [daysBeforeMonth_succ hmonth] at hafter
  omega

/-- The fields of a day in the range are a date of the calendar. -/
theorem valid_ofOrdinal (hordinal : 1 ≤ ordinal) (hlast : ordinal ≤ maxOrdinal) :
    (Civil.ofOrdinal ordinal).Valid := by
  obtain ⟨hyear, hbefore⟩ := daysBeforeYear_year_lt hordinal
  refine ⟨⟨hyear, ?_⟩, month_bounds hordinal, day_bounds hordinal⟩
  by_contra hlate
  have hend : daysBeforeYear 10000 ≤ daysBeforeYear (Civil.ofOrdinal ordinal).year :=
    daysBeforeYear_le (by omega) (by omega)
  have hmax : daysBeforeYear 10000 = maxOrdinal := by decide
  omega

/-- The number of a day is made up of its fields. -/
theorem toOrdinal_ofOrdinal (hordinal : 1 ≤ ordinal) :
    (Civil.ofOrdinal ordinal).toOrdinal = ordinal := by
  have hyear := (daysBeforeYear_year_lt hordinal).2
  have hday := (day_bounds hordinal).1
  have hdayEq : (Civil.ofOrdinal ordinal).day =
      ordinal - daysBeforeYear (Civil.ofOrdinal ordinal).year -
        daysBeforeMonth (Civil.ofOrdinal ordinal).year
          (Civil.ofOrdinal ordinal).month := rfl
  rw [Civil.toOrdinal]
  omega

end Fields

section Order

variable {civil other : Civil}

/-- A date of an earlier year comes before the year. -/
theorem Civil.Valid.toOrdinal_le_of_year_lt (hcivil : civil.Valid) {year : ℕ}
    (hlt : civil.year < year) : civil.toOrdinal ≤ daysBeforeYear year := by
  obtain ⟨⟨hyear, -⟩, ⟨hmonth, hlastMonth⟩, -, hlastDay⟩ := hcivil
  have hinYear := daysBeforeMonth_add_le hmonth hlastMonth hlastDay
  have hnext := daysBeforeYear_add_daysInYear hyear
  have hle : daysBeforeYear (civil.year + 1) ≤ daysBeforeYear year :=
    daysBeforeYear_le (by omega) hlt
  rw [Civil.toOrdinal]
  omega

/-- A date of an earlier month comes before the month. -/
theorem Civil.Valid.toOrdinal_le_of_month_lt (hcivil : civil.Valid) {month : ℕ}
    (hlt : civil.month < month) :
    civil.toOrdinal ≤ daysBeforeYear civil.year + daysBeforeMonth civil.year month := by
  obtain ⟨-, ⟨hmonth, -⟩, -, hlastDay⟩ := hcivil
  have hnext := @daysBeforeMonth_succ civil.year civil.month hmonth
  have hle : daysBeforeMonth civil.year (civil.month + 1) ≤
      daysBeforeMonth civil.year month :=
    daysBeforeMonth_le (by omega) hlt
  rw [Civil.toOrdinal]
  omega

/-- Different dates of the calendar have different numbers. -/
theorem Civil.Valid.toOrdinal_inj (hcivil : civil.Valid) (hother : other.Valid)
    (heq : civil.toOrdinal = other.toOrdinal) : civil = other := by
  have hyears : ∀ {first second : Civil}, first.Valid → second.Valid →
      first.toOrdinal = second.toOrdinal → second.year ≤ first.year := by
    intro first second hfirst hsecond hsame
    by_contra hlt
    have hbefore := hfirst.toOrdinal_le_of_year_lt (not_le.mp hlt)
    have hday := hsecond.2.2.1
    rw [hsame, Civil.toOrdinal] at hbefore
    omega
  have hyear : civil.year = other.year :=
    le_antisymm (hyears hother hcivil heq.symm) (hyears hcivil hother heq)
  have hmonths : ∀ {first second : Civil}, first.Valid → second.Valid →
      first.year = second.year → first.toOrdinal = second.toOrdinal →
      second.month ≤ first.month := by
    intro first second hfirst hsecond hsameYear hsame
    by_contra hlt
    have hbefore := hfirst.toOrdinal_le_of_month_lt (not_le.mp hlt)
    have hday := hsecond.2.2.1
    rw [hsame, hsameYear, Civil.toOrdinal] at hbefore
    omega
  have hmonth : civil.month = other.month :=
    le_antisymm (hmonths hother hcivil hyear.symm heq.symm)
      (hmonths hcivil hother hyear heq)
  have hday : civil.day = other.day := by
    simp only [Civil.toOrdinal] at heq
    rw [hyear, hmonth] at heq
    omega
  cases civil
  cases other
  exact congr (congr (congrArg Civil.mk hyear) hmonth) hday

end Order

/-- The fields of the number of a date are those of the date. -/
theorem Civil.Valid.ofOrdinal_toOrdinal {civil : Civil} (hvalid : civil.Valid) :
    Civil.ofOrdinal civil.toOrdinal = civil := by
  obtain ⟨hfirst, hlast⟩ := hvalid.toOrdinal_le
  exact (valid_ofOrdinal hfirst hlast).toOrdinal_inj hvalid (toOrdinal_ofOrdinal hfirst)

/-! ## Datetimes -/

def microsPerDay : ℕ := 86400 * 1000000

/-- A UTC datetime, in microseconds from the start of year 1. -/
structure DateTime where
  micros : ℕ
  inRange : micros < maxOrdinal * microsPerDay
  deriving DecidableEq, Repr

instance : LinearOrder DateTime where
  le left right := left.micros ≤ right.micros
  lt left right := left.micros < right.micros
  le_refl _ := le_refl _
  le_trans _ _ _ := le_trans
  lt_iff_le_not_ge left right := @lt_iff_le_not_ge ℕ _ left.micros right.micros
  le_antisymm := fun ⟨_, _⟩ ⟨_, _⟩ hle hge => by
    obtain rfl := Nat.le_antisymm hle hge
    rfl
  le_total left right := Nat.le_total left.micros right.micros
  toDecidableLE left right := inferInstanceAs (Decidable (left.micros ≤ right.micros))
  toDecidableLT left right := inferInstanceAs (Decidable (left.micros < right.micros))
  toDecidableEq := inferInstance

/-- A duration in microseconds. -/
abbrev TimeDelta := ℤ

/-- `timedelta(seconds=seconds)`: at most 999999999 days either way. -/
def timedeltaSeconds (seconds : ℤ) : Except TimeError TimeDelta :=
  if (seconds / 86400).natAbs ≤ 999999999 then .ok (seconds * 1000000)
  else .error .overflow

/-- `timedelta(days=days)`. -/
def timedeltaDays (days : ℤ) : Except TimeError TimeDelta :=
  timedeltaSeconds (days * 86400)

/-- `timedelta(hours=hours)`. -/
def timedeltaHours (hours : ℤ) : Except TimeError TimeDelta :=
  timedeltaSeconds (hours * 3600)

theorem timedeltaHours_eq_ok {hours : ℤ} {delta : TimeDelta}
    (hdelta : timedeltaHours hours = .ok delta) : delta = hours * 3600 * 1000000 := by
  rw [timedeltaHours, timedeltaSeconds] at hdelta
  split at hdelta
  case isTrue => exact (Except.ok.inj hdelta).symm
  case isFalse => cases hdelta

namespace DateTime

variable (datetime : DateTime)

def ordinal : ℕ := datetime.micros / microsPerDay + 1

def timeOfDay : ℕ := datetime.micros % microsPerDay

def civil : Civil := .ofOrdinal datetime.ordinal

/-- Monday is 0. -/
def weekday : ℕ := (datetime.ordinal + 6) % 7

/-- `datetime - delta`. -/
def sub (delta : TimeDelta) : Except TimeError DateTime :=
  let difference := datetime.micros - delta
  if h : 0 ≤ difference ∧ difference < (maxOrdinal * microsPerDay : ℕ) then
    .ok ⟨difference.toNat, (Int.toNat_lt h.1).mpr h.2⟩
  else .error .overflow

/-- `datetime + delta`. -/
def add (delta : TimeDelta) : Except TimeError DateTime := datetime.sub (-delta)

/-- `datetime.replace(year=.., month=.., day=..)`. -/
def replaceDate (civil : Civil) : Except TimeError DateTime :=
  if h : civil.Valid then
    .ok ⟨(civil.toOrdinal - 1) * microsPerDay + datetime.timeOfDay, by
      have hle := h.toOrdinal_le
      have hday : datetime.timeOfDay < microsPerDay :=
        Nat.mod_lt _ (by decide)
      have hscale : civil.toOrdinal * microsPerDay ≤ maxOrdinal * microsPerDay :=
        Nat.mul_le_mul_right _ hle.2
      rw [Nat.sub_one_mul]
      have := Nat.le_mul_of_pos_left microsPerDay hle.1
      omega⟩
  else .error .value

/-- `datetime.replace(hour=0, minute=0, second=0, microsecond=0)`. -/
def midnight : DateTime :=
  ⟨datetime.micros / microsPerDay * microsPerDay,
    (Nat.div_mul_le_self _ _).trans_lt datetime.inRange⟩

theorem ordinal_bounds : 1 ≤ datetime.ordinal ∧ datetime.ordinal ≤ maxOrdinal := by
  have hlt : datetime.micros / microsPerDay < maxOrdinal :=
    (Nat.div_lt_iff_lt_mul (by decide)).mpr datetime.inRange
  exact ⟨Nat.le_add_left 1 _, hlt⟩

/-- Every datetime has a date of the calendar. -/
theorem valid_civil : datetime.civil.Valid :=
  valid_ofOrdinal datetime.ordinal_bounds.1 datetime.ordinal_bounds.2

theorem daysBeforeYear_lt_ordinal : daysBeforeYear datetime.civil.year < datetime.ordinal :=
  (daysBeforeYear_year_lt datetime.ordinal_bounds.1).2

theorem micros_midnight :
    datetime.midnight.micros = (datetime.ordinal - 1) * microsPerDay := rfl

variable {datetime} {civil : Civil} {delta : TimeDelta}

/-- Going back ends in the first year at the earliest. -/
theorem exists_sub_eq_ok_iff (hnonneg : 0 ≤ delta) :
    (∃ earlier, datetime.sub delta = .ok earlier) ↔ delta ≤ datetime.micros := by
  have hrange : (datetime.micros : ℤ) < (maxOrdinal * microsPerDay : ℕ) :=
    Int.ofNat_lt.mpr datetime.inRange
  simp only [sub]
  constructor
  · rintro ⟨earlier, hsub⟩
    split at hsub
    case isTrue hin => exact sub_nonneg.mp hin.1
    case isFalse => cases hsub
  · intro hle
    exact ⟨_, dif_pos ⟨sub_nonneg.mpr hle, (sub_le_self _ hnonneg).trans_lt hrange⟩⟩

theorem micros_of_sub {earlier : DateTime} (hsub : datetime.sub delta = .ok earlier) :
    (earlier.micros : ℤ) = datetime.micros - delta := by
  simp only [sub] at hsub
  split at hsub
  case isTrue hin =>
    cases hsub
    exact Int.toNat_of_nonneg hin.1
  case isFalse => cases hsub

/-- Going forward ends in the last year at the latest. -/
theorem exists_add_eq_ok_iff (hnonneg : 0 ≤ delta) :
    (∃ later, datetime.add delta = .ok later) ↔
      datetime.micros + delta < (maxOrdinal * microsPerDay : ℕ) := by
  have hfirst : 0 ≤ (datetime.micros : ℤ) + delta :=
    add_nonneg (Int.natCast_nonneg _) hnonneg
  simp only [add, sub, sub_neg_eq_add]
  constructor
  · rintro ⟨later, hadd⟩
    split at hadd
    case isTrue hin => exact hin.2
    case isFalse => cases hadd
  · intro hlt
    exact ⟨_, dif_pos ⟨hfirst, hlt⟩⟩

theorem micros_of_add {later : DateTime} (hadd : datetime.add delta = .ok later) :
    (later.micros : ℤ) = datetime.micros + delta := by
  rw [micros_of_sub hadd, sub_neg_eq_add]

/-- A midnight moved to another date of the calendar. -/
theorem exists_replaceDate_midnight (datetime : DateTime) (hvalid : civil.Valid) :
    ∃ moved, datetime.midnight.replaceDate civil = .ok moved ∧
      moved.micros = (civil.toOrdinal - 1) * microsPerDay ∧ moved.civil = civil := by
  have htime : datetime.midnight.timeOfDay = 0 := by
    rw [timeOfDay, micros_midnight]
    exact Nat.mul_mod_left _ _
  refine ⟨_, dif_pos hvalid, ?_, ?_⟩
  · change (civil.toOrdinal - 1) * microsPerDay + datetime.midnight.timeOfDay = _
    rw [htime, Nat.add_zero]
  · have hfirst := hvalid.toOrdinal_le.1
    calc
      Civil.ofOrdinal (((civil.toOrdinal - 1) * microsPerDay +
          datetime.midnight.timeOfDay) / microsPerDay + 1)
          = Civil.ofOrdinal civil.toOrdinal := by
        simp only [htime, Nat.add_zero,
          Nat.mul_div_cancel _ (by decide : 0 < microsPerDay),
          Nat.sub_add_cancel hfirst]
      _ = civil := hvalid.ofOrdinal_toOrdinal

end DateTime

/-- Up to some two million years a number of days is a duration. -/
theorem timedeltaDays_of_le {days : ℕ} (hdays : days ≤ 999999999) :
    timedeltaDays days = .ok (days * microsPerDay) := by
  have hfits : (((days : ℤ) * 86400) / 86400).natAbs ≤ 999999999 := by omega
  have hmicros : (days : ℤ) * 86400 * 1000000 = days * (microsPerDay : ℕ) := by
    rw [mul_assoc]
    rfl
  rw [timedeltaDays, timedeltaSeconds, if_pos hfits, hmicros]

end DownloaderBot.Calendar
