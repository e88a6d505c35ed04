import DownloaderBot.Core.Periods
import DownloaderBot.Download.Filters

/-!
# The windows of the named periods

Each named period is a window of one calendar unit: `last` the unit before the present
one, `this` the present one up to now.
-/

namespace DownloaderBot.Filters

open DownloaderBot.Calendar
open DownloaderBot.Discord
open DownloaderBot.Periods

/-! ## Calendar units -/

inductive CalendarUnit
  | day
  | week
  | month
  | year
  deriving DecidableEq, Repr

/-- The name of the window that is over. -/
def CalendarUnit.lastName : CalendarUnit → String
  | .day => "yesterday"
  | .week => "last-week"
  | .month => "last-month"
  | .year => "last-year"

/-- The name of the window that is open. -/
def CalendarUnit.thisName : CalendarUnit → String
  | .day => "today"
  | .week => "this-week"
  | .month => "this-month"
  | .year => "this-year"

/-- The number of the unit that a moment lies in.  The first of January of year 1 is a
Monday. -/
def CalendarUnit.number (unit : CalendarUnit) (moment : DateTime) : ℕ :=
  match unit with
  | .day => moment.ordinal
  | .week => (moment.ordinal - 1) / 7
  | .month => moment.civil.year * 12 + moment.civil.month
  | .year => moment.civil.year

theorem mem_namedPeriods_iff {name : String} :
    name ∈ namedPeriods ↔
      ∃ unit : CalendarUnit, name = unit.lastName ∨ name = unit.thisName := by
  constructor
  · intro hname
    simp only [namedPeriods, List.mem_cons, List.not_mem_nil, or_false] at hname
    rcases hname with rfl | rfl | rfl | rfl | rfl | rfl | rfl | rfl
    · exact ⟨.day, .inr rfl⟩
    · exact ⟨.day, .inl rfl⟩
    · exact ⟨.week, .inr rfl⟩
    · exact ⟨.week, .inl rfl⟩
    · exact ⟨.month, .inr rfl⟩
    · exact ⟨.month, .inl rfl⟩
    · exact ⟨.year, .inr rfl⟩
    · exact ⟨.year, .inl rfl⟩
  · rintro ⟨unit, rfl | rfl⟩ <;> cases unit <;> decide

section Numbers

variable {moment start : DateTime}

theorem toOrdinal_civil (moment : DateTime) : moment.civil.toOrdinal = moment.ordinal :=
  toOrdinal_ofOrdinal moment.ordinal_bounds.1

theorem monotone_ordinal : Monotone DateTime.ordinal := fun _ _ hle =>
  Nat.succ_le_succ (Nat.div_le_div_right hle)

/-- A year has begun if and only if its days before it are over. -/
theorem year_le_iff {year : ℕ} (hyear : 1 ≤ year) :
    daysBeforeYear year < moment.ordinal ↔ year ≤ moment.civil.year := by
  constructor
  · intro hbegun
    by_contra hlt
    have hbefore := moment.valid_civil.toOrdinal_le_of_year_lt (not_le.mp hlt)
    rw [toOrdinal_civil] at hbefore
    omega
  · exact fun hle => (daysBeforeYear_le hyear hle).trans_lt moment.daysBeforeYear_lt_ordinal

/-- The same for a month. -/
theorem month_le_iff {year month : ℕ} (hyear : 1 ≤ year) (hmonth : 1 ≤ month)
    (hlast : month ≤ 12) :
    daysBeforeYear year + daysBeforeMonth year month < moment.ordinal ↔
      year * 12 + month ≤ moment.civil.year * 12 + moment.civil.month := by
  obtain ⟨hvalidYear, ⟨hfirst, htwelve⟩, hday, -⟩ := moment.valid_civil
  have hordinal := toOrdinal_civil moment
  rw [Civil.toOrdinal] at hordinal
  rcases lt_trichotomy year moment.civil.year with hlt | heq | hgt
  · -- The month is over with its year.
    have hinYear : daysBeforeMonth year month + 0 ≤ daysInYear year :=
      daysBeforeMonth_add_le hmonth hlast (Nat.zero_le _)
    have hnext := daysBeforeYear_add_daysInYear hyear
    have hle : daysBeforeYear (year + 1) ≤ daysBeforeYear moment.civil.year :=
      daysBeforeYear_le (by omega) hlt
    omega
  · rcases Nat.lt_or_ge moment.civil.month month with hbefore | hbegun
    · have hearlier := moment.valid_civil.toOrdinal_le_of_month_lt hbefore
      rw [toOrdinal_civil] at hearlier
      subst heq
      omega
    · have hle := @daysBeforeMonth_le year month moment.civil.month hmonth hbegun
      rw [← heq] at hordinal
      omega
  · have hearlier := moment.valid_civil.toOrdinal_le_of_year_lt hgt
    rw [toOrdinal_civil] at hearlier
    omega

theorem monotone_number (unit : CalendarUnit) : Monotone unit.number := by
  intro earlier later hle
  have hordinal := monotone_ordinal hle
  obtain ⟨⟨hyear, -⟩, ⟨hmonth, hlast⟩, hday, -⟩ := earlier.valid_civil
  have hfields := toOrdinal_civil earlier
  rw [Civil.toOrdinal] at hfields
  cases unit with
  | day => exact hordinal
  | week => exact Nat.div_le_div_right (Nat.sub_le_sub_right hordinal 1)
  | month => exact (month_le_iff hyear hmonth hlast).mp (by omega)
  | year => exact (year_le_iff hyear).mp (by omega)

end Numbers

/-! ## The first moments -/

section Starts

variable {now start : DateTime}

/-- A midnight is the first moment of a unit when the days after it are in that unit or
later. -/
theorem begins_of_midnight {unit : CalendarUnit} {whole number : ℕ}
    (hmidnight : start.micros = whole * microsPerDay)
    (hiff : ∀ moment, whole < DateTime.ordinal moment ↔ number ≤ unit.number moment)
    (hnumber : unit.number start = number) : Begins unit.number start number := by
  refine ⟨hnumber, fun moment => ?_⟩
  calc
    start ≤ moment ↔ whole * microsPerDay ≤ moment.micros := by
      rw [← hmidnight]
      exact Iff.rfl
    _ ↔ whole ≤ moment.micros / microsPerDay := (Nat.le_div_iff_mul_le (by decide)).symm
    _ ↔ whole < moment.ordinal := Nat.lt_succ_iff.symm
    _ ↔ number ≤ unit.number moment := hiff moment

theorem ordinal_of_midnight {whole : ℕ} (hmidnight : start.micros = whole * microsPerDay) :
    start.ordinal = whole + 1 := by
  rw [DateTime.ordinal, hmidnight, Nat.mul_div_cancel _ (by decide : 0 < microsPerDay)]

theorem begins_day {whole : ℕ} (hmidnight : start.micros = whole * microsPerDay) :
    Begins CalendarUnit.day.number start (whole + 1) :=
  begins_of_midnight hmidnight (fun _ => Iff.rfl) (ordinal_of_midnight hmidnight)

theorem begins_week {week : ℕ} (hmidnight : start.micros = week * 7 * microsPerDay) :
    Begins CalendarUnit.week.number start week := by
  refine begins_of_midnight hmidnight (fun moment => ?_) ?_
  · have hfirst := moment.ordinal_bounds.1
    simp only [CalendarUnit.number]
    omega
  · simp only [CalendarUnit.number, ordinal_of_midnight hmidnight]
    omega

theorem begins_month {year month : ℕ} (hvalid : Civil.Valid ⟨year, month, 1⟩)
    (hmidnight : start.micros = (Civil.toOrdinal ⟨year, month, 1⟩ - 1) * microsPerDay)
    (hcivil : start.civil = ⟨year, month, 1⟩) :
    Begins CalendarUnit.month.number start (year * 12 + month) := by
  obtain ⟨⟨hyear, -⟩, ⟨hmonth, hlast⟩, -⟩ := hvalid
  refine begins_of_midnight hmidnight (fun moment => month_le_iff hyear hmonth hlast) ?_
  rw [CalendarUnit.number, hcivil]

theorem begins_year {year : ℕ} (hyear : 1 ≤ year)
    (hmidnight : start.micros = (Civil.toOrdinal ⟨year, 1, 1⟩ - 1) * microsPerDay)
    (hcivil : start.civil = ⟨year, 1, 1⟩) :
    Begins CalendarUnit.year.number start year := by
  refine begins_of_midnight hmidnight (fun moment => year_le_iff hyear) ?_
  rw [CalendarUnit.number, hcivil]

/-- There are days enough before the year to go back by a week or two. -/
theorem ordinal_gt (hyear : 2 ≤ now.civil.year) : 365 < now.ordinal := by
  have hbefore : daysBeforeYear 2 ≤ daysBeforeYear now.civil.year :=
    daysBeforeYear_le (by decide) hyear
  have hlt := now.daysBeforeYear_lt_ordinal
  have hfirst : daysBeforeYear 2 = 365 := by decide
  omega

/-- Some days before a midnight there is another one. -/
theorem exists_sub_days {midnight : DateTime} {whole : ℕ} (days : ℕ) (hfew : days ≤ 13)
    (hmidnight : midnight.micros = whole * microsPerDay) (hle : days ≤ whole) :
    ∃ earlier, (do midnight.sub (← timedeltaDays days)) = .ok earlier ∧
      earlier.micros = (whole - days) * microsPerDay := by
  -- The days in microseconds stay a variable: nothing may compute with them.
  obtain ⟨span, hspan⟩ : ∃ span, days * microsPerDay = span := ⟨_, rfl⟩
  have hlate : span ≤ midnight.micros := by
    rw [hmidnight, ← hspan]
    exact Nat.mul_le_mul_right _ hle
  have hdelta : timedeltaDays days = .ok (span : ℤ) := by
    rw [timedeltaDays_of_le (hfew.trans (by decide)), ← hspan, Nat.cast_mul]
  have hcast : (span : ℤ) ≤ midnight.micros := Int.ofNat_le.mpr hlate
  obtain ⟨earlier, hsub⟩ :=
    (DateTime.exists_sub_eq_ok_iff (Int.natCast_nonneg span)).mpr hcast
  have hmicros : (earlier.micros : ℤ) = midnight.micros - span :=
    DateTime.micros_of_sub hsub
  refine ⟨earlier, ?_, ?_⟩
  · rw [hdelta]
    exact hsub
  · rw [Nat.sub_mul, ← hmidnight, hspan]
    omega

theorem exists_startOfWeek (hyear : 2 ≤ now.civil.year) :
    ∃ thisWeek, startOfWeek now = .ok thisWeek ∧
      thisWeek.micros = (now.ordinal - 1 - now.weekday) * microsPerDay := by
  have hweekday : now.weekday < 7 := Nat.mod_lt _ (by decide)
  have hlate := ordinal_gt hyear
  exact exists_sub_days _ (by omega) now.micros_midnight (by omega)

theorem exists_startOfMonth (datetime : DateTime) :
    ∃ thisMonth, startOfMonth datetime = .ok thisMonth ∧
      thisMonth.micros = (Civil.toOrdinal { datetime.civil with day := 1 } - 1) *
        microsPerDay ∧ thisMonth.civil = { datetime.civil with day := 1 } := by
  obtain ⟨hyear, hmonth, hday, hlast⟩ := datetime.valid_civil
  exact datetime.exists_replaceDate_midnight
    (show Civil.Valid { datetime.civil with day := 1 } from
      ⟨hyear, hmonth, le_refl 1, hday.trans hlast⟩)

theorem begins_startOfMonth {thisMonth : DateTime}
    (hstart : startOfMonth now = .ok thisMonth) :
    Begins CalendarUnit.month.number thisMonth (CalendarUnit.month.number now) := by
  obtain ⟨hyear, hmonth, hday, hlast⟩ := now.valid_civil
  obtain ⟨other, hother, hmicros, hcivil⟩ := exists_startOfMonth now
  obtain rfl : thisMonth = other := Except.ok.inj (hstart.symm.trans hother)
  exact begins_month ⟨hyear, hmonth, le_refl 1, hday.trans hlast⟩ hmicros hcivil

/-- The day before the first of a month, but for that of the first year, is a date of the
month before. -/
theorem exists_lastOfPreviousMonth {year month : ℕ} (hyear : 2 ≤ year) (hlast : year ≤ 9999)
    (hmonth : 1 ≤ month) (htwelve : month ≤ 12) :
    ∃ civil : Civil, civil.Valid ∧
      civil.toOrdinal = daysBeforeYear year + daysBeforeMonth year month ∧
      civil.year * 12 + civil.month + 1 = year * 12 + month := by
  rcases Nat.lt_or_ge 1 month with hlater | hjanuary
  · obtain ⟨before, rfl⟩ : ∃ before, month = before + 1 := ⟨month - 1, by omega⟩
    have hbefore : 1 ≤ before := Nat.le_of_lt_succ hlater
    have hdays : 1 ≤ daysInMonth year before := by
      rw [daysInMonth]
      split_ifs <;> decide
    have hvalid : Civil.Valid ⟨year, before, daysInMonth year before⟩ := by
      simp only [Civil.Valid]
      omega
    refine ⟨_, hvalid, ?_, rfl⟩
    rw [Civil.toOrdinal, daysBeforeMonth_succ hbefore, Nat.add_assoc]
  · obtain rfl : month = 1 := le_antisymm hjanuary hmonth
    obtain ⟨before, rfl⟩ : ∃ before, year = before + 1 := ⟨year - 1, by omega⟩
    have hbefore : 1 ≤ before := Nat.le_of_succ_le_succ hyear
    have hthirtyOne : daysInMonth before 12 = 31 := rfl
    have hvalid : Civil.Valid ⟨before, 12, 31⟩ := by
      simp only [Civil.Valid, hthirtyOne]
      omega
    have hdecember : daysBeforeMonth before 12 + 31 = daysInYear before :=
      (daysBeforeMonth_succ (by decide)).symm.trans (daysBeforeMonth_thirteen before)
    refine ⟨_, hvalid, ?_, by rw [Nat.add_mul]⟩
    calc
      daysBeforeYear before + daysBeforeMonth before 12 + 31
          = daysBeforeYear before + daysInYear before := by
        rw [Nat.add_assoc, hdecember]
      _ = daysBeforeYear (before + 1) := daysBeforeYear_add_daysInYear hbefore

theorem exists_previousMonthStart (hyear : 2 ≤ now.civil.year) :
    ∃ previous, previousMonthStart now = .ok previous ∧ ∃ period,
      Begins CalendarUnit.month.number previous period ∧
        period + 1 = CalendarUnit.month.number now := by
  obtain ⟨⟨-, hlast⟩, ⟨hmonth, htwelve⟩, -⟩ := now.valid_civil
  obtain ⟨thisMonth, hthis, hmicros, -⟩ := exists_startOfMonth now
  obtain ⟨civil, hvalid, hordinal, hnumber⟩ :=
    exists_lastOfPreviousMonth hyear hlast hmonth htwelve
  have hdays : Civil.toOrdinal { now.civil with day := 1 } - 1 = civil.toOrdinal :=
    hordinal.symm
  have hfirst := hvalid.toOrdinal_le.1
  rw [hdays] at hmicros
  obtain ⟨before, hbefore, hmidnight⟩ := exists_sub_days 1 (by decide) hmicros hfirst
  have hcivil : before.civil = civil := by
    rw [DateTime.civil, ordinal_of_midnight hmidnight, Nat.sub_add_cancel hfirst]
    exact hvalid.ofOrdinal_toOrdinal
  obtain ⟨previous, hprevious, -⟩ := exists_startOfMonth before
  refine ⟨previous, ?_, _, begins_startOfMonth hprevious, ?_⟩
  · calc
      previousMonthStart now
          = (startOfMonth now >>= fun thisMonth =>
              (do thisMonth.sub (← timedeltaDays (1 : ℕ))) >>= startOfMonth) := by
        simp only [previousMonthStart, bind_assoc, Nat.cast_one]
      _ = ((do thisMonth.sub (← timedeltaDays (1 : ℕ))) >>= startOfMonth) := by
        rw [hthis]
        rfl
      _ = startOfMonth before := by
        rw [hbefore]
        rfl
      _ = .ok previous := hprevious
  · rw [CalendarUnit.number, CalendarUnit.number, hcivil]
    exact hnumber

theorem exists_startOfYear (datetime : DateTime) :
    ∃ thisYear, startOfYear datetime = .ok thisYear ∧
      Begins CalendarUnit.year.number thisYear datetime.civil.year ∧
      thisYear.civil = ⟨datetime.civil.year, 1, 1⟩ ∧ thisYear.midnight = thisYear := by
  obtain ⟨⟨hyear, hlast⟩, -⟩ := datetime.valid_civil
  obtain ⟨thisYear, hreplace, hmicros, hcivil⟩ :=
    datetime.exists_replaceDate_midnight (valid_newYear hyear hlast)
  refine ⟨thisYear, hreplace, begins_year hyear hmicros hcivil, hcivil, ?_⟩
  cases thisYear
  simp only [DateTime.midnight, DateTime.mk.injEq] at hmicros ⊢
  rw [hmicros, Nat.mul_div_cancel _ (by decide : 0 < microsPerDay)]

theorem exists_previousYearStart (hyear : 2 ≤ now.civil.year) :
    ∃ previous, previousYearStart now = .ok previous ∧
      Begins CalendarUnit.year.number previous (now.civil.year - 1) := by
  obtain ⟨⟨-, hlast⟩, -⟩ := now.valid_civil
  have hbefore : 1 ≤ now.civil.year - 1 := Nat.le_sub_of_add_le hyear
  obtain ⟨thisYear, hthis, -, hcivil, hmidnight⟩ := exists_startOfYear now
  obtain ⟨previous, hreplace, hmicros, hprevious⟩ :=
    thisYear.exists_replaceDate_midnight
      (valid_newYear hbefore ((Nat.sub_le _ _).trans hlast))
  refine ⟨previous, ?_, begins_year hbefore hmicros hprevious⟩
  rw [hmidnight] at hreplace
  simp only [previousYearStart, hthis]
  change thisYear.replaceDate { thisYear.civil with year := now.civil.year - 1 } = _
  rw [hcivil]
  exact hreplace

end Starts

/-! ## The windows -/

/-- The windows of a unit: from `previous` to `current` it is over, and from `current` on
it goes on. -/
structure Windows (unit : CalendarUnit) (now previous current : DateTime) : Prop where
  lastBounds : namedPeriodBounds now unit.lastName = some (.ok (previous, current))
  thisBounds : namedPeriodBounds now unit.thisName = some (.ok (current, now))
  lastBegins : ∃ period, Begins unit.number previous period ∧ period + 1 = unit.number now
  thisBegins : Begins unit.number current (unit.number now)

section Windows

variable {now : DateTime}

theorem exists_windows_day (hyear : 2 ≤ now.civil.year) :
    ∃ previous current, Windows .day now previous current := by
  have hlate := ordinal_gt hyear
  obtain ⟨yesterday, hyesterday, hmicros⟩ := exists_sub_days 1 (by decide)
    now.micros_midnight (by omega)
  have hbegins : Begins CalendarUnit.day.number (startOfDay now) now.ordinal := by
    have hmidnight := begins_day now.micros_midnight
    rwa [Nat.sub_add_cancel now.ordinal_bounds.1] at hmidnight
  refine ⟨yesterday, startOfDay now, ?_, rfl, ⟨_, begins_day hmicros, ?_⟩, hbegins⟩
  · have hbounds : namedPeriodBounds now "yesterday" =
        some (do return (← (do (startOfDay now).sub (← timedeltaDays (1 : ℕ))),
          startOfDay now)) := by
      simp only [namedPeriodBounds, bind_assoc, Nat.cast_one]
    rw [CalendarUnit.lastName, hbounds, startOfDay, hyesterday]
    rfl
  · rw [CalendarUnit.number]
    omega

theorem exists_windows_week (hyear : 2 ≤ now.civil.year) :
    ∃ previous current, Windows .week now previous current := by
  have hlate := ordinal_gt hyear
  obtain ⟨thisWeek, hthisWeek, hmicros⟩ := exists_startOfWeek hyear
  have hweek : now.ordinal - 1 - now.weekday = (now.ordinal - 1) / 7 * 7 := by
    rw [DateTime.weekday]
    omega
  rw [hweek] at hmicros
  obtain ⟨lastWeek, hlastWeek, hbefore⟩ := exists_sub_days 7 (by decide) hmicros
    (by omega)
  have hweekBefore : (now.ordinal - 1) / 7 * 7 - 7 = ((now.ordinal - 1) / 7 - 1) * 7 := by
    omega
  rw [hweekBefore] at hbefore
  refine ⟨lastWeek, thisWeek, ?_, ?_, ⟨_, begins_week hbefore, ?_⟩, begins_week hmicros⟩
  · have hbounds : namedPeriodBounds now "last-week" =
        some (do
          let thisWeek ← startOfWeek now
          return (← (do thisWeek.sub (← timedeltaDays (7 : ℕ))), thisWeek)) := by
      simp only [namedPeriodBounds, bind_assoc, Nat.cast_ofNat]
    rw [CalendarUnit.lastName, hbounds, hthisWeek]
    change some (do return (← (do thisWeek.sub (← timedeltaDays (7 : ℕ))), thisWeek)) = _
    rw [hlastWeek]
    rfl
  · simp only [CalendarUnit.thisName, namedPeriodBounds, hthisWeek]
    rfl
  · rw [CalendarUnit.number]
    omega

theorem exists_windows_month (hyear : 2 ≤ now.civil.year) :
    ∃ previous current, Windows .month now previous current := by
  obtain ⟨thisMonth, hthisMonth, -⟩ := exists_startOfMonth now
  obtain ⟨lastMonth, hlastMonth, hbegins⟩ := exists_previousMonthStart hyear
  refine ⟨lastMonth, thisMonth, ?_, ?_, hbegins, begins_startOfMonth hthisMonth⟩
  · simp only [CalendarUnit.lastName, namedPeriodBounds, hthisMonth, hlastMonth]
    rfl
  · simp only [CalendarUnit.thisName, namedPeriodBounds, hthisMonth]
    rfl

theorem exists_windows_year (hyear : 2 ≤ now.civil.year) :
    ∃ previous current, Windows .year now previous current := by
  obtain ⟨thisYear, hthisYear, hbegins, -⟩ := exists_startOfYear now
  obtain ⟨lastYear, hlastYear, hbefore⟩ := exists_previousYearStart hyear
  refine ⟨lastYear, thisYear, ?_, ?_, ⟨_, hbefore, Nat.sub_add_cancel (by omega)⟩, hbegins⟩
  · simp only [CalendarUnit.lastName, namedPeriodBounds, hlastYear, hthisYear]
    rfl
  · simp only [CalendarUnit.thisName, namedPeriodBounds, hthisYear]
    rfl

theorem exists_windows (unit : CalendarUnit) (hyear : 2 ≤ now.civil.year) :
    ∃ previous current, Windows unit now previous current := by
  cases unit with
  | day => exact exists_windows_day hyear
  | week => exact exists_windows_week hyear
  | month => exact exists_windows_month hyear
  | year => exact exists_windows_year hyear

variable {unit : CalendarUnit} {previous current : DateTime}

theorem Windows.resolve_last (hwindows : Windows unit now previous current) :
    resolveNamedPeriod unit.lastName now = .ok (previous, current) := by
  rw [resolveNamedPeriod, hwindows.lastBounds]
  rfl

theorem Windows.resolve_this (hwindows : Windows unit now previous current) :
    resolveNamedPeriod unit.thisName now = .ok (current, now) := by
  rw [resolveNamedPeriod, hwindows.thisBounds]
  rfl

theorem Windows.lt (hwindows : Windows unit now previous current) : previous < current := by
  obtain ⟨period, hbegins, hperiod⟩ := hwindows.lastBegins
  exact hbegins.lt (hperiod ▸ hwindows.thisBegins)

theorem Windows.le_now (hwindows : Windows unit now previous current) : current ≤ now :=
  (hwindows.thisBegins.le_iff now).mpr (le_refl _)

/-- Every named period has its bounds in any year but the first. -/
theorem exists_namedPeriodBounds {name : String} (hname : name ∈ namedPeriods)
    (hyear : 2 ≤ now.civil.year) :
    ∃ bounds, namedPeriodBounds now name = some (.ok bounds) := by
  obtain ⟨unit, rfl | rfl⟩ := mem_namedPeriods_iff.mp hname
  · obtain ⟨previous, current, hwindows⟩ := exists_windows unit hyear
    exact ⟨_, hwindows.lastBounds⟩
  · obtain ⟨previous, current, hwindows⟩ := exists_windows unit hyear
    exact ⟨_, hwindows.thisBounds⟩

/-- The windows of each unit meet, the first is all of the unit before the present one, and
the second is the present one up to now. -/
theorem resolveNamedPeriod_windows (unit : CalendarUnit) {now : DateTime}
    (hyear : 2 ≤ now.civil.year) :
    ∃ a b c d, resolveNamedPeriod unit.lastName now = .ok (a, b) ∧
      resolveNamedPeriod unit.thisName now = .ok (c, d) ∧
      b = c ∧ d = now ∧ a < b ∧ b ≤ now ∧
      (∀ t, a ≤ t ∧ t < b ↔ unit.number t + 1 = unit.number now) ∧
      ∀ t, c ≤ t ∧ t ≤ now ↔ unit.number t = unit.number now ∧ t ≤ now := by
  obtain ⟨previous, current, hwindows⟩ := exists_windows unit hyear
  obtain ⟨period, hbegins, hperiod⟩ := hwindows.lastBegins
  refine ⟨previous, current, current, now, hwindows.resolve_last, hwindows.resolve_this,
    rfl, rfl, hwindows.lt, hwindows.le_now, fun t => ?_,
    hwindows.thisBegins.present_iff (monotone_number unit)⟩
  rw [hbegins.window_iff (hperiod ▸ hwindows.thisBegins), ← hperiod, Nat.succ_inj]

theorem resolveNamedPeriod_windows_discordEpoch :
    ∃ a b, resolveNamedPeriod "last-month" discordEpoch = .ok (a, b) ∧
      ∀ t, a ≤ t ∧ t < b ↔
        CalendarUnit.month.number t + 1 = CalendarUnit.month.number discordEpoch := by
  have hyear : 2 ≤ discordEpoch.civil.year := by decide
  obtain ⟨a, b, _, _, hlast, -, -, -, -, -, hwindow, -⟩ :=
    resolveNamedPeriod_windows .month hyear
  exact ⟨a, b, hlast, hwindow⟩

end Windows

end DownloaderBot.Filters
