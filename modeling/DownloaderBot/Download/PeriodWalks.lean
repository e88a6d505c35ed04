import DownloaderBot.Download.PeriodWindows

/-!
# The walks of the named periods

The window of a named period includes its start and excludes its end.  The walk gets
both as snowflakes: those of a whole millisecond, of which `after` excludes all and
`before` includes none.
-/

namespace DownloaderBot.Filters

open DownloaderBot.Calendar
open DownloaderBot.Discord

/-! ## Windows and walks -/

/-- The message is in the window `(after, before)`. -/
def InWindow (window : DateTime × DateTime) (message : Message) : Prop :=
  window.1.micros ≤ message.timestamp ∧ message.timestamp < window.2.micros

section Walks

variable (clock : SnowflakeClock) (messages : List Message) (guildSettings : GuildSettings)
variable (now : DateTime)

/-- The history walk of a download. -/
def walk (payload : DownloadFilters) : Except FilterError (List Message) :=
  (resolve (some payload) guildSettings now).map fun resolved =>
    channelHistory clock.timeSnowflake messages resolved.before resolved.after

variable (payload : DownloadFilters)

/-- The walk of the download with this period visits the message. -/
def Visits (period : String) (message : Message) : Prop :=
  ∃ visited, walk clock messages guildSettings now { payload with during := some period } =
    .ok visited ∧ message ∈ visited

/-- The walks of the two periods of a unit follow their windows, and share a message that
is in one of them. -/
structure FollowsWindows (unit : CalendarUnit) (message : Message) : Prop where
  last : ∀ window, resolveNamedPeriod unit.lastName now = .ok window →
    (Visits clock messages guildSettings now payload unit.lastName message ↔
      InWindow window message)
  present : ∀ window, resolveNamedPeriod unit.thisName now = .ok window →
    (Visits clock messages guildSettings now payload unit.thisName message ↔
      InWindow window message)
  union : ∀ last present, resolveNamedPeriod unit.lastName now = .ok last →
    resolveNamedPeriod unit.thisName now = .ok present →
      InWindow last message ∨ InWindow present message →
        (Visits clock messages guildSettings now payload unit.lastName message ∧
          ¬ Visits clock messages guildSettings now payload unit.thisName message) ∨
        (¬ Visits clock messages guildSettings now payload unit.lastName message ∧
          Visits clock messages guildSettings now payload unit.thisName message)

/-- The first millisecond since the epoch of snowflakes that is not before the moment. -/
def firstMillis (moment : DateTime) : ℤ :=
  ((moment.micros : ℤ) - discordEpoch.micros + 999) / 1000

/-- The message is not from the very start of a window; and past the start of the present
one, its millisecond is not between that which now is converted to and the first that is
not before now.  With an exact conversion, which rounds down, that is the millisecond in
which now lies. -/
structure OffEdges (unit : CalendarUnit) (message : Message) : Prop where
  lastStart : ∀ window, resolveNamedPeriod unit.lastName now = .ok window →
    message.timestamp = window.1.micros → window.2.micros ≤ message.timestamp
  presentStart : ∀ window, resolveNamedPeriod unit.thisName now = .ok window →
    message.timestamp = window.1.micros → window.2.micros ≤ message.timestamp
  presentEnd : ∀ window, resolveNamedPeriod unit.thisName now = .ok window →
    window.1.micros < message.timestamp →
      ((message.id / 2 ^ 22 : ℕ) < firstMillis now ∧
          (message.id / 2 ^ 22 : ℕ) < clock.millis now) ∨
        firstMillis now ≤ (message.id / 2 ^ 22 : ℕ) ∧
          clock.millis now ≤ (message.id / 2 ^ 22 : ℕ)

end Walks

/-! ## The edges of the windows -/

section Edges

variable {now datetime moved : DateTime} {unit : CalendarUnit}

theorem exists_of_bind_eq_ok {α β ε : Type} {first : Except ε α} {rest : α → Except ε β}
    {value : β} (hbind : (first >>= rest) = .ok value) :
    ∃ before, first = .ok before ∧ rest before = .ok value := by
  cases first with
  | error error => cases hbind
  | ok before => exact ⟨before, rfl, hbind⟩

/-- A datetime without a fraction of a second. -/
def Whole (datetime : DateTime) : Prop := datetime.micros % 1000000 = 0

theorem whole_startOfDay : Whole (startOfDay now) := by
  rw [Whole, startOfDay, DateTime.micros_midnight]
  exact Nat.mod_eq_zero_of_dvd (Dvd.dvd.mul_left (by decide) _)

theorem Whole.sub_days {days : ℤ} {delta : TimeDelta} (hwhole : Whole datetime)
    (hdelta : timedeltaDays days = .ok delta) (hsub : datetime.sub delta = .ok moved) :
    Whole moved := by
  have hmicros := DateTime.micros_of_sub hsub
  rw [timedeltaDays, timedeltaSeconds] at hdelta
  split at hdelta
  case isTrue =>
    have hvalue : days * 86400 * 1000000 = (delta : ℤ) := Except.ok.inj hdelta
    rw [Whole] at hwhole ⊢
    omega
  case isFalse => cases hdelta

theorem Whole.replaceDate {civil : Civil} (hwhole : Whole datetime)
    (hreplace : datetime.replaceDate civil = .ok moved) : Whole moved := by
  rw [DateTime.replaceDate] at hreplace
  split at hreplace
  case isTrue =>
    have hmicros := congrArg DateTime.micros (Except.ok.inj hreplace)
    simp only [DateTime.timeOfDay, microsPerDay] at hmicros
    rw [Whole] at hwhole ⊢
    omega
  case isFalse => cases hreplace

theorem whole_startOfWeek (hstart : startOfWeek now = .ok moved) : Whole moved := by
  obtain ⟨delta, hdelta, hsub⟩ := exists_of_bind_eq_ok hstart
  exact whole_startOfDay.sub_days hdelta hsub

theorem whole_startOfMonth (hstart : startOfMonth now = .ok moved) : Whole moved :=
  whole_startOfDay.replaceDate hstart

theorem whole_startOfYear (hstart : startOfYear now = .ok moved) : Whole moved :=
  whole_startOfDay.replaceDate hstart

theorem namedPeriodBounds_of_resolve {name : String} {window : DateTime × DateTime}
    (hresolve : resolveNamedPeriod name now = .ok window) :
    namedPeriodBounds now name = some (.ok window) := by
  rw [resolveNamedPeriod] at hresolve
  split at hresolve
  case h_1 bounds hbounds =>
    cases bounds with
    | error error => cases hresolve
    | ok bounds =>
        rw [hbounds]
        exact congrArg (some ∘ Except.ok) (Except.ok.inj hresolve)
  case h_2 => cases hresolve

/-- The start of the present unit, whichever it is. -/
def startOf (now : DateTime) : CalendarUnit → Except TimeError DateTime
  | .day => .ok (startOfDay now)
  | .week => startOfWeek now
  | .month => startOfMonth now
  | .year => startOfYear now

theorem whole_startOf (hstart : startOf now unit = .ok moved) : Whole moved := by
  cases unit with
  | day =>
      obtain rfl := Except.ok.inj hstart
      exact whole_startOfDay
  | week => exact whole_startOfWeek hstart
  | month => exact whole_startOfMonth hstart
  | year => exact whole_startOfYear hstart

/-- The window of the present unit. -/
theorem resolve_this {window : DateTime × DateTime}
    (hresolve : resolveNamedPeriod unit.thisName now = .ok window) :
    startOf now unit = .ok window.1 ∧ window.2 = now := by
  have hbounds := namedPeriodBounds_of_resolve hresolve
  cases unit with
  | day =>
      obtain rfl := Except.ok.inj (Option.some.inj hbounds)
      exact ⟨rfl, rfl⟩
  | week | month | year =>
      obtain ⟨start, hstart, hpair⟩ := exists_of_bind_eq_ok (Option.some.inj hbounds)
      obtain rfl := Except.ok.inj hpair
      exact ⟨hstart, rfl⟩

/-- The window of the unit before ends where that of the present one starts. -/
theorem resolve_last {window : DateTime × DateTime}
    (hresolve : resolveNamedPeriod unit.lastName now = .ok window) :
    Whole window.1 ∧ startOf now unit = .ok window.2 := by
  have hbounds := namedPeriodBounds_of_resolve hresolve
  cases unit with
  | day =>
      obtain ⟨delta, hdelta, hbounds⟩ := exists_of_bind_eq_ok (Option.some.inj hbounds)
      obtain ⟨yesterday, hsub, hpair⟩ := exists_of_bind_eq_ok hbounds
      obtain rfl := Except.ok.inj hpair
      exact ⟨whole_startOfDay.sub_days hdelta hsub, rfl⟩
  | week =>
      obtain ⟨thisWeek, hthis, hbounds⟩ := exists_of_bind_eq_ok (Option.some.inj hbounds)
      obtain ⟨delta, hdelta, hbounds⟩ := exists_of_bind_eq_ok hbounds
      obtain ⟨lastWeek, hsub, hpair⟩ := exists_of_bind_eq_ok hbounds
      obtain rfl := Except.ok.inj hpair
      exact ⟨(whole_startOfWeek hthis).sub_days hdelta hsub, hthis⟩
  | month =>
      obtain ⟨thisMonth, hthis, hbounds⟩ := exists_of_bind_eq_ok (Option.some.inj hbounds)
      obtain ⟨lastMonth, hlast, hpair⟩ := exists_of_bind_eq_ok hbounds
      obtain rfl := Except.ok.inj hpair
      obtain ⟨_, -, hlast⟩ := exists_of_bind_eq_ok hlast
      obtain ⟨_, -, hlast⟩ := exists_of_bind_eq_ok hlast
      obtain ⟨before, -, hlast⟩ := exists_of_bind_eq_ok hlast
      exact ⟨whole_startOfMonth hlast, hthis⟩
  | year =>
      obtain ⟨lastYear, hlast, hbounds⟩ := exists_of_bind_eq_ok (Option.some.inj hbounds)
      obtain ⟨thisYear, hthis, hpair⟩ := exists_of_bind_eq_ok hbounds
      obtain rfl := Except.ok.inj hpair
      obtain ⟨start, hstart, hlast⟩ := exists_of_bind_eq_ok hlast
      exact ⟨(whole_startOfYear hstart).replaceDate hlast, hthis⟩

end Edges

/-! ## Walks that follow their windows -/

section Follows

variable {clock : SnowflakeClock} {messages : List Message} {guildSettings : GuildSettings}
variable {now : DateTime} {payload : DownloadFilters} {message : Message}

theorem visits_iff {period : String} {window : DateTime × DateTime}
    (hresolve : resolveNamedPeriod period now = .ok window) (hmessage : message ∈ messages) :
    Visits clock messages guildSettings now payload period message ↔
      clock.millis window.1 < (message.id / 2 ^ 22 : ℕ) ∧
        (message.id / 2 ^ 22 : ℕ) < clock.millis window.2 := by
  have hwalk : walk clock messages guildSettings now { payload with during := some period } =
      .ok (channelHistory clock.timeSnowflake messages (some window.2) (some window.1)) := by
    rw [walk, resolve_eq]
    simp only [Option.getD_some, resolveBounds, hresolve]
    rfl
  simp only [Visits, hwalk, Except.ok.injEq, exists_eq_left', mem_channelHistory_iff,
    Message.between_iff, hmessage, true_and]

/-- A walk follows its window exactly off the start and, where the end is between two
seconds, if the conversion of the end keeps it after the messages before it. -/
theorem follows_iff {period : String} {window : DateTime × DateTime}
    (hresolve : resolveNamedPeriod period now = .ok window) (hmessage : message ∈ messages)
    (hwhole : Whole window.1) :
    (Visits clock messages guildSettings now payload period message ↔
        InWindow window message) ↔
      (message.timestamp = window.1.micros → window.2.micros ≤ message.timestamp) ∧
        (window.1.micros < message.timestamp →
          (message.timestamp < window.2.micros ↔
            (message.id / 2 ^ 22 : ℕ) < clock.millis window.2)) := by
  rw [visits_iff hresolve hmessage, SnowflakeClock.millis_lt_iff hwhole, InWindow]
  rcases lt_trichotomy message.timestamp window.1.micros with hlt | heq | hgt
  · omega
  · omega
  · simp only [hgt, hgt.le, hgt.ne', true_and, forall_const, false_imp_iff]
    exact Iff.comm

variable {unit : CalendarUnit} {window : DateTime × DateTime}

/-- A window that is over ends at a whole second. -/
theorem follows_last_iff (hresolve : resolveNamedPeriod unit.lastName now = .ok window)
    (hmessage : message ∈ messages) :
    (Visits clock messages guildSettings now payload unit.lastName message ↔
        InWindow window message) ↔
      (message.timestamp = window.1.micros → window.2.micros ≤ message.timestamp) := by
  obtain ⟨hwhole, hend⟩ := resolve_last hresolve
  rw [follows_iff hresolve hmessage hwhole]
  exact and_iff_left fun _ => (SnowflakeClock.lt_millis_iff (whole_startOf hend)).symm

/-- A conversion of now keeps its order to a message of which both milliseconds are on one
side. -/
theorem keeps_order_iff (millis : ℤ) :
    (message.timestamp < now.micros ↔ (message.id / 2 ^ 22 : ℕ) < millis) ↔
      ((message.id / 2 ^ 22 : ℕ) < firstMillis now ∧ (message.id / 2 ^ 22 : ℕ) < millis) ∨
        firstMillis now ≤ (message.id / 2 ^ 22 : ℕ) ∧
          millis ≤ (message.id / 2 ^ 22 : ℕ) := by
  rw [Message.timestamp, firstMillis]
  omega

theorem follows_this_iff (hresolve : resolveNamedPeriod unit.thisName now = .ok window)
    (hmessage : message ∈ messages) :
    (Visits clock messages guildSettings now payload unit.thisName message ↔
        InWindow window message) ↔
      (message.timestamp = window.1.micros → window.2.micros ≤ message.timestamp) ∧
        (window.1.micros < message.timestamp →
          ((message.id / 2 ^ 22 : ℕ) < firstMillis now ∧
              (message.id / 2 ^ 22 : ℕ) < clock.millis now) ∨
            firstMillis now ≤ (message.id / 2 ^ 22 : ℕ) ∧
              clock.millis now ≤ (message.id / 2 ^ 22 : ℕ)) := by
  obtain ⟨hstart, hnow⟩ := resolve_this hresolve
  rw [follows_iff hresolve hmessage (whole_startOf hstart), hnow, keeps_order_iff]

/-- No message is in both windows of a unit. -/
theorem InWindow.exclusive {last present : DateTime × DateTime}
    (hlast : resolveNamedPeriod unit.lastName now = .ok last)
    (hpresent : resolveNamedPeriod unit.thisName now = .ok present)
    (hin : InWindow last message) : ¬ InWindow present message := by
  have hmeet : last.2 = present.1 :=
    Except.ok.inj ((resolve_last hlast).2.symm.trans (resolve_this hpresent).1)
  intro hother
  exact absurd (hin.2.trans_le (hmeet ▸ hother.1)) (lt_irrefl _)

theorem followsWindows_iff_offEdges {unit : CalendarUnit} (hmessage : message ∈ messages) :
    FollowsWindows clock messages guildSettings now payload unit message ↔
      OffEdges clock now unit message := by
  constructor
  · rintro ⟨hlast, hpresent, -⟩
    exact ⟨fun window hresolve =>
        (follows_last_iff hresolve hmessage).mp (hlast window hresolve),
      fun window hresolve =>
        ((follows_this_iff hresolve hmessage).mp (hpresent window hresolve)).1,
      fun window hresolve =>
        ((follows_this_iff hresolve hmessage).mp (hpresent window hresolve)).2⟩
  · rintro ⟨hlastStart, hpresentStart, hpresentEnd⟩
    have hlast : ∀ window, resolveNamedPeriod unit.lastName now = .ok window →
        (Visits clock messages guildSettings now payload unit.lastName message ↔
          InWindow window message) := fun window hresolve =>
      (follows_last_iff hresolve hmessage).mpr (hlastStart window hresolve)
    have hpresent : ∀ window, resolveNamedPeriod unit.thisName now = .ok window →
        (Visits clock messages guildSettings now payload unit.thisName message ↔
          InWindow window message) := fun window hresolve =>
      (follows_this_iff hresolve hmessage).mpr
        ⟨hpresentStart window hresolve, hpresentEnd window hresolve⟩
    refine ⟨hlast, hpresent, fun last present hresolveLast hresolvePresent hunion => ?_⟩
    rw [hlast last hresolveLast, hpresent present hresolvePresent]
    rcases hunion with hin | hin
    · exact .inl ⟨hin, hin.exclusive hresolveLast hresolvePresent⟩
    · exact .inr ⟨fun hother => hother.exclusive hresolveLast hresolvePresent hin, hin⟩

/-- One hour into the day after the epoch. -/
def oneOClock : DateTime := ⟨735599 * microsPerDay + 3600 * 1000000, by decide⟩

/-- A message from this many milliseconds after the epoch. -/
def messageAt (millis : ℕ) : Message := ⟨millis * 2 ^ 22, 1, discordEpoch, []⟩

/-- The message from midnight is neither yesterday's nor today's. -/
theorem not_followsWindows_midnight :
    ¬ FollowsWindows flooringClock [messageAt 86400000] { guildId := 0 } oneOClock {} .day
      (messageAt 86400000) := by
  intro hfollows
  have hresolve : resolveNamedPeriod CalendarUnit.day.thisName oneOClock =
      .ok (startOfDay oneOClock, oneOClock) := rfl
  have hvisits := (hfollows.present _ hresolve).mpr ⟨by decide, by decide⟩
  have hafter := ((visits_iff hresolve (List.mem_singleton_self _)).mp hvisits).1
  revert hafter
  decide

theorem followsWindows_noon :
    FollowsWindows flooringClock [messageAt 43200000] { guildId := 0 } oneOClock {} .day
      (messageAt 43200000) := by
  have hlast : resolveNamedPeriod CalendarUnit.day.lastName oneOClock =
      .ok (discordEpoch, startOfDay oneOClock) := rfl
  have hpresent : resolveNamedPeriod CalendarUnit.day.thisName oneOClock =
      .ok (startOfDay oneOClock, oneOClock) := rfl
  refine (followsWindows_iff_offEdges (List.mem_singleton_self _)).mpr
    ⟨fun window hwindow => ?_, fun window hwindow => ?_, fun window hwindow => ?_⟩
  · obtain rfl := Except.ok.inj (hlast.symm.trans hwindow)
    decide
  · obtain rfl := Except.ok.inj (hpresent.symm.trans hwindow)
    decide
  · obtain rfl := Except.ok.inj (hpresent.symm.trans hwindow)
    decide

end Follows

end DownloaderBot.Filters
