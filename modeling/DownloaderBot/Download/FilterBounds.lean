import DownloaderBot.Download.Durations
import DownloaderBot.Download.PeriodWindows
import Mathlib.Tactic.Positivity

/-!
# When filters resolve

The named periods of any year but the first resolve, and a relative bound resolves
exactly if it does not reach back before the first year.
-/

namespace DownloaderBot.Filters

open DownloaderBot.Calendar

variable {now : DateTime}

/-! ## Relative bounds -/

/-- The duration does not reach back before the first year. -/
def WithinCalendar (now : DateTime) (bound : Option String) : Prop :=
  ∀ value ∈ bound, ∀ delta, parseDuration value = .ok delta → delta ≤ now.micros

/-- What has to be checked of a payload before it is sent. -/
structure Checked (filters : DownloadFilters) : Prop where
  before : ∀ value ∈ filters.before, ∃ delta, parseDuration value = .ok delta
  after : ∀ value ∈ filters.after, ∃ delta, parseDuration value = .ok delta
  during : ∀ period ∈ filters.during,
    period ∈ namedPeriods ∧ filters.before = none ∧ filters.after = none

section Relative

variable {value : String} {delta : TimeDelta} {bound : Option String}

theorem parseDuration_nonneg (hparse : parseDuration value = .ok delta) : 0 ≤ delta := by
  obtain ⟨digits, unitSeconds, -, -, -, rfl⟩ := means_of_parseDuration hparse
  positivity

/-- A duration that parses makes a bound exactly if it stays within the calendar. -/
theorem exists_resolveBound_iff
    (hchecked : ∀ value ∈ bound, ∃ delta, parseDuration value = .ok delta) :
    (∃ resolved, resolveBound now bound = .ok resolved) ↔ WithinCalendar now bound := by
  cases bound with
  | none => simp [resolveBound, WithinCalendar]
  | some value =>
      obtain ⟨delta, hparse⟩ := hchecked value rfl
      have hnonempty : value ≠ "" := by
        rintro rfl
        cases hparse
      have hwithin : WithinCalendar now (some value) ↔ delta ≤ now.micros := by
        simp [WithinCalendar, hparse]
      rw [hwithin, ← DateTime.exists_sub_eq_ok_iff (parseDuration_nonneg hparse)]
      have hbound : resolveBound now (some value) =
          ((now.sub delta).mapError FilterError.time).map some := by
        simp only [resolveBound, if_neg hnonempty, hparse]
        rfl
      rw [hbound]
      cases now.sub delta with
      | ok earlier => exact ⟨fun _ => ⟨earlier, rfl⟩, fun _ => ⟨some earlier, rfl⟩⟩
      | error error =>
          constructor <;>
            · rintro ⟨_, hok⟩
              cases hok

theorem exists_resolve_iff_exists_resolveBounds (filters : Option DownloadFilters)
    (guildSettings : GuildSettings) (now : DateTime) :
    (∃ resolved, resolve filters guildSettings now = .ok resolved) ↔
      ∃ bounds, resolveBounds (filters.getD {}) now = .ok bounds := by
  rw [resolve_eq]
  cases resolveBounds (filters.getD {}) now with
  | ok bounds => exact ⟨fun _ => ⟨bounds, rfl⟩, fun _ => ⟨_, rfl⟩⟩
  | error error =>
      constructor <;>
        · rintro ⟨_, hok⟩
          cases hok

/-- A checked payload resolves, in any year but the first, exactly if its bounds stay
within the calendar. -/
theorem exists_resolve_iff {filters : Option DownloadFilters}
    (guildSettings : GuildSettings) (hchecked : Checked (filters.getD {}))
    (hyear : 2 ≤ now.civil.year) :
    (∃ resolved, resolve filters guildSettings now = .ok resolved) ↔
      WithinCalendar now (filters.getD {}).before ∧
        WithinCalendar now (filters.getD {}).after := by
  rw [exists_resolve_iff_exists_resolveBounds]
  cases hduring : (filters.getD {}).during with
  | some period =>
      obtain ⟨hperiod, hbefore, hafter⟩ := hchecked.during period hduring
      obtain ⟨bounds, hbounds⟩ := exists_namedPeriodBounds hperiod hyear
      have hresolved : resolveBounds (filters.getD {}) now =
          .ok (some bounds.2, some bounds.1) := by
        simp only [resolveBounds, hduring, resolveNamedPeriod, hbounds]
        rfl
      rw [hbefore, hafter]
      simp [hresolved, WithinCalendar]
  | none =>
      rw [← exists_resolveBound_iff hchecked.before,
        ← exists_resolveBound_iff hchecked.after]
      simp only [resolveBounds, hduring]
      cases resolveBound now (filters.getD {}).before with
      | error error =>
          constructor
          · rintro ⟨_, hok⟩
            cases hok
          · rintro ⟨⟨_, hok⟩, -⟩
            cases hok
      | ok before =>
          cases resolveBound now (filters.getD {}).after with
          | error error =>
              constructor
              · rintro ⟨_, hok⟩
                cases hok
              · rintro ⟨-, _, hok⟩
                cases hok
          | ok after =>
              exact ⟨fun _ => ⟨⟨before, rfl⟩, after, rfl⟩,
                fun _ => ⟨(before, after), rfl⟩⟩

end Relative

end DownloaderBot.Filters
