import DownloaderBot.Cogs.Download
import DownloaderBot.Download.Durations

/-!
# Durations that the cog refuses

The cog catches a `FilterParseError` and answers with its message.  What else parsing a
duration raises goes past it.
-/

namespace DownloaderBot.DownloadCog

open DownloaderBot.Calendar
open DownloaderBot.Embeds
open DownloaderBot.Filters
open DownloaderBot.Program
open DownloaderBot.Text

/-- The command comes to parse this duration. -/
structure Checks (context : Context) (options : Options) (value : String) : Prop where
  permitted : (context.caller.guild.isSome && !context.canReadHistory) = false
  exclusive : (options.during.isSome && (options.before.isSome || options.after.isSome)) =
    false
  given : options.before = some value ∨
    (checkDuration options.before = .ok () ∧ options.after = some value)

/-- The command answers with this embed and does nothing else. -/
def Answers (clock : Clock) (context : Context) (options : Options) (embed : Embed) : Prop :=
  download clock context options = do
    await (.defer options.dmMe)
    await (.send embed options.dmMe)

/-- A duration is accepted for what it means, and what means none is answered with the
`Invalid filter` embed. -/
structure Handled (value : String) : Prop where
  accepted : ∀ delta, parseDuration value = .ok delta ↔ Means value delta
  refused : (¬ ∃ delta, Means value delta) →
    ∃ message, parseDuration value = .error (.parse message) ∧
      ∀ clock context options, Checks context options value →
        Answers clock context options (invalidFilter message)

section Handled

variable {value : String}

theorem rejection_of_checks {context : Context} {options : Options} {message : String}
    (hchecks : Checks context options value)
    (hparse : parseDuration value = .error (.parse message)) :
    rejection context options = .ok (some (invalidFilter message)) := by
  have hcheck : checkDuration (some value) = .error (.parse message) := by
    rw [checkDuration, hparse]
    rfl
  have hsecond : (do checkDuration options.before; checkDuration options.after) =
      .error (.parse message) := by
    rcases hchecks.given with hbefore | ⟨hbefore, hafter⟩
    · rw [hbefore, hcheck]
      rfl
    · rw [hbefore, hafter, hcheck]
      rfl
  rw [rejection, hchecks.permitted, hchecks.exclusive, hsecond]
  rfl

theorem answers_of_rejection {clock : Clock} {context : Context} {options : Options}
    {embed : Embed} (hrejection : rejection context options = .ok (some embed)) :
    Answers clock context options embed := by
  rw [Answers, download, hrejection]
  rfl

/-- With a `FilterParseError` the cog answers. -/
theorem refused_of_parse {message : String}
    (hparse : parseDuration value = .error (.parse message)) :
    ∃ message, parseDuration value = .error (.parse message) ∧
      ∀ clock context options, Checks context options value →
        Answers clock context options (invalidFilter message) :=
  ⟨message, hparse, fun _ _ _ hchecks =>
    answers_of_rejection (rejection_of_checks hchecks hparse)⟩

/-- What the grammar refuses is handled. -/
theorem handled_of_parse {message : String} (hnone : ¬ ∃ delta, Means value delta)
    (hparse : parseDuration value = .error (.parse message)) : Handled value := by
  refine ⟨fun delta => ⟨fun hok => ?_, fun hmeans => absurd ⟨delta, hmeans⟩ hnone⟩,
    fun _ => refused_of_parse hparse⟩
  cases hok.symm.trans hparse

theorem not_handled_of_time {error : TimeError}
    (hparse : parseDuration value = .error (.time error)) : ¬ Handled value := by
  intro hhandled
  by_cases hmeans : ∃ delta, Means value delta
  · obtain ⟨delta, hmeans⟩ := hmeans
    cases hparse.symm.trans ((hhandled.accepted delta).mpr hmeans)
  · obtain ⟨message, hrefused, -⟩ := hhandled.refused hmeans
    cases hparse.symm.trans hrefused

/-- A duration within the limits is handled. -/
theorem handled_of_spells {digits : List Char} {unitSeconds : ℕ}
    (hspells : Spells value digits unitSeconds) (hshort : digits.length ≤ maxIntDigits)
    (hfits : Fits (ofDecimals digits * unitSeconds)) : Handled value := by
  rcases Nat.eq_zero_or_pos (ofDecimals digits) with hzero | hpos
  · obtain ⟨message, hparse⟩ := parseDuration_of_zero hspells hshort hzero
    refine handled_of_parse ?_ hparse
    rintro ⟨delta, hmeans⟩
    exact absurd hzero (Nat.pos_iff_ne_zero.mp (hspells.means_iff.mp hmeans).1)
  · have hparse := parseDuration_of_pos hspells hshort hpos
    rw [if_pos hfits] at hparse
    refine ⟨fun delta => ⟨means_of_parseDuration, fun hmeans => ?_⟩, fun hnone => ?_⟩
    · rw [hparse, (hspells.means_iff.mp hmeans).2.2]
    · exact absurd ⟨_, means_of_parseDuration hparse⟩ hnone

/-- A duration outside the limits raises what the cog does not catch. -/
theorem not_handled_of_spells {digits : List Char} {unitSeconds : ℕ}
    (hspells : Spells value digits unitSeconds)
    (hlimits : ¬ (digits.length ≤ maxIntDigits ∧ Fits (ofDecimals digits * unitSeconds))) :
    ¬ Handled value := by
  by_cases hshort : digits.length ≤ maxIntDigits
  · have hlarge : ¬ Fits (ofDecimals digits * unitSeconds) := fun hfits =>
      hlimits ⟨hshort, hfits⟩
    rcases Nat.eq_zero_or_pos (ofDecimals digits) with hzero | hpos
    · rw [hzero, Nat.zero_mul] at hlarge
      exact absurd (by decide) hlarge
    · have hparse := parseDuration_of_pos hspells hshort hpos
      rw [if_neg hlarge] at hparse
      exact not_handled_of_time hparse
  · exact not_handled_of_time (parseDuration_of_long hspells (not_le.mp hshort))

/-- A string is handled as it should be exactly if what it spells, if anything, is within
the limits. -/
theorem handled_iff_withinLimits (value : String) : Handled value ↔ WithinLimits value := by
  by_cases hspelled : ∃ digits unitSeconds, Spells value digits unitSeconds
  · obtain ⟨digits, unitSeconds, hspells⟩ := hspelled
    constructor
    · intro hhandled other otherSeconds hother
      by_contra hlimits
      exact not_handled_of_spells hother hlimits hhandled
    · intro hlimits
      obtain ⟨hshort, hfits⟩ := hlimits digits unitSeconds hspells
      exact handled_of_spells hspells hshort hfits
  · have hnot : ∀ digits unitSeconds, ¬ Spells value digits unitSeconds :=
      fun digits unitSeconds hspells => hspelled ⟨digits, unitSeconds, hspells⟩
    obtain ⟨message, hparse⟩ := parseDuration_of_not_spells hnot
    refine iff_of_true (handled_of_parse ?_ hparse) fun digits unitSeconds hspells =>
      absurd hspells (hnot digits unitSeconds)
    rintro ⟨delta, digits, unitSeconds, hspells, -⟩
    exact hnot digits unitSeconds hspells

/-- More days than a `timedelta` can have. -/
theorem not_handled_days : ¬ Handled "1000000000d" := by
  intro hhandled
  have hmatch : matchDuration "1000000000d" = some ("1000000000".toList, 86400) := by
    decide
  have hnone : ¬ ∃ delta, Means "1000000000d" delta := by
    rintro ⟨delta, hmeans⟩
    have hfits := ((Spells.of_matchDuration hmatch).means_iff.mp hmeans).2.1
    revert hfits
    decide
  obtain ⟨message, hparse, -⟩ := hhandled.refused hnone
  have htime : parseDuration "1000000000d" = .error (.time .overflow) := by
    decide
  cases htime.symm.trans hparse

end Handled

end DownloaderBot.DownloadCog
