import DownloaderBot.Cogs.Download
import DownloaderBot.Download.FilterBounds
import DownloaderBot.Tasks.DownloadRuns

/-!
# The filters that reach the worker

What the cog checks before it publishes a task, and what is left for the worker to
find out when it resolves the filters by its own clock.
-/

namespace DownloaderBot.DownloadCog

open DownloaderBot.Calendar
open DownloaderBot.Filters
open DownloaderBot.Program

variable {clock : Clock} {context : Context} {options : Options}

/-! ## What the cog checks -/

theorem exists_parseDuration_of_check {bound : Option String}
    (hcheck : checkDuration bound = .ok ()) :
    ∀ value ∈ bound, ∃ delta, parseDuration value = .ok delta := by
  rintro value hvalue
  obtain rfl : bound = some value := hvalue
  cases hparse : parseDuration value with
  | ok delta => exact ⟨delta, rfl⟩
  | error error =>
      simp only [checkDuration, hparse] at hcheck
      cases hcheck

/-- A request that is not rejected has durations that parse, and no period besides. -/
theorem of_rejection_eq_none (hpass : rejection context options = .ok none) :
    (options.during.isSome → options.before = none ∧ options.after = none) ∧
      checkDuration options.before = .ok () ∧ checkDuration options.after = .ok () := by
  rw [rejection] at hpass
  split at hpass
  case isTrue => cases hpass
  case isFalse =>
    split at hpass
    case isTrue => cases hpass
    case isFalse hexclusive =>
      refine ⟨?_, ?_⟩
      · intro hduring
        simpa [hduring] using hexclusive
      · cases hbefore : checkDuration options.before with
        | error error =>
            rw [hbefore] at hpass
            cases error <;> cases hpass
        | ok _ =>
            cases hafter : checkDuration options.after with
            | error error =>
                rw [hbefore, hafter] at hpass
                cases error <;> cases hpass
            | ok _ => exact ⟨rfl, rfl⟩

/-- The payload carries the strings of the request. -/
theorem getD_buildFilters (options : Options) :
    (buildFilters options).getD {} =
      { category := options.mediaType.map MediaType.value
        fromUserId := options.fromUser
        before := options.before
        after := options.after
        during := options.during.map NamedPeriod.value } := by
  simp only [buildFilters]
  split
  case isTrue hempty => exact hempty.symm
  case isFalse => rfl

theorem checked_buildFilters (hpass : rejection context options = .ok none) :
    Checked ((buildFilters options).getD {}) := by
  obtain ⟨hexclusive, hbefore, hafter⟩ := of_rejection_eq_none hpass
  rw [getD_buildFilters]
  refine ⟨exists_parseDuration_of_check hbefore, exists_parseDuration_of_check hafter, ?_⟩
  intro period hperiod
  obtain ⟨named, hnamed, rfl⟩ := Option.map_eq_some_iff.mp hperiod
  exact ⟨named.value_mem, hexclusive (by rw [hnamed]; rfl)⟩

/-! ## What the cog publishes -/

/-- A call that publishes is one of a request that passes, with its payload. -/
def Passes (context : Context) (options : Options) : Call → Prop
  | .kiq request =>
      rejection context options = .ok none ∧ request = enqueueOf context options
  | _ => True

theorem only_takeToken (caller : JobControl.Caller) :
    (takeToken clock caller).Only (Passes context options) := by
  rw [takeToken]
  split
  · trivial
  · split
    · trivial
    · apply (Prog.only_perform (by trivial)).bind
      intro verdict
      split
      · trivial
      · apply (Prog.only_ofExcept _).bind
        intro retryAt
        exact (Prog.only_perform (by trivial)).bind fun _ => trivial

theorem only_publish (hpass : rejection context options = .ok none) :
    (publish context options).Only (Passes context options) := by
  apply Prog.Only.tryExcept
  · exact (Prog.only_perform ⟨hpass, rfl⟩).bind fun _ => trivial
  · intro exception
    exact (Prog.only_perform (by trivial)).bind fun _ => trivial

theorem only_enqueue (hpass : rejection context options = .ok none)
    (consumedToken : Bool) :
    (enqueue clock context options consumedToken).Only (Passes context options) := by
  apply (only_publish hpass).bind
  intro published
  cases published with
  | none => trivial
  | some taskId =>
      have hsettings : (readSettings context.caller).Only (Passes context options) := by
        rw [readSettings]
        split
        · exact Prog.only_perform (by trivial)
        · trivial
      apply hsettings.bind
      intro guildSettings
      have hrecord : ∀ ttlSeconds,
          (recordBestEffort taskId (jobMetaOf clock context consumedToken)
            ttlSeconds).Only (Passes context options) := fun ttlSeconds =>
        (Prog.only_perform (by trivial)).tryExcept fun _ => trivial
      exact (hrecord _).bind fun _ => Prog.only_perform (by trivial)

theorem only_download :
    (download clock context options).Only (Passes context options) := by
  apply (Prog.only_perform (by trivial)).bind
  intro _
  cases hpass : rejection context options with
  | error exception => trivial
  | ok rejected =>
      cases rejected with
      | some embed => exact Prog.only_perform (by trivial)
      | none =>
          apply (only_takeToken context.caller).bind
          intro taken
          cases taken with
          | none => trivial
          | some consumedToken => exact only_enqueue hpass consumedToken

/-! ## What the worker finds -/

/-- What the cog publishes resolves at the worker if and only if no duration of it
reaches back before the first year from there. -/
theorem resolves_iff_withinCalendar (clock : Clock) (context : Context)
    (options : Options) (answer : (request : Call) → Except Exn (Reply request))
    (request : Enqueue)
    (hkiq : .kiq request ∈ ((download clock context options).run answer).1)
    (guildSettings : GuildSettings) (now : DateTime)
    (hyears : 2015 ≤ now.civil.year ∧ now.civil.year ≤ 9000) :
    (∃ resolved, resolve request.filters guildSettings now = .ok resolved) ↔
      WithinCalendar now options.before ∧ WithinCalendar now options.after := by
  obtain ⟨hpass, rfl⟩ := only_download.of_mem_run _ hkiq
  have hiff := exists_resolve_iff guildSettings (checked_buildFilters hpass)
    (le_trans (by decide) hyears.1)
  rw [getD_buildFilters] at hiff
  exact hiff

/-- Every service does what it is asked. -/
def willing : (request : Call) → Except Exn (Reply request)
  | .acquire _ => .ok ⟨true, 0⟩
  | .kiq _ => .ok "a"
  | .getSettings guildId => .ok { guildId := guildId }
  | .defer _ | .send .. | .recordJob .. => .ok ()

/-- The first of May 2024. -/
def inMay2024 : DateTime := Tasks.inMay.now

def anytime : Clock := ⟨fun _ => .ok "", ""⟩

/-- A week before the first of May. -/
theorem resolves_week :
    ∃ resolved, resolve (buildFilters { before := some "1w" }) { guildId := 0 }
      inMay2024 = .ok resolved := by
  have hwithin : WithinCalendar inMay2024 (some "1w") := by
    rintro _ ⟨⟩ delta hparse
    have hweek : parseDuration "1w" = .ok 604800000000 := by decide +kernel
    cases hweek.symm.trans hparse
    decide +kernel
  exact (resolves_iff_withinCalendar anytime ⟨⟨7, false, none⟩, 3, true⟩
    { before := some "1w" } willing ⟨3, 7, none, false, some { before := some "1w" }⟩
    (by decide +kernel) _ inMay2024 (by decide +kernel)).mpr ⟨hwithin, by rintro _ ⟨⟩⟩

/-- A million weeks pass the cog and overflow at the worker. -/
theorem not_resolves_million_weeks :
    .kiq ⟨3, 7, none, false, some { before := some "1000000w" }⟩ ∈
        ((download anytime ⟨⟨7, false, none⟩, 3, true⟩
          { before := some "1000000w" }).run willing).1 ∧
      resolve (some { before := some "1000000w" }) { guildId := 0 } inMay2024 =
        .error (.time .overflow) := by
  decide +kernel

end DownloaderBot.DownloadCog
