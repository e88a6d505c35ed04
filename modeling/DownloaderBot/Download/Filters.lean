import DownloaderBot.Core.Calendar
import DownloaderBot.Core.Text
import DownloaderBot.Db.GuildSettings
import DownloaderBot.Download.Discord

/-!
# Filters of a download

The payload `/download` sends with a task, and what the task resolves it to: a
matcher, which the guild's allowed media types are part of, and the bounds of the
history walk.  `lower` is `str.lower` throughout.
-/

namespace DownloaderBot.Filters

open DownloaderBot.Calendar
open DownloaderBot.Discord
open DownloaderBot.Text

/-- The payload; an absent key and `None` are the same. -/
structure DownloadFilters where
  category : Option String := none
  fromUserId : Option ℕ := none
  before : Option String := none
  after : Option String := none
  during : Option String := none
  deriving DecidableEq, Repr

/-- What resolving raises: `FilterParseError`, or an exception of Python's own
arithmetic. -/
inductive FilterError
  | parse (message : String)
  | time (error : TimeError)
  deriving DecidableEq, Repr

/-! ## Categories -/

def isImage (mime : String) : Bool := mime.startsWith "image/" && mime != "image/gif"

def isVideo (mime : String) : Bool := mime.startsWith "video/"

def isAudio (mime : String) : Bool := mime.startsWith "audio/"

def isGif (mime : String) : Bool := mime == "image/gif"

def isOther (mime : String) : Bool :=
  !(isImage mime || isVideo mime || isAudio mime || isGif mime)

/-- `CATEGORY_PREDICATES.get`. -/
def categoryPredicate : String → Option (String → Bool)
  | "image" => some isImage
  | "video" => some isVideo
  | "audio" => some isAudio
  | "gif" => some isGif
  | "other" => some isOther
  | _ => none

/-! ## Durations -/

def unitToSeconds : Char → Option ℕ
  | 'm' => some 60
  | 'h' => some 3600
  | 'd' => some 86400
  | 'w' => some 604800
  | _ => none

/-- The digits and the unit of a duration.  No unit is a digit, so the digits are
all there are before it. -/
def matchDuration (value : String) : Option (List Char × ℕ) :=
  let rest := value.toList.dropWhile isSpace
  let digits := rest.takeWhile isDecimal
  match rest.dropWhile isDecimal with
  | [] => none
  | unit :: trailing =>
      if digits ≠ [] ∧ trailing.all isSpace then
        (unitToSeconds unit).map (digits, ·)
      else none

/-- Python converts at most this many digits to an integer. -/
def maxIntDigits : ℕ := 4300

def parseDuration (value : String) : Except FilterError TimeDelta :=
  match matchDuration value with
  | none =>
      .error (.parse ("Invalid duration `" ++ value ++
        "`. Use a number followed by " ++
        "`m`, `h`, `d`, or `w` (e.g. `30m`, `2h`, `7d`, `3w`)."))
  | some (digits, unitSeconds) =>
      if maxIntDigits < digits.length then .error (.time .value)
      else
        let magnitude := ofDecimals digits
        if magnitude = 0 then
          .error (.parse ("Invalid duration `" ++ value ++
            "` — magnitude must be greater than zero."))
        else (timedeltaSeconds (magnitude * unitSeconds)).mapError .time

/-! ## Named periods -/

def namedPeriods : List String :=
  ["today", "yesterday", "this-week", "last-week", "this-month", "last-month",
    "this-year", "last-year"]

def startOfDay (datetime : DateTime) : DateTime := datetime.midnight

def startOfWeek (datetime : DateTime) : Except TimeError DateTime := do
  (startOfDay datetime).sub (← timedeltaDays datetime.weekday)

def startOfMonth (datetime : DateTime) : Except TimeError DateTime :=
  (startOfDay datetime).replaceDate { datetime.civil with day := 1 }

def startOfYear (datetime : DateTime) : Except TimeError DateTime :=
  (startOfDay datetime).replaceDate { datetime.civil with month := 1, day := 1 }

def previousMonthStart (datetime : DateTime) : Except TimeError DateTime := do
  startOfMonth (← (← startOfMonth datetime).sub (← timedeltaDays 1))

def previousYearStart (datetime : DateTime) : Except TimeError DateTime := do
  let thisYear ← startOfYear datetime
  thisYear.replaceDate { thisYear.civil with year := datetime.civil.year - 1 }

/-- The bounds of a named period, `(after, before)`. -/
def namedPeriodBounds (now : DateTime) :
    String → Option (Except TimeError (DateTime × DateTime))
  | "today" => some (.ok (startOfDay now, now))
  | "yesterday" => some do
      let today := startOfDay now
      return (← today.sub (← timedeltaDays 1), today)
  | "this-week" => some do return (← startOfWeek now, now)
  | "last-week" => some do
      let thisWeek ← startOfWeek now
      return (← thisWeek.sub (← timedeltaDays 7), thisWeek)
  | "this-month" => some do return (← startOfMonth now, now)
  | "last-month" => some do
      let thisMonth ← startOfMonth now
      return (← previousMonthStart now, thisMonth)
  | "this-year" => some do return (← startOfYear now, now)
  | "last-year" => some do return (← previousYearStart now, ← startOfYear now)
  | _ => none

def resolveNamedPeriod (name : String) (now : DateTime) :
    Except FilterError (DateTime × DateTime) :=
  match namedPeriodBounds now name with
  | some bounds => bounds.mapError .time
  | none =>
      .error (.parse ("Unknown named period `" ++ name ++ "`. Expected one of: " ++
        ", ".intercalate namedPeriods ++ "."))

/-! ## Resolving -/

/-- What the matcher closes over. -/
structure Matcher where
  category : Option String
  fromUserId : Option ℕ
  guildAllowedTypes : Option (List String)
  deriving DecidableEq, Repr

/-- `_content_type`. -/
def contentType (lower : String → String) (attachment : Attachment) : String :=
  let declared := (attachment.contentType.getD "").toList
  lower (String.ofList (strip (declared.takeWhile (· ≠ ';'))))

/-- An empty category is none, an unknown one accepts everything. -/
def Matcher.accepts (lower : String → String) (matcher : Matcher)
    (attachment : Attachment) (message : Message) : Bool :=
  if matcher.fromUserId.any (· ≠ message.authorId) then false
  else
    let mime := contentType lower attachment
    if matcher.guildAllowedTypes.any fun allowed => mime ∉ allowed then false
    else
      match matcher.category.bind categoryPredicate with
      | none => true
      | some predicate => predicate mime

structure ResolvedFilters where
  matcher : Matcher
  before : Option DateTime
  after : Option DateTime
  deriving DecidableEq, Repr

/-- `now - parse_duration(value) if value else None`. -/
def resolveBound (now : DateTime) :
    Option String → Except FilterError (Option DateTime)
  | none => .ok none
  | some value =>
      if value = "" then .ok none
      else do
        let bound ← (now.sub (← parseDuration value)).mapError FilterError.time
        return some bound

/-- The two bounds of the walk, `(before, after)`. -/
def resolveBounds (filters : DownloadFilters) (now : DateTime) :
    Except FilterError (Option DateTime × Option DateTime) :=
  match filters.during with
  | some period => do
      let (after, before) ← resolveNamedPeriod period now
      return (some before, some after)
  | none => do
      let before ← resolveBound now filters.before
      let after ← resolveBound now filters.after
      return (before, after)

def resolve (filters : Option DownloadFilters) (guildSettings : GuildSettings)
    (now : DateTime) : Except FilterError ResolvedFilters := do
  let payload := filters.getD {}
  let matcher : Matcher :=
    ⟨payload.category, payload.fromUserId, guildSettings.allowedMediaTypes⟩
  let (before, after) ← resolveBounds payload now
  return ⟨matcher, before, after⟩

/-! ## The policy of the guild -/

/-- The matcher under another policy. -/
def Matcher.under (matcher : Matcher) (allowedTypes : Option (List String)) : Matcher :=
  { matcher with guildAllowedTypes := allowedTypes }

/-- The policy only ever takes attachments away. -/
theorem Matcher.accepts_iff {lower : String → String} {matcher : Matcher}
    {attachment : Attachment} {message : Message} :
    matcher.accepts lower attachment message = true ↔
      (matcher.under none).accepts lower attachment message = true ∧
        ∀ allowed ∈ matcher.guildAllowedTypes,
          contentType lower attachment ∈ allowed := by
  cases hallowed : matcher.guildAllowedTypes with
  | none => simp [accepts, under, hallowed]
  | some allowed =>
      by_cases hmem : contentType lower attachment ∈ allowed
      · simp [accepts, under, hallowed, hmem]
      · simp [accepts, under, hallowed, hmem]

/-- Resolving takes the matcher from the payload and the policy, and resolves the bounds. -/
theorem resolve_eq (filters : Option DownloadFilters) (guildSettings : GuildSettings)
    (now : DateTime) :
    resolve filters guildSettings now =
      (resolveBounds (filters.getD {}) now).map fun bounds =>
        ⟨⟨(filters.getD {}).category, (filters.getD {}).fromUserId,
          guildSettings.allowedMediaTypes⟩, bounds.1, bounds.2⟩ := by
  simp only [resolve]
  cases resolveBounds (filters.getD {}) now <;> rfl

/-- The settings of the guild enter a resolved filter by its policy alone. -/
theorem resolve_eq_map (filters : Option DownloadFilters)
    (guildSettings other : GuildSettings) (now : DateTime) :
    resolve filters guildSettings now = (resolve filters other now).map fun resolved =>
      { resolved with
        matcher := resolved.matcher.under guildSettings.allowedMediaTypes } := by
  rw [resolve_eq, resolve_eq]
  cases resolveBounds (filters.getD {}) now <;> rfl

/-- The matcher does not depend on the bounds. -/
theorem matcher_of_resolve {filters : Option DownloadFilters}
    {guildSettings : GuildSettings} {now : DateTime} {resolved : ResolvedFilters}
    (hresolve : resolve filters guildSettings now = .ok resolved) :
    resolved.matcher = ⟨(filters.getD {}).category, (filters.getD {}).fromUserId,
      guildSettings.allowedMediaTypes⟩ := by
  rw [resolve_eq] at hresolve
  cases hbounds : resolveBounds (filters.getD {}) now with
  | error error =>
      rw [hbounds] at hresolve
      cases hresolve
  | ok bounds =>
      rw [hbounds] at hresolve
      cases hresolve
      rfl

end DownloaderBot.Filters
