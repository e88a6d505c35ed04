import DownloaderBot.Cogs.JobControl
import DownloaderBot.Download.Ratelimit
import DownloaderBot.Tasks.Download

/-!
# The `/download` command

The cog as a program over its calls: it checks the request, takes a token, publishes
the task, records the job and acknowledges.
-/

namespace DownloaderBot.DownloadCog

open DownloaderBot.Calendar
open DownloaderBot.Embeds
open DownloaderBot.Filters
open DownloaderBot.JobControl
open DownloaderBot.Jobs (JobMeta)
open DownloaderBot.Program
open DownloaderBot.Ratelimit (Verdict)

inductive MediaType
  | image
  | video
  | audio
  | gif
  | other
  deriving DecidableEq, Repr

def MediaType.value : MediaType → String
  | .image => "image"
  | .video => "video"
  | .audio => "audio"
  | .gif => "gif"
  | .other => "other"

inductive NamedPeriod
  | today
  | yesterday
  | thisWeek
  | lastWeek
  | thisMonth
  | lastMonth
  | thisYear
  | lastYear
  deriving DecidableEq, Repr

def NamedPeriod.value : NamedPeriod → String
  | .today => "today"
  | .yesterday => "yesterday"
  | .thisWeek => "this-week"
  | .lastWeek => "last-week"
  | .thisMonth => "this-month"
  | .lastMonth => "last-month"
  | .thisYear => "this-year"
  | .lastYear => "last-year"

/-- The periods of the cog are those the task knows. -/
theorem NamedPeriod.value_mem (period : NamedPeriod) : period.value ∈ namedPeriods := by
  cases period <;> decide

/-- Who invokes the command, and where.  `canReadHistory`: the bot may read the
history of the channel. -/
structure Context where
  caller : Caller
  channelId : ℕ
  canReadHistory : Bool
  deriving DecidableEq, Repr

/-- The arguments of the command. -/
structure Options where
  dmMe : Bool := false
  mediaType : Option MediaType := none
  fromUser : Option ℕ := none
  before : Option String := none
  after : Option String := none
  during : Option NamedPeriod := none
  deriving DecidableEq, Repr

/-- `_build_filters`. -/
def buildFilters (options : Options) : Option DownloadFilters :=
  let payload : DownloadFilters :=
    { category := options.mediaType.map MediaType.value
      fromUserId := options.fromUser
      before := options.before
      after := options.after
      during := options.during.map NamedPeriod.value }
  if payload = {} then none else some payload

/-- A `FilterParseError` is caught by the cog, what else arithmetic raises is not. -/
inductive Exn
  | time (error : TimeError)
  | other
  deriving DecidableEq, Repr

/-- What `kiq` is called with. -/
structure Enqueue where
  channelId : ℕ
  userId : ℕ
  guildId : Option ℕ
  dmMe : Bool
  filters : Option DownloadFilters
  deriving DecidableEq, Repr

/-- The message of the task once it has its id. -/
def Enqueue.arguments (request : Enqueue) (taskId : String) : Tasks.Arguments :=
  ⟨taskId, request.channelId, request.userId, request.guildId, request.dmMe,
    request.filters⟩

inductive Call
  | defer (ephemeral : Bool)
  | send (embed : Embed) (ephemeral : Bool)
  | acquire (guildId : ℕ)
  | kiq (request : Enqueue)
  | getSettings (guildId : ℕ)
  | recordJob (taskId : String) (jobMeta : JobMeta) (ttlSeconds : ℤ)
  deriving DecidableEq, Repr

@[reducible]
def Reply : Call → Type
  | .acquire _ => Verdict
  | .kiq _ => String
  | .getSettings _ => GuildSettings
  | _ => Unit

abbrev Cog := Prog Reply Exn

/-- One call of the cog. -/
abbrev await (request : Call) : Cog (Reply request) := Prog.perform request

/-- What an invocation reads off the clock.  `retryAt`: `retry_after` from now, as
`discord.utils.format_dt` writes it. -/
structure Clock where
  retryAt : ℚ → Except Exn String
  enqueuedAtIso : String

/-! ## Checking the request -/

def missingPermission : Embed :=
  error "Missing permission" (some "I need **Read Message History** in this channel.")

def conflictingFilters : Embed :=
  error "Conflicting filters"
    (some ("`during` can't be combined with `before` or `after` — " ++
      "pick one way to express the time window."))

def invalidFilter (message : String) : Embed := error "Invalid filter" (some message)

def checkDuration : Option String → Except FilterError Unit
  | none => .ok ()
  | some value => (parseDuration value).map fun _ => ()

/-- The embed the request is rejected with, if it is. -/
def rejection (context : Context) (options : Options) : Except Exn (Option Embed) :=
  if context.caller.guild.isSome && !context.canReadHistory then
    .ok (some missingPermission)
  else if options.during.isSome && (options.before.isSome || options.after.isSome) then
    .ok (some conflictingFilters)
  else
    match (do checkDuration options.before; checkDuration options.after) with
    | .ok _ => .ok none
    | .error (.parse message) => .ok (some (invalidFilter message))
    | .error (.time error) => .error (.time error)

/-! ## Enqueueing -/

def rateLimitReached (retryAt : String) : Embed :=
  error "Rate limit reached"
    (some ("This server has used its `/download` allowance. " ++
      "Try again " ++ retryAt ++ "."))

def serviceUnavailable : Embed :=
  error "Service unavailable"
    (some ("The download queue is not currently available. " ++
      "Please try again in a moment."))

/-- Whether a token was consumed, `none` once the caller has been denied.  Owners and
direct messages bypass the bucket. -/
def takeToken (clock : Clock) (caller : Caller) : Cog (Option Bool) :=
  match caller.guild with
  | none => pure (some false)
  | some guild =>
      if caller.authorId = guild.ownerId then pure (some false)
      else do
        let verdict ← await (.acquire guild.id)
        if verdict.allowed then pure (some true)
        else do
          let retryAt ← Prog.ofExcept (clock.retryAt verdict.retryAfter)
          await (.send (rateLimitReached retryAt) true)
          return none

def enqueueOf (context : Context) (options : Options) : Enqueue :=
  ⟨context.channelId, context.caller.authorId, context.caller.guild.map GuildContext.id,
    options.dmMe, buildFilters options⟩

/-- The id of the task, `none` once the caller knows that the broker is down. -/
def publish (context : Context) (options : Options) : Cog (Option String) :=
  let published : Cog (Option String) := do
    let taskId ← await (.kiq (enqueueOf context options))
    return some taskId
  published.tryExcept (fun _ => true) fun _ => do
    await (.send serviceUnavailable options.dmMe)
    return none

/-- A job from a direct message goes by the default settings. -/
def readSettings (caller : Caller) : Cog GuildSettings :=
  match caller.guild with
  | some guild => await (.getSettings guild.id)
  | none => pure { guildId := 0 }

def jobMetaOf (clock : Clock) (context : Context) (consumedToken : Bool) : JobMeta :=
  ⟨context.caller.authorId, context.caller.guild.map GuildContext.id, context.channelId,
    clock.enqueuedAtIso, consumedToken⟩

/-- Any `Exception` of the job index is swallowed. -/
def recordBestEffort (taskId : String) (jobMeta : JobMeta) (ttlSeconds : ℤ) : Cog Unit :=
  (await (.recordJob taskId jobMeta ttlSeconds)).tryExcept (fun _ => true)
    fun _ => pure ()

/-- From the publication to the acknowledgement. -/
def enqueue (clock : Clock) (context : Context) (options : Options)
    (consumedToken : Bool) : Cog Unit := do
  match ← publish context options with
  | none => pure ()
  | some taskId =>
      let guildSettings ← readSettings context.caller
      recordBestEffort taskId (jobMetaOf clock context consumedToken)
        (guildSettings.retentionHours * 3600)
      await (.send (jobEnqueued taskId options.dmMe) options.dmMe)

def download (clock : Clock) (context : Context) (options : Options) : Cog Unit := do
  await (.defer options.dmMe)
  match ← Prog.ofExcept (rejection context options) with
  | some embed => await (.send embed options.dmMe)
  | none =>
      match ← takeToken clock context.caller with
      | none => pure ()
      | some consumedToken => enqueue clock context options consumedToken

end DownloaderBot.DownloadCog
