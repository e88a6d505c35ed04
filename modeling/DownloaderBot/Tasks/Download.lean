import DownloaderBot.Core.Attempts
import DownloaderBot.Download.Filters
import DownloaderBot.Embeds

/-!
# The download task

`download_channel_media` as a program over the calls it makes: the progress
tracker, the settings, Discord, the storage backend, the idempotency keys and the
job index.  Uploading is one call: the walk of the history, the pre-flights and
the progress it reports happen inside it.
-/

namespace DownloaderBot.Tasks

open DownloaderBot.Calendar
open DownloaderBot.Discord
open DownloaderBot.Embeds
open DownloaderBot.Filters
open DownloaderBot.Program

/-- Cached where the channel had nothing to archive. -/
def emptySentinel : String := ""

/-- The phases the task reports. -/
inductive Phase
  | pickedUp
  | stream
  | deliver
  | done
  deriving DecidableEq, Repr

inductive Status
  | delivered
  | empty
  deriving DecidableEq, Repr

structure DownloadResult where
  url : String
  deliveryMode : DeliveryMode
  status : Status
  deriving DecidableEq, Repr

/-- The exceptions that are told apart.  `cancelled` is no `Exception` but a
`BaseException`. -/
inductive Exn
  | notFound
  | forbidden
  | typeError
  | uploadError
  | signedUrlError
  | noMatchingAttachments
  | attachmentStreamError
  | dmUnavailable
  | filterParse (message : String)
  | time (error : TimeError)
  | cancelled
  | other
  deriving DecidableEq, Repr

/-- `except Exception` catches it. -/
def Exn.isException : Exn → Bool
  | .cancelled => false
  | _ => true

def Exn.ofFilterError : FilterError → Exn
  | .parse message => .filterParse message
  | .time error => .time error

/-- What the storage backend is asked to store: the zip of the matching
attachments of the walk. -/
structure UploadRequest where
  name : String
  channelId : ℕ
  filters : ResolvedFilters
  ttl : TimeDelta
  downloadFilename : String
  deriving DecidableEq, Repr

inductive Destination
  | user (userId : ℕ)
  | channel (channelId : ℕ)
  deriving DecidableEq, Repr

/-- The calls; those on the keys of the task leave out its id. -/
inductive Call
  | setProgress (phase : Phase)
  | getSettings (guildId : ℕ)
  | getCachedArchiveUrl
  | fetchChannel (channelId : ℕ)
  | uploadAndSign (request : UploadRequest)
  | deleteBlob (name : String)
  | cacheArchiveUrl (url : String) (ttlSeconds : ℤ)
  | isDelivered
  | fetchUser (userId : ℕ)
  | send (destination : Destination) (embed : Embed)
  | markDelivered (ttlSeconds : ℤ)
  | forgetJob (userId : ℕ)
  deriving DecidableEq, Repr

@[reducible]
def Reply : Call → Type
  | .getSettings _ => GuildSettings
  | .getCachedArchiveUrl => Option String
  | .fetchChannel _ => Channel
  | .uploadAndSign _ => String
  | .isDelivered => Bool
  | _ => Unit

abbrev Task := Prog Reply Exn

/-- One call of the task. -/
abbrev await (request : Call) : Task (Reply request) := Prog.perform request

/-- The message of the task. -/
structure Arguments where
  taskId : String
  channelId : ℕ
  userId : ℕ
  guildId : Option ℕ
  dmMe : Bool
  filters : Option DownloadFilters
  deriving DecidableEq, Repr

/-- What an attempt reads off the clock. -/
structure Clock where
  now : DateTime
  today : Civil
  deriving DecidableEq, Repr

/-! ## The name of the download -/

/-- The characters `_display_filename` replaces. -/
def isUnsafe (char : Char) : Bool :=
  char ∈ ['\\', '/', ':', '*', '?', '"', '<', '>', '|'] || Text.isSpace char

/-- A dash for every run of unsafe characters; `inRun` says that the run has its
dash already. -/
def dashRuns (inRun : Bool) : List Char → List Char
  | [] => []
  | char :: rest =>
      if isUnsafe char then
        if inRun then dashRuns true rest else '-' :: dashRuns true rest
      else char :: dashRuns false rest

def stripDashes (text : List Char) : List Char :=
  ((text.dropWhile (· = '-')).reverse.dropWhile (· = '-')).reverse

/-- A number with leading zeros up to the width. -/
def padded (width number : ℕ) : String :=
  let digits := toString number
  String.ofList (List.replicate (width - digits.length) '0') ++ digits

def isoDate (date : Civil) : String :=
  padded 4 date.year ++ "-" ++ padded 2 date.month ++ "-" ++ padded 2 date.day

/-- `_display_filename`: an empty name is as good as none. -/
def displayFilename (channel : Channel) (today : Civil) : String :=
  let rawName :=
    match channel.name with
    | none | some "" => "id-" ++ toString channel.id
    | some name => name
  let safeName := String.ofList (stripDashes (dashRuns false rawName.toList))
  "channel-" ++ (if safeName = "" then "unnamed" else safeName) ++ "-" ++
    isoDate today ++ ".zip"

/-! ## Delivery -/

/-- `deliver.dm_user`. -/
def dmUser (userId : ℕ) (embed : Embed) : Task Unit := do
  await (.fetchUser userId)
  (await (.send (.user userId) embed)).tryExcept (· = .forbidden)
    fun _ => .raise .dmUnavailable

/-- `deliver.post_to_channel`. -/
def postToChannel (channelId : ℕ) (embed : Embed) (fallbackUserId : ℕ) :
    Task Unit :=
  let post : Task Unit := do
    let channel ← await (.fetchChannel channelId)
    if !channel.messageable then
      Prog.raise .typeError
    else
      await (.send (.channel channelId) embed)
  post.tryExcept (· ∈ [.notFound, .forbidden, .typeError])
    fun _ => dmUser fallbackUserId embed

/-! ## The phases -/

/-- `dm_me` and direct messages go without the settings of the guild. -/
def resolveSettings (arguments : Arguments) : Task GuildSettings :=
  match arguments.guildId with
  | some guildId =>
      if arguments.dmMe then pure { guildId := guildId }
      else await (.getSettings guildId)
  | none => pure { guildId := 0 }

/-- The upload with its handler: the URL, and whether the channel was empty. -/
def uploadOrEmpty (request : UploadRequest) : Task (String × Bool) :=
  let upload : Task (String × Bool) := do
    let url ← await (.uploadAndSign request)
    return (url, false)
  upload.tryExcept (· = .noMatchingAttachments)
    fun _ => pure (emptySentinel, true)

/-- The cleanup of the upload: after a failure and for an empty channel. -/
def cleanUp (name : String) : Except Exn (String × Bool) → Task Unit
  | .ok (_, false) => pure ()
  | _ =>
      (await (.deleteBlob name)).tryExcept (· = .uploadError) fun _ => pure ()

/-- Phase 1: walk, upload, cache. -/
def uploadPhase (arguments : Arguments) (clock : Clock)
    (guildSettings : GuildSettings) (ttl : TimeDelta) (ttlSeconds : ℤ) :
    Task String := do
  let channel ← await (.fetchChannel arguments.channelId)
  if !channel.messageable then
    Prog.raise .typeError
  else
    let name := "channel-" ++ toString arguments.channelId ++ "-" ++
      arguments.taskId ++ ".zip"
    await (.setProgress .stream)
    let resolved ← Prog.ofExcept
      ((resolve arguments.filters guildSettings clock.now).mapError
        Exn.ofFilterError)
    let (archiveUrl, _) ← (uploadOrEmpty ⟨name, arguments.channelId, resolved, ttl,
      displayFilename channel clock.today⟩).tryFinally (cleanUp name)
    await (.cacheArchiveUrl archiveUrl ttlSeconds)
    return archiveUrl

/-- Phase 1 is skipped when an earlier attempt cached the URL or the sentinel. -/
def reuseOrUpload (arguments : Arguments) (clock : Clock)
    (guildSettings : GuildSettings) (ttl : TimeDelta) (ttlSeconds : ℤ)
    (cached : Option String) : Task String :=
  match cached with
  | none => uploadPhase arguments clock guildSettings ttl ttlSeconds
  | some url => pure url

/-- The embed that tells the requester what became of the job. -/
def resultEmbed (archiveUrl : String) (userId : ℕ) : Embed :=
  if archiveUrl = emptySentinel then noAttachments userId
  else mediaDownload archiveUrl userId

/-- Phase 2: send, then mark. -/
def deliverPhase (arguments : Arguments) (guildSettings : GuildSettings)
    (effectiveDeliveryMode : DeliveryMode) (archiveUrl : String)
    (ttlSeconds : ℤ) : Task Unit := do
  await (.setProgress .deliver)
  let embed := resultEmbed archiveUrl arguments.userId
  match effectiveDeliveryMode, guildSettings.resultsChannelId with
  | .channel, some channelId => postToChannel channelId embed arguments.userId
  | _, _ => dmUser arguments.userId embed
  await (.markDelivered ttlSeconds)

/-- Phase 2 is skipped when an earlier attempt has notified. -/
def deliverOnce (arguments : Arguments) (guildSettings : GuildSettings)
    (effectiveDeliveryMode : DeliveryMode) (archiveUrl : String)
    (ttlSeconds : ℤ) (delivered : Bool) : Task Unit :=
  if delivered then pure ()
  else
    deliverPhase arguments guildSettings effectiveDeliveryMode archiveUrl ttlSeconds

/-- Any `Exception` of the job index is swallowed. -/
def forgetFinished (userId : ℕ) : Task Unit :=
  (await (.forgetJob userId)).tryExcept Exn.isException fun _ => pure ()

def downloadChannelMedia (arguments : Arguments) (clock : Clock) :
    Task DownloadResult := do
  await (.setProgress .pickedUp)
  let guildSettings ← resolveSettings arguments
  let effectiveDeliveryMode :=
    if arguments.dmMe then .dm else guildSettings.deliveryMode
  let ttl ← Prog.ofExcept
    ((timedeltaHours guildSettings.retentionHours).mapError Exn.time)
  let ttlSeconds := ttl / 1000000
  let cached ← await .getCachedArchiveUrl
  let archiveUrl ←
    reuseOrUpload arguments clock guildSettings ttl ttlSeconds cached
  let delivered ← await .isDelivered
  deliverOnce arguments guildSettings effectiveDeliveryMode archiveUrl ttlSeconds
    delivered
  await (.setProgress .done)
  forgetFinished arguments.userId
  return ⟨archiveUrl, effectiveDeliveryMode,
    if archiveUrl = emptySentinel then .empty else .delivered⟩

end DownloaderBot.Tasks
