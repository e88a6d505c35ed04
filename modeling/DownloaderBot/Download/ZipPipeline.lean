import DownloaderBot.Core.Floats
import DownloaderBot.Core.Generator
import DownloaderBot.Download.Discord
import Mathlib.Algebra.Order.Field.Rat

/-!
# The zip pipeline

`_members` walks the history of a channel, pre-flights every attachment that
matches and yields a member tuple for each response, whose body a generator of its
own streams.  `_peek_or_raise_empty` passes the tuples on to stream-zip, or raises
when there is none.
-/

namespace DownloaderBot.ZipPipeline

open DownloaderBot.Calendar
open DownloaderBot.Discord
open DownloaderBot.Floats
open DownloaderBot.Generator
open DownloaderBot.Program

/-! ## What the pipeline works on -/

/-- `clientError` is aiohttp's; the plain `asyncio.TimeoutError` of a session's total
timeout is not one. -/
inductive Exn
  | clientError (text : String)
  | timeoutError (text : String)
  | attachmentStreamError (text : String)
  | noMatchingAttachments (text : String)
  | generatorExit
  | cancelledError
  | other (text : String)
  deriving DecidableEq, Repr

def Exn.text : Exn → String
  | .clientError text | .timeoutError text | .attachmentStreamError text
  | .noMatchingAttachments text | .other text => text
  | .generatorExit | .cancelledError => ""

/-- What `except aiohttp.ClientError` catches. -/
def Exn.isClientError : Exn → Bool
  | .clientError _ => true
  | _ => false

/-- What `except Exception` catches. -/
def Exn.isException : Exn → Bool
  | .generatorExit | .cancelledError => false
  | _ => true

abbrev Chunk := List UInt8

/-- What a GET receives: `chunks` are the pieces of the body that `iter_chunked`
yields, and `failure` is how reading it fails after them. -/
structure Reception where
  status : ℕ
  chunks : List Chunk
  failure : Option Exn
  deriving DecidableEq, Repr

/-- An open response; `id` tells it from the others. -/
structure Response where
  id : ℕ
  reception : Reception
  deriving DecidableEq, Repr

/-- The messages that `channel.history` yields, and how it fails after them. -/
structure History where
  messages : List Message
  failure : Option Exn
  deriving DecidableEq, Repr

structure ProgressSnapshot where
  attachmentsDone : ℕ
  bytesStreamed : ℕ
  historyFraction : Option ℚ
  deriving DecidableEq, Repr

/-- `oldest` is the lookup with `limit=1, oldest_first=True`, up to the id it finds. -/
inductive Request
  | oldest
  | history (before after : Option DateTime)
  | monotonic
  | onProgress (snapshot : ProgressSnapshot)
  | get (url : String)
  | release (response : Response)
  deriving DecidableEq, Repr

abbrev Reply : Request → Type
  | .oldest => Option ℕ
  | .history _ _ => History
  | .monotonic => ℚ
  | .onProgress _ => Unit
  | .get _ => Response
  | .release _ => Unit

def ask (request : Request) : Prog Reply Exn (Reply request) := Prog.perform request

/-- A call of `_stream_response`: a generator that is not started. -/
structure Chunks where
  response : Response
  filename : String
  deriving DecidableEq, Repr

inductive Method
  | zip64
  deriving DecidableEq, Repr

/-- What stream-zip takes for a member. -/
structure MemberTuple where
  name : String
  modifiedAt : DateTime
  mode : ℕ
  method : Method
  chunks : Chunks
  deriving DecidableEq, Repr

/-- Float arithmetic: a result is the exact one, rounded. -/
structure Rounding where
  round : ℚ → ℚ
  monotone : Monotone round
  round_zero : round 0 = 0
  round_one : round 1 = 1

def exactRounding : Rounding := ⟨id, monotone_id, rfl, rfl⟩

/-- A division of two integers gives the double that is nearest to the quotient. -/
def doubleRounding : Rounding where
  round := double.round
  monotone := Format.monotone_round
  round_zero := Format.round_zero
  round_one := Format.IsFloat.round_eq (@Format.isFloat_zpow double 0 (by decide))

/-- The arguments of `build_zip_stream`, and what it reads of the channel without a
call; `onProgress` tells whether there is a callback. -/
structure Arguments where
  lastMessageId : Option ℕ
  accepts : Option (Attachment → Message → Bool)
  before : Option DateTime
  after : Option DateTime
  onProgress : Bool
  progressThrottleSeconds : ℚ

/-! ## The progress of a walk -/

section Pipeline

variable (rounding : Rounding) (timeSnowflake : DateTime → Bool → ℤ)

/-- `_compute_history_fraction`. -/
def computeHistoryFraction (currentId low high : ℤ) : ℚ :=
  if high ≤ low then 1
  else max 0 (min 1 (rounding.round ((high - currentId : ℤ) / (high - low : ℤ))))

variable (arguments : Arguments)

/-- `_resolve_snowflake_bounds`. -/
def resolveSnowflakeBounds : Prog Reply Exn (Option ℤ × Option ℤ) :=
  let high : Option ℤ :=
    match arguments.before with
    | some before => some (timeSnowflake before true)
    | none => arguments.lastMessageId.map Int.ofNat
  match arguments.after with
  | some after => .ret (some (timeSnowflake after false), high)
  | none =>
      ((ask .oldest).tryExcept Exn.isException
        fun _ => .ret none).bind fun low => .ret (low.map Int.ofNat, high)

/-- The counters of the walk. -/
structure Tally where
  attachmentsDone : ℕ
  bytesStreamed : ℕ
  lastEmit : ℚ
  deriving DecidableEq, Repr

/-- The fraction that is reported at a message, unless a bound is unknown. -/
def historyFraction (bounds : Option ℤ × Option ℤ) (message : Message) : Option ℚ :=
  match bounds with
  | (some low, some high) => some (computeHistoryFraction rounding message.id low high)
  | _ => none

/-- The report on a message, if one is due.  Its failure is logged. -/
def report (bounds : Option ℤ × Option ℤ) (message : Message) (tally : Tally) :
    Prog Reply Exn Tally :=
  if arguments.onProgress then
    (ask .monotonic).bind fun now =>
      if arguments.progressThrottleSeconds ≤ rounding.round (now - tally.lastEmit) then
        ((ask (.onProgress
          { attachmentsDone := tally.attachmentsDone
            bytesStreamed := tally.bytesStreamed
            historyFraction := historyFraction rounding bounds message })).tryExcept
          Exn.isException fun _ => .ret ()).bind fun _ =>
            .ret { tally with lastEmit := now }
      else .ret tally
  else .ret tally

/-! ## The generators -/

/-- The attachment passes `matches`, `None` being everything. -/
def Arguments.selects (message : Message) (attachment : Attachment) : Bool :=
  match arguments.accepts with
  | some accepts => accepts attachment message
  | none => true

/-- The GET of an attachment: its response, if that is one to stream. -/
def preflight (attachment : Attachment) : Prog Reply Exn (Option Response) :=
  (((ask (.get attachment.url)).bind fun response =>
    .ret (some response)).tryExcept Exn.isClientError fun _ => .ret none).bind fun
      | none => .ret none
      | some response =>
          if response.reception.status ≠ 200 then
            (ask (.release response)).bind fun _ => .ret none
          else .ret (some response)

/-- `S_IFREG | 0o600`. -/
def memberMode : ℕ := 0o100600

def memberTuple (message : Message) (attachment : Attachment) (response : Response) :
    MemberTuple :=
  { name := toString message.id ++ "_" ++ attachment.filename
    modifiedAt := message.createdAt
    mode := memberMode
    method := .zip64
    chunks := ⟨response, attachment.filename⟩ }

def Tally.count (tally : Tally) (attachment : Attachment) : Tally :=
  { tally with
    attachmentsDone := tally.attachmentsDone + 1
    bytesStreamed := tally.bytesStreamed + attachment.size.getD 0 }

/-- The loop over the attachments of a message. -/
def attachmentLoop (message : Message) :
    List Attachment → Tally → Body Reply Exn MemberTuple Tally
  | [], tally => .ret tally
  | attachment :: rest, tally =>
      if arguments.selects message attachment then
        (lift (preflight attachment)).bind fun
          | none => attachmentLoop message rest tally
          | some response =>
              (yield (memberTuple message attachment response)).bind fun _ =>
                attachmentLoop message rest (tally.count attachment)
      else attachmentLoop message rest tally

/-- The loop over the messages. -/
def messageLoop (bounds : Option ℤ × Option ℤ) :
    List Message → Tally → Body Reply Exn MemberTuple Unit
  | [], _ => .ret ()
  | message :: rest, tally =>
      (lift (report rounding arguments bounds message tally)).bind fun tally =>
        (attachmentLoop arguments message message.attachments tally).bind fun tally =>
          messageLoop bounds rest tally

/-- `_members`. -/
def members : Body Reply Exn MemberTuple Unit :=
  (lift (if arguments.onProgress then resolveSnowflakeBounds timeSnowflake arguments
    else .ret (none, none))).bind fun bounds =>
  (lift (ask .monotonic)).bind fun lastEmit =>
  (lift (ask (.history arguments.before arguments.after))).bind fun history =>
  (messageLoop rounding arguments bounds history.messages ⟨0, 0, lastEmit⟩).bind fun _ =>
    match history.failure with
    | none => .ret ()
    | some failure => .raise failure

/-- `async for chunk in resp.content.iter_chunked(chunk_size): yield chunk`. -/
def readChunks (failure : Option Exn) : List Chunk → Body Reply Exn Chunk Unit
  | [] =>
      match failure with
      | none => .ret ()
      | some exception => .raise exception
  | chunk :: rest => (yield chunk).bind fun _ => readChunks failure rest

/-- `_stream_response`. -/
def streamResponse (chunks : Chunks) : Body Reply Exn Chunk Unit :=
  ((readChunks chunks.response.reception.failure
      chunks.response.reception.chunks).tryExcept Exn.isClientError fun exception =>
    .raise (.attachmentStreamError
      ("Stream of '" ++ chunks.filename ++ "' failed mid-flight: " ++
        exception.text))).tryFinally
    fun _ => lift (ask (.release chunks.response))

/-- `_peek_or_raise_empty`. -/
def peekOrRaiseEmpty (members : Body Reply Exn MemberTuple Unit) :
    Body Reply Exn MemberTuple Unit :=
  (lift (advance members)).bind fun
    | none => .raise (.noMatchingAttachments "channel yielded no attachments to zip")
    | some (first, resume) => (yield first).bind fun _ => forward (resume (.ok ()))

/-- What `build_zip_stream` hands to stream-zip. -/
def buildZipStream : Body Reply Exn MemberTuple Unit :=
  peekOrRaiseEmpty (members rounding timeSnowflake arguments)

end Pipeline

/-! ## The environment -/

/-- The answers to the calls: of the lookup and the history, of the clock at each
reading, of the callback at each call, and of the network to each GET. -/
structure Environment where
  oldest : Except Exn (Option ℕ)
  history : Option DateTime → Option DateTime → History
  clock : ℕ → ℚ
  callback : ℕ → Except Exn Unit
  network : ℕ → Except Exn Reception

/-- The calls so far. -/
abbrev Log := List Request

/-- The GETs so far. -/
def urls (log : Log) : List String :=
  log.filterMap fun
    | .get url => some url
    | _ => none

def readings (log : Log) : ℕ := log.countP fun request => request = .monotonic

/-- The snapshots passed to the callback so far. -/
def snapshots (log : Log) : List ProgressSnapshot :=
  log.filterMap fun
    | .onProgress snapshot => some snapshot
    | _ => none

/-- A GET that is answered opens a response; the GETs number the responses. -/
def Environment.answer (environment : Environment) (log : Log) :
    (request : Request) → Except Exn (Reply request)
  | .oldest => environment.oldest
  | .history before after => .ok (environment.history before after)
  | .monotonic => .ok (environment.clock (readings log))
  | .onProgress _ => environment.callback (snapshots log).length
  | .get _ => (environment.network (urls log).length).map (⟨(urls log).length, ·⟩)
  | .release _ => .ok ()

def Environment.serve (environment : Environment) (log : Log) (request : Request) :
    Except Exn (Reply request) × Log :=
  (environment.answer log request, log ++ [request])

end DownloaderBot.ZipPipeline
