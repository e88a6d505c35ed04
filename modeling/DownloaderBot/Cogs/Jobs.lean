import DownloaderBot.Cogs.JobControl
import DownloaderBot.Core.Program
import DownloaderBot.Download.Ratelimit
import DownloaderBot.Embeds

/-!
# The job-control commands

`/status` and `/cancel` as programs over their calls, and a world that serves the
calls: the index of jobs, the cancellation flags, the result backend and the buckets.
-/

namespace DownloaderBot.JobsCog

open DownloaderBot.Embeds
open DownloaderBot.ExpiringStore (Cell fetch)
open DownloaderBot.JobControl
open DownloaderBot.Jobs (Index JobMeta)
open DownloaderBot.Program
open DownloaderBot.Ratelimit

/-- The `meta` of a progress record, as far as it has been filled in. -/
structure ProgressMeta where
  phase : Option JobPhase := none
  attachmentsDone : Option ℕ := none
  bytesStreamed : Option ℕ := none
  historyFraction : Option ℚ := none
  updatedAt : Option String := none
  deriving DecidableEq, Repr

inductive Call
  | defer (ephemeral : Bool)
  | send (embed : Embed) (ephemeral : Bool)
  | latestJobForUser (userId : ℕ)
  | getJobMeta (taskId : String)
  | isCancelled (taskId : String)
  | isReady (taskId : String)
  | getProgress (taskId : String)
  | requestCancellation (taskId : String)
  | refund (guildId : ℕ)
  deriving DecidableEq, Repr

@[reducible]
def Reply : Call → Type
  | .latestJobForUser _ => Option String
  | .getJobMeta _ => Option JobMeta
  | .isCancelled _ | .isReady _ => Bool
  | .getProgress _ => Option ProgressMeta
  | _ => Unit

/-- No handler tells the exceptions apart. -/
inductive Exn
  | exception
  deriving DecidableEq, Repr

abbrev Cog := Prog Reply Exn

/-- One call of the cog. -/
abbrev await (request : Call) : Cog (Reply request) := Prog.perform request

/-! ## Resolving a job -/

def isHexDigit (char : Char) : Bool :=
  ('0' ≤ char && char ≤ '9') || ('a' ≤ char && char ≤ 'f') ||
    ('A' ≤ char && char ≤ 'F')

/-- 32 hex digits. -/
def isHex32 (text : List Char) : Bool := text.length = 32 && text.all isHexDigit

/-- `_TASK_ID_RE.match`: the `$` of the pattern also matches before a final newline. -/
def matchesTaskId (taskId : String) : Bool :=
  let text := taskId.toList
  isHex32 text || (text.getLast? = some '\n' && isHex32 text.dropLast)

/-- The second half of `_resolve_job`: the lookup and the authorisation. -/
def authorise (caller : Caller) (taskId : String) : Cog (Option (String × JobMeta)) := do
  match ← await (.getJobMeta taskId) with
  | none => return none
  | some jobMeta =>
      if canActOn caller jobMeta then return some (taskId, jobMeta) else return none

/-- `_resolve_job`. -/
def resolveJob (caller : Caller) (taskId : Option String) :
    Cog (Option (String × JobMeta)) :=
  match taskId with
  | none => do
      match ← await (.latestJobForUser caller.authorId) with
      | none => return none
      | some latest => authorise caller latest
  | some taskId => if matchesTaskId taskId then authorise caller taskId else pure none

/-! ## The commands -/

/-- `heartbeatAge`: the seconds from an ISO time to now, none for a text that is no ISO
time. -/
structure Clock where
  heartbeatAge : String → Option ℚ

/-- The embed for a job that is neither cancelled nor done. -/
def progressEmbed (clock : Clock) (taskId : String) (requesterId : ℕ) :
    Option ProgressMeta → Embed
  | none => jobStatus taskId .queued requesterId {}
  | some progress =>
      jobStatus taskId (progress.phase.getD .queued) requesterId
        { attachmentsDone := progress.attachmentsDone
          bytesStreamed := progress.bytesStreamed
          historyFraction := progress.historyFraction
          heartbeatAgeSeconds := progress.updatedAt.bind clock.heartbeatAge }

/-- What `/status` shows of a job that was resolved. -/
def statusEmbed (clock : Clock) (taskId : String) (requesterId : ℕ) : Cog Embed := do
  if ← await (.isCancelled taskId) then
    return jobStatus taskId .cancelled requesterId {}
  else if ← await (.isReady taskId) then
    return jobStatus taskId .done requesterId {}
  else
    return progressEmbed clock taskId requesterId (← await (.getProgress taskId))

def status (clock : Clock) (caller : Caller) (taskId : Option String) : Cog Unit := do
  await (.defer true)
  match ← resolveJob caller taskId with
  | none => await (.send (jobNotFound taskId) true)
  | some (target, jobMeta) =>
      let embed ← statusEmbed clock target jobMeta.ownerUserId
      await (.send embed true)

/-- Any `Exception` of the refund is swallowed. -/
def refundBestEffort (guildId : ℕ) : Cog Unit :=
  (await (.refund guildId)).tryExcept (fun _ => true) fun _ => pure ()

/-- `/cancel` once the job has been resolved: the flag first, then what the worker has
done so far. -/
def cancelJob (target : String) (jobMeta : JobMeta) : Cog Unit := do
  await (.requestCancellation target)
  let ready ← await (.isReady target)
  let progress ← await (.getProgress target)
  match refundDue jobMeta ready progress.isSome with
  | some guildId => refundBestEffort guildId
  | none => pure ()
  await (.send (jobCancelled target jobMeta.ownerUserId) true)

def cancel (caller : Caller) (taskId : Option String) : Cog Unit := do
  await (.defer true)
  match ← resolveJob caller taskId with
  | none => await (.send (jobNotFound taskId) true)
  | some (target, jobMeta) => cancelJob target jobMeta

/-! ## A world that serves the calls -/

/-- `flags` and `notices` are what a request for cancellation leaves with its backend;
`ready` and `progress` are read off the result backend. -/
structure World where
  index : Index
  flags : String → Bool
  notices : List String
  ready : String → Bool
  progress : String → Option ProgressMeta
  buckets : ℕ → Option (Cell Bucket ℚ)
  replies : List (Embed × Bool)

/-- The settings of the limiter and the moment at which the command runs. -/
structure Moment where
  limits : Limits
  now : ℚ

def World.reply (world : World) (embed : Embed) (ephemeral : Bool) : World :=
  { world with replies := world.replies ++ [(embed, ephemeral)] }

def World.refunded (world : World) (moment : Moment) (guildId : ℕ) : World :=
  match refund moment.limits.capacity moment.limits.refillPerHour
      (fetch moment.now (world.buckets guildId)) moment.now with
  | none => world
  | some bucket =>
      { world with
        buckets := Function.update world.buckets guildId (some ⟨bucket,
          some (moment.now +
            ttlSeconds moment.limits.capacity moment.limits.refillPerHour)⟩) }

def serve (moment : Moment) (world : World) :
    (request : Call) → Except Exn (Reply request) × World
  | .defer _ => (.ok (), world)
  | .send embed ephemeral => (.ok (), world.reply embed ephemeral)
  | .latestJobForUser userId =>
      (.ok (Jobs.latestJobForUser world.index moment.now userId), world)
  | .getJobMeta taskId => (.ok (Jobs.getJobMeta world.index moment.now taskId), world)
  | .isCancelled taskId => (.ok (world.flags taskId), world)
  | .isReady taskId => (.ok (world.ready taskId), world)
  | .getProgress taskId => (.ok (world.progress taskId), world)
  | .requestCancellation taskId =>
      (.ok (), { world with
        flags := Function.update world.flags taskId true
        notices := world.notices ++ [taskId] })
  | .refund guildId => (.ok (), world.refunded moment guildId)

end DownloaderBot.JobsCog
