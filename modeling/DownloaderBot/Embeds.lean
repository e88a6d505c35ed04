import DownloaderBot.Core.Floats

/-!
# Embeds

The messages a job ends with, the replies to commands, and what `/status` shows of a
job.  The time stamp every embed carries is left out.
-/

namespace DownloaderBot.Embeds

open DownloaderBot.Floats

inductive Colour
  | green
  | red
  | blurple
  deriving DecidableEq, Repr

structure Field where
  name : String
  value : String
  isInline : Bool
  deriving DecidableEq, Repr

structure Embed where
  title : String
  description : Option String
  colour : Colour
  author : String := "Downloader Bot"
  fields : List Field := []
  footer : Option String := none
  deriving DecidableEq, Repr

def success (title : String) (description : Option String) : Embed :=
  { title, description, colour := .green }

def error (title : String) (description : Option String) : Embed :=
  { title, description, colour := .red }

def info (title : String) (description : Option String) : Embed :=
  { title, description, colour := .blurple }

/-- The link to the archive. -/
def mediaDownload (signedUrl : String) (requesterId : ℕ) : Embed :=
  { success "Channel Media Download"
      (some ("[Download channel media](" ++ signedUrl ++ ")")) with
    footer := some ("Requested by <@" ++ toString requesterId ++ "> | Job ()") }

/-- The notice that there was nothing to archive. -/
def noAttachments (requesterId : ℕ) : Embed :=
  { error "No media found"
      (some ("This channel has no attachments to archive — either it's empty, " ++
        "the messages contain no files, or the server's allowed media-type " ++
        "filter excluded everything.")) with
    footer := some ("Requested by <@" ++ toString requesterId ++ ">") }

/-! ## Replies to commands -/

/-- The acknowledgement of a queued job. -/
def jobEnqueued (taskId : String) (dmMe : Bool) : Embed :=
  { info "Download queued" (some
      (if dmMe then
        "Your download has been queued. The result will be sent to " ++
          "you via DM once it's ready."
      else "Your download has been queued. You'll be notified once it's ready.")) with
    footer := some ("Job " ++ taskId) }

/-- The footer of the embeds that go to those who may act on the job. -/
def jobFooter (taskId : String) (requesterId : ℕ) : String :=
  "Job " ++ taskId ++ " • requested by <@" ++ toString requesterId ++ ">"

/-- The confirmation of `/cancel`. -/
def jobCancelled (taskId : String) (requesterId : ℕ) : Embed :=
  { error "Cancellation requested"
      (some "The worker will stop and clean up any partial archive.") with
    footer := some (jobFooter taskId requesterId) }

/-- A job that is missing and one that is not the caller's look the same; only an
omitted id makes a difference. -/
def jobNotFound (taskId : Option String) : Embed :=
  match taskId with
  | none =>
      error "No active jobs" (some "You don't have any active downloads to look at.")
  | some _ =>
      error "Job not found"
        (some ("That job doesn't exist, has already finished, or you don't have " ++
          "access to it."))

/-! ## The status of a job -/

/-- `{value:.1f}` of a number from zero on, which is rounded exactly. -/
def oneDecimal (value : ℚ) : String :=
  let tenths := (nearest (10 * value)).toNat
  toString (tenths / 10) ++ "." ++ toString (tenths % 10)

/-- `n / unit`, the double that is nearest to the quotient. -/
def quotient (n unit : ℕ) : ℚ := double.round ((n : ℚ) / unit)

/-- `_humanise_bytes`. -/
def humaniseBytes (n : ℕ) : String :=
  if 1024 * 1024 * 1024 ≤ n then oneDecimal (quotient n (1024 * 1024 * 1024)) ++ " GB"
  else if 1024 * 1024 ≤ n then oneDecimal (quotient n (1024 * 1024)) ++ " MB"
  else if 1024 ≤ n then oneDecimal (quotient n 1024) ++ " KB"
  else toString n ++ " bytes"

/-- `int(value)` drops the fraction. -/
def truncate (value : ℚ) : ℤ := value.num.tdiv value.den

inductive JobPhase
  | pickedUp
  | queued
  | stream
  | deliver
  | done
  | cancelled
  deriving DecidableEq, Repr

def jobPhaseLabel : JobPhase → String
  | .pickedUp => "Worker picked it up — starting"
  | .queued => "Queued (waiting for a worker)"
  | .stream => "Streaming attachments"
  | .deliver => "Uploading & delivering"
  | .done => "Delivered"
  | .cancelled => "Cancelled"

/-- What may be known of a job besides its phase. -/
structure JobDetails where
  attachmentsDone : Option ℕ := none
  bytesStreamed : Option ℕ := none
  historyFraction : Option ℚ := none
  heartbeatAgeSeconds : Option ℚ := none
  deriving DecidableEq, Repr

def heartbeatField (ageSeconds : ℚ) : Field :=
  ⟨"Heartbeat", toString (truncate ageSeconds) ++ "s ago", true⟩

/-- The product is rounded before it is truncated: `0.15`, which is stored as a little less,
is shown as 15 %. -/
def positionField (historyFraction : ℚ) : Field :=
  ⟨"Position", "~" ++ toString (truncate (double.round (historyFraction * 100))) ++
    "% through channel history", true⟩

def tallyField (attachmentsDone bytesStreamed : ℕ) : Field :=
  ⟨"Tally", toString attachmentsDone ++ " attachments, " ++
    humaniseBytes bytesStreamed, true⟩

def jobStatus (taskId : String) (phase : JobPhase) (requesterId : ℕ)
    (details : JobDetails) : Embed :=
  let embed :=
    match phase with
    | .cancelled => error "Job cancelled" none
    | .done => success "Job delivered" none
    | _ => info "Job status" none
  { embed with
    fields := ⟨"Phase", jobPhaseLabel phase, false⟩ ::
      (details.heartbeatAgeSeconds.map heartbeatField).toList ++
      (details.historyFraction.map positionField).toList ++
      (details.attachmentsDone.map
        (tallyField · (details.bytesStreamed.getD 0))).toList
    footer := some ("Job " ++ taskId ++ " • requested by <@" ++
      toString requesterId ++ ">") }

/-- The embed says that the job is delivered. -/
def Embed.Delivered (embed : Embed) : Prop :=
  ⟨"Phase", "Delivered", false⟩ ∈ embed.fields

instance (embed : Embed) : Decidable embed.Delivered :=
  inferInstanceAs (Decidable (_ ∈ embed.fields))

/-- The labels tell the phases apart, and no other field is a phase. -/
theorem delivered_jobStatus {taskId : String} {phase : JobPhase}
    {requesterId : ℕ} {details : JobDetails} :
    (jobStatus taskId phase requesterId details).Delivered ↔ phase = .done := by
  have hlabel : "Delivered" = jobPhaseLabel phase ↔ phase = .done := by
    cases phase <;> decide
  simp [Embed.Delivered, jobStatus, heartbeatField, positionField, tallyField,
    hlabel]

end DownloaderBot.Embeds
