import DownloaderBot.Cogs.StatusRuns
import DownloaderBot.Core.Protocol

/-!
# The phase that `/status` shows

What is shown of a job at work is what the job is doing: an attempt reports each phase
before the calls that belong to it, and the phases in their order.
-/

namespace DownloaderBot.StatusRuns

open DownloaderBot.Attempts (running_of_begin running_of_succeed running_of_fail
  running_of_finish running_of_stop)
open DownloaderBot.Embeds
open DownloaderBot.Program
open DownloaderBot.Tasks
open DownloaderBot.TransitionSystem

/-! ## The phases of an attempt -/

/-- The phase that a call belongs to. -/
def activity : Call → Option Phase
  | .uploadAndSign _ | .deleteBlob _ | .cacheArchiveUrl .. => some .stream
  | .fetchUser _ | .send .. | .markDelivered _ => some .deliver
  | .forgetJob _ => some .done
  | .setProgress _ | .getSettings _ | .getCachedArchiveUrl | .fetchChannel _
  | .isDelivered => none

def order : Phase → ℕ
  | .pickedUp => 0
  | .stream => 1
  | .deliver => 2
  | .done => 3

/-- A call that makes no report and is of no other phase. -/
def within (phase : Phase) : Call → Bool
  | .setProgress _ => false
  | request => (activity request).all (· = phase)

/-- The report takes the attempt on; the first one is that it was picked up. -/
def onward : Option Phase → Phase → Bool
  | none, phase => phase = .pickedUp
  | some earlier, phase => order earlier < order phase

/-- With the phase reported last, the call is due. -/
def due (reported : Option Phase) : Call → Bool
  | .setProgress phase => onward reported phase
  | request => reported.any fun phase => within phase request

/-- The phase reported last once a call has come to its outcome. -/
def reportedAfter (reported : Option Phase) (request : Call)
    (outcome : Except Exn (Reply request)) : Option Phase :=
  match request with
  | .setProgress phase => if outcome.isOk then some phase else reported
  | _ => reported

/-- The mode is the phase that the attempt has reported last. -/
def phaseProtocol : Protocol (Option Phase) Reply Exn := fun reported request outcome =>
  if due reported request then some (reportedAfter reported request outcome) else none

/-- A part that returns has reported nothing from `phase` on. -/
def Short {α : Type} (phase : Phase) (reported : Option Phase) : Except Exn α → Prop
  | .ok _ => ∃ earlier, reported = some earlier ∧ order earlier < order phase
  | .error _ => True

section Attempt

variable {phase : Phase} {reported : Option Phase} {α : Type}

/-- Calls within a phase leave it reported. -/
theorem phaseProtocol_within (request : Call) (hwithin : within phase request = true)
    (outcome : Except Exn (Reply request)) :
    phaseProtocol (some phase) request outcome = some (some phase) := by
  cases request with
  | setProgress reported => cases hwithin
  | _ => exact if_pos hwithin

theorem follows_within {program : Tasks.Task α} (honly : program.Only (within phase ·)) :
    program.Follows phaseProtocol (fun last _ => last = some phase) (some phase) :=
  honly.follows phaseProtocol_within

theorem within_perform {request : Call} (hrequest : within phase request = true) :
    (await request).Only (within phase ·) :=
  Prog.only_perform hrequest

/-- A report and what comes after it. -/
theorem follows_report {rest : Unit → Tasks.Task α} {post : Option Phase → Except Exn α → Prop}
    (honward : onward reported phase = true)
    (herror : ∀ exception, post reported (.error exception))
    (hrest : (rest ()).Follows phaseProtocol post (some phase)) :
    ((await (.setProgress phase)).bind rest).Follows phaseProtocol post reported := by
  apply Prog.follows_bind
  apply Prog.follows_perform
  intro outcome
  cases outcome with
  | ok _ => exact ⟨some phase, if_pos honward, hrest⟩
  | error exception => exact ⟨reported, if_pos honward, herror exception⟩

/-- A part within the phase and what comes after it. -/
theorem follows_bind_within {β : Type} {program : Tasks.Task α} {rest : α → Tasks.Task β}
    {post : Option Phase → Except Exn β → Prop} (honly : program.Only (within phase ·))
    (herror : ∀ exception, post (some phase) (.error exception))
    (hrest : ∀ value, (rest value).Follows phaseProtocol post (some phase)) :
    (program.bind rest).Follows phaseProtocol post (some phase) := by
  apply Prog.follows_bind
  apply (follows_within honly).mono
  rintro last outcome rfl
  cases outcome with
  | ok value => exact hrest value
  | error exception => exact herror exception

/-- A part that stops short of a phase, and what comes after it. -/
theorem follows_bind_short {β : Type} {program : Tasks.Task α} {rest : α → Tasks.Task β}
    {post : Option Phase → Except Exn β → Prop}
    (hshort : program.Follows phaseProtocol (Short phase) reported)
    (herror : ∀ last exception, post last (.error exception))
    (hrest : ∀ earlier value, order earlier < order phase →
      (rest value).Follows phaseProtocol post (some earlier)) :
    (program.bind rest).Follows phaseProtocol post reported := by
  apply Prog.follows_bind
  apply hshort.mono
  intro last outcome hlast
  cases outcome with
  | ok value =>
      obtain ⟨earlier, rfl, hearlier⟩ := hlast
      exact hrest earlier value hearlier
  | error exception => exact herror last exception

theorem within_resolveSettings (arguments : Arguments) :
    (resolveSettings arguments).Only (within phase ·) := by
  rw [resolveSettings]
  split
  · split
    · trivial
    · exact within_perform rfl
  · trivial

theorem within_upload (request : UploadRequest) (name : String) :
    ((uploadOrEmpty request).tryFinally (cleanUp name)).Only (within .stream ·) := by
  have hdelete : ((await (.deleteBlob name)).tryExcept (· = .uploadError)
      fun _ => pure ()).Only (within .stream ·) :=
    (within_perform rfl).tryExcept fun _ => trivial
  apply Prog.Only.tryFinally
  · apply Prog.Only.tryExcept
    · exact (within_perform rfl).bind fun _ => trivial
    · exact fun _ => trivial
  · intro outcome
    match outcome with
    | .ok (_, false) => trivial
    | .ok (_, true) => exact hdelete
    | .error _ => exact hdelete

theorem within_dmUser (userId : ℕ) (embed : Embed) :
    (dmUser userId embed).Only (within .deliver ·) := by
  apply (within_perform rfl).bind
  intro _
  exact (within_perform rfl).tryExcept fun _ => trivial

theorem within_postToChannel (channelId userId : ℕ) (embed : Embed) :
    (postToChannel channelId embed userId).Only (within .deliver ·) := by
  apply Prog.Only.tryExcept
  · apply (within_perform rfl).bind
    intro channel
    split
    · trivial
    · exact within_perform rfl
  · exact fun _ => within_dmUser userId embed

/-- Phase 1 reports `stream` once it has the channel. -/
theorem follows_uploadPhase (arguments : Arguments) (clock : Clock)
    (guildSettings : GuildSettings) (ttl : Calendar.TimeDelta) (ttlSeconds : ℤ) :
    (uploadPhase arguments clock guildSettings ttl ttlSeconds).Follows phaseProtocol
      (Short .deliver) (some .pickedUp) := by
  apply follows_bind_within (within_perform rfl) fun _ => trivial
  intro channel
  dsimp only
  split
  · exact Prog.follows_raise trivial
  · apply follows_report rfl fun _ => trivial
    apply Prog.follows_bind
    apply Prog.follows_ofExcept
    split
    case h_2 => trivial
    case h_1 resolved _ =>
      apply follows_bind_within (within_upload _ _) fun _ => trivial
      intro archived
      apply follows_bind_within (within_perform rfl) fun _ => trivial
      intro _
      exact Prog.follows_ret ⟨.stream, rfl, by decide⟩

theorem follows_reuseOrUpload (arguments : Arguments) (clock : Clock)
    (guildSettings : GuildSettings) (ttl : Calendar.TimeDelta) (ttlSeconds : ℤ)
    (cached : Option String) :
    (reuseOrUpload arguments clock guildSettings ttl ttlSeconds cached).Follows phaseProtocol
      (Short .deliver) (some .pickedUp) := by
  cases cached with
  | none => exact follows_uploadPhase arguments clock guildSettings ttl ttlSeconds
  | some url => exact Prog.follows_ret ⟨.pickedUp, rfl, by decide⟩

/-- Phase 2 reports `deliver` before anything else. -/
theorem follows_deliverOnce {earlier : Phase} (arguments : Arguments)
    (guildSettings : GuildSettings) (mode : DeliveryMode) (url : String) (ttlSeconds : ℤ)
    (delivered : Bool) (hearlier : order earlier < order .deliver) :
    (deliverOnce arguments guildSettings mode url ttlSeconds delivered).Follows phaseProtocol
      (Short .done) (some earlier) := by
  rw [deliverOnce]
  split
  · exact Prog.follows_ret ⟨earlier, rfl, hearlier.trans (by decide)⟩
  · have honward : onward (some earlier) .deliver = true := decide_eq_true hearlier
    apply follows_report honward fun _ => trivial
    have hmark : (await (.markDelivered ttlSeconds)).Follows phaseProtocol (Short .done)
        (some .deliver) := by
      apply (follows_within (within_perform rfl)).mono
      rintro last outcome rfl
      cases outcome with
      | ok _ => exact ⟨.deliver, rfl, by decide⟩
      | error exception => trivial
    dsimp only
    split
    · exact follows_bind_within (within_postToChannel _ _ _) (fun _ => trivial)
        fun _ => hmark
    · exact follows_bind_within (within_dmUser _ _) (fun _ => trivial) fun _ => hmark

/-- A whole attempt keeps to the phases. -/
theorem follows_phases (arguments : Arguments) (clock : Clock) :
    (downloadChannelMedia arguments clock).Follows phaseProtocol (fun _ _ => True) none := by
  apply follows_report rfl fun _ => trivial
  apply follows_bind_within (within_resolveSettings arguments) fun _ => trivial
  intro guildSettings
  apply Prog.follows_bind
  apply Prog.follows_ofExcept
  split
  case h_2 => trivial
  case h_1 ttl _ =>
    apply follows_bind_within (within_perform rfl) fun _ => trivial
    intro cached
    apply follows_bind_short (follows_reuseOrUpload arguments clock guildSettings ttl _ cached)
      fun _ _ => trivial
    intro earlier archiveUrl hearlier
    apply follows_bind_within (within_perform (by cases earlier <;> rfl)) fun _ => trivial
    intro delivered
    apply follows_bind_short (follows_deliverOnce arguments guildSettings _ archiveUrl _
      delivered hearlier) fun _ _ => trivial
    intro latest _ hlatest
    have honward : onward (some latest) .done = true := decide_eq_true hlatest
    apply follows_report honward fun _ => trivial
    have hforget : (forgetFinished arguments.userId).Only (within .done ·) :=
      (within_perform rfl).tryExcept fun _ => trivial
    exact follows_bind_within hforget (fun _ => trivial) fun _ => Prog.follows_ret trivial

end Attempt

/-! ## What is shown -/

/-- What is held of a job at work tells what its attempt is at: the phase of its pending
call, nothing before the first report, and with the next report an earlier phase. -/
structure Truthful (state : State) : Prop where
  shown : ∀ request ∈ state.attempts.pending, ∀ phase ∈ activity request,
    state.progress = some phase
  queued : state.progress = none →
    ∀ request ∈ state.attempts.pending, request = .setProgress .pickedUp
  forward : ∀ phase, state.attempts.pending = some (.setProgress phase) →
    phase = .pickedUp ∨ ∃ earlier ∈ state.progress, order earlier < order phase

/-- The key of the progress runs out. -/
def Label.dropsProgress : Label → Bool
  | .dropProgress => true
  | _ => false

def KeepsProgress (_ : State) (label : Label) : Prop := label.dropsProgress = false

instance (state : State) (label : Label) : Decidable (KeepsProgress state label) :=
  inferInstanceAs (Decidable (_ = false))

/-- What is left of the attempt keeps to the phases from the one it has reported. -/
def Phased (state : State) : Prop :=
  ∀ program ∈ state.attempts.running, ∃ reported,
    program.Follows phaseProtocol (fun _ _ => True) reported ∧
      ∀ phase ∈ reported, state.progress = some phase

section Shown

variable {arguments : Arguments} {maxRetries : ℕ} {state next : State} {label : Label}

/-- The pending call is due, and its outcome leaves the rest in the phase then reported. -/
theorem follows_call {reported : Option Phase} {request : Call}
    {rest : Except Exn (Reply request) → Tasks.Task DownloadResult}
    (hfollows : (Prog.call request rest).Follows phaseProtocol (fun _ _ => True) reported)
    (outcome : Except Exn (Reply request)) :
    due reported request = true ∧
      (rest outcome).Follows phaseProtocol (fun _ _ => True)
        (reportedAfter reported request outcome) := by
  have hnext := hfollows.2 outcome _ rfl
  by_cases hdue : due reported request = true
  · rw [Option.bind_some, phaseProtocol, if_pos hdue] at hnext
    exact ⟨hdue, hnext⟩
  · rw [Option.bind_some, phaseProtocol, if_neg hdue] at hnext
    have hbroken : (none : Option (Option Phase)).isSome = true := by
      apply hnext.invariant
      rintro _ ended ⟨last, rfl, -⟩
      rfl
    cases hbroken

theorem Phased.frame (hphased : Phased state) (hattempts : next.attempts = state.attempts)
    (hprogress : next.progress = state.progress) : Phased next := by
  rw [Phased, hattempts, hprogress]
  exact hphased

theorem phased_of_over (hover : state.attempts.running = none) : Phased state := by
  rw [Phased, hover]
  exact nofun

/-- An attempt has reported nothing when it begins. -/
theorem Phased.pickUp (hphased : Phased state) {clock : Clock}
    (hstep : step arguments maxRetries state (.pickUp clock) = some next) : Phased next := by
  simp only [step] at hstep
  split at hstep
  case h_2 => cases hstep
  case h_1 =>
    split at hstep
    case isTrue =>
      obtain rfl := Option.some.inj hstep
      exact hphased.frame rfl rfl
    case isFalse =>
      obtain ⟨after, hbegin, rfl⟩ := Option.map_eq_some_iff.mp hstep
      intro program hprogram
      obtain rfl := Option.some.inj ((running_of_begin hbegin).symm.trans hprogram)
      exact ⟨none, follows_phases arguments clock, fun phase hphase => by cases hphase⟩

theorem Phased.succeed (hphased : Phased state) {proposed : (request : Call) → Reply request}
    (hstep : step arguments maxRetries state (.succeed proposed) = some next) :
    Phased next := by
  obtain ⟨after, hafter, rfl⟩ := Option.map_eq_some_iff.mp hstep
  obtain ⟨request, rest, reply, hrunning, hnext⟩ := running_of_succeed hafter
  obtain ⟨reported, hfollows, hheld⟩ := hphased _ hrunning
  intro program hprogram
  obtain rfl := Option.some.inj (hnext.symm.trans hprogram)
  refine ⟨_, (follows_call hfollows _).2, fun phase hphase => ?_⟩
  obtain ⟨⟨log, running⟩, worker, retries, flag, result, progress, jobMeta, status⟩ := state
  obtain rfl : running = some (.call request rest) := hrunning
  cases request with
  | setProgress shown => exact hphase
  | _ => exact hheld phase hphase

/-- A report that fails is not held. -/
theorem Phased.fail (hphased : Phased state) {exception : Exn}
    (hstep : step arguments maxRetries state (.fail exception) = some next) :
    Phased next := by
  obtain ⟨after, hafter, rfl⟩ := Option.map_eq_some_iff.mp hstep
  obtain ⟨request, rest, hrunning, hnext⟩ := running_of_fail hafter
  obtain ⟨reported, hfollows, hheld⟩ := hphased _ hrunning
  intro program hprogram
  obtain rfl := Option.some.inj (hnext.symm.trans hprogram)
  refine ⟨_, (follows_call hfollows _).2, fun phase hphase => hheld phase ?_⟩
  cases request <;> exact hphase

theorem Phased.of_step (hphased : Phased state) (hkeeps : KeepsProgress state label)
    (hstep : step arguments maxRetries state label = some next) : Phased next := by
  cases label with
  | dropProgress => cases hkeeps
  | setFlag | record jobMeta | dropMeta | dropResult =>
      obtain rfl := Option.some.inj hstep
      exact hphased.frame rfl rfl
  | pickUp clock => exact hphased.pickUp hstep
  | succeed proposed => exact hphased.succeed hstep
  | fail exception => exact hphased.fail hstep
  | finish =>
      simp only [step] at hstep
      split at hstep
      case h_2 => cases hstep
      case h_1 outcome _ =>
        obtain ⟨after, hafter, rfl⟩ := Option.map_eq_some_iff.mp hstep
        exact phased_of_over (running_of_finish hafter)
  | stop =>
      obtain ⟨after, hafter, rfl⟩ := Option.map_eq_some_iff.mp hstep
      exact phased_of_over (running_of_stop hafter)
  | settle =>
      simp only [step] at hstep
      split at hstep
      case h_2 => cases hstep
      case h_1 outcome _ =>
        split at hstep <;>
          · obtain rfl := Option.some.inj hstep
            exact hphased.frame rfl rfl
  | resolve invocation caller =>
      simp only [step] at hstep
      split at hstep
      case h_2 => cases hstep
      case h_1 =>
        obtain ⟨-, hnext⟩ := Option.ite_none_right_eq_some.mp hstep
        obtain rfl := Option.some.inj hnext
        exact hphased.frame rfl rfl
  | readFlag invocation | readReady invocation | readProgress invocation details =>
      simp only [step] at hstep
      split at hstep
      case h_2 => cases hstep
      case h_1 =>
        obtain rfl := Option.some.inj hstep
        exact hphased.frame rfl rfl

theorem phased_of_reaches (hrun : Reaches (step arguments maxRetries) KeepsProgress start
    state) : Phased state :=
  hrun.invariant (phased_of_over rfl)
    fun _ _ _ hphased hkeeps hstep => hphased.of_step hkeeps hstep

theorem eq_of_due {reported : Option Phase} {request : Call} {phase : Phase}
    (hdue : due reported request = true) (hactivity : activity request = some phase) :
    reported = some phase := by
  cases reported with
  | none => cases request <;> first | cases hdue | cases hactivity
  | some earlier =>
      cases request <;> simp_all [due, within, activity]

theorem setProgress_of_due {request : Call} (hdue : due none request = true) :
    request = .setProgress .pickedUp := by
  cases request with
  | setProgress phase => exact congrArg Call.setProgress (of_decide_eq_true hdue)
  | _ => cases hdue

/-- The phase reported last is held, and the pending call is due with it. -/
theorem Phased.due_pending (hphased : Phased state) {request : Call}
    (hpending : state.attempts.pending = some request) :
    ∃ reported, due reported request = true ∧
      ∀ phase ∈ reported, state.progress = some phase := by
  simp only [Attempts.State.pending] at hpending
  split at hpending
  case h_2 => cases hpending
  case h_1 pending rest hrunning =>
    obtain rfl := Option.some.inj hpending
    obtain ⟨reported, hfollows, hheld⟩ := hphased _ hrunning
    exact ⟨reported, (follows_call hfollows (.error .other)).1, hheld⟩

theorem Phased.truthful (hphased : Phased state) : Truthful state where
  shown request hrequest phase hactivity := by
    obtain ⟨reported, hdue, hheld⟩ := hphased.due_pending hrequest
    exact hheld phase (eq_of_due hdue hactivity)
  queued hnone request hrequest := by
    obtain ⟨reported, hdue, hheld⟩ := hphased.due_pending hrequest
    cases reported with
    | none => exact setProgress_of_due hdue
    | some phase => cases hnone.symm.trans (hheld phase rfl)
  forward phase hrequest := by
    obtain ⟨reported, hdue, hheld⟩ := hphased.due_pending hrequest
    cases reported with
    | none => exact .inl (of_decide_eq_true hdue)
    | some earlier => exact .inr ⟨earlier, hheld earlier rfl, of_decide_eq_true hdue⟩

/-- As long as the key of the progress is kept, what is held of a job at work is true of
it at every moment, and a `/status` that reads it while the attempt is at a call of a
phase shows that phase. -/
theorem shows_activity (arguments : Arguments) (maxRetries : ℕ) {state : State}
    (hrun : Reaches (step arguments maxRetries) KeepsProgress start state) :
    Truthful state ∧
      ∀ request ∈ state.attempts.pending, ∀ phase ∈ activity request,
        ∀ invocation details next,
          step arguments maxRetries state (.readProgress invocation details) = some next →
            ∃ requesterId, next.status invocation =
              .replied (jobStatus arguments.taskId (shownPhase phase) requesterId details) := by
  have htruthful := (phased_of_reaches hrun).truthful
  refine ⟨htruthful, fun request hrequest phase hphase invocation details next hstep => ?_⟩
  have hprogress := htruthful.shown request hrequest phase hphase
  simp only [step, hprogress] at hstep
  split at hstep
  case h_2 => cases hstep
  case h_1 jobMeta _ =>
    obtain rfl := Option.some.inj hstep
    exact ⟨jobMeta.ownerUserId, by simp [State.moveStatus]⟩

/-- The requester asks while the archive is being uploaded. -/
def asksUploading : List Label :=
  [.record ⟨7, none, 3, "", false⟩, .pickUp inMay] ++ List.replicate 4 (.succeed obliging) ++
    [.resolve 0 ⟨7, false, none⟩, .readFlag 0, .readReady 0]

def uploading : State := (replay (step inDirectMessage 3) start asksUploading).getD start

theorem shows_activity_uploading :
    ∃ next requesterId,
      step inDirectMessage 3 uploading (.readProgress 0 {}) = some next ∧
      next.status 0 = .replied (jobStatus "a" .stream requesterId {}) := by
  have hreplay : replay (step inDirectMessage 3) start asksUploading = some uploading := by
    rfl
  have hkeeps : ∀ label ∈ asksUploading, label.dropsProgress = false := by
    decide
  have hrun : Reaches (step inDirectMessage 3) KeepsProgress start uploading :=
    reaches_of_replay (fun label hlabel _ => hkeeps label hlabel) hreplay
  obtain ⟨request, hpending⟩ :
      ∃ request, uploading.attempts.pending = some (.uploadAndSign request) := ⟨_, rfl⟩
  obtain ⟨next, hnext⟩ :
      ∃ next, step inDirectMessage 3 uploading (.readProgress 0 {}) = some next := ⟨_, rfl⟩
  obtain ⟨requesterId, hreply⟩ :=
    (shows_activity inDirectMessage 3 hrun).2 _ hpending .stream rfl 0 {} next hnext
  exact ⟨next, requesterId, hnext, hreply⟩

end Shown

end DownloaderBot.StatusRuns
