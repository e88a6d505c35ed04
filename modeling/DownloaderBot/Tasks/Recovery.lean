import DownloaderBot.Download.FilterBounds
import DownloaderBot.Tasks.DownloadRuns

/-!
# What an attempt survives

An attempt after any others, which may have failed or stopped anywhere: it returns if and
only if its calls come to what the task is built to survive, and then it has done just
what the earlier ones had left to do.
-/

namespace DownloaderBot.Tasks

open DownloaderBot.Attempts
open DownloaderBot.Calendar
open DownloaderBot.Embeds
open DownloaderBot.Filters
open DownloaderBot.Program
open DownloaderBot.TransitionSystem

/-! ## What the task is built to survive -/

/-- What `post_to_channel` falls back from. -/
abbrev fallsBack (exception : Exn) : Prop := exception ∈ [.notFound, .forbidden, .typeError]

/-- The task gets over it: the channel to archive is there, the settings can be used, and
what raises is caught.  Once the archive is cached only the results channel is fetched. -/
def Survivable (history : History) :
    (request : Call) → Except Exn (Reply request) → Prop
  | .getSettings _, .ok settings =>
      ∃ ttl, timedeltaHours settings.retentionHours = .ok ttl
  | .fetchChannel _, .ok channel =>
      history.world.archiveUrl = none → channel.messageable = true
  | .fetchChannel _, .error exception =>
      history.world.archiveUrl ≠ none ∧ fallsBack exception
  | .uploadAndSign _, .error exception => exception = .noMatchingAttachments
  | .deleteBlob _, .error exception => exception = .uploadError
  | .send (.channel _) _, .error exception => fallsBack exception
  | .forgetJob _, .error exception => exception.isException = true
  | _, .ok _ => True
  | _, .error _ => False

/-- The filters of the task can be resolved, where they are needed. -/
def Resolvable (arguments : Arguments) (clock : Clock) (history : History) : Prop :=
  history.world.archiveUrl = none →
    ∃ bounds, resolveBounds (arguments.filters.getD {}) clock.now = .ok bounds

/-- After an attempt that returned: the archive is cached, the job is marked and its end
reported; the attempt has uploaded only if there was no archive before, and sent one embed
only if there was no mark. -/
structure Recovered (before after : History) (result : DownloadResult) : Prop where
  cached : after.world.archiveUrl = some result.url
  reused : ∀ url ∈ before.world.archiveUrl, result.url = url
  delivered : after.world.delivered = true
  done : after.world.progress = some .done
  uploads : after.current.countP uploads = if before.world.archiveUrl = none then 1 else 0
  sends : after.current.countP sends = if before.world.delivered then 0 else 1

/-! ## What the calls do -/

/-- What the keys say of the archive and of the notification, and how often the attempt
has uploaded and sent. -/
structure Stands (archiveUrl : Option String) (delivered : Bool) (uploaded sent : ℕ)
    (history : History) : Prop where
  archiveUrl : history.world.archiveUrl = archiveUrl
  delivered : history.world.delivered = delivered
  uploaded : history.current.countP uploads = uploaded
  sent : history.current.countP sends = sent

/-- The calls that leave that as it is. -/
def idle : Call → Bool
  | .uploadAndSign _ | .cacheArchiveUrl .. | .send .. | .markDelivered _ => false
  | _ => true

/-- The calls of which only the success is survived, and any success is. -/
def strict : Call → Bool
  | .setProgress _ | .getCachedArchiveUrl | .cacheArchiveUrl .. | .isDelivered | .fetchUser _
  | .send (.user _) _ | .markDelivered _ => true
  | _ => false

abbrev Judging := Judged Keys Call Exn DownloadResult

/-- A part of the task returns as told if its calls have come to what is survived, and
else raises. -/
def Returns {α : Type} (normally : α → History → Prop) (after : Judging) :
    Except Exn α → Prop
  | .ok value => after.intact ∧ normally value after.log
  | .error _ => ¬ after.intact

/-- From `world`, it does. -/
def Completes {α : Type} (program : Task α) (normally : α → History → Prop)
    (world : Judging) : Prop :=
  program.Holds (ServesJudged service Survivable) (fun _ => True) (Returns normally) world

section Calls

variable {archiveUrl : Option String} {delivered : Bool} {uploaded sent : ℕ}
variable {history after : History} {world : Judging}

theorem Stands.of_idle {request : Call} (hstands : Stands archiveUrl delivered uploaded sent
    history) (hidle : idle request = true) {outcome : Except Exn (Reply request)}
    (hserves : Serves service history request outcome after) :
    Stands archiveUrl delivered uploaded sent after := by
  obtain ⟨harchive, hdelivered, huploaded, hsent⟩ := hstands
  cases outcome with
  | ok reply =>
      obtain ⟨-, rfl⟩ := hserves
      cases request <;> first
        | exact ⟨harchive, hdelivered, by simpa [Log.serve, uploads] using huploaded,
            by simpa [Log.serve, sends] using hsent⟩
        | cases hidle
  | error exception =>
      obtain rfl : after = history.record (.failed request exception) := hserves
      cases request <;> first
        | exact ⟨harchive, hdelivered, by simpa [Log.record, uploads] using huploaded,
            by simpa [Log.record, sends] using hsent⟩
        | cases hidle

theorem serves_ok (history : History) (request : Call) (proposed : Reply request) :
    Serves service history request (.ok (service.answer history.world request proposed))
      (history.serve service request) :=
  ⟨⟨proposed, rfl⟩, rfl⟩

theorem survivable_of_strict {request : Call} (hstrict : strict request = true)
    (outcome : Except Exn (Reply request)) :
    Survivable history request outcome ↔ ∃ reply, outcome = .ok reply := by
  cases outcome with
  | ok reply =>
      refine iff_of_true ?_ ⟨reply, rfl⟩
      match request, hstrict with
      | .setProgress _, _ | .getCachedArchiveUrl, _ | .cacheArchiveUrl .., _
      | .isDelivered, _ | .fetchUser _, _ | .send (.user _) _, _ | .markDelivered _, _ =>
          trivial
  | error exception =>
      refine iff_of_false ?_ nofun
      match request, hstrict with
      | .setProgress _, _ | .getCachedArchiveUrl, _ | .cacheArchiveUrl .., _
      | .isDelivered, _ | .fetchUser _, _ | .send (.user _) _, _ | .markDelivered _, _ =>
          exact id

theorem completes_bind {α β : Type} {program : Task α} {rest : α → Task β}
    {first : α → History → Prop} {normally : β → History → Prop}
    (hprogram : Completes program first world)
    (hrest : ∀ value (later : Judging), later.intact → first value later.log →
      Completes (rest value) normally later) :
    Completes (program.bind rest) normally world := by
  refine Prog.holds_bind.mpr (hprogram.mono fun later outcome houtcome => ?_)
  cases outcome with
  | ok value => exact hrest value later houtcome.1 houtcome.2
  | error exception => exact houtcome

/-- A call that is survived if it succeeds: it returns as told by its effect. -/
theorem completes_strict {request : Call} {normally : Reply request → History → Prop}
    (hstrict : strict request = true) (hintact : world.intact)
    (hnormally : ∀ proposed,
      normally (service.answer world.log.world request proposed)
        (world.log.serve service request)) :
    Completes (await request) normally world := by
  refine Prog.holds_perform.mpr ⟨trivial, ?_⟩
  rintro outcome ⟨log, intact⟩ ⟨hserves, hjudged⟩
  cases outcome with
  | ok reply =>
      obtain ⟨⟨proposed, rfl⟩, rfl⟩ := hserves
      exact ⟨hjudged.mpr ⟨hintact, (survivable_of_strict hstrict _).mpr ⟨_, rfl⟩⟩,
        hnormally proposed⟩
  | error exception =>
      intro hlater
      obtain ⟨reply, hreply⟩ := (survivable_of_strict hstrict _).mp (hjudged.mp hlater).2
      cases hreply

/-- A call that is no upload and no send, and its judgement. -/
theorem holds_idle {request : Call} (hidle : idle request = true)
    (hstands : Stands archiveUrl delivered uploaded sent world.log) (hintact : world.intact) :
    (await request).Holds (ServesJudged service Survivable) (fun _ => True)
      (fun after outcome => Stands archiveUrl delivered uploaded sent after.log ∧
        (after.intact ↔ Survivable world.log request outcome)) world := by
  refine Prog.holds_perform.mpr ⟨trivial, fun outcome after hserves => ?_⟩
  exact ⟨hstands.of_idle hidle hserves.1, hserves.2.trans (and_iff_right hintact)⟩

/-- A report or a lookup. -/
theorem completes_idle {request : Call} (hstrict : strict request = true)
    (hidle : idle request = true)
    (hstands : Stands archiveUrl delivered uploaded sent world.log) (hintact : world.intact) :
    Completes (await request)
      (fun reply after =>
        (∃ proposed, reply = service.answer world.log.world request proposed) ∧
          Stands archiveUrl delivered uploaded sent after) world := by
  refine completes_strict hstrict hintact fun proposed => ⟨⟨proposed, rfl⟩, ?_⟩
  exact hstands.of_idle hidle (serves_ok _ _ proposed)

end Calls

/-! ## The phases -/

section Phases

variable {archiveUrl : Option String} {delivered : Bool} {uploaded sent : ℕ}
variable {world : Judging}

theorem completes_uploadOrEmpty (request : UploadRequest)
    (hstands : Stands archiveUrl delivered 0 sent world.log) (hintact : world.intact) :
    Completes (uploadOrEmpty request)
      (fun _ after => Stands archiveUrl delivered 1 sent after) world := by
  refine Prog.holds_tryExcept (Prog.holds_bind.mpr (Prog.holds_perform.mpr ⟨trivial, ?_⟩))
  rintro outcome ⟨log, intact⟩ ⟨hserves, hjudged⟩
  obtain ⟨harchive, hdelivered, huploaded, hsent⟩ := hstands
  cases outcome with
  | ok url =>
      obtain ⟨-, rfl⟩ := hserves
      refine ⟨hjudged.mpr ⟨hintact, trivial⟩, harchive, hdelivered, ?_, ?_⟩
      · simpa [Log.serve, uploads] using huploaded
      · simpa [Log.serve, sends] using hsent
  | error exception =>
      obtain rfl : log = world.log.record (.failed (.uploadAndSign request) exception) := hserves
      dsimp only
      split
      case isTrue hcaught =>
        have hempty : exception = .noMatchingAttachments := of_decide_eq_true hcaught
        refine ⟨hjudged.mpr ⟨hintact, hempty⟩, harchive, hdelivered, ?_, ?_⟩
        · simpa [Log.record, uploads] using huploaded
        · simpa [Log.record, sends] using hsent
      case isFalse hraised =>
        intro hlater
        have hcaught : exception = .noMatchingAttachments := (hjudged.mp hlater).2
        exact hraised (decide_eq_true hcaught)

/-- The cleanup of an empty channel. -/
theorem completes_delete (name : String)
    (hstands : Stands archiveUrl delivered uploaded sent world.log) (hintact : world.intact) :
    Completes ((await (.deleteBlob name)).tryExcept (· = .uploadError) fun _ => pure ())
      (fun _ after => Stands archiveUrl delivered uploaded sent after) world := by
  refine Prog.holds_tryExcept ((holds_idle rfl hstands hintact).mono ?_)
  rintro after outcome ⟨hafter, hjudged⟩
  cases outcome with
  | ok _ => exact ⟨hjudged.mpr trivial, hafter⟩
  | error exception =>
      dsimp only
      split
      case isTrue hcaught =>
        have hdocumented : exception = .uploadError := of_decide_eq_true hcaught
        exact ⟨hjudged.mpr hdocumented, hafter⟩
      case isFalse hraised =>
        intro hlater
        have hcaught : exception = .uploadError := hjudged.mp hlater
        exact hraised (decide_eq_true hcaught)

theorem completes_upload (request : UploadRequest) (name : String)
    (hstands : Stands archiveUrl delivered 0 sent world.log) (hintact : world.intact) :
    Completes ((uploadOrEmpty request).tryFinally (cleanUp name))
      (fun _ after => Stands archiveUrl delivered 1 sent after) world := by
  refine Prog.holds_tryFinally
    ((completes_uploadOrEmpty request hstands hintact).mono fun after outcome houtcome => ?_)
  match outcome with
  | .ok (_, false) => exact houtcome
  | .ok (_, true) =>
      refine (completes_delete name houtcome.2 houtcome.1).mono fun later cleaned hlater => ?_
      cases cleaned with
      | ok _ => exact hlater
      | error exception => exact hlater
  | .error exception =>
      refine (holds_of_not_intact _ houtcome).mono fun later cleaned hlater => ?_
      cases cleaned with
      | ok _ => exact hlater
      | error failure => exact hlater

/-- Phase 1, where nothing is cached. -/
theorem completes_uploadPhase (arguments : Arguments) (clock : Clock)
    (guildSettings : GuildSettings) (ttl : TimeDelta) (ttlSeconds : ℤ)
    (hbounds : ∃ bounds, resolveBounds (arguments.filters.getD {}) clock.now = .ok bounds)
    (hstands : Stands none delivered 0 sent world.log) (hintact : world.intact) :
    Completes (uploadPhase arguments clock guildSettings ttl ttlSeconds)
      (fun url after => Stands (some url) delivered 1 sent after) world := by
  refine Prog.holds_bind.mpr ((holds_idle rfl hstands hintact).mono ?_)
  rintro after outcome ⟨hafter, hjudged⟩
  cases outcome with
  | error exception => exact fun hlater => (hjudged.mp hlater).1 hstands.archiveUrl
  | ok channel =>
      cases hmessageable : channel.messageable with
      | false =>
          simp only [hmessageable]
          intro hlater
          have hthere := hjudged.mp hlater hstands.archiveUrl
          rw [hmessageable] at hthere
          cases hthere
      | true =>
          simp only [hmessageable]
          refine completes_bind (completes_idle rfl rfl hafter
            (hjudged.mpr fun _ => hmessageable)) ?_
          rintro _ after hintact ⟨-, hafter⟩
          obtain ⟨resolved, hresolve⟩ :=
            (exists_resolve_iff_exists_resolveBounds _ guildSettings _).mpr hbounds
          rw [hresolve]
          refine Prog.holds_bind.mpr (Prog.holds_ofExcept.mpr ?_)
          refine completes_bind (completes_upload _ _ hafter hintact)
            fun uploaded after hintact hafter => ?_
          refine completes_bind (completes_strict rfl hintact fun _ => ?_)
            fun _ after hintact hafter => ⟨hintact, hafter⟩
          obtain ⟨-, hdelivered, huploaded, hsent⟩ := hafter
          refine ⟨rfl, hdelivered, ?_, ?_⟩
          · simpa [Log.serve, uploads] using huploaded
          · simpa [Log.serve, sends] using hsent

theorem completes_reuseOrUpload (arguments : Arguments) (clock : Clock)
    (guildSettings : GuildSettings) (ttl : TimeDelta) (ttlSeconds : ℤ)
    (hbounds : archiveUrl = none →
      ∃ bounds, resolveBounds (arguments.filters.getD {}) clock.now = .ok bounds)
    (hstands : Stands archiveUrl delivered 0 0 world.log) (hintact : world.intact) :
    Completes (reuseOrUpload arguments clock guildSettings ttl ttlSeconds archiveUrl)
      (fun url after => (∀ cached ∈ archiveUrl, url = cached) ∧
        Stands (some url) delivered (if archiveUrl = none then 1 else 0) 0 after) world := by
  cases archiveUrl with
  | none =>
      refine (completes_uploadPhase arguments clock guildSettings ttl ttlSeconds (hbounds rfl)
        hstands hintact).mono fun after outcome houtcome => ?_
      cases outcome with
      | ok url => exact ⟨houtcome.1, nofun, houtcome.2⟩
      | error exception => exact houtcome
  | some url => exact ⟨hintact, fun cached hcached => Option.some.inj hcached, hstands⟩

/-- One embed more is out if the send succeeds. -/
theorem holds_sendOnce (destination : Destination) (embed : Embed)
    (hstands : Stands archiveUrl delivered uploaded sent world.log) (hintact : world.intact) :
    (await (.send destination embed)).Holds (ServesJudged service Survivable) (fun _ => True)
      (fun after outcome =>
        Stands archiveUrl delivered uploaded (if outcome.isOk then sent + 1 else sent)
          after.log ∧
        (after.intact ↔ Survivable world.log (.send destination embed) outcome)) world := by
  refine Prog.holds_perform.mpr ⟨trivial, ?_⟩
  rintro outcome ⟨log, intact⟩ ⟨hserves, hjudged⟩
  refine ⟨?_, hjudged.trans (and_iff_right hintact)⟩
  obtain ⟨harchive, hdelivered, huploaded, hsent⟩ := hstands
  cases outcome with
  | ok _ =>
      obtain ⟨-, rfl⟩ := hserves
      refine ⟨harchive, hdelivered, ?_, ?_⟩
      · simpa [Log.serve, uploads] using huploaded
      · simpa [Log.serve, sends, Except.isOk, Except.toBool] using hsent
  | error exception =>
      obtain rfl : log = world.log.record (.failed (.send destination embed) exception) :=
        hserves
      refine ⟨harchive, hdelivered, ?_, ?_⟩
      · simpa [Log.record, uploads] using huploaded
      · simpa [Log.record, sends, Except.isOk, Except.toBool] using hsent

theorem completes_dmUser (userId : ℕ) (embed : Embed)
    (hstands : Stands archiveUrl delivered uploaded sent world.log) (hintact : world.intact) :
    Completes (dmUser userId embed)
      (fun _ after => Stands archiveUrl delivered uploaded (sent + 1) after) world := by
  refine completes_bind (completes_idle rfl rfl hstands hintact) ?_
  rintro _ after hintact ⟨-, hafter⟩
  refine Prog.holds_tryExcept ((holds_sendOnce _ _ hafter hintact).mono ?_)
  rintro later outcome ⟨hlater, hjudged⟩
  cases outcome with
  | ok _ => exact ⟨hjudged.mpr trivial, hlater⟩
  | error exception =>
      have hspoilt : ¬ later.intact := hjudged.mp
      dsimp only
      split
      · exact hspoilt
      · exact hspoilt

/-- Whatever it falls back from, one embed is out in the end. -/
theorem completes_postToChannel {url : String} (channelId userId : ℕ) (embed : Embed)
    (hstands : Stands (some url) delivered uploaded sent world.log) (hintact : world.intact) :
    Completes (postToChannel channelId embed userId)
      (fun _ after => Stands (some url) delivered uploaded (sent + 1) after) world := by
  have hraised : ∀ exception (after : Judging),
      Stands (some url) delivered uploaded sent after.log →
      (after.intact ↔ fallsBack exception) →
      if decide (exception ∈ [Exn.notFound, .forbidden, .typeError]) = true then
        Completes (dmUser userId embed)
          (fun _ after => Stands (some url) delivered uploaded (sent + 1) after) after
      else ¬ after.intact := by
    intro exception after hafter hjudged
    split
    case isTrue hcaught =>
      exact completes_dmUser userId embed hafter (hjudged.mpr (of_decide_eq_true hcaught))
    case isFalse hraised => exact fun hlater => hraised (decide_eq_true (hjudged.mp hlater))
  refine Prog.holds_tryExcept (Prog.holds_bind.mpr ((holds_idle rfl hstands hintact).mono ?_))
  rintro after outcome ⟨hafter, hjudged⟩
  have hcached : world.log.world.archiveUrl ≠ none := by
    rw [hstands.archiveUrl]
    exact Option.some_ne_none url
  cases outcome with
  | error exception =>
      exact hraised exception after hafter (hjudged.trans (and_iff_right hcached))
  | ok channel =>
      have hintact : after.intact := hjudged.mpr fun hnone => absurd hnone hcached
      dsimp only
      split
      · have hfallsBack : fallsBack .typeError := by simp [fallsBack]
        exact hraised .typeError after hafter (iff_of_true hintact hfallsBack)
      · refine (holds_sendOnce _ _ hafter hintact).mono ?_
        rintro later sending ⟨hlater, hjudged⟩
        cases sending with
        | ok _ => exact ⟨hjudged.mpr trivial, hlater⟩
        | error exception => exact hraised exception later hlater hjudged

/-- Phase 2, where nothing is marked. -/
theorem completes_deliverPhase {url : String} (arguments : Arguments)
    (guildSettings : GuildSettings) (mode : DeliveryMode) (ttlSeconds : ℤ)
    (hstands : Stands (some url) false uploaded 0 world.log) (hintact : world.intact) :
    Completes (deliverPhase arguments guildSettings mode url ttlSeconds)
      (fun _ after => Stands (some url) true uploaded 1 after) world := by
  have hmark : ∀ after : Judging, after.intact → Stands (some url) false uploaded 1 after.log →
      Completes (await (.markDelivered ttlSeconds))
        (fun _ later => Stands (some url) true uploaded 1 later) after := by
    intro after hintact hafter
    obtain ⟨harchive, -, huploaded, hsent⟩ := hafter
    refine completes_strict rfl hintact fun _ => ⟨harchive, rfl, ?_, ?_⟩
    · simpa [Log.serve, uploads] using huploaded
    · simpa [Log.serve, sends] using hsent
  refine completes_bind (completes_idle rfl rfl hstands hintact) ?_
  rintro _ after hintact ⟨-, hafter⟩
  dsimp only
  split
  · exact completes_bind (completes_postToChannel _ _ _ hafter hintact) fun _ => hmark
  · exact completes_bind (completes_dmUser _ _ hafter hintact) fun _ => hmark

theorem completes_deliverOnce {url : String} (arguments : Arguments)
    (guildSettings : GuildSettings) (mode : DeliveryMode) (ttlSeconds : ℤ)
    (hstands : Stands (some url) delivered uploaded 0 world.log) (hintact : world.intact) :
    Completes (deliverOnce arguments guildSettings mode url ttlSeconds delivered)
      (fun _ after => Stands (some url) true uploaded (if delivered then 0 else 1) after)
      world := by
  cases delivered with
  | true => exact ⟨hintact, hstands⟩
  | false =>
      exact completes_deliverPhase arguments guildSettings mode ttlSeconds hstands hintact

/-- The job index may fail. -/
theorem completes_forgetFinished (userId : ℕ)
    (hstands : Stands archiveUrl delivered uploaded sent world.log)
    (hdone : world.log.world.progress = some .done) (hintact : world.intact) :
    Completes (forgetFinished userId)
      (fun _ after => Stands archiveUrl delivered uploaded sent after ∧
        after.world.progress = some .done) world := by
  refine Prog.holds_tryExcept (Prog.holds_perform.mpr ⟨trivial, ?_⟩)
  rintro outcome ⟨log, intact⟩ ⟨hserves, hjudged⟩
  have hafter := hstands.of_idle rfl hserves
  cases outcome with
  | ok _ =>
      obtain ⟨-, rfl⟩ := hserves
      exact ⟨hjudged.mpr ⟨hintact, trivial⟩, hafter, hdone⟩
  | error exception =>
      obtain rfl : log = world.log.record (.failed (.forgetJob userId) exception) := hserves
      dsimp only
      split
      case isTrue hcaught => exact ⟨hjudged.mpr ⟨hintact, hcaught⟩, hafter, hdone⟩
      case isFalse hraised => exact fun hlater => hraised (hjudged.mp hlater).2

/-- What the settings are, and whether they can be used. -/
theorem holds_usableSettings (arguments : Arguments)
    (hstands : Stands archiveUrl delivered uploaded sent world.log) (hintact : world.intact) :
    (resolveSettings arguments).Holds (ServesJudged service Survivable) (fun _ => True)
      (fun after outcome => Stands archiveUrl delivered uploaded sent after.log ∧
        (after.intact ↔ ∃ settings ttl, outcome = .ok settings ∧
          timedeltaHours settings.retentionHours = .ok ttl)) world := by
  have hdefault : ∀ guildId : ℕ, Stands archiveUrl delivered uploaded sent world.log ∧
      (world.intact ↔ ∃ settings ttl,
        (.ok { guildId := guildId } : Except Exn GuildSettings) = .ok settings ∧
          timedeltaHours settings.retentionHours = .ok ttl) :=
    fun guildId => ⟨hstands, iff_of_true hintact ⟨_, _, rfl, rfl⟩⟩
  rw [resolveSettings]
  split
  case h_1 guildId _ =>
    split
    · exact hdefault guildId
    · refine (holds_idle rfl hstands hintact).mono ?_
      rintro after outcome ⟨hafter, hjudged⟩
      refine ⟨hafter, hjudged.trans ?_⟩
      cases outcome with
      | ok settings => simp [Survivable]
      | error exception => simp [Survivable]
  case h_2 => exact hdefault 0

end Phases

/-! ## The attempt -/

section Attempt

variable {arguments : Arguments} {clock : Clock}

/-- From the lookup of the archive on. -/
theorem completes_rest {before : History} {world : Judging} (guildSettings : GuildSettings)
    (ttl : TimeDelta) (hresolvable : Resolvable arguments clock before)
    (hstands : Stands before.world.archiveUrl before.world.delivered 0 0 world.log)
    (hintact : world.intact) :
    let mode := if arguments.dmMe then .dm else guildSettings.deliveryMode
    Completes (do
      let cached ← await .getCachedArchiveUrl
      let archiveUrl ←
        reuseOrUpload arguments clock guildSettings ttl (ttl / 1000000) cached
      let delivered ← await .isDelivered
      deliverOnce arguments guildSettings mode archiveUrl (ttl / 1000000) delivered
      await (.setProgress .done)
      forgetFinished arguments.userId
      return ⟨archiveUrl, mode,
        if archiveUrl = emptySentinel then .empty else .delivered⟩)
      (fun result after => Recovered before after result) world := by
  intro mode
  refine completes_bind (completes_idle rfl rfl hstands hintact) ?_
  rintro cached after hintact ⟨⟨_, rfl⟩, hafter⟩
  rw [show service.answer world.log.world .getCachedArchiveUrl _ = before.world.archiveUrl
    from hstands.archiveUrl]
  refine completes_bind (completes_reuseOrUpload arguments clock guildSettings ttl _
    hresolvable hafter hintact) ?_
  rintro archiveUrl later hintact ⟨hreused, hlater⟩
  refine completes_bind (completes_idle rfl rfl hlater hintact) ?_
  rintro delivered after hintact ⟨⟨_, rfl⟩, hafter⟩
  rw [show service.answer later.log.world .isDelivered _ = before.world.delivered
    from hlater.delivered]
  refine completes_bind (completes_deliverOnce arguments guildSettings mode _ hafter hintact)
    fun _ after hintact hafter => ?_
  have hdone : Completes (await (.setProgress .done)) (fun _ later =>
      Stands (some archiveUrl) true (if before.world.archiveUrl = none then 1 else 0)
        (if before.world.delivered then 0 else 1) later ∧
      later.world.progress = some .done) after := by
    refine completes_strict rfl hintact fun proposed => ⟨?_, rfl⟩
    exact hafter.of_idle rfl (serves_ok _ _ proposed)
  refine completes_bind hdone fun _ later hintact ⟨hlater, hprogress⟩ => ?_
  refine completes_bind (completes_forgetFinished _ hlater hprogress hintact)
    fun _ last hintact ⟨hlast, hreported⟩ => ⟨hintact, ?_⟩
  exact
    { cached := hlast.archiveUrl
      reused := hreused
      delivered := hlast.delivered
      done := hreported
      uploads := hlast.uploaded
      sends := hlast.sent }

/-- Where an attempt ends that has survived: what was missing is done. -/
theorem completes_downloadChannelMedia {before : History}
    (hresolvable : Resolvable arguments clock before) (hcurrent : before.current = []) :
    Completes (downloadChannelMedia arguments clock)
      (fun result after => Recovered before after result) ⟨before, True⟩ := by
  have hstands : Stands before.world.archiveUrl before.world.delivered 0 0 before :=
    ⟨rfl, rfl, by rw [hcurrent, List.countP_nil], by rw [hcurrent, List.countP_nil]⟩
  refine completes_bind (completes_idle rfl rfl hstands trivial) ?_
  rintro _ after hintact ⟨-, hafter⟩
  refine Prog.holds_bind.mpr ((holds_usableSettings arguments hafter hintact).mono ?_)
  rintro after outcome ⟨hafter, husable⟩
  cases outcome with
  | error exception =>
      intro hlater
      obtain ⟨settings, ttl, hnone, -⟩ := husable.mp hlater
      cases hnone
  | ok guildSettings =>
      refine Prog.holds_bind.mpr (Prog.holds_ofExcept.mpr ?_)
      cases httl : timedeltaHours guildSettings.retentionHours with
      | error exception =>
          intro hlater
          obtain ⟨settings, ttl, hsettings, hok⟩ := husable.mp hlater
          cases hsettings
          rw [httl] at hok
          cases hok
      | ok ttl =>
          exact completes_rest guildSettings ttl hresolvable hafter
            (husable.mpr ⟨guildSettings, ttl, rfl, httl⟩)

/-- Whatever the attempts before came to: an attempt that is through with its calls
returns if and only if they came to what the task survives, and an attempt that returns
has done what was missing. -/
theorem returns_iff_survived (arguments : Arguments) (clock : Clock)
    {state begun last : Attempting}
    (hstate : Reaches (attemptStep arguments) unrestricted attemptStart state)
    (hresolvable : Resolvable arguments clock state.log)
    (hbegin : attemptStep arguments state (.begin clock) = some begun)
    (hrun : Reaches (attemptStep arguments) GoesOn begun last)
    (hthrough : last.pending = none) :
    ((∃ result, last.running = some (.ret result)) ↔
        Reaches (attemptStep arguments) (Meets service Survivable) begun last) ∧
      ∀ result, last.running = some (.ret result) → Recovered state.log last.log result := by
  obtain ⟨history, running⟩ := state
  have hinv : Inv service (Good arguments.userId)
      (Ends arguments.userId fun _ after => Finished arguments.userId after)
      ⟨history, running⟩ :=
    hstate.invariant ⟨good_start, rfl⟩ fun _ _ _ hinv _ hstep =>
      inv_step (keeps_downloadChannelMedia arguments) hinv hstep
  cases running with
  | some _ => cases hbegin
  | none =>
      obtain rfl := Option.some.inj hbegin
      have hfirst : UnderWay service Survivable (fun _ => True)
          (Returns fun result after => Recovered history after result)
          ⟨history, some (downloadChannelMedia arguments clock)⟩ True :=
        ⟨_, rfl, completes_downloadChannelMedia hresolvable hinv.2⟩
      obtain ⟨intact, hunderway, hallowed⟩ := hfirst.of_reaches hrun
      obtain ⟨outcome, hended, hpost⟩ := hunderway.ended hthrough
      refine ⟨⟨?_, fun hmeets => ?_⟩, ?_⟩
      · rintro ⟨result, hresult⟩
        cases outcome with
        | ok _ => exact hallowed hpost.1
        | error exception => cases hended.symm.trans hresult
      · obtain ⟨outcome, hended, hpost⟩ := (hfirst.of_meets hmeets).ended hthrough
        cases outcome with
        | ok result => exact ⟨result, hended⟩
        | error exception => exact absurd trivial hpost
      · intro result hresult
        cases outcome with
        | ok _ =>
            cases hended.symm.trans hresult
            exact hpost.2
        | error exception => cases hended.symm.trans hresult

/-- The attempts at a job from a direct message after these steps. -/
def attemptsAfter (labels : List (Label Reply Exn Clock)) : Attempting :=
  (replay (attemptStep inDirectMessage) attemptStart labels).getD attemptStart

/-- The requester cannot be reached by the first attempt. -/
def unreachable : List (Label Reply Exn Clock) :=
  [.begin inMay] ++ List.replicate 9 (.succeed obliging) ++ [.fail .forbidden, .finish]

/-- The second reaches them, and the job index is down. -/
def reached : List (Label Reply Exn Clock) :=
  List.replicate 8 (.succeed obliging) ++ [.fail .other]

theorem returns_iff_survived_reached :
    let before := attemptsAfter unreachable
    let last := attemptsAfter (unreachable ++ [.begin inMay] ++ reached)
    last.running = some (.ret ⟨"url", .dm, .delivered⟩) ∧
      Recovered before.log last.log ⟨"url", .dm, .delivered⟩ ∧
      before.log.world.archiveUrl = some "url" ∧ before.log.world.delivered = false := by
  have hunreachable : replay (attemptStep inDirectMessage) attemptStart unreachable =
      some (attemptsAfter unreachable) := rfl
  have hreached : replay (attemptStep inDirectMessage)
      (attemptsAfter (unreachable ++ [.begin inMay])) reached =
      some (attemptsAfter (unreachable ++ [.begin inMay] ++ reached)) := rfl
  have hgoes : ∀ label ∈ reached, ∀ state : Attempting, GoesOn state label := by
    intro label hlabel state
    simp only [reached, List.mem_append, List.mem_replicate, List.mem_singleton] at hlabel
    rcases hlabel with ⟨-, rfl⟩ | rfl
    · trivial
    · trivial
  have hreturned := (returns_iff_survived inDirectMessage inMay
    (reaches_of_replay (fun _ _ _ => trivial) hunreachable) (fun hnone => by cases hnone) rfl
    (reaches_of_replay hgoes hreached) rfl).2 ⟨"url", .dm, .delivered⟩ rfl
  exact ⟨rfl, hreturned, rfl, rfl⟩

end Attempt

end DownloaderBot.Tasks
