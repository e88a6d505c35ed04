import DownloaderBot.Tasks.UploadProtocol

/-!
# Where the result goes, and where the task says it went

One attempt, whatever the four calls that deliver come to.  A results channel that is no
place to post to falls back to the direct message inside `post_to_channel`, which the task
does not learn.
-/

namespace DownloaderBot.Deliveries

open DownloaderBot.Embeds
open DownloaderBot.Program
open DownloaderBot.Tasks

/-- A call, and whether it came back. -/
structure Event where
  request : Call
  served : Bool
  deriving DecidableEq, Repr

/-- The delivery has begun. -/
def delivering (log : List Event) : Bool :=
  log.any fun event => event.request = .setProgress .deliver

/-- The embeds that went out, and where to. -/
def sent (log : List Event) : List (Destination × Embed) :=
  log.filterMap fun event =>
    match event.request with
    | .send destination embed => if event.served then some (destination, embed) else none
    | _ => none

/-- What the calls of an attempt come to.  `channelFetch` is the fetch of the results
channel; what is not named may depend on everything that has happened. -/
structure Environment where
  settings : Except Exn GuildSettings
  channelFetch : Except Exn Discord.Channel
  channelSend : Except Exn Unit
  userFetch : Except Exn Unit
  dmSend : Except Exn Unit
  other : List Event → (request : Call) → Except Exn (Reply request)

namespace Environment

variable (environment : Environment)

def answer (log : List Event) : (request : Call) → Except Exn (Reply request)
  | .getSettings _ => environment.settings
  | .fetchChannel channelId =>
      if delivering log then environment.channelFetch
      else environment.other log (.fetchChannel channelId)
  | .send (.channel _) _ => environment.channelSend
  | .fetchUser _ => environment.userFetch
  | .send (.user _) _ => environment.dmSend
  | request => environment.other log request

def serve (log : List Event) (request : Call) :
    Except Exn (Reply request) × List Event :=
  (environment.answer log request,
    log ++ [⟨request, (environment.answer log request).isOk⟩])

/-- The settings that the attempt goes by. -/
def resolved (arguments : Arguments) : Except Exn GuildSettings :=
  match arguments.guildId with
  | some guildId =>
      if arguments.dmMe then .ok { guildId := guildId } else environment.settings
  | none => .ok { guildId := 0 }

/-- The results channel is there, is messageable and takes the embed. -/
def postable : Bool :=
  match environment.channelFetch with
  | .ok channel => channel.messageable && environment.channelSend.isOk
  | .error _ => false

/-- The settings or `dm_me` ask for a direct message, or the results channel is configured
and can be posted to. -/
def AsConfigured (arguments : Arguments) : Prop :=
  ∀ settings, environment.resolved arguments = .ok settings →
    arguments.dmMe = true ∨ settings.deliveryMode = .dm ∨
      (settings.resultsChannelId.isSome = true ∧ environment.postable = true)

/-- Where the embed ends up, if anywhere. -/
def target (settings : GuildSettings) (mode : DeliveryMode) (userId : ℕ) : Destination :=
  match mode, settings.resultsChannelId with
  | .channel, some channelId =>
      if environment.postable then .channel channelId else .user userId
  | _, _ => .user userId

end Environment

/-- The returned result tells where the embed went, and which one. -/
structure Truthful (arguments : Arguments) (settings : GuildSettings)
    (result : DownloadResult) (destination : Destination) (embed : Embed) : Prop where
  channel : result.deliveryMode = .channel ↔
    ∃ channelId ∈ settings.resultsChannelId, destination = .channel channelId
  dm : result.deliveryMode = .dm ↔ destination = .user arguments.userId
  status : result.status = .empty ↔ embed = noAttachments arguments.userId
  url : (result.url = "" ∧ embed = noAttachments arguments.userId) ∨
    embed = mediaDownload result.url arguments.userId

/-- One embed went out, and the result is truthful about it. -/
def DeliversTruthfully (environment : Environment) (arguments : Arguments)
    (result : DownloadResult) (log : List Event) : Prop :=
  ∃ settings destination embed, environment.resolved arguments = .ok settings ∧
    sent log = [(destination, embed)] ∧
    Truthful arguments settings result destination embed

/-! ## The calls that deliver nothing -/

/-- The call belongs to the delivery. -/
def delivers : Call → Bool
  | .setProgress .deliver | .send .. => true
  | _ => false

def Quiet (request : Call) : Prop := delivers request = false

theorem sent_concat (log : List Event) (event : Event) :
    sent (log ++ [event]) = sent log ++ sent [event] :=
  List.filterMap_append

theorem delivering_concat (log : List Event) (event : Event) :
    delivering (log ++ [event]) = (delivering log || delivering [event]) :=
  List.any_append

section Quiet

variable {environment : Environment} {arguments : Arguments}

/-- What has been sent, and whether the delivery has begun, is left as it is. -/
def Stays (log after : List Event) : Prop :=
  sent after = sent log ∧ delivering after = delivering log

theorem Stays.trans {first middle last : List Event} (hleft : Stays first middle)
    (hright : Stays middle last) : Stays first last :=
  ⟨hright.1.trans hleft.1, hright.2.trans hleft.2⟩

theorem stays_concat (log : List Event) {request : Call} (hquiet : Quiet request)
    (served : Bool) : Stays log (log ++ [⟨request, served⟩]) := by
  rw [Stays, sent_concat, delivering_concat]
  cases request with
  | setProgress phase =>
      cases phase with
      | deliver => cases hquiet
      | _ => simp [sent, delivering]
  | send destination embed => cases hquiet
  | _ => simp [sent, delivering]

theorem stays_exec {α : Type} {program : Tasks.Task α} (hquiet : program.Only Quiet)
    {log after : List Event} {outcome : Except Exn α}
    (hexec : program.exec environment.serve log = (outcome, after)) : Stays log after := by
  have hkeeps : Stays log (program.exec environment.serve log).2 := by
    refine hquiet.exec_invariant (fun world request hrequest hstays => ?_) ⟨rfl, rfl⟩
    exact hstays.trans (stays_concat world hrequest _)
  rwa [hexec] at hkeeps

theorem quiet_await {request : Call} (hquiet : delivers request = false) :
    (await request).Only Quiet :=
  Prog.only_perform hquiet

theorem quiet_resolveSettings : (resolveSettings arguments).Only Quiet := by
  rw [resolveSettings]
  split
  · split
    · trivial
    · exact quiet_await rfl
  · trivial

theorem quiet_uploadOrEmpty (request : UploadRequest) :
    (uploadOrEmpty request).Only Quiet := by
  refine Prog.Only.tryExcept ?_ fun _ => trivial
  exact (quiet_await rfl).bind fun _ => trivial

theorem quiet_cleanUp (name : String) (outcome : Except Exn (String × Bool)) :
    (cleanUp name outcome).Only Quiet := by
  simp only [cleanUp]
  split
  · trivial
  · exact (quiet_await rfl).tryExcept fun _ => trivial

theorem quiet_reuseOrUpload (clock : Clock) (settings : GuildSettings)
    (ttl : Calendar.TimeDelta) (ttlSeconds : ℤ) (cached : Option String) :
    (reuseOrUpload arguments clock settings ttl ttlSeconds cached).Only Quiet := by
  cases cached with
  | some url => trivial
  | none =>
      refine (quiet_await rfl).bind fun channel => ?_
      split
      · trivial
      · refine (quiet_await rfl).bind fun _ => ?_
        refine (Prog.only_ofExcept _).bind fun resolved => ?_
        refine ((quiet_uploadOrEmpty _).tryFinally fun outcome =>
          quiet_cleanUp _ outcome).bind fun _ => ?_
        exact (quiet_await rfl).bind fun _ => trivial

theorem quiet_forgetFinished (userId : ℕ) : (forgetFinished userId).Only Quiet :=
  (quiet_await rfl).tryExcept fun _ => trivial

end Quiet

/-! ## The delivery -/

section Delivery

variable {environment : Environment} {arguments : Arguments} {log after : List Event}

theorem exec_await (request : Call) (log : List Event) :
    (await request).exec environment.serve log = environment.serve log request :=
  Prog.exec_perform request log

/-- A call that has come back. -/
theorem of_exec_await {request : Call} {reply : Reply request}
    (hexec : (await request).exec environment.serve log = (.ok reply, after)) :
    environment.answer log request = .ok reply ∧ after = log ++ [⟨request, true⟩] := by
  obtain ⟨hanswer, hafter⟩ := Prod.mk.inj ((exec_await request log).symm.trans hexec)
  refine ⟨hanswer, ?_⟩
  rw [← hafter, hanswer]
  rfl

theorem sent_dmUser {userId : ℕ} {embed : Embed}
    (hexec : (dmUser userId embed).exec environment.serve log = (.ok (), after)) :
    sent after = sent log ++ [(.user userId, embed)] := by
  obtain ⟨_, fetched, hfetch, hsend⟩ := Prog.exec_bind_eq_ok.mp hexec
  obtain ⟨-, rfl⟩ := of_exec_await hfetch
  rcases Prog.of_exec_tryExcept_eq_ok hsend with hsent | ⟨_, _, -, -, hraised⟩
  · obtain ⟨-, rfl⟩ := of_exec_await hsent
    rw [sent_concat, sent_concat]
    simp [sent]
  · cases hraised

/-- What a send adds to what has been sent. -/
theorem sent_send (log : List Event) (destination : Destination) (embed : Embed)
    (served : Bool) :
    sent (log ++ [⟨.send destination embed, served⟩]) =
      sent log ++ if served then [(destination, embed)] else [] := by
  rw [sent_concat]
  cases served <;> rfl

/-- The fetch of the results channel. -/
theorem exec_fetchChannel (environment : Environment) (hdelivering : delivering log = true)
    (channelId : ℕ) :
    ∃ fetched, (await (.fetchChannel channelId)).exec environment.serve log =
        (environment.channelFetch, fetched) ∧ sent fetched = sent log := by
  have hquiet : Quiet (.fetchChannel channelId) := rfl
  refine ⟨_, (exec_await _ _).trans ?_,
    (stays_concat log hquiet environment.channelFetch.isOk).1⟩
  simp only [Environment.serve, Environment.answer, if_pos hdelivering]

/-- Posting in the results channel, without the handler. -/
theorem exec_post (environment : Environment) (hdelivering : delivering log = true)
    (channelId : ℕ) (embed : Embed) :
    ∃ outcome after,
      (((await (.fetchChannel channelId)).bind fun channel =>
          if !channel.messageable then Prog.raise .typeError
          else await (.send (.channel channelId) embed)) : Tasks.Task Unit).exec
            environment.serve log = (outcome, after) ∧
        outcome.isOk = environment.postable ∧
        sent after = sent log ++
          if environment.postable then [(.channel channelId, embed)] else [] := by
  obtain ⟨fetched, hfetch, hsent⟩ := exec_fetchChannel environment hdelivering channelId
  cases hchannel : environment.channelFetch with
  | error exception =>
      have hpostable : environment.postable = false := by
        rw [Environment.postable, hchannel]
      rw [hchannel] at hfetch
      refine ⟨_, _, Prog.exec_bind_of_error hfetch, hpostable.symm, ?_⟩
      simp [hpostable, hsent]
  | ok channel =>
      have hpostable : environment.postable =
          (channel.messageable && environment.channelSend.isOk) := by
        rw [Environment.postable, hchannel]
      rw [hchannel] at hfetch
      cases hmessageable : channel.messageable with
      | false =>
          rw [hmessageable, Bool.false_and] at hpostable
          refine ⟨.error .typeError, fetched, (Prog.exec_bind_of_ok hfetch).trans ?_,
            hpostable.symm, ?_⟩
          · simp only [hmessageable, Bool.not_false, if_true]
            rfl
          · simp [hpostable, hsent]
      | true =>
          rw [hmessageable, Bool.true_and] at hpostable
          refine ⟨environment.channelSend,
            fetched ++ [⟨.send (.channel channelId) embed, environment.channelSend.isOk⟩],
            (Prog.exec_bind_of_ok hfetch).trans ?_, hpostable.symm, ?_⟩
          · simp only [hmessageable, Bool.not_true, Bool.false_eq_true, if_false]
            exact exec_await _ _
          · rw [sent_send, hsent, hpostable]

/-- The fallback is taken where the results channel cannot be posted to. -/
theorem sent_postToChannel (hdelivering : delivering log = true) {channelId userId : ℕ}
    {embed : Embed}
    (hexec : (postToChannel channelId embed userId).exec environment.serve log =
      (.ok (), after)) :
    sent after = sent log ++
      [(if environment.postable then .channel channelId else .user userId, embed)] := by
  obtain ⟨outcome, posted, hpost, hok, hsent⟩ :=
    exec_post environment hdelivering channelId embed
  rcases Prog.of_exec_tryExcept_eq_ok hexec with hbody | ⟨exception, failed, hbody, -, hdm⟩
  · cases hpost.symm.trans hbody
    rw [hsent, show environment.postable = true from hok.symm]
    rfl
  · cases hpost.symm.trans hbody
    have hpostable : environment.postable = false := hok.symm
    rw [sent_dmUser hdm, hsent, hpostable]
    simp

/-- Marking the delivery sends nothing. -/
theorem sent_of_marked {program : Tasks.Task Unit} {ttlSeconds : ℤ}
    (hexec : (program.bind fun _ => await (.markDelivered ttlSeconds)).exec
      environment.serve log = (.ok (), after)) :
    ∃ posted, program.exec environment.serve log = (.ok (), posted) ∧
      sent after = sent posted := by
  obtain ⟨_, posted, hprogram, hmark⟩ := Prog.exec_bind_eq_ok.mp hexec
  exact ⟨posted, hprogram, (stays_exec (quiet_await rfl) hmark).1⟩

theorem sent_deliverPhase {settings : GuildSettings} {mode : DeliveryMode}
    {archiveUrl : String} {ttlSeconds : ℤ}
    (hexec : (deliverPhase arguments settings mode archiveUrl ttlSeconds).exec
      environment.serve log = (.ok (), after)) :
    sent after = sent log ++ [(environment.target settings mode arguments.userId,
      resultEmbed archiveUrl arguments.userId)] := by
  obtain ⟨_, begun, hbegin, hdeliver⟩ := Prog.exec_bind_eq_ok.mp hexec
  obtain ⟨-, rfl⟩ := of_exec_await hbegin
  have hdelivering : delivering (log ++ [⟨.setProgress .deliver, true⟩]) = true := by
    rw [delivering_concat]
    simp [delivering]
  have hsame : sent (log ++ [⟨.setProgress .deliver, true⟩]) = sent log := by
    rw [sent_concat]
    simp [sent]
  cases mode with
  | dm =>
      obtain ⟨posted, hdm, hmarked⟩ := sent_of_marked hdeliver
      rw [hmarked, sent_dmUser hdm, hsame]
      rfl
  | channel =>
      cases hchannel : settings.resultsChannelId with
      | none =>
          simp only [hchannel] at hdeliver
          obtain ⟨posted, hdm, hmarked⟩ := sent_of_marked hdeliver
          rw [hmarked, sent_dmUser hdm, hsame]
          simp only [Environment.target, hchannel]
      | some channelId =>
          simp only [hchannel] at hdeliver
          obtain ⟨posted, hpost, hmarked⟩ := sent_of_marked hdeliver
          rw [hmarked, sent_postToChannel hdelivering hpost, hsame]
          simp only [Environment.target, hchannel]

end Delivery

/-! ## What the task reports -/

section Report

variable {environment : Environment} {arguments : Arguments}

theorem mediaDownload_ne_noAttachments (url : String) (userId : ℕ) :
    mediaDownload url userId ≠ noAttachments userId := fun heq => by
  cases congrArg Embed.colour heq

/-- The result is truthful about the embed at its target unless the results channel has
let the task down. -/
theorem truthful_target_iff (settings : GuildSettings) (mode : DeliveryMode)
    (url : String) :
    Truthful arguments settings
        ⟨url, mode, if url = emptySentinel then .empty else .delivered⟩
        (environment.target settings mode arguments.userId)
        (resultEmbed url arguments.userId) ↔
      mode = .dm ∨
        (settings.resultsChannelId.isSome = true ∧ environment.postable = true) := by
  have hstatus : (if url = emptySentinel then Status.empty else .delivered) = .empty ↔
      resultEmbed url arguments.userId = noAttachments arguments.userId := by
    rw [resultEmbed]
    split
    · exact iff_of_true rfl rfl
    · exact iff_of_false (fun heq => by cases heq) (mediaDownload_ne_noAttachments _ _)
  have hurl : (url = "" ∧ resultEmbed url arguments.userId =
      noAttachments arguments.userId) ∨
        resultEmbed url arguments.userId = mediaDownload url arguments.userId := by
    rw [resultEmbed]
    split
    case isTrue hempty => exact .inl ⟨hempty, rfl⟩
    case isFalse => exact .inr rfl
  constructor
  · intro htruthful
    cases mode with
    | dm => exact .inl rfl
    | channel =>
        right
        obtain ⟨channelId, hchannelId, htarget⟩ := htruthful.channel.mp rfl
        have hchannel : settings.resultsChannelId = some channelId := hchannelId
        simp only [Environment.target, hchannel] at htarget
        cases hpostable : environment.postable with
        | true => exact ⟨by rw [hchannel]; rfl, rfl⟩
        | false => simp [hpostable] at htarget
  · intro hreaches
    suffices hroute : (mode = .channel ↔ ∃ channelId ∈ settings.resultsChannelId,
        environment.target settings mode arguments.userId = .channel channelId) ∧
          (mode = .dm ↔ environment.target settings mode arguments.userId =
            .user arguments.userId) from ⟨hroute.1, hroute.2, hstatus, hurl⟩
    cases mode with
    | dm => simp [Environment.target]
    | channel =>
        obtain hdm | ⟨hsome, hpostable⟩ := hreaches
        · cases hdm
        · obtain ⟨channelId, hchannel⟩ := Option.isSome_iff_exists.mp hsome
          simp [Environment.target, hchannel, hpostable]

/-- What `resolveSettings` returns. -/
theorem of_exec_resolveSettings {settings : GuildSettings} {log after : List Event}
    (hexec : (resolveSettings arguments).exec environment.serve log = (.ok settings, after)) :
    environment.resolved arguments = .ok settings := by
  obtain ⟨taskId, channelId, userId, guildId, dmMe, filters⟩ := arguments
  match guildId, dmMe with
  | none, _ =>
      cases hexec
      rfl
  | some _, true =>
      cases hexec
      rfl
  | some guildId, false => exact (of_exec_await hexec).1

/-- The parts of an attempt that delivers and returns. -/
theorem of_exec_downloadChannelMedia {clock : Clock} {result : DownloadResult}
    {log : List Event}
    (hrun : (downloadChannelMedia arguments clock).exec environment.serve [] =
      (.ok result, log)) (hdelivering : delivering log = true) :
    ∃ settings mode url, environment.resolved arguments = .ok settings ∧
      mode = (if arguments.dmMe then .dm else settings.deliveryMode) ∧
      result = ⟨url, mode, if url = emptySentinel then .empty else .delivered⟩ ∧
      sent log = [(environment.target settings mode arguments.userId,
        resultEmbed url arguments.userId)] := by
  obtain ⟨_, _, hpicked, hrun⟩ := Prog.exec_bind_eq_ok.mp hrun
  obtain ⟨settings, _, hsettings, hrun⟩ := Prog.exec_bind_eq_ok.mp hrun
  obtain ⟨ttl, _, httl, hrun⟩ := Prog.exec_bind_eq_ok.mp hrun
  obtain ⟨cached, _, hcached, hrun⟩ := Prog.exec_bind_eq_ok.mp hrun
  obtain ⟨url, _, hurl, hrun⟩ := Prog.exec_bind_eq_ok.mp hrun
  obtain ⟨delivered, before, hdelivered, hrun⟩ := Prog.exec_bind_eq_ok.mp hrun
  obtain ⟨_, after, hdeliver, hrun⟩ := Prog.exec_bind_eq_ok.mp hrun
  obtain ⟨_, done, hdone, hrun⟩ := Prog.exec_bind_eq_ok.mp hrun
  obtain ⟨_, _, hforget, hrun⟩ := Prog.exec_bind_eq_ok.mp hrun
  cases hrun
  have hbefore : Stays [] before :=
    ((((((stays_exec (quiet_await rfl) hpicked).trans
      (stays_exec quiet_resolveSettings hsettings)).trans
      (stays_exec (Prog.only_ofExcept _) httl)).trans
      (stays_exec (quiet_await rfl) hcached)).trans
      (stays_exec (quiet_reuseOrUpload _ _ _ _ _) hurl)).trans
      (stays_exec (quiet_await rfl) hdelivered))
  have hafter : Stays after log :=
    (stays_exec (quiet_await rfl) hdone).trans
      (stays_exec (quiet_forgetFinished _) hforget)
  refine ⟨settings, _, url, of_exec_resolveSettings hsettings, rfl, rfl, ?_⟩
  rw [hafter.1]
  cases delivered with
  | true =>
      -- Without a delivery the log has no trace of one.
      cases hdeliver
      rw [hafter.2, hbefore.2] at hdelivering
      cases hdelivering
  | false =>
      rw [sent_deliverPhase hdeliver, hbefore.1]
      rfl

/-- An attempt that delivers and returns has sent one embed, and its result is truthful if
and only if a direct message was asked for or the results channel took the embed. -/
theorem deliversTruthfully_iff (environment : Environment) (arguments : Arguments)
    (clock : Clock) {result : DownloadResult} {log : List Event}
    (hrun : (downloadChannelMedia arguments clock).exec environment.serve [] =
      (.ok result, log)) (hdelivering : delivering log = true) :
    DeliversTruthfully environment arguments result log ↔
      environment.AsConfigured arguments := by
  obtain ⟨settings, mode, url, hsettings, hmode, rfl, hsent⟩ :=
    of_exec_downloadChannelMedia hrun hdelivering
  have hdm : mode = .dm ↔ arguments.dmMe = true ∨ settings.deliveryMode = .dm := by
    rw [hmode]
    split
    case isTrue hdmMe => exact iff_of_true rfl (.inl hdmMe)
    case isFalse hdmMe => exact (or_iff_right hdmMe).symm
  have hconfigured : environment.AsConfigured arguments ↔ mode = .dm ∨
      (settings.resultsChannelId.isSome = true ∧ environment.postable = true) := by
    rw [hdm, or_assoc, Environment.AsConfigured, hsettings]
    constructor
    · intro hall
      exact hall settings rfl
    · rintro hone _ ⟨⟩
      exact hone
  rw [hconfigured, ← truthful_target_iff settings mode url]
  constructor
  · rintro ⟨_, _, _, hresolved, hone, htruthful⟩
    cases hsettings.symm.trans hresolved
    cases hsent.symm.trans hone
    exact htruthful
  · intro htruthful
    exact ⟨settings, _, _, hsettings, hsent, htruthful⟩

end Report

/-- An earlier attempt has left the link, and the guild wants it posted. -/
def retryInGuild (channelFetch : Except Exn Discord.Channel) : Environment where
  settings := .ok { guildId := 1, deliveryMode := .channel, resultsChannelId := some 5 }
  channelFetch := channelFetch
  channelSend := .ok ()
  userFetch := .ok ()
  dmSend := .ok ()
  other _
    | .getSettings _ => .error .other
    | .getCachedArchiveUrl => .ok (some "u")
    | .fetchChannel _ => .error .other
    | .uploadAndSign _ => .error .other
    | .isDelivered => .ok false
    | .setProgress _ | .deleteBlob _ | .cacheArchiveUrl .. | .fetchUser _ | .send ..
    | .markDelivered _ | .forgetJob _ => .ok ()

/-- A `/download` in the guild. -/
def askedInGuild : Arguments := ⟨"a", 2, 7, some 1, false, none⟩

def anyClock : Clock := ⟨⟨739007 * Calendar.microsPerDay, by decide⟩, ⟨2024, 5, 2⟩⟩

/-- The results channel takes the link. -/
theorem deliversTruthfully_iff_posted :
    let environment := retryInGuild (.ok ⟨5, some "results", true⟩)
    ∃ log, delivering log = true ∧ sent log = [(.channel 5, mediaDownload "u" 7)] ∧
      (DeliversTruthfully environment askedInGuild ⟨"u", .channel, .delivered⟩ log ↔
        environment.AsConfigured askedInGuild) := by
  intro environment
  obtain ⟨log, hrun, hdelivering, hsent⟩ : ∃ log,
      (downloadChannelMedia askedInGuild anyClock).exec environment.serve [] =
        (.ok ⟨"u", .channel, .delivered⟩, log) ∧ delivering log = true ∧
          sent log = [(.channel 5, mediaDownload "u" 7)] :=
    ⟨_, rfl, by decide +kernel, by decide +kernel⟩
  exact ⟨log, hdelivering, hsent,
    deliversTruthfully_iff environment askedInGuild anyClock hrun hdelivering⟩

/-- The results channel is gone: the link goes out as a direct message, and the task says
that it has posted it. -/
theorem not_deliversTruthfully_of_notFound :
    let environment := retryInGuild (.error .notFound)
    ∃ log, (downloadChannelMedia askedInGuild anyClock).exec environment.serve [] =
        (.ok ⟨"u", .channel, .delivered⟩, log) ∧ delivering log = true ∧
      sent log = [(.user 7, mediaDownload "u" 7)] ∧
      ¬ DeliversTruthfully environment askedInGuild ⟨"u", .channel, .delivered⟩ log := by
  intro environment
  obtain ⟨log, hrun, hdelivering, hsent⟩ : ∃ log,
      (downloadChannelMedia askedInGuild anyClock).exec environment.serve [] =
        (.ok ⟨"u", .channel, .delivered⟩, log) ∧ delivering log = true ∧
          sent log = [(.user 7, mediaDownload "u" 7)] :=
    ⟨_, rfl, by decide +kernel, by decide +kernel⟩
  refine ⟨log, hrun, hdelivering, hsent, ?_⟩
  rintro ⟨settings, destination, embed, -, hone, htruthful⟩
  cases hsent.symm.trans hone
  obtain ⟨channelId, -, hchannel⟩ := htruthful.channel.mp rfl
  cases hchannel

end DownloaderBot.Deliveries
