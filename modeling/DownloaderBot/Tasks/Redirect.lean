import DownloaderBot.Download.ZipStream
import DownloaderBot.Tasks.Download

/-!
# What `dm_me` changes

Two runs of the same task, once with `dm_me` and once without, that find the same
settings, the same history, the same attachments and the same time.
-/

namespace DownloaderBot.Tasks

open DownloaderBot.Calendar
open DownloaderBot.Discord
open DownloaderBot.Filters
open DownloaderBot.Program
open DownloaderBot.ZipStream

/-- What a run finds.  `history` is by channel, `before` and `after`; `lower` is
`str.lower`. -/
structure Env where
  row : Option GuildSettings
  channels : ℕ → Channel
  history : ℕ → Option DateTime → Option DateTime → List Message
  fetch : Visit → Fetch
  signedUrl : UploadRequest → String
  clock : Clock
  lower : String → String

namespace Env

variable (env : Env)

def selects (matcher : Matcher) (visit : Visit) : Bool :=
  matcher.accepts env.lower visit.2 visit.1

/-- The attachments in the bounds of the walk. -/
def visits (channelId : ℕ) (filters : ResolvedFilters) : List Visit :=
  ZipStream.visits (env.history channelId filters.before filters.after)

def walk (request : UploadRequest) : Walk :=
  members (env.selects request.filters.matcher) env.fetch
    (env.visits request.channelId request.filters)

/-- `upload_and_sign` on the peeked stream of the walk. -/
def upload (request : UploadRequest) : Except Exn String :=
  match (env.walk request).failure, (env.walk request).members with
  | some .preflight, _ => .error .other
  | some .attachmentStreamError, _ => .error .attachmentStreamError
  | none, [] => .error .noMatchingAttachments
  | none, _ :: _ => .ok (env.signedUrl request)

/-- Nothing is cached yet, and nothing fails but the fetching of attachments. -/
def answer : (request : Call) → Except Exn (Reply request)
  | .getSettings guildId => .ok (.ofRow guildId env.row)
  | .getCachedArchiveUrl => .ok none
  | .fetchChannel channelId => .ok (env.channels channelId)
  | .uploadAndSign request => env.upload request
  | .isDelivered => .ok false
  | .setProgress _ | .deleteBlob _ | .cacheArchiveUrl .. | .fetchUser _ | .send ..
  | .markDelivered _ | .forgetJob _ => .ok ()

/-- The calls of a run of the task. -/
def calls (arguments : Arguments) : List Call :=
  ((downloadChannelMedia arguments env.clock).run env.answer).1

end Env

def uploadOf : Call → Option UploadRequest
  | .uploadAndSign request => some request
  | _ => none

/-- The lifetime given to an idempotency key. -/
def keyTtl : Call → Option ℤ
  | .cacheArchiveUrl _ ttlSeconds => some ttlSeconds
  | .markDelivered ttlSeconds => some ttlSeconds
  | _ => none

/-- The task as sent from a guild. -/
def Arguments.inGuild (arguments : Arguments) (guildId : ℕ) (dmMe : Bool) : Arguments :=
  { arguments with guildId := some guildId, dmMe := dmMe }

namespace Env

variable (env : Env) (arguments : Arguments)

/-- The upload a run asks for. -/
def request : Option UploadRequest := (env.calls arguments).findSome? uploadOf

/-- What a run archives. -/
def archive : List Member :=
  (env.request arguments).elim [] fun request => (env.walk request).archive

/-- The settings a run goes by. -/
def settings : GuildSettings :=
  match arguments.guildId with
  | some guildId =>
      if arguments.dmMe then { guildId := guildId } else .ofRow guildId env.row
  | none => { guildId := 0 }

end Env

/-- `dm_me` changes neither what is archived nor for how long, and the policy of the
guild is kept either way. -/
structure OnlyRedirects (env : Env) (arguments : Arguments) (guildId : ℕ) : Prop where
  archive : env.archive (arguments.inGuild guildId true) =
    env.archive (arguments.inGuild guildId false)
  uploadTtl : (env.request (arguments.inGuild guildId true)).map UploadRequest.ttl =
    (env.request (arguments.inGuild guildId false)).map UploadRequest.ttl
  keyTtls :
    ∀ ttl ∈ (env.calls (arguments.inGuild guildId true)).filterMap keyTtl,
      ∀ other ∈ (env.calls (arguments.inGuild guildId false)).filterMap keyTtl,
        ttl = other
  allowed : ∀ dmMe, ∀ types ∈ (GuildSettings.ofRow guildId env.row).allowedMediaTypes,
    ∀ member ∈ env.archive (arguments.inGuild guildId dmMe),
      contentType env.lower member.attachment ∈ types

/-- Where there is a walk at all, the guild keeps archives for the default time and
its policy is immaterial to the archive. -/
def PolicyIdle (env : Env) (arguments : Arguments) (guildId : ℕ) : Prop :=
  ∀ resolved, (env.channels arguments.channelId).messageable = true →
    resolve arguments.filters (.ofRow guildId env.row) env.clock.now = .ok resolved →
    (GuildSettings.ofRow guildId env.row).retentionHours = 24 ∧
      Immaterial (env.selects (resolved.matcher.under none))
        (env.selects resolved.matcher) env.fetch
        (env.visits arguments.channelId resolved)

/-! ## What a run asks for -/

/-- The first upload is the requested one, and the keys live as long as it. -/
structure Asks (request : Option UploadRequest) (calls : List Call) : Prop where
  asked : calls.findSome? uploadOf = request
  keys : ∀ call ∈ calls, ∀ ttl, keyTtl call = some ttl →
    ∃ asked, request = some asked ∧ ttl = asked.ttl / 1000000

/-- The call neither uploads nor sets an idempotency key. -/
def Plain (call : Call) : Prop := uploadOf call = none ∧ keyTtl call = none

/-- The call may follow the upload. -/
def Follows (request : UploadRequest) (call : Call) : Prop :=
  ∀ ttl, keyTtl call = some ttl → ttl = request.ttl / 1000000

section Asks

variable {request : Option UploadRequest} {calls more : List Call}

theorem asks_of_plain (hplain : ∀ call ∈ calls, Plain call) : Asks none calls where
  asked := List.findSome?_eq_none_iff.mpr fun call hcall => (hplain call hcall).1
  keys call hcall ttl httl := by cases (hplain call hcall).2.symm.trans httl

theorem Asks.plain_append (hasks : Asks request more)
    (hplain : ∀ call ∈ calls, Plain call) : Asks request (calls ++ more) where
  asked := by
    rw [List.findSome?_append, (asks_of_plain hplain).asked, Option.none_or]
    exact hasks.asked
  keys call hcall ttl httl := by
    rcases List.mem_append.mp hcall with hbefore | hafter
    · cases (hplain call hbefore).2.symm.trans httl
    · exact hasks.keys call hafter ttl httl

theorem asks_upload {asked : UploadRequest}
    (hfollow : ∀ call ∈ more, Follows asked call) :
    Asks (some asked) (.uploadAndSign asked :: more) where
  asked := rfl
  keys call hcall ttl httl := by
    rcases List.mem_cons.mp hcall with rfl | hafter
    · cases httl
    · exact ⟨asked, rfl, hfollow call hafter ttl httl⟩

end Asks

/-! ## The calls of a run -/

section Calls

variable {env : Env} {arguments : Arguments} {asked : UploadRequest}

theorem asks_bind {α β : Type} {program : Task α} {rest : α → Task β}
    {request : Option UploadRequest} {calls : List Call} {value : α}
    (hrun : program.run env.answer = (calls, .ok value))
    (hplain : ∀ call ∈ calls, Plain call)
    (hrest : Asks request ((rest value).run env.answer).1) :
    Asks request ((program.bind rest).run env.answer).1 := by
  rw [Prog.run_bind_of_ok hrun]
  exact hrest.plain_append hplain

/-- One plain call and what follows it. -/
theorem asks_await {α : Type} {call : Call} {reply : Reply call}
    {rest : Reply call → Task α} {request : Option UploadRequest}
    (hanswer : env.answer call = .ok reply) (hplain : Plain call)
    (hrest : Asks request ((rest reply).run env.answer).1) :
    Asks request (((await call).bind rest).run env.answer).1 :=
  asks_bind (Prog.run_perform_of_ok hanswer) (by simpa using hplain) hrest

theorem asks_ofExcept {α β : Type} {outcome : Except Exn α} {rest : α → Task β}
    {request : Option UploadRequest} {value : α} (houtcome : outcome = .ok value)
    (hrest : Asks request ((rest value).run env.answer).1) :
    Asks request (((Prog.ofExcept outcome).bind rest).run env.answer).1 := by
  subst houtcome
  exact hrest

theorem asks_ofExcept_raised {α β : Type} {outcome : Except Exn α} {rest : α → Task β}
    {exception : Exn} (houtcome : outcome = .error exception) :
    Asks none (((Prog.ofExcept outcome).bind rest).run env.answer).1 := by
  subst houtcome
  exact asks_of_plain (by simp [Prog.ofExcept, Prog.bind, Prog.run])

/-- One plain call of a part, and what follows it there and after the part. -/
theorem asks_await_part {α β : Type} {call : Call} {reply : Reply call}
    {rest : Reply call → Task α} {later : α → Task β}
    {request : Option UploadRequest} (hanswer : env.answer call = .ok reply)
    (hplain : Plain call)
    (hrest : Asks request (((rest reply).bind later).run env.answer).1) :
    Asks request ((((await call).bind rest).bind later).run env.answer).1 := by
  rw [Prog.bind_assoc]
  exact asks_await hanswer hplain hrest

theorem asks_ofExcept_part {α β γ : Type} {outcome : Except Exn α} {rest : α → Task β}
    {later : β → Task γ} {request : Option UploadRequest} {value : α}
    (houtcome : outcome = .ok value)
    (hrest : Asks request (((rest value).bind later).run env.answer).1) :
    Asks request ((((Prog.ofExcept outcome).bind rest).bind later).run
      env.answer).1 := by
  rw [Prog.bind_assoc]
  exact asks_ofExcept houtcome hrest

theorem run_resolveSettings (env : Env) (arguments : Arguments) :
    ∃ calls, (resolveSettings arguments).run env.answer =
      (calls, .ok (env.settings arguments)) ∧ ∀ call ∈ calls, Plain call := by
  obtain ⟨taskId, channelId, userId, guildId, dmMe, filters⟩ := arguments
  match guildId, dmMe with
  | none, _ => exact ⟨[], rfl, by simp⟩
  | some _, true => exact ⟨[], rfl, by simp⟩
  | some guildId, false =>
      exact ⟨[.getSettings guildId], rfl, by simp [Plain, uploadOf, keyTtl]⟩

/-- Calls that set no key follow an upload. -/
theorem follows_of_none {call : Call} (hcall : keyTtl call = none) :
    Follows asked call := by
  intro ttl httl
  cases hcall.symm.trans httl

theorem only_dmUser (userId : ℕ) (embed : Embeds.Embed) :
    (dmUser userId embed).Only (Follows asked) :=
  (Prog.only_perform (follows_of_none rfl)).bind fun _ =>
    (Prog.only_perform (follows_of_none rfl)).tryExcept fun _ => trivial

theorem only_postToChannel (channelId : ℕ) (embed : Embeds.Embed) (userId : ℕ) :
    (postToChannel channelId embed userId).Only (Follows asked) := by
  refine Prog.Only.tryExcept ?_ fun _ => only_dmUser userId embed
  refine (Prog.only_perform (follows_of_none rfl)).bind fun channel => ?_
  split
  · trivial
  · exact Prog.only_perform (follows_of_none rfl)

theorem only_deliverOnce (guildSettings : GuildSettings) (mode : DeliveryMode)
    (archiveUrl : String) (delivered : Bool) :
    (deliverOnce arguments guildSettings mode archiveUrl (asked.ttl / 1000000)
      delivered).Only (Follows asked) := by
  rw [deliverOnce, deliverPhase]
  split
  · trivial
  · refine (Prog.only_perform (follows_of_none rfl)).bind fun _ => ?_
    have hmark : (await (.markDelivered (asked.ttl / 1000000))).Only
        (Follows asked) :=
      Prog.only_perform fun _ httl => (Option.some.inj httl).symm
    dsimp only
    split
    · exact (only_postToChannel _ _ _).bind fun _ => hmark
    · exact (only_dmUser _ _).bind fun _ => hmark

theorem only_forgetFinished (userId : ℕ) :
    (forgetFinished userId).Only (Follows asked) :=
  (Prog.only_perform (follows_of_none rfl)).tryExcept fun _ => trivial

theorem only_uploadOrEmpty : (uploadOrEmpty asked).Only (Follows asked) := by
  refine Prog.Only.tryExcept ?_ fun _ => trivial
  exact (Prog.only_perform (follows_of_none rfl)).bind fun _ => trivial

theorem only_cleanUp (name : String) (outcome : Except Exn (String × Bool)) :
    (cleanUp name outcome).Only (Follows asked) := by
  simp only [cleanUp]
  split
  · trivial
  · exact (Prog.only_perform (follows_of_none rfl)).tryExcept fun _ => trivial

/-- The upload that the arguments and the settings call for. -/
def Env.upcoming (env : Env) (arguments : Arguments) (ttl : TimeDelta)
    (resolved : ResolvedFilters) : UploadRequest :=
  ⟨"channel-" ++ toString arguments.channelId ++ "-" ++ arguments.taskId ++ ".zip",
    arguments.channelId, resolved, ttl,
    displayFilename (env.channels arguments.channelId) env.clock.today⟩

/-- A program that begins with the upload and goes on with what may follow it. -/
theorem asks_of_only {α : Type} {program : Task α}
    {next : Except Exn String → Task α}
    (hfirst : program = .call (.uploadAndSign asked) next)
    (honly : program.Only (Follows asked)) :
    Asks (some asked) (program.run env.answer).1 := by
  subst hfirst
  exact asks_upload (honly.2 _).of_mem_run

/-- A task whose channel is messageable and whose settings and filters make sense
asks for its upload. -/
theorem asks_upcoming (env : Env) (arguments : Arguments) {ttl : TimeDelta}
    {resolved : ResolvedFilters}
    (hchannel : (env.channels arguments.channelId).messageable = true)
    (httl : timedeltaHours (env.settings arguments).retentionHours = .ok ttl)
    (hresolve : resolve arguments.filters (env.settings arguments) env.clock.now =
      .ok resolved) :
    Asks (some (env.upcoming arguments ttl resolved)) (env.calls arguments) := by
  obtain ⟨calls, hsettings, hplain⟩ :=
    run_resolveSettings env arguments
  refine asks_await rfl ⟨rfl, rfl⟩ (asks_bind hsettings hplain
    (asks_ofExcept (by rw [httl]; rfl) (asks_await rfl ⟨rfl, rfl⟩ ?_)))
  apply asks_await_part rfl ⟨rfl, rfl⟩
  simp only [hchannel, Bool.not_true, Bool.false_eq_true, if_false]
  refine asks_await_part rfl ⟨rfl, rfl⟩
    (asks_ofExcept_part (by rw [hresolve]; rfl) ?_)
  -- The upload is the next call, and whatever becomes of it, the rest follows.
  apply asks_of_only rfl
  refine Prog.Only.bind (Prog.Only.bind (Prog.Only.tryFinally only_uploadOrEmpty
    fun outcome => only_cleanUp _ outcome) fun uploaded => ?_) fun archiveUrl => ?_
  · refine (Prog.only_perform fun _ httl => ?_).bind fun _ => trivial
    exact (Option.some.inj httl).symm
  · refine (Prog.only_perform (follows_of_none rfl)).bind fun delivered => ?_
    apply Prog.Only.bind (only_deliverOnce _ _ _ _)
    intro _
    refine (Prog.only_perform (follows_of_none rfl)).bind fun _ => ?_
    exact (only_forgetFinished _).bind fun _ => trivial

/-- Any other task asks for none. -/
theorem asks_none (env : Env) (arguments : Arguments)
    (hnot : ∀ ttl resolved, (env.channels arguments.channelId).messageable = true →
      timedeltaHours (env.settings arguments).retentionHours = .ok ttl →
      resolve arguments.filters (env.settings arguments) env.clock.now ≠
        .ok resolved) :
    Asks none (env.calls arguments) := by
  obtain ⟨calls, hsettings, hplain⟩ :=
    run_resolveSettings env arguments
  refine asks_await rfl ⟨rfl, rfl⟩ (asks_bind hsettings hplain ?_)
  cases httl : timedeltaHours (env.settings arguments).retentionHours with
  | error error => exact asks_ofExcept_raised rfl
  | ok ttl =>
      refine asks_ofExcept rfl (asks_await rfl ⟨rfl, rfl⟩
        (asks_await_part rfl ⟨rfl, rfl⟩ ?_))
      dsimp only
      split
      case isTrue => exact asks_of_plain (List.forall_mem_nil _)
      case isFalse hchannel =>
        apply asks_await_part rfl ⟨rfl, rfl⟩
        cases hresolve : resolve arguments.filters (env.settings arguments)
          env.clock.now with
        | error error => exact asks_of_plain (List.forall_mem_nil _)
        | ok resolved =>
            exact absurd hresolve (hnot ttl resolved (by simpa using hchannel) httl)

end Calls

/-! ## The two runs -/

section Redirects

variable {env : Env} {arguments : Arguments} {guildId : ℕ}

theorem Asks.archive_eq {request : Option UploadRequest}
    (hasks : Asks request (env.calls arguments)) :
    env.archive arguments = request.elim [] fun asked => (env.walk asked).archive := by
  rw [Env.archive, Env.request, hasks.asked]

/-- Whatever is archived keeps to the policy that the upload was asked with. -/
theorem allowed_of_archive {asked : UploadRequest} {member : Member}
    (hmember : member ∈ (env.walk asked).archive) {types : List String}
    (htypes : types ∈ asked.filters.matcher.guildAllowedTypes) :
    contentType env.lower member.attachment ∈ types := by
  obtain ⟨visit, hselects, rfl⟩ := exists_selected_of_mem_archive hmember
  exact (Matcher.accepts_iff.mp hselects).2 types htypes

/-- Two runs that ask for the same lifetime, for archives that come out the same,
and one of them under the policy. -/
theorem onlyRedirects_of_asks {request other : Option UploadRequest}
    (hasks : Asks request (env.calls (arguments.inGuild guildId true)))
    (hother : Asks other (env.calls (arguments.inGuild guildId false)))
    (httl : request.map UploadRequest.ttl = other.map UploadRequest.ttl)
    (harchive : (request.elim [] fun asked => (env.walk asked).archive) =
      other.elim [] fun asked => (env.walk asked).archive)
    (hpolicy : ∀ asked ∈ other, asked.filters.matcher.guildAllowedTypes =
      (GuildSettings.ofRow guildId env.row).allowedMediaTypes) :
    OnlyRedirects env arguments guildId := by
  have hsame : env.archive (arguments.inGuild guildId true) =
      env.archive (arguments.inGuild guildId false) := by
    rw [hasks.archive_eq, hother.archive_eq, harchive]
  refine ⟨hsame, ?_, ?_, ?_⟩
  · rw [Env.request, Env.request, hasks.asked, hother.asked, httl]
  · intro ttl hmem ttl' hmem'
    obtain ⟨call, hcall, hkey⟩ := List.mem_filterMap.mp hmem
    obtain ⟨call', hcall', hkey'⟩ := List.mem_filterMap.mp hmem'
    obtain ⟨asked, rfl, rfl⟩ := hasks.keys call hcall ttl hkey
    obtain ⟨asked', rfl, rfl⟩ := hother.keys call' hcall' ttl' hkey'
    rw [Option.some.inj httl]
  · intro dmMe types htypes member hmember
    have hunder : member ∈ env.archive (arguments.inGuild guildId false) := by
      cases dmMe with
      | true => exact hsame ▸ hmember
      | false => exact hmember
    rw [hother.archive_eq] at hunder
    cases other with
    | none => cases hunder
    | some asked =>
        exact allowed_of_archive hunder (by rw [hpolicy asked rfl]; exact htypes)

/-- Without the policy, the filters resolve as they do with it. -/
theorem resolve_inGuild_dm {resolved : ResolvedFilters}
    (hresolve : resolve arguments.filters (.ofRow guildId env.row) env.clock.now =
      .ok resolved) :
    resolve arguments.filters { guildId := guildId } env.clock.now =
      .ok { resolved with matcher := resolved.matcher.under none } := by
  rw [resolve_eq_map _ _ (.ofRow guildId env.row), hresolve]
  rfl

theorem timedeltaHours_default : timedeltaHours 24 = .ok 86400000000 := rfl

/-- What the task asks for with `dm_me`, where it asks for anything. -/
theorem asks_redirected {resolved : ResolvedFilters}
    (hchannel : (env.channels arguments.channelId).messageable = true)
    (hresolve : resolve arguments.filters (.ofRow guildId env.row) env.clock.now =
      .ok resolved) :
    Asks (some (env.upcoming (arguments.inGuild guildId true) 86400000000
        { resolved with matcher := resolved.matcher.under none }))
      (env.calls (arguments.inGuild guildId true)) :=
  asks_upcoming env (arguments.inGuild guildId true) hchannel timedeltaHours_default
    (resolve_inGuild_dm hresolve)

/-- An archive that lives as long as it does with `dm_me` is kept for a day. -/
theorem retentionHours_of_uploadTtl {resolved : ResolvedFilters}
    (hchannel : (env.channels arguments.channelId).messageable = true)
    (hresolve : resolve arguments.filters (.ofRow guildId env.row) env.clock.now =
      .ok resolved)
    (hlifetime :
      (env.request (arguments.inGuild guildId true)).map UploadRequest.ttl =
      (env.request (arguments.inGuild guildId false)).map UploadRequest.ttl) :
    (GuildSettings.ofRow guildId env.row).retentionHours = 24 := by
  rw [Env.request, Env.request, (asks_redirected hchannel hresolve).asked] at hlifetime
  cases httl : timedeltaHours (GuildSettings.ofRow guildId env.row).retentionHours with
  | error error =>
      have hother := asks_none env (arguments.inGuild guildId false)
        fun ttl _ _ hok => by cases httl.symm.trans hok
      rw [hother.asked] at hlifetime
      cases hlifetime
  | ok ttl =>
      have hother := asks_upcoming env (arguments.inGuild guildId false) hchannel
        httl hresolve
      rw [hother.asked] at hlifetime
      have hhours : (86400000000 : ℤ) = _ * 3600 * 1000000 :=
        (Option.some.inj hlifetime).trans (timedeltaHours_eq_ok httl)
      omega

/-- The archives without and with the policy, where both are asked for. -/
theorem archive_upcoming_iff {resolved : ResolvedFilters} {ttl ttl' : TimeDelta} :
    (env.walk (env.upcoming (arguments.inGuild guildId true) ttl
        { resolved with matcher := resolved.matcher.under none })).archive =
      (env.walk (env.upcoming (arguments.inGuild guildId false) ttl'
        resolved)).archive ↔
      Immaterial (env.selects (resolved.matcher.under none))
        (env.selects resolved.matcher) env.fetch
        (env.visits arguments.channelId resolved) :=
  archive_eq_iff fun _ hselects => (Matcher.accepts_iff.mp hselects).1

/-- `dm_me` only redirects the delivery if and only if the policy of the guild and
its retention time make no difference to the task anyway. -/
theorem onlyRedirects_iff (env : Env) (arguments : Arguments) (guildId : ℕ) :
    OnlyRedirects env arguments guildId ↔ PolicyIdle env arguments guildId := by
  constructor
  · intro honly resolved hchannel hresolve
    have hhours := retentionHours_of_uploadTtl hchannel hresolve honly.uploadTtl
    have hother := asks_upcoming env (arguments.inGuild guildId false) hchannel
      ((congrArg timedeltaHours hhours).trans timedeltaHours_default) hresolve
    have harchive := honly.archive
    rw [(asks_redirected hchannel hresolve).archive_eq, hother.archive_eq] at harchive
    exact ⟨hhours, archive_upcoming_iff.mp harchive⟩
  · intro hidle
    by_cases hchannel : (env.channels arguments.channelId).messageable = true
    · cases hresolve : resolve arguments.filters (.ofRow guildId env.row)
        env.clock.now with
      | ok resolved =>
          obtain ⟨hhours, hpolicy⟩ := hidle resolved hchannel hresolve
          have hother := asks_upcoming env (arguments.inGuild guildId false) hchannel
            ((congrArg timedeltaHours hhours).trans timedeltaHours_default) hresolve
          apply onlyRedirects_of_asks (asks_redirected hchannel hresolve) hother rfl
            (archive_upcoming_iff.mpr hpolicy)
          intro asked hasked
          obtain rfl := Option.some.inj hasked
          exact congrArg Matcher.guildAllowedTypes (matcher_of_resolve hresolve)
      | error error =>
          have hraised : ∀ resolved, resolve arguments.filters { guildId := guildId }
              env.clock.now ≠ .ok resolved := by
            intro resolved hok
            rw [resolve_eq_map _ _ (.ofRow guildId env.row), hresolve] at hok
            cases hok
          exact onlyRedirects_of_asks
            (asks_none env _ fun _ resolved _ _ => hraised resolved)
            (asks_none env _ fun _ _ _ _ hok => by cases hresolve.symm.trans hok)
            rfl rfl (by simp)
    · exact onlyRedirects_of_asks
        (asks_none env _ fun _ _ hmessageable => absurd hmessageable hchannel)
        (asks_none env _ fun _ _ hmessageable => absurd hmessageable hchannel)
        rfl rfl (by simp)

/-- A guild that allows only PNG images and keeps archives for a day, and a channel
with one video. -/
def pngOnly : Env where
  row := some ⟨1, .dm, none, some ["image/png"], none, 24⟩
  channels channelId := ⟨channelId, some "general", true⟩
  history _ _ _ := [⟨5, 7, ⟨0, by decide⟩, [⟨"a.mp4", "u", none, some "video/mp4"⟩]⟩]
  fetch _ := .streamed
  signedUrl _ := "url"
  clock := ⟨⟨0, by decide⟩, ⟨1, 1, 1⟩⟩
  lower := id

/-- With `dm_me` the video is archived. -/
theorem not_onlyRedirects_pngOnly :
    ¬ OnlyRedirects pngOnly ⟨"a", 3, 7, none, true, none⟩ 1 := by
  intro honly
  have hdiffer :
      pngOnly.archive (Arguments.inGuild ⟨"a", 3, 7, none, true, none⟩ 1 true) ≠
      pngOnly.archive (Arguments.inGuild ⟨"a", 3, 7, none, true, none⟩ 1 false) := by
    decide +kernel
  exact hdiffer honly.archive

end Redirects

end DownloaderBot.Tasks
