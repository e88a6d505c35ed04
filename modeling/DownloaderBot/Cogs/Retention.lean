import DownloaderBot.Cogs.SetupRuns
import DownloaderBot.Tasks.DownloadRuns
import DownloaderBot.Tasks.Redirect

/-!
# What the retention time does to a job

The attempts at a task where only its own arithmetic and the arguments of its calls can
go wrong: a datetime past its range raises, and Redis refuses a lifetime that is not
positive.
-/

namespace DownloaderBot.Retention

open DownloaderBot.Calendar
open DownloaderBot.Discord
open DownloaderBot.Embeds
open DownloaderBot.Filters
open DownloaderBot.GuildTable
open DownloaderBot.Program
open DownloaderBot.SetupCog (execAll owner unconfigured)
open DownloaderBot.Tasks
open DownloaderBot.ZipStream

/-- The signing of a blob at a moment, for the lifetime asked for.  `expiryOf`: the expiry
that was passed to the SDK for a URL, in microseconds; the token itself has it in whole
seconds. -/
structure Signer where
  sign : UploadRequest → DateTime → String
  expiryOf : String → ℕ
  sign_ne : ∀ request start, sign request start ≠ emptySentinel
  expiryOf_sign : ∀ request start expiry, start.add request.ttl = .ok expiry →
    expiryOf (sign request start) = expiry.micros

/-- What all attempts find. -/
structure Scene where
  table : Table
  channels : ℕ → Channel
  history : ℕ → Option DateTime → Option DateTime → List Message
  fetch : Visit → Fetch
  lower : String → String
  signer : Signer

/-- When an attempt is picked up, signs its blob and sends. -/
structure Moments where
  clock : Clock
  signedAt : DateTime
  sentAt : DateTime

/-- The idempotency keys of the task, and the embeds that went out.  An attempt that sets
a key is the last one, so the deadlines of the keys are left out. -/
structure World where
  archiveUrl : Option String
  delivered : Bool
  sent : List (Embed × DateTime)

section Job

variable (scene : Scene) (arguments : Arguments) (moments : Moments)

/-- What one attempt finds. -/
def Scene.env : Env where
  row := arguments.guildId.bind fun guildId => (scene.table.rows guildId).map Row.settings
  channels := scene.channels
  history := scene.history
  fetch := scene.fetch
  signedUrl request := scene.signer.sign request moments.signedAt
  clock := moments.clock
  lower := scene.lower

/-- `upload_and_sign`: the expiry is worked out once the blob is stored. -/
def Scene.upload (request : UploadRequest) : Except Exn String :=
  match (scene.env arguments moments).upload request with
  | .error exception => .error exception
  | .ok url =>
      match moments.signedAt.add request.ttl with
      | .error raised => .error (.time raised)
      | .ok _ => .ok url

/-- A Redis `SET` with `EX`. -/
def setEx (ttlSeconds : ℤ) (world after : World) : Except Exn Unit × World :=
  if 0 < ttlSeconds then (.ok (), after) else (.error .other, world)

def serve (world : World) : (request : Call) → Except Exn (Reply request) × World
  | .uploadAndSign request => (scene.upload arguments moments request, world)
  | .getCachedArchiveUrl => (.ok world.archiveUrl, world)
  | .cacheArchiveUrl url ttlSeconds =>
      setEx ttlSeconds world { world with archiveUrl := some url }
  | .isDelivered => (.ok world.delivered, world)
  | .markDelivered ttlSeconds => setEx ttlSeconds world { world with delivered := true }
  | .send _ embed =>
      (.ok (), { world with sent := world.sent ++ [(embed, moments.sentAt)] })
  | request => ((scene.env arguments moments).answer request, world)

def attempt (world : World) : Except Exn DownloadResult × World :=
  (downloadChannelMedia arguments moments.clock).exec (serve scene arguments moments) world

/-- An attempt that fails is followed by the next, as long as there are retries. -/
def job : Moments → List Moments → World → Except Exn DownloadResult × World
  | moments, [], world => attempt scene arguments moments world
  | moments, next :: later, world =>
      match attempt scene arguments moments world with
      | (.ok result, after) => (.ok result, after)
      | (.error _, after) => job next later after

/-- No attempt has set a key yet, nor sent anything. -/
def World.initial : World := ⟨none, false, []⟩

/-- The job ends as delivered, with a link that was sent before it expires. -/
def Delivers (first : Moments) (later : List Moments) : Prop :=
  ∃ result after, job scene arguments first later .initial = (.ok result, after) ∧
    result.status = .delivered ∧
      ∃ sentAt, (mediaDownload result.url arguments.userId, sentAt) ∈ after.sent ∧
        sentAt.micros < scene.signer.expiryOf result.url

/-- The filters make sense at the time, the walk meets an attachment to archive, and
nothing aborts it. -/
def Archivable : Prop :=
  ∃ resolved, resolve arguments.filters ((scene.env arguments moments).settings arguments)
      moments.clock.now = .ok resolved ∧
    ¬ Aborts ((scene.env arguments moments).selects resolved.matcher) scene.fetch
      ((scene.env arguments moments).visits arguments.channelId resolved) ∧
    archived ((scene.env arguments moments).selects resolved.matcher) scene.fetch
      ((scene.env arguments moments).visits arguments.channelId resolved) ≠ []

/-- The hours that the archive of a task from the guild is kept. -/
def Scene.retentionHours (guildId : ℕ) : ℤ :=
  if arguments.dmMe then 24 else (scene.table.get guildId).retentionHours

end Job

/-- The lifetime is positive and ends within the calendar, and the link is sent
within it. -/
structure InTime (retentionHours : ℤ) (moments : Moments) : Prop where
  positive : 1 ≤ retentionHours
  representable : (moments.signedAt.micros : ℤ) + retentionHours * 3600 * 1000000 <
    (maxOrdinal * microsPerDay : ℕ)
  early : (moments.sentAt.micros : ℤ) <
    moments.signedAt.micros + retentionHours * 3600 * 1000000

section Attempt

variable {scene : Scene} {arguments : Arguments} {moments : Moments} {world : World}

/-- A call that the attempt comes to the end of. -/
theorem exec_await {α : Type} {call : Call} (reply : Reply call)
    {rest : Reply call → Tasks.Task α} {after : World}
    (hserve : serve scene arguments moments world call = (.ok reply, after)) :
    ((await call).bind rest).exec (serve scene arguments moments) world =
      (rest reply).exec (serve scene arguments moments) after :=
  Prog.exec_bind_of_ok ((Prog.exec_perform call world).trans hserve)

theorem exec_resolveSettings :
    (resolveSettings arguments).exec (serve scene arguments moments) world =
      (.ok ((scene.env arguments moments).settings arguments), world) := by
  obtain ⟨taskId, channelId, userId, guildId, dmMe, filters⟩ := arguments
  match guildId, dmMe with
  | none, _ => rfl
  | some _, true => rfl
  | some _, false => exact Prog.exec_perform _ _

theorem retentionHours_settings (scene : Scene) (moments : Moments) {guildId : ℕ}
    (hguild : arguments.guildId = some guildId) :
    ((scene.env arguments moments).settings arguments).retentionHours =
      scene.retentionHours arguments guildId := by
  simp only [Env.settings, Scene.retentionHours, hguild]
  split
  · rfl
  · simp only [Scene.env, hguild, Option.bind_some, Table.get]
    cases scene.table.rows guildId <;> rfl

/-- The upload of an archive that the walk yields. -/
theorem upload_of_archived (request : UploadRequest)
    (hnot : ¬ Aborts ((scene.env arguments moments).selects request.filters.matcher)
      scene.fetch ((scene.env arguments moments).visits request.channelId request.filters))
    (hsome : archived ((scene.env arguments moments).selects request.filters.matcher)
      scene.fetch ((scene.env arguments moments).visits request.channelId
        request.filters) ≠ []) :
    scene.upload arguments moments request =
      match moments.signedAt.add request.ttl with
      | .error raised => .error (.time raised)
      | .ok _ => .ok (scene.signer.sign request moments.signedAt) := by
  have hwalk := members_of_not_aborts hnot
  obtain ⟨visit, rest, harchived⟩ := List.exists_cons_of_ne_nil hsome
  rw [harchived] at hwalk
  have hupload : (scene.env arguments moments).upload request =
      .ok (scene.signer.sign request moments.signedAt) := by
    rw [Env.upload, show (scene.env arguments moments).walk request = _ from hwalk]
    rfl
  rw [Scene.upload, hupload]

/-! ### The delivery -/

/-- The embed goes out now. -/
def World.send (world : World) (embed : Embed) (sentAt : DateTime) : World :=
  { world with sent := world.sent ++ [(embed, sentAt)] }

theorem exec_dmUser (userId : ℕ) (embed : Embed) :
    (dmUser userId embed).exec (serve scene arguments moments) world =
      (.ok (), world.send embed moments.sentAt) :=
  (exec_await () rfl).trans (Prog.exec_tryExcept_of_ok (Prog.exec_perform _ _))

/-- A results channel that is no place to post to falls back to the direct message. -/
theorem exec_postToChannel (channelId : ℕ) (embed : Embed) (userId : ℕ) :
    (postToChannel channelId embed userId).exec (serve scene arguments moments) world =
      (.ok (), world.send embed moments.sentAt) := by
  cases hmessageable : (scene.channels channelId).messageable with
  | true =>
      apply Prog.exec_tryExcept_of_ok
      refine (exec_await (scene.channels channelId) rfl).trans ?_
      simp only [hmessageable, Bool.not_true, Bool.false_eq_true, if_false]
      exact Prog.exec_perform _ _
  | false =>
      let post : Tasks.Task Unit := (await (.fetchChannel channelId)).bind fun channel =>
        if !channel.messageable then Prog.raise .typeError
        else await (.send (.channel channelId) embed)
      have hraised : post.exec (serve scene arguments moments) world =
          (.error .typeError, world) := by
        refine (exec_await (scene.channels channelId) rfl).trans ?_
        simp only [hmessageable, Bool.not_false, if_true]
        rfl
      exact (Prog.exec_tryExcept_of_error hraised rfl).trans (exec_dmUser _ _)

theorem exec_deliverPhase (guildSettings : GuildSettings) (mode : DeliveryMode)
    (archiveUrl : String) {ttlSeconds : ℤ} (httl : 0 < ttlSeconds) :
    (deliverPhase arguments guildSettings mode archiveUrl ttlSeconds).exec
        (serve scene arguments moments) world =
      (.ok (), { world.send (resultEmbed archiveUrl arguments.userId) moments.sentAt with
        delivered := true }) := by
  have hmark : ∀ after : World, (await (.markDelivered ttlSeconds)).exec
      (serve scene arguments moments) after = (.ok (), { after with delivered := true }) :=
    fun after => (Prog.exec_perform _ _).trans (if_pos httl)
  refine (exec_await () rfl).trans ?_
  dsimp only
  split
  · exact (Prog.exec_bind_of_ok (exec_postToChannel _ _ _)).trans (hmark _)
  · exact (Prog.exec_bind_of_ok (exec_dmUser _ _)).trans (hmark _)

/-! ### The upload phase -/

theorem exec_cleanUp (name : String) (exception : Exn) :
    (cleanUp name (.error exception)).exec (serve scene arguments moments) world =
      (.ok (), world) :=
  Prog.exec_tryExcept_of_ok (Prog.exec_perform _ _)

/-- The upload with its cleanup ends as the storage backend does. -/
theorem exec_upload (world : World) {request : UploadRequest} (name : String)
    (hmatching : scene.upload arguments moments request ≠ .error .noMatchingAttachments) :
    ((uploadOrEmpty request).tryFinally (cleanUp name)).exec
        (serve scene arguments moments) world =
      ((scene.upload arguments moments request).map fun url => (url, false), world) := by
  have hcall : (await (.uploadAndSign request)).exec (serve scene arguments moments) world =
      (scene.upload arguments moments request, world) := Prog.exec_perform _ _
  cases hupload : scene.upload arguments moments request with
  | ok url =>
      rw [hupload] at hcall
      have hbody : (uploadOrEmpty request).exec (serve scene arguments moments) world =
          (.ok (url, false), world) :=
        Prog.exec_tryExcept_of_ok (Prog.exec_bind_of_ok hcall)
      exact Prog.exec_tryFinally_of_ok hbody rfl
  | error exception =>
      rw [hupload] at hcall hmatching
      have hbody : (uploadOrEmpty request).exec (serve scene arguments moments) world =
          (.error exception, world) := by
        apply Prog.exec_tryExcept_of_uncaught (Prog.exec_bind_of_error hcall)
        exact decide_eq_false fun hsame => hmatching (congrArg Except.error hsame)
      exact Prog.exec_tryFinally_of_ok hbody (exec_cleanUp name exception)

/-- What the attempt asks to be stored. -/
def requestOf (scene : Scene) (arguments : Arguments) (moments : Moments)
    (resolved : ResolvedFilters) (ttl : TimeDelta) : UploadRequest :=
  ⟨"channel-" ++ toString arguments.channelId ++ "-" ++ arguments.taskId ++ ".zip",
    arguments.channelId, resolved, ttl,
    displayFilename (scene.channels arguments.channelId) moments.clock.today⟩

/-- The upload phase is the upload and the write of its key. -/
theorem exec_uploadPhase (world : World) {guildSettings : GuildSettings}
    {resolved : ResolvedFilters}
    (hchannel : (scene.channels arguments.channelId).messageable = true)
    (hresolve : resolve arguments.filters guildSettings moments.clock.now = .ok resolved)
    {ttl : TimeDelta} (ttlSeconds : ℤ)
    (hmatching : scene.upload arguments moments
      (requestOf scene arguments moments resolved ttl) ≠ .error .noMatchingAttachments) :
    (uploadPhase arguments moments.clock guildSettings ttl ttlSeconds).exec
        (serve scene arguments moments) world =
      match scene.upload arguments moments
        (requestOf scene arguments moments resolved ttl) with
      | .error exception => (.error exception, world)
      | .ok url =>
          if 0 < ttlSeconds then (.ok url, { world with archiveUrl := some url })
          else (.error .other, world) := by
  refine (exec_await (scene.channels arguments.channelId) rfl).trans ?_
  simp only [hchannel, Bool.not_true, Bool.false_eq_true, if_false]
  refine (exec_await () rfl).trans ?_
  rw [hresolve]
  refine (Prog.exec_bind_of_ok rfl).trans ?_
  have hupload := exec_upload world ("channel-" ++ toString arguments.channelId ++ "-" ++
    arguments.taskId ++ ".zip") hmatching
  cases houtcome : scene.upload arguments moments
    (requestOf scene arguments moments resolved ttl) with
  | error exception =>
      rw [houtcome] at hupload
      exact Prog.exec_bind_of_error hupload
  | ok url =>
      rw [houtcome] at hupload
      refine (Prog.exec_bind_of_ok hupload).trans ?_
      dsimp only
      split
      case isTrue httl =>
        have hcache : serve scene arguments moments world (.cacheArchiveUrl url ttlSeconds) =
            (.ok (), { world with archiveUrl := some url }) := if_pos httl
        exact (exec_await () hcache).trans rfl
      case isFalse hnot =>
        exact Prog.exec_bind_of_error ((Prog.exec_perform _ _).trans (if_neg hnot))

/-! ### The attempt -/

/-- The upload of an archive fails only past the end of the calendar. -/
theorem upload_cases {resolved : ResolvedFilters} (ttl : TimeDelta)
    (hnot : ¬ Aborts ((scene.env arguments moments).selects resolved.matcher) scene.fetch
      ((scene.env arguments moments).visits arguments.channelId resolved))
    (hsome : archived ((scene.env arguments moments).selects resolved.matcher) scene.fetch
      ((scene.env arguments moments).visits arguments.channelId resolved) ≠ []) :
    (∃ raised, moments.signedAt.add ttl = .error raised ∧
      scene.upload arguments moments (requestOf scene arguments moments resolved ttl) =
        .error (.time raised)) ∨
    ∃ expiry, moments.signedAt.add ttl = .ok expiry ∧
      scene.upload arguments moments (requestOf scene arguments moments resolved ttl) =
        .ok (scene.signer.sign (requestOf scene arguments moments resolved ttl)
          moments.signedAt) := by
  have hupload := upload_of_archived (requestOf scene arguments moments resolved ttl) hnot
    hsome
  rw [show (requestOf scene arguments moments resolved ttl).ttl = ttl from rfl] at hupload
  cases hadd : moments.signedAt.add ttl with
  | error raised =>
      rw [hadd] at hupload
      exact .inl ⟨raised, rfl, hupload⟩
  | ok expiry =>
      rw [hadd] at hupload
      exact .inr ⟨expiry, rfl, hupload⟩

/-- What an attempt does once it has the URL. -/
def conclude (arguments : Arguments) (guildSettings : GuildSettings) (ttlSeconds : ℤ)
    (archiveUrl : String) : Tasks.Task DownloadResult := do
  let mode := if arguments.dmMe then .dm else guildSettings.deliveryMode
  let delivered ← await .isDelivered
  deliverOnce arguments guildSettings mode archiveUrl ttlSeconds delivered
  await (.setProgress .done)
  forgetFinished arguments.userId
  return ⟨archiveUrl, mode, if archiveUrl = emptySentinel then .empty else .delivered⟩

/-- Where no key is set, an attempt comes to its upload phase. -/
theorem attempt_eq (hkey : world.archiveUrl = none) {ttl : TimeDelta}
    (httl : timedeltaHours ((scene.env arguments moments).settings
      arguments).retentionHours = .ok ttl) :
    attempt scene arguments moments world =
      ((uploadPhase arguments moments.clock ((scene.env arguments moments).settings
        arguments) ttl (ttl / 1000000)).bind (conclude arguments
          ((scene.env arguments moments).settings arguments) (ttl / 1000000))).exec
        (serve scene arguments moments) world := by
  have hserve : serve scene arguments moments world .getCachedArchiveUrl =
      (.ok none, world) := by rw [serve, hkey]
  have hmapped : (timedeltaHours ((scene.env arguments moments).settings
      arguments).retentionHours).mapError Exn.time = .ok ttl := by
    rw [httl]
    rfl
  refine (exec_await () rfl).trans ?_
  refine (Prog.exec_bind_of_ok exec_resolveSettings).trans ?_
  refine (Prog.exec_bind_of_ok ((Prog.exec_ofExcept _ _).trans
    (congrArg (·, world) hmapped))).trans ?_
  exact Prog.exec_bind_of_ok ((Prog.exec_perform _ _).trans hserve)

theorem attempt_of_timedelta_error {raised : TimeError}
    (hraised : timedeltaHours ((scene.env arguments moments).settings
      arguments).retentionHours = .error raised) :
    attempt scene arguments moments world = (.error (.time raised), world) := by
  have hmapped : (timedeltaHours ((scene.env arguments moments).settings
      arguments).retentionHours).mapError Exn.time = .error (.time raised) := by
    rw [hraised]
    rfl
  refine (exec_await () rfl).trans ?_
  refine (Prog.exec_bind_of_ok exec_resolveSettings).trans ?_
  exact Prog.exec_bind_of_error ((Prog.exec_ofExcept _ _).trans
    (congrArg (·, world) hmapped))

theorem exec_conclude (hdelivered : world.delivered = false) (guildSettings : GuildSettings)
    {ttlSeconds : ℤ} (httl : 0 < ttlSeconds) (archiveUrl : String) :
    (conclude arguments guildSettings ttlSeconds archiveUrl).exec
        (serve scene arguments moments) world =
      (.ok ⟨archiveUrl, if arguments.dmMe then .dm else guildSettings.deliveryMode,
          if archiveUrl = emptySentinel then .empty else .delivered⟩,
        { world.send (resultEmbed archiveUrl arguments.userId) moments.sentAt with
          delivered := true }) := by
  have hserve : serve scene arguments moments world .isDelivered = (.ok false, world) := by
    rw [serve, hdelivered]
  refine (exec_await false hserve).trans ?_
  refine (Prog.exec_bind_of_ok (exec_deliverPhase _ _ _ httl)).trans ?_
  refine (exec_await () rfl).trans ?_
  exact Prog.exec_bind_of_ok (Prog.exec_tryExcept_of_ok (Prog.exec_perform _ _))

end Attempt

/-! ## The job -/

/-- The lifetime is positive and ends within the calendar. -/
def Storable (retentionHours : ℤ) (moments : Moments) : Prop :=
  1 ≤ retentionHours ∧ (moments.signedAt.micros : ℤ) + retentionHours * 3600 * 1000000 <
    (maxOrdinal * microsPerDay : ℕ)

section Job

variable {scene : Scene} {arguments : Arguments} {moments first : Moments} {world : World}
variable {later : List Moments} {guildId : ℕ}

theorem timedeltaHours_of_storable {hours : ℤ} (hstorable : Storable hours moments) :
    timedeltaHours hours = .ok (hours * 3600 * 1000000) := by
  obtain ⟨hpositive, hlast⟩ := hstorable
  have hfirst : 0 ≤ (moments.signedAt.micros : ℤ) := Int.natCast_nonneg _
  have hbound : hours * 3600 * 1000000 < 3652059 * (86400 * 1000000) := by
    have hscale : ((maxOrdinal * microsPerDay : ℕ) : ℤ) = 3652059 * (86400 * 1000000) := by
      norm_num [maxOrdinal, microsPerDay]
    rw [hscale] at hlast
    omega
  have hfits : (hours * 3600 / 86400).natAbs ≤ 999999999 := by omega
  rw [timedeltaHours, timedeltaSeconds, if_pos hfits]

theorem seconds_of_hours (hours : ℤ) : hours * 3600 * 1000000 / 1000000 = hours * 3600 :=
  Int.mul_ediv_cancel _ (by decide)

/-- An attempt whose lifetime is all right delivers. -/
theorem attempt_of_storable (hguild : arguments.guildId = some guildId)
    (hchannel : (scene.channels arguments.channelId).messageable = true)
    (harchivable : Archivable scene arguments moments)
    (hstorable : Storable (scene.retentionHours arguments guildId) moments) :
    ∃ url mode, attempt scene arguments moments .initial =
        (.ok ⟨url, mode, .delivered⟩,
          ⟨some url, true, [(mediaDownload url arguments.userId, moments.sentAt)]⟩) ∧
      (scene.signer.expiryOf url : ℤ) = moments.signedAt.micros +
        scene.retentionHours arguments guildId * 3600 * 1000000 := by
  obtain ⟨resolved, hresolve, hnot, hsome⟩ := harchivable
  have hsettings := retentionHours_settings scene moments hguild
  have httl := timedeltaHours_of_storable hstorable
  obtain ⟨hpositive, hlast⟩ := hstorable
  generalize scene.retentionHours arguments guildId = hours at *
  have hnonneg : 0 ≤ hours * 3600 * 1000000 := by omega
  obtain ⟨expiry, hadd⟩ := (DateTime.exists_add_eq_ok_iff hnonneg).mpr hlast
  have hupload : scene.upload arguments moments (requestOf scene arguments moments resolved
      (hours * 3600 * 1000000)) = .ok (scene.signer.sign (requestOf scene arguments moments
        resolved (hours * 3600 * 1000000)) moments.signedAt) := by
    rcases upload_cases _ hnot hsome with ⟨raised, hraised, -⟩ | ⟨_, -, hupload⟩
    · cases hraised.symm.trans hadd
    · exact hupload
  have hne := scene.signer.sign_ne (requestOf scene arguments moments resolved
    (hours * 3600 * 1000000)) moments.signedAt
  have hexpiry := scene.signer.expiryOf_sign (requestOf scene arguments moments resolved
    (hours * 3600 * 1000000)) moments.signedAt expiry hadd
  generalize scene.signer.sign _ moments.signedAt = url at hupload hne hexpiry
  have hseconds : 0 < hours * 3600 * 1000000 / 1000000 := by
    rw [seconds_of_hours]
    omega
  have hphase := exec_uploadPhase .initial hchannel hresolve
    (hours * 3600 * 1000000 / 1000000) (by rw [hupload]; exact nofun)
  rw [hupload] at hphase
  dsimp only at hphase
  rw [if_pos hseconds] at hphase
  have hattempt : attempt scene arguments moments .initial = _ :=
    attempt_eq rfl (by rw [hsettings]; exact httl)
  rw [Prog.exec_bind_of_ok hphase, exec_conclude rfl _ hseconds, if_neg hne, resultEmbed,
    if_neg hne] at hattempt
  refine ⟨url, _, hattempt, ?_⟩
  rw [hexpiry]
  exact DateTime.micros_of_add hadd

/-- Any other attempt fails, and leaves everything as it was. -/
theorem attempt_of_not_storable (hguild : arguments.guildId = some guildId)
    (hchannel : (scene.channels arguments.channelId).messageable = true)
    (harchivable : Archivable scene arguments moments)
    (hnot : ¬ Storable (scene.retentionHours arguments guildId) moments)
    (hkey : world.archiveUrl = none) :
    ∃ exception, attempt scene arguments moments world = (.error exception, world) := by
  obtain ⟨resolved, hresolve, haborts, hsome⟩ := harchivable
  have hsettings := retentionHours_settings scene moments hguild
  generalize scene.retentionHours arguments guildId = hours at *
  cases httl : timedeltaHours hours with
  | error raised => exact ⟨_, attempt_of_timedelta_error (by rw [hsettings]; exact httl)⟩
  | ok ttl =>
      have hattempt : attempt scene arguments moments world = _ :=
        attempt_eq hkey (by rw [hsettings]; exact httl)
      have httl' := timedeltaHours_eq_ok httl
      have hphase := exec_uploadPhase world hchannel hresolve (ttl / 1000000) (by
        rcases upload_cases ttl haborts hsome with ⟨_, -, hupload⟩ | ⟨_, -, hupload⟩
        · rw [hupload]
          exact nofun
        · rw [hupload]
          exact nofun)
      rcases upload_cases ttl haborts hsome with
        ⟨raised, -, hupload⟩ | ⟨expiry, hadd, hupload⟩
      · rw [hupload] at hphase
        exact ⟨_, hattempt.trans (Prog.exec_bind_of_error hphase)⟩
      · have hrefused : ¬ 0 < ttl / 1000000 := by
          intro hseconds
          have hpositive : 0 < hours * 3600 := by
            rwa [httl', seconds_of_hours] at hseconds
          have hnonneg : 0 ≤ hours * 3600 * 1000000 := by omega
          refine hnot ⟨by omega, (DateTime.exists_add_eq_ok_iff hnonneg).mp ⟨expiry, ?_⟩⟩
          rw [← httl']
          exact hadd
        rw [hupload] at hphase
        dsimp only at hphase
        rw [if_neg hrefused] at hphase
        exact ⟨_, hattempt.trans (Prog.exec_bind_of_error hphase)⟩

theorem job_of_ok {result : DownloadResult} {after : World}
    (hattempt : attempt scene arguments first world = (.ok result, after)) :
    job scene arguments first later world = (.ok result, after) := by
  cases later with
  | nil => exact hattempt
  | cons next later => rw [job, hattempt]

/-- A job all of whose attempts fail. -/
theorem job_of_not_storable (hguild : arguments.guildId = some guildId)
    (hchannel : (scene.channels arguments.channelId).messageable = true)
    (hkey : world.archiveUrl = none)
    (hall : ∀ moments ∈ first :: later, Archivable scene arguments moments ∧
      ¬ Storable (scene.retentionHours arguments guildId) moments) :
    ∃ exception, job scene arguments first later world = (.error exception, world) := by
  induction later generalizing first with
  | nil =>
      obtain ⟨harchivable, hnot⟩ := hall first List.mem_cons_self
      exact attempt_of_not_storable hguild hchannel harchivable hnot hkey
  | cons next later ih =>
      obtain ⟨⟨harchivable, hnot⟩, hrest⟩ := List.forall_mem_cons.mp hall
      obtain ⟨exception, hattempt⟩ :=
        attempt_of_not_storable hguild hchannel harchivable hnot hkey
      rw [job, hattempt]
      exact ih hrest

end Job

/-- A job from a guild delivers a link in its time exactly if the lifetime of the archive
is positive, ends within the calendar and has not passed when the link is sent. -/
theorem delivers_iff_inTime (scene : Scene) (arguments : Arguments) (guildId : ℕ)
    (first : Moments) (later : List Moments) (hguild : arguments.guildId = some guildId)
    (hchannel : (scene.channels arguments.channelId).messageable = true)
    (harchivable : ∀ moments ∈ first :: later, Archivable scene arguments moments)
    (hlater : ∀ moments ∈ later, first.signedAt.micros ≤ moments.signedAt.micros) :
    Delivers scene arguments first later ↔
      InTime (scene.retentionHours arguments guildId) first := by
  by_cases hstorable : Storable (scene.retentionHours arguments guildId) first
  · obtain ⟨url, mode, hattempt, hexpiry⟩ := attempt_of_storable hguild hchannel
      (harchivable first List.mem_cons_self) hstorable
    have hjob : job scene arguments first later .initial = _ := job_of_ok hattempt
    constructor
    · rintro ⟨result, after, hended, -, sentAt, hsent, hearly⟩
      cases hjob.symm.trans hended
      cases List.mem_singleton.mp hsent
      dsimp only at hearly
      exact ⟨hstorable.1, hstorable.2, by omega⟩
    · rintro ⟨-, -, hearly⟩
      refine ⟨_, _, hjob, rfl, first.sentAt, List.mem_singleton.mpr rfl, ?_⟩
      dsimp only
      omega
  · constructor
    · rintro ⟨result, after, hended, -⟩
      have hall : ∀ moments ∈ first :: later, Archivable scene arguments moments ∧
          ¬ Storable (scene.retentionHours arguments guildId) moments := by
        refine fun moments hmem => ⟨harchivable moments hmem, ?_⟩
        rintro ⟨hpositive, hlast⟩
        refine hstorable ⟨hpositive, lt_of_le_of_lt ?_ hlast⟩
        rcases List.mem_cons.mp hmem with rfl | hrest
        · exact le_rfl
        · have hmicros := hlater moments hrest
          omega
      have hkey : World.initial.archiveUrl = none := rfl
      obtain ⟨exception, hjob⟩ := job_of_not_storable hguild hchannel hkey hall
      cases hjob.symm.trans hended
    · rintro ⟨hpositive, hlast, -⟩
      exact absurd ⟨hpositive, hlast⟩ hstorable

/-- URLs that end in their expiry. -/
def plainSigner : Signer where
  sign request start :=
    "url?se=" ++ toString (match start.add request.ttl with
      | .ok expiry => expiry.micros
      | .error _ => 0)
  expiryOf url := Nat.ofDigitChars 10 (url.toList.drop 7) 0
  sign_ne request start hempty := by simp [emptySentinel] at hempty
  expiryOf_sign request start expiry hadd := by simp [hadd]

/-- A channel with one image. -/
def oneImage (table : Table) : Scene where
  table := table
  channels channelId := ⟨channelId, some "general", true⟩
  history _ _ _ := [⟨5, 7, inMay.now, [⟨"a.png", "u", none, some "image/png"⟩]⟩]
  fetch _ := .streamed
  lower := id
  signer := plainSigner

/-- A job from the guild `1`. -/
def fromGuild : Arguments := ⟨"a", 3, 7, some 1, false, none⟩

/-- All at once, on the first of May 2024. -/
def atOnce : Moments := ⟨inMay, inMay.now, inMay.now⟩

theorem archivable_oneImage {table : Table}
    (hpolicy : (table.get 1).allowedMediaTypes = none) :
    Archivable (oneImage table) fromGuild atOnce := by
  have hsettings : ((oneImage table).env fromGuild atOnce).settings fromGuild =
      GuildSettings.ofRow 1 ((table.rows 1).map Row.settings) := rfl
  have hallowed : (GuildSettings.ofRow 1
      ((table.rows 1).map Row.settings)).allowedMediaTypes = none := by
    rw [← hpolicy, Table.get]
    cases table.rows 1 <;> rfl
  refine ⟨⟨⟨none, none, none⟩, none, none⟩, ?_, ?_, ?_⟩
  · rw [hsettings, resolve, hallowed]
    rfl
  · rintro ⟨visit, -, -, haborts⟩
    cases haborts
  · exact List.cons_ne_nil _ _

/-- A guild without a row keeps its archives for a day. -/
theorem delivers_iff_inTime_default :
    Delivers (oneImage unconfigured) fromGuild atOnce [] := by
  have htime : InTime ((oneImage unconfigured).retentionHours fromGuild 1) atOnce :=
    ⟨by decide +kernel, by decide +kernel, by decide +kernel⟩
  exact (delivers_iff_inTime (oneImage unconfigured) fromGuild 1 atOnce [] rfl rfl
    (List.forall_mem_singleton.mpr (archivable_oneImage rfl)) nofun).mpr htime

/-- The table after `/setup set` with a retention of no hours. -/
def noHours : Table := (execAll unconfigured [(owner, .setupSet "dm" none 0)]).2

/-- The archive is uploaded, its key is refused, and so again in the retry. -/
theorem not_delivers_noHours : ¬ Delivers (oneImage noHours) fromGuild atOnce [atOnce] := by
  have hnot : ¬ Storable ((oneImage noHours).retentionHours fromGuild 1) atOnce :=
    fun hstorable => absurd hstorable.1 (by decide +kernel)
  have harchivable : Archivable (oneImage noHours) fromGuild atOnce :=
    archivable_oneImage (by decide +kernel)
  have hall : ∀ moments ∈ [atOnce, atOnce], Archivable (oneImage noHours) fromGuild moments ∧
      ¬ Storable ((oneImage noHours).retentionHours fromGuild 1) moments := by
    simp only [List.mem_cons, List.not_mem_nil, or_false, or_self, forall_eq]
    exact ⟨harchivable, hnot⟩
  have hkey : World.initial.archiveUrl = none := rfl
  obtain ⟨exception, hjob⟩ := job_of_not_storable rfl rfl hkey hall
  rintro ⟨result, after, hended, -⟩
  cases hjob.symm.trans hended

end DownloaderBot.Retention
