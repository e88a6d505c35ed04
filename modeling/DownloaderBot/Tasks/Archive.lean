import DownloaderBot.Cogs.HandedFilters
import DownloaderBot.Download.Categories
import DownloaderBot.Download.PeriodWalks
import DownloaderBot.Download.ZipMembers
import DownloaderBot.Tasks.UploadProtocol

/-!
# What a command archives

From the options of `/download` over the payload, the settings of the guild and the
resolved filters to the members that stream-zip is given.
-/

namespace DownloaderBot.Archive

open DownloaderBot.Calendar
open DownloaderBot.Discord
open DownloaderBot.DownloadCog
open DownloaderBot.Filters
open DownloaderBot.Generator
open DownloaderBot.Periods
open DownloaderBot.Program
open DownloaderBot.ZipPipeline
open DownloaderBot.ZipStream (Visit visits)

/-! ## What is asked for -/

/-- The MIME types of a media type. -/
def Includes (mime : String) : MediaType → Prop
  | .image => ∃ subtype, mime = "image/" ++ subtype ∧ subtype ≠ "gif"
  | .video => ∃ subtype, mime = "video/" ++ subtype
  | .audio => ∃ subtype, mime = "audio/" ++ subtype
  | .gif => mime = "image/gif"
  | .other => ∀ kind ∈ ["image/", "video/", "audio/"], ∀ subtype, mime ≠ kind ++ subtype

/-- The unit of a period, and whether it is the one that is over. -/
def unitOf : NamedPeriod → CalendarUnit × Bool
  | .today => (.day, false)
  | .yesterday => (.day, true)
  | .thisWeek => (.week, false)
  | .lastWeek => (.week, true)
  | .thisMonth => (.month, false)
  | .lastMonth => (.month, true)
  | .thisYear => (.year, false)
  | .lastYear => (.year, true)

/-- The period, as of now, is the time from `start` to `stop`. -/
def Spans (period : NamedPeriod) (now start stop : DateTime) : Prop :=
  let unit := (unitOf period).1
  if (unitOf period).2 then
    (∃ number, Begins unit.number start number ∧ number + 1 = unit.number now) ∧
      Begins unit.number stop (unit.number now)
  else Begins unit.number start (unit.number now) ∧ stop = now

/-- The moment is so long ago. -/
def Ago (now : DateTime) (value : String) (moment : DateTime) : Prop :=
  ∃ delta, Means value delta ∧ (moment.micros : ℤ) + delta = now.micros

section Asked

variable (lower : String → String) (timeSnowflake : DateTime → Bool → ℤ)

/-- The attachment is one that the options ask for and the policy allows. -/
structure Asked (options : Options) (policy : Option (List String)) (now : DateTime)
    (visit : Visit) : Prop where
  mediaType : ∀ kind ∈ options.mediaType, Includes (contentType lower visit.2) kind
  author : ∀ user ∈ options.fromUser, visit.1.authorId = user
  policy : ∀ allowed ∈ policy, contentType lower visit.2 ∈ allowed
  before : ∀ value ∈ options.before, ∃ moment, Ago now value moment ∧
    (visit.1.id : ℤ) < timeSnowflake moment false
  after : ∀ value ∈ options.after, ∃ moment, Ago now value moment ∧
    timeSnowflake moment true < (visit.1.id : ℤ)
  during : ∀ period ∈ options.during, ∃ start stop, Spans period now start stop ∧
    timeSnowflake start true < (visit.1.id : ℤ) ∧
    (visit.1.id : ℤ) < timeSnowflake stop false

/-- The messages as they are walked: oldest first where there is a lower bound. -/
def walkOrder (options : Options) (messages : List Message) : List Message :=
  if options.after.isSome || options.during.isSome then messages else messages.reverse

end Asked

/-! ## What reaches the upload -/

section Upload

variable {arguments : Tasks.Arguments} {clock : Tasks.Clock} {guildSettings : GuildSettings}

/-- An upload is one of the filters resolved under these settings. -/
def Uploads (arguments : Tasks.Arguments) (clock : Tasks.Clock)
    (guildSettings : GuildSettings) : Tasks.Call → Prop
  | .uploadAndSign upload =>
      resolve arguments.filters guildSettings clock.now = .ok upload.filters
  | _ => True

/-- A call that uploads nothing. -/
theorem uploads_await {request : Tasks.Call} (hquiet : request.isQuiet = true) :
    (Tasks.await request).Only (Uploads arguments clock guildSettings) := by
  apply Prog.only_perform
  cases request with
  | uploadAndSign upload => cases hquiet
  | _ => trivial

theorem uploads_uploadOrEmpty (upload : Tasks.UploadRequest)
    (hresolve : resolve arguments.filters guildSettings clock.now = .ok upload.filters) :
    (Tasks.uploadOrEmpty upload).Only (Uploads arguments clock guildSettings) := by
  have hupload : Uploads arguments clock guildSettings (.uploadAndSign upload) := hresolve
  apply Prog.Only.tryExcept
  · exact (Prog.only_perform hupload).bind fun _ => trivial
  · exact fun _ => trivial

theorem uploads_uploadPhase (ttl : TimeDelta) (ttlSeconds : ℤ) :
    (Tasks.uploadPhase arguments clock guildSettings ttl ttlSeconds).Only
      (Uploads arguments clock guildSettings) := by
  apply (uploads_await rfl).bind
  intro channel
  dsimp only
  split
  · trivial
  refine (uploads_await rfl).bind fun _ => Prog.only_ofExcept_bind fun resolved hok => ?_
  have hresolve : resolve arguments.filters guildSettings clock.now = .ok resolved := by
    cases hresolve : resolve arguments.filters guildSettings clock.now with
    | error error => simp [hresolve, Except.mapError] at hok
    | ok other => simpa [hresolve, Except.mapError] using hok
  apply Prog.Only.bind
  · apply Prog.Only.tryFinally
    · exact uploads_uploadOrEmpty _ hresolve
    · intro outcome
      rw [Tasks.cleanUp.eq_def]
      split
      · trivial
      · exact (Prog.only_perform trivial).tryExcept fun _ => trivial
  · intro archive
    exact (Prog.only_perform trivial).bind fun _ => trivial

/-- A call other than an upload. -/
def Uploadless (request : Tasks.Call) : Prop := ∀ upload, request ≠ .uploadAndSign upload

theorem uploadless_await {request : Tasks.Call} (hquiet : request.isQuiet = true) :
    (Tasks.await request).Only Uploadless :=
  Prog.only_perform fun upload heq => by
    subst heq
    cases hquiet

theorem uploadless_resolveSettings (arguments : Tasks.Arguments) :
    (Tasks.resolveSettings arguments).Only Uploadless := by
  rw [Tasks.resolveSettings]
  split
  · split
    · trivial
    · exact uploadless_await rfl
  · trivial

/-- Once it holds the URL, an attempt uploads nothing. -/
theorem uploads_afterwards {userId : ℕ} {url : String} {request : Tasks.Call}
    (hafter : Tasks.Afterwards userId url request) :
    Uploads arguments clock guildSettings request := by
  rcases hafter with hquiet | ⟨destination, rfl⟩
  · cases request with
    | uploadAndSign upload => cases hquiet
    | _ => trivial
  · trivial

/-- What an attempt uploads is of the filters resolved under the settings it goes by. -/
theorem filters_of_upload {answer : (request : Tasks.Call) → Except Tasks.Exn (Tasks.Reply request)}
    {upload : Tasks.UploadRequest}
    (hupload : .uploadAndSign upload ∈
      ((Tasks.downloadChannelMedia arguments clock).run answer).1) :
    ∃ guildSettings,
      ((Tasks.resolveSettings arguments).run answer).2 = .ok guildSettings ∧
        resolve arguments.filters guildSettings clock.now = .ok upload.filters := by
  rw [Tasks.downloadChannelMedia] at hupload
  rcases Prog.mem_run_bind hupload with hfirst | ⟨_, -, hupload⟩
  · exact absurd rfl ((uploadless_await rfl).of_mem_run _ hfirst upload)
  rcases Prog.mem_run_bind hupload with hread | ⟨settings, hsettings, hupload⟩
  · exact absurd rfl ((uploadless_resolveSettings arguments).of_mem_run _ hread upload)
  refine ⟨settings, hsettings, ?_⟩
  refine (Prog.Only.of_mem_run ?_ _ hupload :
    Uploads arguments clock settings (.uploadAndSign upload))
  refine Prog.only_ofExcept_bind fun ttl _ => (Prog.only_perform trivial).bind fun cached => ?_
  apply Prog.Only.bind
  · cases cached with
    | none => exact uploads_uploadPhase ttl _
    | some url => trivial
  · intro url
    refine (uploads_await rfl).bind fun delivered => Prog.Only.bind ?_ fun _ => ?_
    · exact (Tasks.afterwards_deliverOnce arguments settings _ _ delivered).mono
        fun _ => uploads_afterwards
    · refine (uploads_await rfl).bind fun _ => Prog.Only.bind ?_ fun _ => trivial
      have hforget : (Tasks.forgetFinished arguments.userId).Only
          (Tasks.Afterwards arguments.userId url) := Tasks.afterwards_forgetFinished
      exact hforget.mono fun _ => uploads_afterwards

end Upload

/-! ## What the resolved filters let through -/

section MimeTypes

variable {mime : String}

theorem startsWith_iff_exists {kind : String} :
    mime.startsWith kind = true ↔ ∃ subtype, mime = kind ++ subtype := by
  rw [String.startsWith_string_iff]
  constructor
  · rintro ⟨rest, hrest⟩
    exact ⟨String.ofList rest, String.toList_injective (by simp [hrest])⟩
  · rintro ⟨subtype, rfl⟩
    simp

theorem startsWith_eq_false_iff {kind : String} :
    mime.startsWith kind = false ↔ ∀ subtype, mime ≠ kind ++ subtype := by
  rw [← Bool.not_eq_true, startsWith_iff_exists, not_exists]

theorem isImage_iff : isImage mime = true ↔ Includes mime .image := by
  rw [isImage, Bool.and_eq_true, startsWith_iff_exists, bne_iff_ne]
  constructor
  · rintro ⟨⟨subtype, rfl⟩, hnot⟩
    exact ⟨subtype, rfl, by rintro rfl; exact hnot rfl⟩
  · rintro ⟨subtype, rfl, hnot⟩
    refine ⟨⟨subtype, rfl⟩, fun heq => hnot ?_⟩
    have hlist := congrArg String.toList heq
    exact String.toList_injective (by simpa using hlist)

theorem isOther_iff : isOther mime = true ↔ Includes mime .other := by
  have himage : (isImage mime || isGif mime) = mime.startsWith "image/" := by
    cases hgif : isGif mime with
    | true => simp [startsWith_image_of_isGif hgif]
    | false => simp [isImage, bne, show (mime == "image/gif") = false from hgif]
  have hother : isOther mime =
      !(mime.startsWith "image/" || mime.startsWith "video/" || mime.startsWith "audio/") := by
    rw [← himage, isOther, isVideo, isAudio]
    cases isImage mime <;> cases isGif mime <;> simp
  rw [hother, Bool.not_eq_true', Bool.or_eq_false_iff, Bool.or_eq_false_iff,
    startsWith_eq_false_iff, startsWith_eq_false_iff, startsWith_eq_false_iff, Includes]
  simp only [List.forall_mem_cons, List.not_mem_nil, false_implies, implies_true, and_true,
    and_assoc]

/-- The predicate of a media type is the one under its name. -/
theorem categoryPredicate_iff (kind : MediaType) :
    ∃ predicate, categoryPredicate kind.value = some predicate ∧
      (predicate mime = true ↔ Includes mime kind) := by
  cases kind with
  | image => exact ⟨isImage, rfl, isImage_iff⟩
  | video => exact ⟨isVideo, rfl, startsWith_iff_exists⟩
  | audio => exact ⟨isAudio, rfl, startsWith_iff_exists⟩
  | gif => exact ⟨isGif, rfl, beq_iff_eq⟩
  | other =>
      refine ⟨isOther, rfl, isOther_iff⟩

end MimeTypes

section Bounds

variable {now : DateTime} {value : String} {holds : DateTime → Prop}

theorem eq_of_micros {left right : DateTime} (hmicros : left.micros = right.micros) :
    left = right :=
  le_antisymm (hmicros.le : left.micros ≤ right.micros) (hmicros.ge : right.micros ≤ left.micros)

theorem Ago.unique {moment other : DateTime} (hmoment : Ago now value moment)
    (hother : Ago now value other) : moment = other := by
  obtain ⟨delta, ⟨digits, unitSeconds, hspells, hmeans⟩, hmicros⟩ := hmoment
  obtain ⟨otherDelta, hotherMeans, hotherMicros⟩ := hother
  obtain ⟨-, -, rfl⟩ := hspells.means_iff.mp hotherMeans
  obtain ⟨-, -, rfl⟩ := hmeans
  exact eq_of_micros (by omega)

/-- A relative bound is the moment so long ago. -/
theorem of_resolveBound {bound : Option String} {resolved : Option DateTime}
    (hcheck : checkDuration bound = .ok ()) (hresolve : resolveBound now bound = .ok resolved) :
    (∀ moment ∈ resolved, holds moment) ↔
      ∀ value ∈ bound, ∃ moment, Ago now value moment ∧ holds moment := by
  cases bound with
  | none =>
      cases hresolve
      simp
  | some value =>
      obtain ⟨delta, hparse⟩ := exists_parseDuration_of_check hcheck value rfl
      have hnonempty : value ≠ "" := by
        rintro rfl
        cases hparse
      rw [resolveBound, if_neg hnonempty, hparse] at hresolve
      cases hsub : now.sub delta with
      | error error =>
          have herror := hresolve
          simp only [bind, Except.bind, hsub, Except.mapError] at herror
          cases herror
      | ok moment =>
          simp only [bind, Except.bind, hsub, Except.mapError, pure, Except.pure] at hresolve
          cases hresolve
          have hago : Ago now value moment :=
            ⟨delta, means_of_parseDuration hparse, by
              have := DateTime.micros_of_sub hsub
              omega⟩
          constructor
          · rintro hholds _ ⟨⟩
            exact ⟨moment, hago, hholds moment rfl⟩
          · rintro hago' _ ⟨⟩
            obtain ⟨other, hother, hholds⟩ := hago' value rfl
            exact hother.unique hago ▸ hholds

theorem isSome_of_resolveBound {bound : Option String} {resolved : Option DateTime}
    (hcheck : checkDuration bound = .ok ()) (hresolve : resolveBound now bound = .ok resolved) :
    resolved.isSome = bound.isSome := by
  have hnone := @of_resolveBound now (fun _ => False) bound resolved hcheck hresolve
  cases bound with
  | none => cases resolved <;> simp at hnone ⊢
  | some value => cases resolved <;> simp at hnone ⊢

/-- The name of a period says which unit it is, and whether it is over. -/
theorem value_eq (period : NamedPeriod) :
    period.value =
      if (unitOf period).2 then (unitOf period).1.lastName else (unitOf period).1.thisName := by
  cases period <;> rfl

theorem Spans.unique {period : NamedPeriod} {start stop otherStart otherStop : DateTime}
    (hspans : Spans period now start stop) (hother : Spans period now otherStart otherStop) :
    start = otherStart ∧ stop = otherStop := by
  rw [Spans] at hspans hother
  split at hspans
  case isTrue hlast =>
    rw [if_pos hlast] at hother
    obtain ⟨⟨number, hstart, hnumber⟩, hstop⟩ := hspans
    obtain ⟨⟨other, hotherStart, hotherNumber⟩, hotherStop⟩ := hother
    obtain rfl : number = other := by omega
    exact ⟨hstart.unique hotherStart, hstop.unique hotherStop⟩
  case isFalse hthis =>
    rw [if_neg hthis] at hother
    exact ⟨hspans.1.unique hother.1, hspans.2.trans hother.2.symm⟩

/-- The bounds of a period are its first moment and its end. -/
theorem spans_of_resolve {period : NamedPeriod} {start stop : DateTime}
    (hyear : 2 ≤ now.civil.year)
    (hresolve : resolveNamedPeriod period.value now = .ok (start, stop)) :
    Spans period now start stop := by
  obtain ⟨previous, current, hwindows⟩ := exists_windows (unitOf period).1 hyear
  rw [value_eq] at hresolve
  rw [Spans]
  split at hresolve
  case isTrue hlast =>
    rw [if_pos hlast]
    obtain ⟨rfl, rfl⟩ :=
      Prod.mk.inj (Except.ok.inj (hwindows.resolve_last.symm.trans hresolve))
    exact ⟨hwindows.lastBegins, hwindows.thisBegins⟩
  case isFalse hthis =>
    rw [if_neg hthis]
    obtain ⟨rfl, rfl⟩ :=
      Prod.mk.inj (Except.ok.inj (hwindows.resolve_this.symm.trans hresolve))
    exact ⟨hwindows.thisBegins, rfl⟩

end Bounds

section Asked

variable {lower : String → String} {timeSnowflake : DateTime → Bool → ℤ}
variable {context : Context} {options : Options} {guildSettings : GuildSettings}
variable {now : DateTime} {resolved : ResolvedFilters} {visit : Visit}

theorem between_iff_forall {message : Message} {before after : Option DateTime} :
    message.between timeSnowflake before after = true ↔
      (∀ moment ∈ before, (message.id : ℤ) < timeSnowflake moment false) ∧
        ∀ moment ∈ after, timeSnowflake moment true < (message.id : ℤ) := by
  simp only [Message.between, Bool.and_eq_true, Option.all_eq_true, decide_eq_true_eq,
    Option.mem_def]

/-- The matcher checks the author, the policy and the category. -/
theorem accepts_eq_true_iff {matcher : Matcher} :
    matcher.accepts lower visit.2 visit.1 = true ↔
      (∀ user ∈ matcher.fromUserId, visit.1.authorId = user) ∧
        (∀ allowed ∈ matcher.guildAllowedTypes, contentType lower visit.2 ∈ allowed) ∧
        ∀ predicate ∈ matcher.category.bind categoryPredicate,
          predicate (contentType lower visit.2) = true := by
  have hauthor : matcher.fromUserId.any (· ≠ visit.1.authorId) = true ↔
      ¬ ∀ user ∈ matcher.fromUserId, visit.1.authorId = user := by
    cases matcher.fromUserId with
    | none => simp
    | some user => simpa using ne_comm
  have hpolicy : matcher.guildAllowedTypes.any
        (fun allowed => contentType lower visit.2 ∉ allowed) = true ↔
      ¬ ∀ allowed ∈ matcher.guildAllowedTypes, contentType lower visit.2 ∈ allowed := by
    cases matcher.guildAllowedTypes <;> simp
  rw [Matcher.accepts]
  split
  case isTrue hother =>
    exact iff_of_false Bool.false_ne_true fun hall => hauthor.mp hother hall.1
  case isFalse hsame =>
    rw [hauthor, not_not] at hsame
    rw [and_iff_right hsame]
    dsimp only
    split
    case isTrue hother =>
      exact iff_of_false Bool.false_ne_true fun hall => hpolicy.mp hother hall.1
    case isFalse hallowed =>
      rw [hpolicy, not_not] at hallowed
      rw [and_iff_right hallowed]
      cases matcher.category.bind categoryPredicate <;> simp

theorem includes_iff {kind : Option MediaType} {mime : String} :
    (∀ predicate ∈ (kind.map MediaType.value).bind categoryPredicate,
        predicate mime = true) ↔ ∀ one ∈ kind, Includes mime one := by
  cases kind with
  | none => simp
  | some one =>
      obtain ⟨predicate, hpredicate, hiff⟩ := @categoryPredicate_iff mime one
      simp [hpredicate, hiff]

/-- Where the bounds of a request that passes come from. -/
theorem bounds_cases (hpass : rejection context options = .ok none)
    {before after : Option DateTime}
    (hbounds : resolveBounds ((buildFilters options).getD {}) now = .ok (before, after)) :
    (options.during = none ∧ resolveBound now options.before = .ok before ∧
      resolveBound now options.after = .ok after) ∨
    ∃ period start stop, options.during = some period ∧ options.before = none ∧
      options.after = none ∧ before = some stop ∧ after = some start ∧
      resolveNamedPeriod period.value now = .ok (start, stop) := by
  rw [getD_buildFilters, resolveBounds] at hbounds
  dsimp only at hbounds
  cases hduring : options.during with
  | none =>
      rw [hduring] at hbounds
      obtain ⟨upper, hupper, hbounds⟩ := exists_of_bind_eq_ok hbounds
      obtain ⟨lowest, hlowest, hbounds⟩ := exists_of_bind_eq_ok hbounds
      cases hbounds
      exact .inl ⟨rfl, hupper, hlowest⟩
  | some period =>
      obtain ⟨hnoBefore, hnoAfter⟩ := (of_rejection_eq_none hpass).1 (by rw [hduring]; rfl)
      rw [hduring] at hbounds
      obtain ⟨⟨start, stop⟩, hwindow, hbounds⟩ := exists_of_bind_eq_ok hbounds
      cases hbounds
      exact .inr ⟨period, start, stop, rfl, hnoBefore, hnoAfter, rfl, rfl, hwindow⟩

/-- What the bounds of a request that passes mean. -/
theorem bounds_iff (hpass : rejection context options = .ok none)
    (hyear : 2 ≤ now.civil.year) {before after : Option DateTime}
    (hbounds : resolveBounds ((buildFilters options).getD {}) now = .ok (before, after))
    {above below : DateTime → Prop} :
    ((∀ moment ∈ before, below moment) ∧ ∀ moment ∈ after, above moment) ↔
      (∀ value ∈ options.before, ∃ moment, Ago now value moment ∧ below moment) ∧
      (∀ value ∈ options.after, ∃ moment, Ago now value moment ∧ above moment) ∧
      ∀ period ∈ options.during, ∃ start stop, Spans period now start stop ∧
        above start ∧ below stop := by
  obtain ⟨-, hbefore, hafter⟩ := of_rejection_eq_none hpass
  rcases bounds_cases hpass hbounds with
    ⟨hduring, hupper, hlowest⟩ | ⟨period, start, stop, hduring, hnoBefore, hnoAfter, rfl, rfl,
      hwindow⟩
  · rw [of_resolveBound hbefore hupper, of_resolveBound hafter hlowest, hduring]
    simp
  · have hspans := spans_of_resolve hyear hwindow
    simp only [hduring, hnoBefore, hnoAfter, Option.mem_def, Option.some.injEq, forall_eq',
      reduceCtorEq, false_implies, implies_true, true_and]
    constructor
    · rintro ⟨hbelow, habove⟩
      exact ⟨start, stop, hspans, habove, hbelow⟩
    · rintro ⟨otherStart, otherStop, hother, habove, hbelow⟩
      obtain ⟨rfl, rfl⟩ := hspans.unique hother
      exact ⟨hbelow, habove⟩

theorem bounds_of_resolve
    (hresolve : resolve (buildFilters options) guildSettings now = .ok resolved) :
    resolveBounds ((buildFilters options).getD {}) now =
      .ok (resolved.before, resolved.after) := by
  rw [resolve_eq] at hresolve
  cases hbounds : resolveBounds ((buildFilters options).getD {}) now with
  | error error =>
      rw [hbounds] at hresolve
      cases hresolve
  | ok bounds =>
      rw [hbounds] at hresolve
      cases hresolve
      rfl

/-- What the resolved filters let through is what the options ask for. -/
theorem asked_iff (hpass : rejection context options = .ok none)
    (hyear : 2 ≤ now.civil.year)
    (hresolve : resolve (buildFilters options) guildSettings now = .ok resolved) :
    Asked lower timeSnowflake options guildSettings.allowedMediaTypes now visit ↔
      resolved.matcher.accepts lower visit.2 visit.1 = true ∧
        visit.1.between timeSnowflake resolved.before resolved.after = true := by
  rw [accepts_eq_true_iff, between_iff_forall,
    bounds_iff hpass hyear (bounds_of_resolve hresolve), matcher_of_resolve hresolve,
    getD_buildFilters, includes_iff]
  constructor
  · rintro ⟨hkind, hauthor, hpolicy, hbefore, hafter, hduring⟩
    exact ⟨⟨hauthor, hpolicy, hkind⟩, hbefore, hafter, hduring⟩
  · rintro ⟨⟨hauthor, hpolicy, hkind⟩, hbefore, hafter, hduring⟩
    exact ⟨hkind, hauthor, hpolicy, hbefore, hafter, hduring⟩

/-- There is a lower bound where one was asked for. -/
theorem isSome_after (hpass : rejection context options = .ok none)
    (hresolve : resolve (buildFilters options) guildSettings now = .ok resolved) :
    resolved.after.isSome = (options.after.isSome || options.during.isSome) := by
  rcases bounds_cases hpass (bounds_of_resolve hresolve) with
    ⟨hduring, -, hlowest⟩ | ⟨period, start, stop, hduring, -, -, -, hafter, -⟩
  · rw [isSome_of_resolveBound (of_rejection_eq_none hpass).2.2 hlowest, hduring]
    simp
  · simp [hafter, hduring]

end Asked

/-! ## What stream-zip is given -/

/-- The arguments that the task calls `build_zip_stream` with. -/
def streamArguments (lower : String → String) (lastMessageId : Option ℕ)
    (upload : Tasks.UploadRequest) : Arguments where
  lastMessageId := lastMessageId
  accepts := some (upload.filters.matcher.accepts lower)
  before := upload.filters.before
  after := upload.filters.after
  onProgress := true
  progressThrottleSeconds := 5

/-- The history is the one of a channel with these messages, or breaks off. -/
structure Walks (environment : Environment) (timeSnowflake : DateTime → Bool → ℤ)
    (messages : List Message) : Prop where
  isPrefix : ∀ before after, (environment.history before after).messages <+:
    channelHistory timeSnowflake messages before after
  complete : ∀ before after, (environment.history before after).failure = none →
    (environment.history before after).messages =
      channelHistory timeSnowflake messages before after

section Stream

variable {lower : String → String} {timeSnowflake : DateTime → Bool → ℤ}
variable {context : Context} {options : Options} {guildSettings : GuildSettings}
variable {now : DateTime} {messages : List Message} {environment : Environment}

theorem visits_append (left right : List Message) :
    visits (left ++ right) = visits left ++ visits right :=
  List.flatMap_append

theorem visits_filter (keeps : Message → Bool) (list : List Message) :
    visits (list.filter keeps) = (visits list).filter fun visit => keeps visit.1 := by
  induction list with
  | nil => rfl
  | cons message rest ih =>
      have hhead : visits (message :: rest) =
          message.attachments.map (message, ·) ++ visits rest := List.flatMap_cons
      rw [hhead, List.filter_append, ← ih, List.filter_map]
      cases hkeeps : keeps message with
      | true =>
          rw [List.filter_cons_of_pos hkeeps]
          simp [visits, hkeeps, Function.comp_def]
      | false =>
          rw [List.filter_cons_of_neg (by simp [hkeeps])]
          simp [hkeeps, Function.comp_def]

open Classical in
/-- The attachments that are asked for, in the order of the walk. -/
noncomputable def wanted (lower : String → String) (timeSnowflake : DateTime → Bool → ℤ)
    (options : Options) (policy : Option (List String)) (now : DateTime)
    (messages : List Message) : List Visit :=
  (visits (walkOrder options messages)).filter fun visit =>
    Asked lower timeSnowflake options policy now visit

open Classical in
theorem pick_channelHistory (hpass : rejection context options = .ok none)
    (hyear : 2 ≤ now.civil.year) {upload : Tasks.UploadRequest}
    (hresolve : resolve (buildFilters options) guildSettings now = .ok upload.filters)
    (lastMessageId : Option ℕ) :
    (streamArguments lower lastMessageId upload).pick
        (visits (channelHistory timeSnowflake messages upload.filters.before
          upload.filters.after)) =
      wanted lower timeSnowflake options guildSettings.allowedMediaTypes now messages := by
  have hwalk : channelHistory timeSnowflake messages upload.filters.before
        upload.filters.after =
      (walkOrder options messages).filter
        (Message.between timeSnowflake upload.filters.before upload.filters.after) := by
    rw [channelHistory, isSome_after hpass hresolve, walkOrder]
    split
    · rfl
    · rw [List.filter_reverse]
  rw [hwalk, visits_filter, Arguments.pick, List.filter_filter, wanted]
  apply List.filter_congr
  intro visit _
  rw [Bool.eq_iff_iff, decide_eq_true_iff, asked_iff hpass hyear hresolve, Bool.and_eq_true]
  rfl

/-- A walk hands on the tuples of its attachments as far as it gets. -/
theorem received_begins (verdict : MemberTuple → Except ZipPipeline.Exn Unit) (list : List Visit)
    (count : ℕ) :
    (environment.received verdict count list).1 <+:
        (list.zipIdx count).filterMap environment.tupleOf ∧
      ((environment.received verdict count list).2 = .ok () →
        (environment.received verdict count list).1 =
          (list.zipIdx count).filterMap environment.tupleOf) := by
  induction list generalizing count with
  | nil => exact ⟨List.prefix_refl _, fun _ => rfl⟩
  | cons visit rest ih =>
      rw [List.zipIdx_cons]
      cases hanswer : environment.network count with
      | error exception =>
          have hnone : environment.tupleOf (visit, count) = none := by
            rw [Environment.tupleOf, hanswer]
          rw [List.filterMap_cons_none hnone]
          cases hclient : exception.isClientError with
          | true =>
              have hlater : environment.received verdict count (visit :: rest) =
                  environment.received verdict (count + 1) rest := by
                simp [Environment.received, Environment.fetched, hanswer, hclient]
              rw [hlater]
              exact ih (count + 1)
          | false =>
              have hended : environment.received verdict count (visit :: rest) =
                  ([], .error exception) := by
                simp [Environment.received, Environment.fetched, hanswer, hclient]
              rw [hended]
              exact ⟨List.nil_prefix, fun herror => by cases herror⟩
      | ok reception =>
          by_cases hstatus : reception.status = 200
          · have hsome : environment.tupleOf (visit, count) =
                some (memberTuple visit.1 visit.2 ⟨count, reception⟩) := by
              simp [Environment.tupleOf, hanswer, hstatus]
            rw [List.filterMap_cons_some hsome, Environment.received, Environment.fetched,
              hanswer]
            simp only [hstatus, if_true]
            cases verdict (memberTuple visit.1 visit.2 ⟨count, reception⟩) with
            | error exception => exact ⟨List.prefix_append [_] _, fun herror => by cases herror⟩
            | ok _ =>
                obtain ⟨hbegins, hwhole⟩ := ih (count + 1)
                refine ⟨List.prefix_cons_inj _ |>.mpr hbegins, fun hok => ?_⟩
                exact congrArg _ (hwhole hok)
          · have hnone : environment.tupleOf (visit, count) = none := by
              simp [Environment.tupleOf, hanswer, hstatus]
            have hlater : environment.received verdict count (visit :: rest) =
                environment.received verdict (count + 1) rest := by
              simp [Environment.received, Environment.fetched, hanswer, hstatus]
            rw [List.filterMap_cons_none hnone, hlater]
            exact ih (count + 1)

/-- The attachments that a walk gets to are the first of those that are asked for. -/
theorem selected_begins (hpass : rejection context options = .ok none)
    (hyear : 2 ≤ now.civil.year) {upload : Tasks.UploadRequest}
    (hresolve : resolve (buildFilters options) guildSettings now = .ok upload.filters)
    (hwalks : Walks environment timeSnowflake messages) (lastMessageId : Option ℕ) :
    environment.selected (streamArguments lower lastMessageId upload) <+:
        wanted lower timeSnowflake options guildSettings.allowedMediaTypes now messages ∧
      ((environment.walked (streamArguments lower lastMessageId upload)).failure = none →
        environment.selected (streamArguments lower lastMessageId upload) =
          wanted lower timeSnowflake options guildSettings.allowedMediaTypes now
            messages) := by
  have hpick := @pick_channelHistory lower timeSnowflake context options guildSettings now
    messages hpass hyear upload hresolve lastMessageId
  rw [← hpick]
  constructor
  · obtain ⟨rest, hrest⟩ := hwalks.isPrefix upload.filters.before upload.filters.after
    rw [← hrest, visits_append, Arguments.pick, List.filter_append]
    exact List.prefix_append _ _
  · intro hcomplete
    rw [Environment.selected, Environment.walked]
    exact congrArg _ (congrArg visits (hwalks.complete _ _ hcomplete))

/-- What stream-zip is given, whatever the network does. -/
theorem consume_selected (hcontained : environment.ProgressContained) (rounding : Rounding)
    (timeSnowflake : DateTime → Bool → ℤ) (arguments : Arguments) :
    let result := consume environment.serve environment.readMember
      (buildZipStream rounding timeSnowflake arguments) []
    let tuples := (environment.selected arguments).zipIdx.filterMap environment.tupleOf
    result.1 <+: tuples ∧ (result.2.1 = .ok () → result.1 = tuples ∧ tuples ≠ [] ∧
      (environment.walked arguments).failure = none) := by
  obtain ⟨hitems, houtcome, -⟩ := @consume_members environment _ _ arguments
    takes_readMember (fun _ => hcontained) rounding timeSnowflake []
  obtain ⟨hbegins, hwhole⟩ := @received_begins environment
    (fun member => member.chunks.ended) (environment.selected arguments) 0
  intro result tuples
  have hresult : result = _ := consume_peekOrRaiseEmpty _ []
  cases hmembers : consume environment.serve environment.readMember
    (members rounding timeSnowflake arguments) [] with
  | mk items rest =>
  obtain ⟨outcome, last⟩ := rest
  rw [hmembers] at hitems houtcome hresult
  obtain rfl : items = _ := hitems
  cases hreceived : environment.received (fun member => member.chunks.ended) 0
    (environment.selected arguments) with
  | mk given ended =>
  rw [show (urls []).length = 0 from rfl, hreceived] at hresult houtcome
  rw [hreceived] at hbegins hwhole
  have hended : outcome = .ok () → ended = .ok () ∧
      (environment.walked arguments).failure = none := by
    intro hok
    rw [hok] at houtcome
    cases ended with
    | error exception => cases houtcome
    | ok _ =>
        refine ⟨rfl, ?_⟩
        rw [History.ended] at houtcome
        cases hfailure : (environment.walked arguments).failure with
        | none => rfl
        | some failure =>
            rw [hfailure] at houtcome
            cases houtcome
  cases given with
  | nil =>
      cases outcome with
      | ok _ =>
          rw [hresult]
          exact ⟨List.nil_prefix, fun herror => by cases herror⟩
      | error exception =>
          rw [hresult]
          exact ⟨List.nil_prefix, fun herror => by cases herror⟩
  | cons first others =>
      rw [hresult]
      refine ⟨hbegins, fun hok => ?_⟩
      obtain ⟨hreturned, hcomplete⟩ := hended hok
      have hitems := hwhole hreturned
      refine ⟨hitems, ?_, hcomplete⟩
      intro hnil
      exact List.cons_ne_nil first others (hitems.trans hnil)

/-- From the command to the archive: the members that stream-zip is given are, in the
order of the walk, the attachments that the options ask for and the policy of the job
allows, as far as their GETs are answered with 200 and the walk gets; a walk that does
not fail gets to all of them, and to one at least. -/
theorem archive_of_options {cogClock : DownloadCog.Clock}
    {cogAnswer : (request : DownloadCog.Call) →
      Except DownloadCog.Exn (DownloadCog.Reply request)} {request : Enqueue}
    (hkiq : .kiq request ∈ ((download cogClock context options).run cogAnswer).1)
    {taskId : String} {clock : Tasks.Clock}
    {answer : (request : Tasks.Call) → Except Tasks.Exn (Tasks.Reply request)}
    {upload : Tasks.UploadRequest}
    (hupload : .uploadAndSign upload ∈
      ((Tasks.downloadChannelMedia (request.arguments taskId) clock).run answer).1)
    (hyear : 2 ≤ clock.now.civil.year)
    (hwalks : Walks environment timeSnowflake messages)
    (hcontained : environment.ProgressContained) (rounding : Rounding)
    (lower : String → String) (lastMessageId : Option ℕ) :
    ∃ guildSettings,
      ((Tasks.resolveSettings (request.arguments taskId)).run answer).2 = .ok guildSettings ∧
        let result := consume environment.serve environment.readMember
          (buildZipStream rounding timeSnowflake
            (streamArguments lower lastMessageId upload)) []
        let tuples := (wanted lower timeSnowflake options guildSettings.allowedMediaTypes
          clock.now messages).zipIdx.filterMap environment.tupleOf
        result.1 <+: tuples ∧ (result.2.1 = .ok () → result.1 = tuples ∧ tuples ≠ []) := by
  obtain ⟨hpass, rfl⟩ := only_download.of_mem_run _ hkiq
  obtain ⟨guildSettings, hsettings, hresolve⟩ := filters_of_upload hupload
  refine ⟨guildSettings, hsettings, ?_⟩
  obtain ⟨hbegins, hall⟩ := @selected_begins lower timeSnowflake context options guildSettings
    clock.now messages environment hpass hyear upload hresolve hwalks lastMessageId
  obtain ⟨hgiven, hended⟩ := consume_selected hcontained rounding timeSnowflake
    (streamArguments lower lastMessageId upload)
  intro result tuples
  constructor
  · obtain ⟨rest, hrest⟩ := hbegins
    refine hgiven.trans ?_
    simp only [tuples, ← hrest, List.zipIdx_append, List.filterMap_append]
    exact List.prefix_append _ _
  · intro hok
    obtain ⟨hitems, hnonempty, hcomplete⟩ := hended hok
    rw [hall hcomplete] at hitems hnonempty
    exact ⟨hitems, hnonempty⟩

/-- The channel has four attachments, and the GET of the first one asked for is answered. -/
def firstFound : Environment :=
  { environmentOf fourAttachments [.ok ⟨200, [[1]], none⟩] with
    history := fun before after =>
      ⟨channelHistory (fun _ _ => 0) fourAttachments before after, none⟩ }

/-- A request for images. -/
def images : Options := { mediaType := some .image }

/-- The request for images in a direct message. -/
def imagesRequest : Enqueue :=
  ⟨3, 7, none, false, some { category := some "image" }⟩

/-- What the attempt of that request uploads. -/
def imagesUpload : Tasks.UploadRequest :=
  ⟨"channel-3-a.zip", 3, ⟨⟨some "image", none, none⟩, none, none⟩, 86400000000,
    "channel-general-2024-05-01.zip"⟩

theorem archive_of_options_images :
    ∃ guildSettings,
      ((Tasks.resolveSettings (imagesRequest.arguments "a")).run Tasks.succeed).2 =
          .ok guildSettings ∧
        let result := consume firstFound.serve firstFound.readMember
          (buildZipStream exactRounding (fun _ _ => 0)
            (streamArguments id none imagesUpload)) []
        let tuples := (wanted id (fun _ _ => 0) images guildSettings.allowedMediaTypes
          Tasks.inMay.now fourAttachments).zipIdx.filterMap firstFound.tupleOf
        result.1 <+: tuples ∧ (result.2.1 = .ok () → result.1 = tuples ∧ tuples ≠ []) :=
  @archive_of_options (fun _ _ => 0) ⟨⟨7, false, none⟩, 3, true⟩ images fourAttachments
    firstFound anytime willing imagesRequest (by decide +kernel) "a" Tasks.inMay Tasks.succeed
    imagesUpload (by decide +kernel) (by decide +kernel)
    ⟨fun _ _ => List.prefix_refl _, fun _ _ _ => rfl⟩
    ⟨fun _ _ herror => by cases herror; rfl, nofun⟩ exactRounding id none

end Stream

end DownloaderBot.Archive
