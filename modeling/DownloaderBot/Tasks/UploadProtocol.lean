import DownloaderBot.Core.ExpiringStore
import DownloaderBot.Core.Protocol
import DownloaderBot.Tasks.Download

/-!
# What an attempt does with the blob

The task against a protocol: it uploads only after it found no cached URL, cleans up
after every upload that raised and for an empty channel, caches only what it uploaded,
and sends only what is cached.  The store says what the calls do to the blob, the
`archive_url` key and the messages.
-/

namespace DownloaderBot.Tasks

open DownloaderBot.Calendar
open DownloaderBot.Embeds
open DownloaderBot.ExpiringStore (Cell fetch)
open DownloaderBot.Program

/-- How far an attempt is with the archive.  `walking`: no URL was cached; `cleaned`:
`delete_blob` has been called; `holding`: the URL is the cached one. -/
inductive Mode
  | before
  | walking
  | failed
  | cleaned
  | uploaded (url : String) (ttlSeconds : ℤ)
  | holding (url : String)
  | over
  deriving DecidableEq, Repr

/-- From the lookup to the cache write. -/
def Mode.inUploadPhase : Mode → Bool
  | .walking | .failed | .cleaned | .uploaded .. => true
  | .before | .holding _ | .over => false

/-- The call does nothing to the archive. -/
def Call.isQuiet : Call → Bool
  | .setProgress _ | .getSettings _ | .fetchChannel _ | .isDelivered | .fetchUser _
  | .markDelivered _ | .forgetJob _ => true
  | .getCachedArchiveUrl | .uploadAndSign _ | .deleteBlob _ | .cacheArchiveUrl ..
  | .send .. => false

/-- The mode after a cache write. -/
def Mode.ofCached (url : String) : Except Exn Unit → Mode
  | .ok _ => .holding url
  | .error _ => .over

/-- Quiet calls leave the mode.  The URL is cached with the lifetime of its signature,
in whole seconds. -/
def uploadProtocol (userId : ℕ) : Protocol Mode Reply Exn := fun mode request outcome =>
  if request.isQuiet then some mode
  else
    match mode, request, outcome with
    | .before, .getCachedArchiveUrl, .ok none => some .walking
    | .before, .getCachedArchiveUrl, .ok (some url) => some (.holding url)
    | .before, .getCachedArchiveUrl, .error _ => some .over
    | .walking, .uploadAndSign asked, .ok url =>
        if 1000000 ∣ asked.ttl then some (.uploaded url (asked.ttl / 1000000)) else none
    | .walking, .uploadAndSign _, .error _ => some .failed
    | .failed, .deleteBlob _, _ => some .cleaned
    | .cleaned, .cacheArchiveUrl url _, outcome =>
        if url = emptySentinel then some (.ofCached url outcome) else none
    | .uploaded url ttlSeconds, .cacheArchiveUrl cached cachedFor, outcome =>
        if cached = url ∧ cachedFor = ttlSeconds then some (.ofCached url outcome)
        else none
    | .holding url, .send _ embed, _ =>
        if embed = resultEmbed url userId then some (.holding url) else none
    | _, _, _ => none

/-- No attempt ends with its cleanup due. -/
def CleanedUp (mode : Mode) (_ : Except Exn DownloadResult) : Prop := mode ≠ .failed

/-- The moves that the protocol allows. -/
inductive Move (userId : ℕ) :
    Mode → (request : Call) → Except Exn (Reply request) → Mode → Prop
  | quiet {mode : Mode} {request : Call} {outcome : Except Exn (Reply request)}
      (hquiet : request.isQuiet = true) : Move userId mode request outcome mode
  | miss : Move userId .before .getCachedArchiveUrl (.ok none) .walking
  | hit (url : String) :
      Move userId .before .getCachedArchiveUrl (.ok (some url)) (.holding url)
  | giveUp (exception : Exn) :
      Move userId .before .getCachedArchiveUrl (.error exception) .over
  | upload {asked : UploadRequest} (url : String) (httl : 1000000 ∣ asked.ttl) :
      Move userId .walking (.uploadAndSign asked) (.ok url)
        (.uploaded url (asked.ttl / 1000000))
  | fail (asked : UploadRequest) (exception : Exn) :
      Move userId .walking (.uploadAndSign asked) (.error exception) .failed
  | delete (name : String) (outcome : Except Exn Unit) :
      Move userId .failed (.deleteBlob name) outcome .cleaned
  | cacheEmpty (ttlSeconds : ℤ) (outcome : Except Exn Unit) :
      Move userId .cleaned (.cacheArchiveUrl emptySentinel ttlSeconds) outcome
        (.ofCached emptySentinel outcome)
  | cache (url : String) (ttlSeconds : ℤ) (outcome : Except Exn Unit) :
      Move userId (.uploaded url ttlSeconds) (.cacheArchiveUrl url ttlSeconds) outcome
        (.ofCached url outcome)
  | send (url : String) (destination : Destination) (outcome : Except Exn Unit) :
      Move userId (.holding url) (.send destination (resultEmbed url userId)) outcome
        (.holding url)

section Parts

variable {userId : ℕ} {url : String}

theorem move_of_uploadProtocol {mode after : Mode} {request : Call}
    {outcome : Except Exn (Reply request)}
    (hafter : uploadProtocol userId mode request outcome = some after) :
    Move userId mode request outcome after := by
  simp only [uploadProtocol] at hafter
  split at hafter
  case isTrue hquiet =>
    cases hafter
    exact .quiet hquiet
  case isFalse =>
    split at hafter
    case h_1 =>
      cases hafter
      exact .miss
    case h_2 =>
      cases hafter
      exact .hit _
    case h_3 =>
      cases hafter
      exact .giveUp _
    case h_4 =>
      obtain ⟨httl, hsome⟩ := Option.ite_none_right_eq_some.mp hafter
      cases hsome
      exact .upload _ httl
    case h_5 =>
      cases hafter
      exact .fail _ _
    case h_6 =>
      cases hafter
      exact .delete _ _
    case h_7 =>
      obtain ⟨rfl, hsome⟩ := Option.ite_none_right_eq_some.mp hafter
      cases hsome
      exact .cacheEmpty _ _
    case h_8 =>
      obtain ⟨⟨rfl, rfl⟩, hsome⟩ := Option.ite_none_right_eq_some.mp hafter
      cases hsome
      exact .cache _ _ _
    case h_9 =>
      obtain ⟨rfl, hsome⟩ := Option.ite_none_right_eq_some.mp hafter
      cases hsome
      exact .send _ _ _
    case h_10 => cases hafter

theorem uploadProtocol_cache (url : String) (ttlSeconds : ℤ) (outcome : Except Exn Unit) :
    uploadProtocol userId (.uploaded url ttlSeconds) (.cacheArchiveUrl url ttlSeconds)
      outcome = some (.ofCached url outcome) := by
  simp [uploadProtocol, Call.isQuiet]

/-- In the mode where it started, or over with an exception in a mode that is not
`failed`. -/
def Stays {α : Type} (mode last : Mode) : Except Exn α → Prop
  | .ok _ => last = mode
  | .error _ => last ≠ .failed

theorem follows_resolveSettings (arguments : Arguments) :
    (resolveSettings arguments).Follows (uploadProtocol userId) (Stays .before)
      .before := by
  rw [resolveSettings]
  split
  · split
    · exact Prog.follows_ret rfl
    · apply Prog.follows_perform
      intro outcome
      refine ⟨.before, rfl, ?_⟩
      cases outcome <;> simp [Stays]
  · exact Prog.follows_ret rfl

/-- The cleanup of an upload that raised, and of an empty channel. -/
theorem follows_cleanUp (name : String) {outcome : Except Exn (String × Bool)}
    (hdue : ∀ url, outcome ≠ .ok (url, false)) :
    (cleanUp name outcome).Follows (uploadProtocol userId) (fun last _ => last = .cleaned)
      .failed := by
  have hdelete : (cleanUp name (.error .other)).Follows (uploadProtocol userId)
      (fun last _ => last = .cleaned) .failed := by
    apply Prog.follows_tryExcept
    apply Prog.follows_perform
    intro outcome
    refine ⟨.cleaned, rfl, ?_⟩
    cases outcome with
    | ok _ => rfl
    | error exception =>
        dsimp only
        split
        · exact Prog.follows_ret rfl
        · rfl
  match outcome with
  | .ok (url, false) => exact absurd rfl (hdue url)
  | .ok (_, true) => exact hdelete
  | .error _ => exact hdelete

/-- What the upload has come to once the cleanup is through. -/
def Archived (ttl : TimeDelta) (last : Mode) : Except Exn (String × Bool) → Prop
  | .ok (url, isEmpty) =>
      if isEmpty then last = .cleaned ∧ url = emptySentinel
      else last = .uploaded url (ttl / 1000000)
  | .error _ => last = .cleaned

theorem follows_upload (request : UploadRequest) (httl : 1000000 ∣ request.ttl)
    (name : String) :
    ((uploadOrEmpty request).tryFinally (cleanUp name)).Follows (uploadProtocol userId)
      (Archived request.ttl) .walking := by
  have hfailed : ∀ outcome, (∀ url, outcome ≠ .ok (url, false)) →
      Archived request.ttl .cleaned outcome →
      (cleanUp name outcome).Follows (uploadProtocol userId) (fun last cleaned =>
        Archived request.ttl last (cleaned.bind fun _ => outcome)) .failed := by
    intro outcome hdue harchived
    apply (follows_cleanUp name hdue).mono
    rintro last cleaned rfl
    cases cleaned with
    | ok _ => exact harchived
    | error _ => rfl
  apply Prog.follows_tryFinally
  apply Prog.follows_tryExcept
  apply Prog.follows_bind
  apply Prog.follows_perform
  intro outcome
  cases outcome with
  | ok url =>
      refine ⟨.uploaded url (request.ttl / 1000000), if_pos httl, ?_⟩
      exact Prog.follows_ret (Prog.follows_ret rfl)
  | error exception =>
      refine ⟨.failed, rfl, ?_⟩
      dsimp only
      split
      · exact Prog.follows_ret
          (hfailed (.ok (emptySentinel, true)) (by simp) ⟨rfl, rfl⟩)
      · exact hfailed (.error exception) (by simp) rfl

/-- Where a part returns the attempt holds the URL. -/
def Holding {α : Type} (urlOf : α → String) (last : Mode) : Except Exn α → Prop
  | .ok value => last = .holding (urlOf value)
  | .error _ => last ≠ .failed

theorem follows_uploadPhase (arguments : Arguments) (clock : Clock)
    (guildSettings : GuildSettings) (ttl : TimeDelta) (httl : 1000000 ∣ ttl) :
    (uploadPhase arguments clock guildSettings ttl (ttl / 1000000)).Follows
      (uploadProtocol userId) (Holding id) .walking := by
  apply Prog.follows_bind
  apply Prog.follows_perform
  intro outcome
  refine ⟨.walking, rfl, ?_⟩
  cases outcome with
  | error _ => exact nofun
  | ok channel =>
      dsimp only
      split
      · exact Prog.follows_raise nofun
      · apply Prog.follows_bind
        apply Prog.follows_perform
        intro outcome
        refine ⟨.walking, rfl, ?_⟩
        cases outcome with
        | error _ => exact nofun
        | ok _ =>
            apply Prog.follows_bind
            apply Prog.follows_ofExcept
            split
            case h_2 => exact nofun
            case h_1 resolved _ =>
              apply Prog.follows_bind
              apply (follows_upload _ httl _).mono
              intro last outcome harchived
              match outcome with
              | .error _ =>
                  cases harchived
                  exact nofun
              | .ok (url, isEmpty) =>
                  apply Prog.follows_bind
                  apply Prog.follows_perform
                  intro outcome
                  cases isEmpty with
                  | true =>
                      obtain ⟨rfl, rfl⟩ := harchived
                      cases outcome with
                      | ok _ => exact ⟨.holding emptySentinel, rfl, Prog.follows_ret rfl⟩
                      | error _ => exact ⟨.over, rfl, nofun⟩
                  | false =>
                      obtain rfl : last = .uploaded url (ttl / 1000000) := harchived
                      refine ⟨_, uploadProtocol_cache url _ outcome, ?_⟩
                      cases outcome with
                      | ok _ => exact Prog.follows_ret rfl
                      | error _ => exact nofun

theorem follows_reuseOrUpload (arguments : Arguments) (clock : Clock)
    (guildSettings : GuildSettings) (ttl : TimeDelta) (httl : 1000000 ∣ ttl)
    (cached : Option String) :
    (reuseOrUpload arguments clock guildSettings ttl (ttl / 1000000) cached).Follows
      (uploadProtocol userId) (Holding id) (cached.elim .walking .holding) := by
  cases cached with
  | none => exact follows_uploadPhase arguments clock guildSettings ttl httl
  | some url => exact Prog.follows_ret rfl

/-! From there on an attempt makes only calls that leave the archive alone. -/

/-- A call that an attempt makes once it holds the URL. -/
def Afterwards (userId : ℕ) (url : String) (request : Call) : Prop :=
  request.isQuiet = true ∨ ∃ destination, request = .send destination (resultEmbed url userId)

theorem uploadProtocol_afterwards (request : Call) (hafter : Afterwards userId url request)
    (outcome : Except Exn (Reply request)) :
    uploadProtocol userId (.holding url) request outcome = some (.holding url) := by
  rcases hafter with hquiet | ⟨destination, rfl⟩
  · exact if_pos hquiet
  · exact if_pos rfl

theorem afterwards_quiet {request : Call} (hquiet : request.isQuiet = true) :
    (await request).Only (Afterwards userId url) :=
  Prog.only_perform (.inl hquiet)

theorem afterwards_send (destination : Destination) :
    (await (.send destination (resultEmbed url userId))).Only (Afterwards userId url) :=
  Prog.only_perform (.inr ⟨destination, rfl⟩)

theorem afterwards_dmUser (recipient : ℕ) :
    (dmUser recipient (resultEmbed url userId)).Only (Afterwards userId url) := by
  apply (afterwards_quiet rfl).bind
  intro _
  exact (afterwards_send _).tryExcept fun _ => trivial

theorem afterwards_postToChannel (channelId recipient : ℕ) :
    (postToChannel channelId (resultEmbed url userId) recipient).Only
      (Afterwards userId url) := by
  apply Prog.Only.tryExcept
  · apply (afterwards_quiet rfl).bind
    intro channel
    split
    · trivial
    · exact afterwards_send _
  · exact fun _ => afterwards_dmUser recipient

theorem afterwards_deliverOnce (arguments : Arguments) (guildSettings : GuildSettings)
    (mode : DeliveryMode) (ttlSeconds : ℤ) (delivered : Bool) :
    (deliverOnce arguments guildSettings mode url ttlSeconds delivered).Only
      (Afterwards arguments.userId url) := by
  have hmark : (await (.markDelivered ttlSeconds)).Only (Afterwards arguments.userId url) :=
    afterwards_quiet rfl
  rw [deliverOnce]
  split
  · trivial
  · apply (afterwards_quiet rfl).bind
    intro _
    dsimp only
    split
    · exact (afterwards_postToChannel _ _).bind fun _ => hmark
    · exact (afterwards_dmUser _).bind fun _ => hmark

theorem afterwards_forgetFinished :
    (forgetFinished userId).Only (Afterwards userId url) :=
  (afterwards_quiet rfl).tryExcept fun _ => trivial

/-- A whole attempt keeps to the protocol, and never ends with its cleanup due. -/
theorem follows_downloadChannelMedia (arguments : Arguments) (clock : Clock) :
    (downloadChannelMedia arguments clock).Follows (uploadProtocol arguments.userId)
      CleanedUp .before := by
  apply Prog.follows_bind
  apply Prog.follows_perform
  intro outcome
  refine ⟨.before, rfl, ?_⟩
  cases outcome with
  | error _ => exact nofun
  | ok _ =>
      apply Prog.follows_bind
      apply (follows_resolveSettings arguments).mono
      intro last outcome hstays
      cases outcome with
      | error _ => exact hstays
      | ok guildSettings =>
          obtain rfl : last = .before := hstays
          apply Prog.follows_bind
          apply Prog.follows_ofExcept
          cases hhours : timedeltaHours guildSettings.retentionHours with
          | error _ => exact nofun
          | ok ttl =>
              have httl : 1000000 ∣ ttl := by
                rw [timedeltaHours_eq_ok hhours]
                exact dvd_mul_left _ _
              apply Prog.follows_bind
              apply Prog.follows_perform
              intro outcome
              match outcome with
              | .error _ => exact ⟨.over, rfl, nofun⟩
              | .ok cached =>
                  refine ⟨cached.elim .walking .holding, by cases cached <;> rfl, ?_⟩
                  apply Prog.follows_bind
                  apply (follows_reuseOrUpload arguments clock guildSettings ttl httl
                    cached).mono
                  intro last outcome hholding
                  cases outcome with
                  | error _ => exact hholding
                  | ok url =>
                      obtain rfl : last = .holding url := hholding
                      apply Prog.Follows.mono (Prog.Only.follows ?_
                        uploadProtocol_afterwards)
                      · rintro last outcome rfl
                        exact nofun
                      · apply (afterwards_quiet rfl).bind
                        intro delivered
                        apply (afterwards_deliverOnce _ _ _ _ _).bind
                        intro _
                        apply (afterwards_quiet rfl).bind
                        intro _
                        exact afterwards_forgetFinished.bind fun _ => trivial

end Parts

/-! ## What the calls do -/

/-- The blob of the task, its `archive_url` key and the embeds that went out. -/
structure Store where
  blob : Bool
  archiveUrl : Option (Cell String ℚ)
  sent : List Embed

/-- Where a call takes effect.  Redis refuses a `SET` whose `EX` is not positive. -/
def Store.effect (store : Store) (now : ℚ) : Call → Store
  | .uploadAndSign _ => { store with blob := true }
  | .deleteBlob _ => { store with blob := false }
  | .cacheArchiveUrl url ttlSeconds =>
      if 0 < ttlSeconds then
        { store with archiveUrl := some ⟨url, some (now + ttlSeconds)⟩ }
      else store
  | .send _ embed => { store with sent := store.sent ++ [embed] }
  | _ => store

theorem Store.effect_of_quiet (store : Store) (now : ℚ) {request : Call}
    (hquiet : request.isQuiet = true) : store.effect now request = store := by
  cases request <;> first | rfl | cases hquiet

/-- What a call that succeeds may reply.  A signed URL carries its expiry, which lies at
most the lifetime asked for ahead. -/
def Store.Answers (store : Store) (expiry : String → ℚ) (now : ℚ) :
    (request : Call) → Reply request → Prop
  | .getCachedArchiveUrl, reply => reply = fetch now store.archiveUrl
  | .uploadAndSign asked, url =>
      url ≠ emptySentinel ∧ expiry url ≤ now + (asked.ttl : ℚ) / 1000000
  | .cacheArchiveUrl _ ttlSeconds, _ => 0 < ttlSeconds
  | _, _ => True

instance (store : Store) (expiry : String → ℚ) (now : ℚ) :
    (request : Call) → (reply : Reply request) →
      Decidable (store.Answers expiry now request reply)
  | .getCachedArchiveUrl, _ => inferInstanceAs (Decidable (_ = _))
  | .uploadAndSign _, _ => inferInstanceAs (Decidable (_ ∧ _))
  | .cacheArchiveUrl _ _, _ => inferInstanceAs (Decidable (0 < _))
  | .setProgress _, _ | .getSettings _, _ | .fetchChannel _, _ | .deleteBlob _, _
  | .isDelivered, _ | .fetchUser _, _ | .send .., _ | .markDelivered _, _
  | .forgetJob _, _ => .isTrue trivial

/-- The link to an archive names its URL. -/
theorem mediaDownload_inj {userId : ℕ} {url other : String}
    (heq : mediaDownload url userId = mediaDownload other userId) : url = other := by
  have hdescription := Option.some.inj (congrArg Embed.description heq)
  have hlist := congrArg String.toList hdescription
  simp only [String.toList_append, List.append_cancel_right_eq,
    List.append_cancel_left_eq] at hlist
  exact String.toList_injective hlist

theorem resultEmbed_eq_mediaDownload {userId : ℕ} {url other : String}
    (heq : resultEmbed other userId = mediaDownload url userId) :
    other = url ∧ other ≠ emptySentinel := by
  rw [resultEmbed] at heq
  split at heq
  case isTrue => exact Colour.noConfusion (congrArg Embed.colour heq)
  case isFalse hne => exact ⟨mediaDownload_inj heq, hne⟩

end DownloaderBot.Tasks
