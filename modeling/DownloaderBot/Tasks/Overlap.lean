import DownloaderBot.Core.TransitionSystem
import DownloaderBot.Tasks.DownloadRuns
import DownloaderBot.Tasks.UploadProtocol
import Mathlib.Algebra.Order.Field.Rat
import Mathlib.Tactic.Linarith

/-!
# Overlapping attempts

A message may be delivered again while an earlier attempt is still running.  Any number
of attempts at one task interleave over one blob and one `archive_url` key; any call may
raise, with or without its effect, and any attempt may die.
-/

namespace DownloaderBot.Overlap

open DownloaderBot.Embeds
open DownloaderBot.ExpiringStore (Cell fetch fetch_eq_some)
open DownloaderBot.Program
open DownloaderBot.Tasks
open DownloaderBot.TransitionSystem

/-- `overlapped`: another attempt has been in its upload phase during that of this
one. -/
structure Attempt where
  session : Session Mode Reply Exn DownloadResult
  overlapped : Bool

def Attempt.uploading (attempt : Attempt) : Bool :=
  attempt.session.mode.any Mode.inUploadPhase

/-- The attempts begun so far have the numbers below `begun`. -/
structure State where
  store : Store
  now : ℚ
  begun : ℕ
  attempts : ℕ → Option Attempt

/-- `answer`: the pending call comes to its outcome; `effect` says whether a call that
raises has taken effect.  `leave`: the attempt has ended or dies. -/
inductive Label
  | begin (clock : Clock)
  | answer (attempt : ℕ) (outcomes : (request : Call) → Except Exn (Reply request))
      (effect : Bool)
  | leave (attempt : ℕ)
  | elapse (seconds : ℚ)

namespace State

variable (state : State)

/-- Another attempt is in its upload phase. -/
def uploadingBeside (number : ℕ) : Bool :=
  (List.range state.begun).any fun other =>
    other ≠ number && (state.attempts other).any Attempt.uploading

/-- An attempt goes on with `session`; entering the upload phase it overlaps with those
that are in it. -/
def advance (number : ℕ) (attempt : Attempt)
    (session : Session Mode Reply Exn DownloadResult) (store : Store) : State :=
  let enters := !attempt.uploading && session.mode.any Mode.inUploadPhase
  { state with
    store := store
    attempts := fun other =>
      if other = number then
        some ⟨session, if enters then state.uploadingBeside number else attempt.overlapped⟩
      else
        (state.attempts other).map fun beside =>
          { beside with overlapped := beside.overlapped || (enters && beside.uploading) } }

end State

/-- One step. -/
def step (expiry : String → ℚ) (arguments : Arguments) (state : State) :
    Label → Option State
  | .begin clock =>
      let session := ⟨downloadChannelMedia arguments clock, some .before⟩
      some { state with
        begun := state.begun + 1
        attempts := Function.update state.attempts state.begun (some ⟨session, false⟩) }
  | .answer number outcomes effect =>
      match state.attempts number with
      | none => none
      | some attempt =>
          match attempt.session.pending with
          | none => none
          | some request =>
              let session :=
                attempt.session.resume (uploadProtocol arguments.userId) outcomes
              let served := state.store.effect state.now request
              match outcomes request with
              | .ok reply =>
                  if state.store.Answers expiry state.now request reply then
                    some (state.advance number attempt session served)
                  else none
              | .error _ =>
                  some (state.advance number attempt session
                    (if effect then served else state.store))
  | .leave number =>
      some { state with attempts := Function.update state.attempts number none }
  | .elapse seconds =>
      if 0 ≤ seconds then some { state with now := state.now + seconds } else none

/-- The call takes effect: it returns, or it raises in spite of its effect. -/
def takesEffect {α : Type} (outcome : Except Exn α) (effect : Bool) : Bool :=
  match outcome with
  | .ok _ => true
  | .error _ => effect

/-- The task has just been published. -/
def start (now : ℚ) : State := ⟨⟨false, none, []⟩, now, 0, fun _ => none⟩

/-- What is cached, and what has been sent and has not expired, is in storage. -/
structure Sound (expiry : String → ℚ) (userId : ℕ) (state : State) : Prop where
  cached : ∀ url, fetch state.now state.store.archiveUrl = some url →
    url ≠ emptySentinel → state.store.blob = true
  sent : ∀ url, mediaDownload url userId ∈ state.store.sent → state.now < expiry url →
    state.store.blob = true

/-- The call does no harm next to other attempts. -/
def TameCall (state : State) (attempt : Attempt) : Call → Prop
  | .deleteBlob _ => attempt.overlapped = false ∨ state.store.blob = false
  | .cacheArchiveUrl _ ttlSeconds =>
      0 < ttlSeconds → ∀ cell ∈ state.store.archiveUrl, ∀ deadline ∈ cell.deadline,
        deadline ≤ state.now + ttlSeconds
  | _ => True

instance (state : State) (attempt : Attempt) :
    (request : Call) → Decidable (TameCall state attempt request)
  | .deleteBlob _ => inferInstanceAs (Decidable (_ ∨ _))
  | .cacheArchiveUrl _ _ => inferInstanceAs (Decidable (_ → ∀ cell ∈ _, ∀ deadline ∈ _, _))
  | .setProgress _ | .getSettings _ | .getCachedArchiveUrl | .fetchChannel _
  | .uploadAndSign _ | .isDelivered | .fetchUser _ | .send .. | .markDelivered _
  | .forgetJob _ => .isTrue trivial

/-- An attempt whose upload phase overlapped with another's does not come to its cleanup
while there is a blob, and no cache write makes the key expire earlier. -/
def Tame (state : State) : Label → Prop
  | .answer number _ _ =>
      ∀ attempt ∈ state.attempts number, ∀ request ∈ attempt.session.pending,
        TameCall state attempt request
  | _ => True

instance (state : State) : (label : Label) → Decidable (Tame state label)
  | .answer _ _ _ => inferInstanceAs (Decidable (∀ attempt ∈ _, ∀ request ∈ _, _))
  | .begin _ | .leave _ | .elapse _ => .isTrue trivial

/-! ## The attempts -/

/-- Every attempt keeps to the protocol, and no two are in their upload phases but as
overlapped. -/
structure Orderly (userId : ℕ) (state : State) : Prop where
  fresh : ∀ number, state.begun ≤ number → state.attempts number = none
  keeps : ∀ number attempt, state.attempts number = some attempt →
    attempt.session.Keeps (uploadProtocol userId) CleanedUp
  apart : ∀ number other, number ≠ other → ∀ attempt beside,
    state.attempts number = some attempt → state.attempts other = some beside →
    attempt.uploading = true → beside.uploading = true → attempt.overlapped = true

section Orderly

variable {userId : ℕ} {arguments : Arguments} {state : State}

theorem State.uploadingBeside_of_ne (hfresh : ∀ number, state.begun ≤ number →
    state.attempts number = none) {number other : ℕ} (hne : other ≠ number)
    {beside : Attempt} (hbeside : state.attempts other = some beside)
    (huploading : beside.uploading = true) : state.uploadingBeside number = true := by
  have hlt : other < state.begun := by
    by_contra hge
    cases (hfresh other (not_lt.mp hge)).symm.trans hbeside
  apply List.any_eq_true.mpr
  exact ⟨other, List.mem_range.mpr hlt, by simp [hne, hbeside, huploading]⟩

/-- After a move the other attempts are as before, but for the overlap. -/
theorem State.attempts_advance {number other : ℕ} {attempt found : Attempt}
    {session : Session Mode Reply Exn DownloadResult} {store : Store}
    (hfound : (state.advance number attempt session store).attempts other = some found) :
    (other = number ∧ found.session = session) ∨
      (other ≠ number ∧ ∃ before, state.attempts other = some before ∧
        found.session = before.session ∧
        (found.overlapped = false → before.overlapped = false)) := by
  by_cases hsame : other = number
  · simp only [State.advance, hsame, if_true, Option.some.injEq] at hfound
    subst hfound
    exact .inl ⟨hsame, rfl⟩
  · simp only [State.advance, hsame, if_false] at hfound
    obtain ⟨before, hbefore, rfl⟩ := Option.map_eq_some_iff.mp hfound
    refine .inr ⟨hsame, before, hbefore, rfl, fun hnot => ?_⟩
    exact (Bool.or_eq_false_iff.mp hnot).1

/-- The entrance of an attempt into its upload phase. -/
def Attempt.enters (attempt : Attempt) (session : Session Mode Reply Exn DownloadResult) :
    Bool :=
  !attempt.uploading && session.mode.any Mode.inUploadPhase

theorem Attempt.uploading_of_not_enters {attempt : Attempt}
    {session : Session Mode Reply Exn DownloadResult} (hnot : ¬ attempt.enters session = true)
    (hsession : session.mode.any Mode.inUploadPhase = true) : attempt.uploading = true := by
  by_contra hidle
  exact hnot (by simp [Attempt.enters, hsession, hidle])

theorem orderly_start (now : ℚ) : Orderly userId (start now) where
  fresh _ _ := rfl
  keeps := nofun
  apart _ _ _ := nofun

theorem update_eq_some {attempts : ℕ → Option Attempt} {number other : ℕ}
    {value : Option Attempt} {found : Attempt}
    (hfound : Function.update attempts number value other = some found) :
    (other = number ∧ value = some found) ∨
      (other ≠ number ∧ attempts other = some found) := by
  rcases eq_or_ne other number with rfl | hne
  · exact .inl ⟨rfl, by rwa [Function.update_self] at hfound⟩
  · exact .inr ⟨hne, by rwa [Function.update_of_ne hne] at hfound⟩

theorem Orderly.begin (horderly : Orderly arguments.userId state) (clock : Clock) :
    Orderly arguments.userId { state with
      begun := state.begun + 1
      attempts := Function.update state.attempts state.begun
        (some ⟨⟨downloadChannelMedia arguments clock, some .before⟩, false⟩) } := by
  refine ⟨?_, ?_, ?_⟩
  · intro number hnumber
    have hne : number ≠ state.begun := (Nat.lt_of_succ_le hnumber).ne'
    exact (Function.update_of_ne hne _ _).trans
      (horderly.fresh number (Nat.le_of_succ_le hnumber))
  · intro number attempt hattempt
    obtain ⟨-, hnew⟩ | ⟨-, hold⟩ := update_eq_some hattempt
    · cases hnew
      exact ⟨.before, rfl, follows_downloadChannelMedia arguments clock⟩
    · exact horderly.keeps number attempt hold
  · intro number other hne attempt beside hattempt hbeside huploading hother
    obtain ⟨-, hnew⟩ | ⟨-, hattempt⟩ := update_eq_some hattempt
    · cases hnew
      cases huploading
    · obtain ⟨-, hnew⟩ | ⟨-, hbeside⟩ := update_eq_some hbeside
      · cases hnew
        cases hother
      · exact horderly.apart number other hne attempt beside hattempt hbeside huploading
          hother

/-- The attempts that are left are as before. -/
theorem attempts_of_leave {number other : ℕ} {found : Attempt}
    (hfound : Function.update state.attempts number none other = some found) :
    state.attempts other = some found := by
  obtain ⟨-, hnone⟩ | ⟨-, hold⟩ := update_eq_some hfound
  · cases hnone
  · exact hold

theorem Orderly.leave (horderly : Orderly userId state) (number : ℕ) :
    Orderly userId { state with
      attempts := Function.update state.attempts number none } := by
  refine ⟨?_, ?_, ?_⟩
  · intro other hother
    apply Option.eq_none_iff_forall_ne_some.mpr
    intro attempt hattempt
    cases (horderly.fresh other hother).symm.trans (attempts_of_leave hattempt)
  · exact fun other attempt hattempt =>
      horderly.keeps other attempt (attempts_of_leave hattempt)
  · exact fun first second hne attempt beside hattempt hbeside =>
      horderly.apart first second hne attempt beside (attempts_of_leave hattempt)
        (attempts_of_leave hbeside)

theorem Orderly.advance (horderly : Orderly userId state) {number : ℕ} {attempt : Attempt}
    (hattempt : state.attempts number = some attempt)
    {session : Session Mode Reply Exn DownloadResult}
    (hkeeps : session.Keeps (uploadProtocol userId) CleanedUp) (store : Store) :
    Orderly userId (state.advance number attempt session store) := by
  refine ⟨?_, ?_, ?_⟩
  · intro other hother
    have hne : other ≠ number := by
      rintro rfl
      cases (horderly.fresh other hother).symm.trans hattempt
    simp only [State.advance, if_neg hne, horderly.fresh other hother, Option.map_none]
  · intro other found hfound
    obtain ⟨-, hsession⟩ | ⟨-, before, hbefore, hsession, -⟩ :=
      State.attempts_advance hfound
    · rw [hsession]
      exact hkeeps
    · rw [hsession]
      exact horderly.keeps other before hbefore
  · intro first second hne found beside hfound hbeside huploading hother
    change (if first = number then _ else _) = _ at hfound
    change (if second = number then _ else _) = _ at hbeside
    by_cases hfirst : first = number
    · rw [if_pos hfirst] at hfound
      rw [if_neg fun hsecond => hne (hfirst.trans hsecond.symm)] at hbeside
      obtain ⟨before, hbefore, rfl⟩ := Option.map_eq_some_iff.mp hbeside
      cases hfound
      subst hfirst
      dsimp only
      split
      case isTrue =>
        exact State.uploadingBeside_of_ne horderly.fresh hne.symm hbefore hother
      case isFalse hnot =>
        exact horderly.apart first second hne attempt before hattempt hbefore
          (Attempt.uploading_of_not_enters hnot huploading) hother
    · rw [if_neg hfirst] at hfound
      obtain ⟨before, hbefore, rfl⟩ := Option.map_eq_some_iff.mp hfound
      by_cases hsecond : second = number
      · rw [if_pos hsecond] at hbeside
        cases hbeside
        subst hsecond
        by_cases henters : attempt.enters session = true
        · have hbefore_uploading : before.uploading = true := huploading
          have henters' : (!attempt.uploading &&
              session.mode.any Mode.inUploadPhase) = true := henters
          simp [henters', hbefore_uploading]
        · have hold := horderly.apart first second hne before attempt hbefore hattempt
            huploading (Attempt.uploading_of_not_enters henters hother)
          simp [hold]
      · rw [if_neg hsecond] at hbeside
        obtain ⟨before', hbefore', rfl⟩ := Option.map_eq_some_iff.mp hbeside
        have hold := horderly.apart first second hne before before' hbefore hbefore'
          huploading hother
        simp [hold]

end Orderly

/-! ## The archive -/

/-- Until the URL expires the blob is there and a URL is cached. -/
def Safe (expiry : String → ℚ) (store : Store) (now : ℚ) (url : String) : Prop :=
  now < expiry url → store.blob = true ∧
    ∃ cell ∈ store.archiveUrl, ∃ deadline ∈ cell.deadline, expiry url ≤ deadline

/-- What the attempts have made of the archive.  `lonely`: an attempt without overlap is
in its upload phase only while nothing is cached. -/
structure Kept (expiry : String → ℚ) (userId : ℕ) (state : State) : Prop where
  lonely : ∀ number attempt, state.attempts number = some attempt →
    attempt.uploading = true → attempt.overlapped = false →
    ∀ cell ∈ state.store.archiveUrl, ¬ cell.Live state.now
  uploaded : ∀ number attempt url ttlSeconds, state.attempts number = some attempt →
    attempt.session.mode = some (.uploaded url ttlSeconds) →
    url ≠ emptySentinel ∧ state.store.blob = true ∧ expiry url ≤ state.now + ttlSeconds
  cached : ∀ cell ∈ state.store.archiveUrl, cell.value ≠ emptySentinel →
    (cell.Live state.now → state.store.blob = true) ∧
      ∃ deadline ∈ cell.deadline, expiry cell.value ≤ deadline
  held : ∀ number attempt url, state.attempts number = some attempt →
    attempt.session.mode = some (.holding url) → url ≠ emptySentinel →
    Safe expiry state.store state.now url
  sent : ∀ url, mediaDownload url userId ∈ state.store.sent →
    Safe expiry state.store state.now url

section Kept

variable {expiry : String → ℚ} {userId : ℕ} {state : State} {number : ℕ}
variable {attempt : Attempt} {session : Session Mode Reply Exn DownloadResult}

theorem kept_start (now : ℚ) : Kept expiry userId (start now) where
  lonely := nofun
  uploaded := nofun
  cached := nofun
  held := nofun
  sent := nofun

theorem Kept.sound (hkept : Kept expiry userId state) : Sound expiry userId state where
  cached url hfetch hurl := by
    obtain ⟨cell, hcell, hlive, rfl⟩ := fetch_eq_some.mp hfetch
    exact (hkept.cached cell hcell hurl).1 hlive
  sent url hsent hexpiry := (hkept.sent url hsent hexpiry).1

/-- An attempt that moves without entering keeps its overlap. -/
theorem State.overlapped_advance {found : Attempt} {store : Store}
    (hfound : (state.advance number attempt session store).attempts number = some found)
    (huploading : attempt.uploading = true) : found.overlapped = attempt.overlapped := by
  simp only [State.advance, if_true, Option.some.injEq] at hfound
  subst hfound
  simp [huploading]

/-- A move that takes nothing away from the archive. -/
theorem Kept.grow (hkept : Kept expiry userId state)
    (hattempt : state.attempts number = some attempt) {store : Store}
    (hblob : state.store.blob = true → store.blob = true)
    (hcell : store.archiveUrl = state.store.archiveUrl)
    (hsent : ∀ url, mediaDownload url userId ∈ store.sent →
      mediaDownload url userId ∈ state.store.sent ∨ Safe expiry state.store state.now url)
    (henters : session.mode.any Mode.inUploadPhase = true → attempt.uploading = false →
      ∀ cell ∈ state.store.archiveUrl, ¬ cell.Live state.now)
    (huploaded : ∀ url ttlSeconds, session.mode = some (.uploaded url ttlSeconds) →
      url ≠ emptySentinel ∧ store.blob = true ∧ expiry url ≤ state.now + ttlSeconds)
    (hheld : ∀ url, session.mode = some (.holding url) → url ≠ emptySentinel →
      Safe expiry state.store state.now url) :
    Kept expiry userId (state.advance number attempt session store) := by
  have hsafe : ∀ url, Safe expiry state.store state.now url →
      Safe expiry store state.now url := by
    intro url hold hexpiry
    obtain ⟨hthere, hlater⟩ := hold hexpiry
    rw [← hcell] at hlater
    exact ⟨hblob hthere, hlater⟩
  refine ⟨?_, ?_, ?_, ?_, ?_⟩
  · intro other found hfound huploading hlonely cell hmem
    replace hmem : cell ∈ state.store.archiveUrl := hcell ▸ hmem
    obtain ⟨rfl, hsession⟩ | ⟨-, before, hbefore, hsession, hoverlap⟩ :=
      State.attempts_advance hfound
    · rw [Attempt.uploading, hsession] at huploading
      cases hwas : attempt.uploading with
      | false => exact henters huploading hwas cell hmem
      | true =>
          have hsame := State.overlapped_advance hfound hwas
          exact hkept.lonely other attempt hattempt hwas (hsame.symm.trans hlonely) cell hmem
    · rw [Attempt.uploading, hsession] at huploading
      exact hkept.lonely other before hbefore huploading (hoverlap hlonely) cell hmem
  · intro other found url ttlSeconds hfound hmode
    obtain ⟨-, hsession⟩ | ⟨-, before, hbefore, hsession, -⟩ :=
      State.attempts_advance hfound
    · exact huploaded url ttlSeconds (hsession ▸ hmode)
    · obtain ⟨hurl, hthere, hexpiry⟩ :=
        hkept.uploaded other before url ttlSeconds hbefore (hsession ▸ hmode)
      exact ⟨hurl, hblob hthere, hexpiry⟩
  · intro cell hmem hurl
    obtain ⟨hlive, hdeadline⟩ := hkept.cached cell (hcell ▸ hmem) hurl
    exact ⟨fun hnow => hblob (hlive hnow), hdeadline⟩
  · intro other found url hfound hmode hurl
    obtain ⟨-, hsession⟩ | ⟨-, before, hbefore, hsession, -⟩ :=
      State.attempts_advance hfound
    · exact hsafe url (hheld url (hsession ▸ hmode) hurl)
    · exact hsafe url (hkept.held other before url hbefore (hsession ▸ hmode) hurl)
  · intro url hmem
    rcases hsent url hmem with hold | hnew
    · exact hsafe url (hkept.sent url hold)
    · exact hsafe url hnew

/-- The cleanup of an attempt without overlap: nothing is cached, and so nothing that
was sent is still valid. -/
theorem Kept.delete (hkept : Kept expiry userId state) (horderly : Orderly userId state)
    (hattempt : state.attempts number = some attempt) (huploading : attempt.uploading = true)
    (hlonely : attempt.overlapped = false)
    (hcleaned : session.mode = some .cleaned) :
    Kept expiry userId
      (state.advance number attempt session { state.store with blob := false }) := by
  have hgone := hkept.lonely number attempt hattempt huploading hlonely
  have hexpired : ∀ url, Safe expiry state.store state.now url →
      Safe expiry { state.store with blob := false } state.now url := by
    intro url hold hexpiry
    obtain ⟨-, cell, hcell, deadline, hdeadline, hle⟩ := hold hexpiry
    have hlive : cell.Live state.now := by
      intro other hother
      cases hdeadline.symm.trans hother
      exact hexpiry.trans_le hle
    exact absurd hlive (hgone cell hcell)
  refine ⟨?_, ?_, ?_, ?_, ?_⟩
  · exact fun _ _ _ _ _ => hgone
  · intro other found url ttlSeconds hfound hmode
    obtain ⟨-, hsession⟩ | ⟨hne, before, hbefore, hsession, -⟩ :=
      State.attempts_advance hfound
    · cases hcleaned.symm.trans (hsession ▸ hmode)
    · have hbeside : before.uploading = true := by
        rw [Attempt.uploading, ← hsession, hmode]
        rfl
      cases hlonely.symm.trans
        (horderly.apart number other hne.symm attempt before hattempt hbefore huploading
          hbeside)
  · intro cell hmem hurl
    exact ⟨fun hlive => absurd hlive (hgone cell hmem), (hkept.cached cell hmem hurl).2⟩
  · intro other found url hfound hmode hurl
    obtain ⟨-, hsession⟩ | ⟨-, before, hbefore, hsession, -⟩ :=
      State.attempts_advance hfound
    · cases hcleaned.symm.trans (hsession ▸ hmode)
    · exact hexpired url (hkept.held other before url hbefore (hsession ▸ hmode) hurl)
  · exact fun url hmem => hexpired url (hkept.sent url hmem)

/-- The cache write at the end of an upload phase. -/
theorem Kept.cache (hkept : Kept expiry userId state) (horderly : Orderly userId state)
    (hattempt : state.attempts number = some attempt) (huploading : attempt.uploading = true)
    {url : String} {ttlSeconds : ℤ}
    (hlater : ∀ cell ∈ state.store.archiveUrl, ∀ deadline ∈ cell.deadline,
      deadline ≤ state.now + ttlSeconds)
    (hurl : url ≠ emptySentinel →
      state.store.blob = true ∧ expiry url ≤ state.now + ttlSeconds)
    (hafter : session.mode = some (.holding url) ∨ session.mode = some .over) :
    Kept expiry userId (state.advance number attempt session
      { state.store with archiveUrl := some ⟨url, some (state.now + ttlSeconds)⟩ }) := by
  have hsafe : ∀ other, Safe expiry state.store state.now other →
      Safe expiry
        { state.store with archiveUrl := some ⟨url, some (state.now + ttlSeconds)⟩ }
        state.now other := by
    intro other hold hexpiry
    obtain ⟨hthere, cell, hcell, deadline, hdeadline, hle⟩ := hold hexpiry
    exact ⟨hthere, _, rfl, _, rfl, hle.trans (hlater cell hcell deadline hdeadline)⟩
  refine ⟨?_, ?_, ?_, ?_, ?_⟩
  · intro other found hfound hphase hlonely
    obtain ⟨-, hsession⟩ | ⟨hne, before, hbefore, hsession, hoverlap⟩ :=
      State.attempts_advance hfound
    · rw [Attempt.uploading, hsession] at hphase
      rcases hafter with hmode | hmode <;> rw [hmode] at hphase <;> cases hphase
    · rw [Attempt.uploading, hsession] at hphase
      cases (hoverlap hlonely).symm.trans
        (horderly.apart other number hne before attempt hbefore hattempt hphase huploading)
  · intro other found otherUrl otherTtl hfound hmode
    obtain ⟨-, hsession⟩ | ⟨-, before, hbefore, hsession, -⟩ :=
      State.attempts_advance hfound
    · rw [hsession] at hmode
      rcases hafter with hholding | hover
      · cases hholding.symm.trans hmode
      · cases hover.symm.trans hmode
    · exact hkept.uploaded other before otherUrl otherTtl hbefore (hsession ▸ hmode)
  · intro cell hmem hne
    cases hmem
    exact ⟨fun _ => (hurl hne).1, _, rfl, (hurl hne).2⟩
  · intro other found held hfound hmode hne
    obtain ⟨-, hsession⟩ | ⟨-, before, hbefore, hsession, -⟩ :=
      State.attempts_advance hfound
    · rw [hsession] at hmode
      rcases hafter with hholding | hover
      · cases hholding.symm.trans hmode
        exact fun _ => ⟨(hurl hne).1, _, rfl, _, rfl, (hurl hne).2⟩
      · cases hover.symm.trans hmode
    · exact hsafe held (hkept.held other before held hbefore (hsession ▸ hmode) hne)
  · exact fun other hmem => hsafe other (hkept.sent other hmem)

/-- A call that leaves the store alone, or raises without its effect. -/
theorem Kept.same (hkept : Kept expiry userId state)
    (hattempt : state.attempts number = some attempt) {after : Mode}
    (hmode : session.mode = some after)
    (henters : after.inUploadPhase = true → attempt.uploading = false →
      ∀ cell ∈ state.store.archiveUrl, ¬ cell.Live state.now)
    (huploaded : ∀ url ttlSeconds, after = .uploaded url ttlSeconds →
      attempt.session.mode = some after)
    (hheld : ∀ url, after = .holding url → url ≠ emptySentinel →
      Safe expiry state.store state.now url) :
    Kept expiry userId (state.advance number attempt session state.store) := by
  apply hkept.grow hattempt id rfl fun _ => .inl
  · rw [hmode]
    exact henters
  · intro url ttlSeconds heq
    obtain rfl := Option.some.inj (hmode.symm.trans heq)
    exact hkept.uploaded number attempt url ttlSeconds hattempt
      (huploaded url ttlSeconds rfl)
  · intro url heq
    exact hheld url (Option.some.inj (hmode.symm.trans heq))

/-- A cached URL is safe as long as it can be read. -/
theorem Kept.safe_of_fetch (hkept : Kept expiry userId state) {url : String}
    (hfetch : fetch state.now state.store.archiveUrl = some url)
    (hurl : url ≠ emptySentinel) : Safe expiry state.store state.now url := by
  obtain ⟨cell, hcell, hlive, rfl⟩ := fetch_eq_some.mp hfetch
  obtain ⟨hthere, hdeadline⟩ := hkept.cached cell hcell hurl
  exact fun _ => ⟨hthere hlive, cell, hcell, hdeadline⟩

theorem not_live_of_fetch_eq_none {key : Option (Cell String ℚ)} {now : ℚ}
    (hfetch : fetch now key = none) : ∀ cell ∈ key, ¬ cell.Live now := by
  rintro cell ⟨⟩ hlive
  cases (fetch_eq_some.mpr ⟨cell, rfl, hlive, rfl⟩).symm.trans hfetch

/-- The lifetime of a signature, in whole seconds. -/
theorem cast_div_of_dvd {ttl : ℤ} (httl : 1000000 ∣ ttl) :
    ((ttl / 1000000 : ℤ) : ℚ) = (ttl : ℚ) / 1000000 := by
  rw [Int.cast_div httl (by norm_num)]
  norm_num

/-- The cache write, where it takes effect and where Redis refuses it. -/
theorem Kept.effect_cache (hkept : Kept expiry userId state) (horderly : Orderly userId state)
    (hattempt : state.attempts number = some attempt) (huploading : attempt.uploading = true)
    {url : String} {ttlSeconds : ℤ} {outcome : Except Exn Unit}
    (hlater : 0 < ttlSeconds → ∀ cell ∈ state.store.archiveUrl,
      ∀ deadline ∈ cell.deadline, deadline ≤ state.now + ttlSeconds)
    (hurl : url ≠ emptySentinel →
      state.store.blob = true ∧ expiry url ≤ state.now + ttlSeconds)
    (hmode : session.mode = some (.ofCached url outcome))
    (hanswers : outcome = .ok () → 0 < ttlSeconds) {store : Store}
    (hstore : store = state.store.effect state.now (.cacheArchiveUrl url ttlSeconds) ∨
      store = state.store ∧ ∃ exception, outcome = .error exception) :
    Kept expiry userId (state.advance number attempt session store) := by
  have hrefused : (∃ exception, outcome = .error exception) →
      Kept expiry userId (state.advance number attempt session state.store) := by
    rintro ⟨exception, rfl⟩
    exact hkept.same hattempt hmode nofun nofun nofun
  rcases hstore with rfl | ⟨rfl, hraised⟩
  · simp only [Store.effect]
    split
    case isTrue httl =>
      apply hkept.cache horderly hattempt huploading (hlater httl) hurl
      cases outcome with
      | ok _ => exact .inl hmode
      | error _ => exact .inr hmode
    case isFalse hnot =>
      apply hrefused
      cases outcome with
      | ok _ => exact absurd (hanswers rfl) hnot
      | error exception => exact ⟨exception, rfl⟩
  · exact hrefused hraised

/-- The `delete_blob` of a cleanup, by an attempt without overlap or of no blob at all. -/
theorem Kept.effect_delete (hkept : Kept expiry userId state)
    (horderly : Orderly userId state) (hattempt : state.attempts number = some attempt)
    (huploading : attempt.uploading = true) {name : String}
    (htame : TameCall state attempt (.deleteBlob name))
    (hmode : session.mode = some .cleaned) {store : Store}
    (hstore : store = state.store.effect state.now (.deleteBlob name) ∨ store = state.store) :
    Kept expiry userId (state.advance number attempt session store) := by
  have hsame : Kept expiry userId (state.advance number attempt session state.store) := by
    refine hkept.same hattempt hmode (fun _ hnot => ?_) nofun nofun
    cases hnot.symm.trans huploading
  rcases hstore with rfl | rfl
  · rcases htame with hlonely | hgone
    · exact hkept.delete horderly hattempt huploading hlonely hmode
    · have hnothing : { state.store with blob := false } = state.store := by rw [← hgone]
      rw [Store.effect, hnothing]
      exact hsame
  · exact hsame

/-- The whole blob is there, or what a failed upload has left of it. -/
theorem Kept.stored (hkept : Kept expiry userId state)
    (hattempt : state.attempts number = some attempt) (huploading : attempt.uploading = true)
    {after : Mode} (hmode : session.mode = some after)
    (huploaded : ∀ url ttlSeconds, after = .uploaded url ttlSeconds →
      url ≠ emptySentinel ∧ expiry url ≤ state.now + ttlSeconds)
    (hheld : ∀ url, after ≠ .holding url) :
    Kept expiry userId
      (state.advance number attempt session { state.store with blob := true }) := by
  apply hkept.grow hattempt
  · exact fun _ => rfl
  · rfl
  · exact fun _ => .inl
  · intro _ hnot
    cases hnot.symm.trans huploading
  · intro url ttlSeconds heq
    obtain ⟨hurl, hexpiry⟩ :=
      huploaded url ttlSeconds (Option.some.inj (hmode.symm.trans heq))
    exact ⟨hurl, rfl, hexpiry⟩
  · intro url heq
    exact absurd (Option.some.inj (hmode.symm.trans heq)) (hheld url)

/-- The embed goes out while the attempt holds the URL. -/
theorem Kept.send (hkept : Kept expiry userId state)
    (hattempt : state.attempts number = some attempt) {url : String}
    (hbefore : attempt.session.mode = some (.holding url))
    (hmode : session.mode = some (.holding url)) :
    Kept expiry userId (state.advance number attempt session
      { state.store with sent := state.store.sent ++ [resultEmbed url userId] }) := by
  apply hkept.grow hattempt
  · exact id
  · rfl
  · intro other hmem
    rcases List.mem_append.mp hmem with hold | hnew
    · exact .inl hold
    · obtain ⟨rfl, hne⟩ := resultEmbed_eq_mediaDownload (List.mem_singleton.mp hnew).symm
      exact .inr (hkept.held number attempt _ hattempt hbefore hne)
  · rw [hmode]
    exact nofun
  · intro other ttlSeconds heq
    cases hmode.symm.trans heq
  · intro other heq hne
    cases hmode.symm.trans heq
    exact hkept.held number attempt _ hattempt hbefore hne

/-- What an answer to the pending call leaves of the archive. -/
theorem Kept.answer (hkept : Kept expiry userId state) (horderly : Orderly userId state)
    (hattempt : state.attempts number = some attempt) {request : Call}
    {outcome : Except Exn (Reply request)} {mode after : Mode}
    (hbefore : attempt.session.mode = some mode) (hmode : session.mode = some after)
    (hmove : Move userId mode request outcome after)
    (hanswers : ∀ reply, outcome = .ok reply →
      state.store.Answers expiry state.now request reply)
    (htame : TameCall state attempt request)
    {store : Store}
    (hstore : store = state.store.effect state.now request ∨
      store = state.store ∧ ∃ exception, outcome = .error exception) :
    Kept expiry userId (state.advance number attempt session store) := by
  have huploading : mode.inUploadPhase = true → attempt.uploading = true := by
    intro hphase
    rw [Attempt.uploading, hbefore]
    exact hphase
  -- An attempt that is in its upload phase does not enter it.
  have hentered : mode.inUploadPhase = true → after.inUploadPhase = true →
      attempt.uploading = false → ∀ cell ∈ state.store.archiveUrl, ¬ cell.Live state.now := by
    intro hphase _ hnot
    cases hnot.symm.trans (huploading hphase)
  cases hmove with
  | quiet hquiet =>
      obtain rfl : store = state.store := by
        rcases hstore with rfl | ⟨rfl, -⟩
        · exact state.store.effect_of_quiet state.now hquiet
        · rfl
      apply hkept.same hattempt hmode
      · exact fun hphase => hentered hphase hphase
      · exact fun _ _ _ => hbefore
      · rintro url rfl hurl
        exact hkept.held number attempt url hattempt hbefore hurl
  | miss =>
      obtain rfl : store = state.store := by
        rcases hstore with rfl | ⟨rfl, -⟩ <;> rfl
      exact hkept.same hattempt hmode
        (fun _ _ => not_live_of_fetch_eq_none (hanswers none rfl).symm) nofun nofun
  | hit url =>
      obtain rfl : store = state.store := by
        rcases hstore with rfl | ⟨rfl, -⟩ <;> rfl
      apply hkept.same hattempt hmode nofun nofun
      rintro _ ⟨⟩ hurl
      exact hkept.safe_of_fetch (hanswers (some url) rfl).symm hurl
  | giveUp exception =>
      obtain rfl : store = state.store := by
        rcases hstore with rfl | ⟨rfl, -⟩ <;> rfl
      exact hkept.same hattempt hmode nofun nofun nofun
  | upload url httl =>
      obtain ⟨hurl, hexpiry⟩ := hanswers url rfl
      obtain rfl : store = { state.store with blob := true } := by
        rcases hstore with rfl | ⟨-, exception, hraised⟩
        · rfl
        · cases hraised
      apply hkept.stored hattempt (huploading rfl) hmode _ nofun
      rintro _ _ ⟨⟩
      exact ⟨hurl, by rwa [cast_div_of_dvd httl]⟩
  | fail asked exception =>
      rcases hstore with rfl | ⟨rfl, -⟩
      · exact hkept.stored hattempt (huploading rfl) hmode nofun nofun
      · exact hkept.same hattempt hmode (hentered rfl) nofun nofun
  | delete name outcome =>
      exact hkept.effect_delete horderly hattempt (huploading rfl) htame hmode
        (hstore.imp_right And.left)
  | cacheEmpty ttlSeconds outcome =>
      exact hkept.effect_cache horderly hattempt (huploading rfl) htame
        (fun hne => absurd rfl hne) hmode (hanswers ()) hstore
  | cache url ttlSeconds outcome =>
      obtain ⟨-, hthere⟩ := hkept.uploaded number attempt url ttlSeconds hattempt hbefore
      exact hkept.effect_cache horderly hattempt (huploading rfl) htame (fun _ => hthere)
        hmode (hanswers ()) hstore
  | send url destination outcome =>
      rcases hstore with rfl | ⟨rfl, -⟩
      · exact hkept.send hattempt hbefore hmode
      · apply hkept.same hattempt hmode nofun nofun
        rintro _ ⟨⟩ hne
        exact hkept.held number attempt _ hattempt hbefore hne

theorem Kept.begin (hkept : Kept expiry userId state) {running : Tasks.Task DownloadResult} :
    Kept expiry userId { state with
      begun := state.begun + 1
      attempts := Function.update state.attempts state.begun
        (some ⟨⟨running, some .before⟩, false⟩) } := by
  refine ⟨?_, ?_, hkept.cached, ?_, hkept.sent⟩
  · intro number found hfound huploading
    obtain ⟨-, hnew⟩ | ⟨-, hold⟩ := update_eq_some hfound
    · cases hnew
      cases huploading
    · exact hkept.lonely number found hold huploading
  · intro number found url ttlSeconds hfound hmode
    obtain ⟨-, hnew⟩ | ⟨-, hold⟩ := update_eq_some hfound
    · cases hnew
      cases hmode
    · exact hkept.uploaded number found url ttlSeconds hold hmode
  · intro number found url hfound hmode
    obtain ⟨-, hnew⟩ | ⟨-, hold⟩ := update_eq_some hfound
    · cases hnew
      cases hmode
    · exact hkept.held number found url hold hmode

theorem Kept.leave (hkept : Kept expiry userId state) (number : ℕ) :
    Kept expiry userId { state with
      attempts := Function.update state.attempts number none } where
  lonely other found hfound := hkept.lonely other found (attempts_of_leave hfound)
  uploaded other found url ttlSeconds hfound :=
    hkept.uploaded other found url ttlSeconds (attempts_of_leave hfound)
  cached := hkept.cached
  held other found url hfound := hkept.held other found url (attempts_of_leave hfound)
  sent := hkept.sent

theorem Kept.elapse (hkept : Kept expiry userId state) {seconds : ℚ}
    (hseconds : 0 ≤ seconds) :
    Kept expiry userId { state with now := state.now + seconds } := by
  have hlater : state.now ≤ state.now + seconds := le_add_of_nonneg_right hseconds
  have hlive : ∀ cell : Cell String ℚ, cell.Live (state.now + seconds) →
      cell.Live state.now :=
    fun cell hlive deadline hdeadline => hlater.trans_lt (hlive deadline hdeadline)
  have hsafe : ∀ url, Safe expiry state.store state.now url →
      Safe expiry state.store (state.now + seconds) url :=
    fun url hsafe hexpiry => hsafe (hlater.trans_lt hexpiry)
  refine ⟨?_, ?_, ?_, ?_, ?_⟩
  · exact fun number found hfound huploading hlonely cell hcell hnow =>
      hkept.lonely number found hfound huploading hlonely cell hcell (hlive cell hnow)
  · intro number found url ttlSeconds hfound hmode
    obtain ⟨hurl, hthere, hexpiry⟩ :=
      hkept.uploaded number found url ttlSeconds hfound hmode
    exact ⟨hurl, hthere, hexpiry.trans (add_le_add_left hlater _)⟩
  · intro cell hcell hurl
    obtain ⟨hthere, hdeadline⟩ := hkept.cached cell hcell hurl
    exact ⟨fun hnow => hthere (hlive cell hnow), hdeadline⟩
  · exact fun number found url hfound hmode hurl =>
      hsafe url (hkept.held number found url hfound hmode hurl)
  · exact fun url hmem => hsafe url (hkept.sent url hmem)

end Kept

/-! ## Runs -/

section Runs

variable {expiry : String → ℚ} {arguments : Arguments} {state next : State}

def Inv (expiry : String → ℚ) (userId : ℕ) (state : State) : Prop :=
  Orderly userId state ∧ Kept expiry userId state

/-- What an answer to the pending call of an attempt does. -/
theorem step_answer {number : ℕ} {outcomes : (request : Call) → Except Exn (Reply request)}
    {effect : Bool}
    (hstep : step expiry arguments state (.answer number outcomes effect) = some next) :
    ∃ attempt request, state.attempts number = some attempt ∧
      attempt.session.pending = some request ∧
      (∀ reply, outcomes request = .ok reply →
        state.store.Answers expiry state.now request reply) ∧
      next = state.advance number attempt
        (attempt.session.resume (uploadProtocol arguments.userId) outcomes)
        (if takesEffect (outcomes request) effect then state.store.effect state.now request
          else state.store) := by
  simp only [step] at hstep
  split at hstep
  case h_1 => cases hstep
  case h_2 attempt hattempt =>
    split at hstep
    case h_1 => cases hstep
    case h_2 request hpending =>
      refine ⟨attempt, request, hattempt, hpending, ?_⟩
      split at hstep
      case h_1 reply hreply =>
        obtain ⟨hanswers, hnext⟩ := Option.ite_none_right_eq_some.mp hstep
        cases hnext
        rw [hreply]
        refine ⟨fun other hother => ?_, rfl⟩
        cases hother
        exact hanswers
      case h_2 exception hraised =>
        cases hstep
        rw [hraised]
        refine ⟨fun other hother => ?_, rfl⟩
        cases hother

/-- However the attempts interleave, they keep to the protocol. -/
theorem orderly_step {label : Label} (horderly : Orderly arguments.userId state)
    (hstep : step expiry arguments state label = some next) :
    Orderly arguments.userId next := by
  cases label with
  | begin clock =>
      cases hstep
      exact horderly.begin clock
  | leave number =>
      cases hstep
      exact horderly.leave number
  | elapse seconds =>
      obtain ⟨-, hnext⟩ := Option.ite_none_right_eq_some.mp hstep
      cases hnext
      exact ⟨horderly.fresh, horderly.keeps, horderly.apart⟩
  | answer number outcomes effect =>
      obtain ⟨attempt, request, hattempt, hpending, -, rfl⟩ := step_answer hstep
      exact horderly.advance hattempt
        ((horderly.keeps number attempt hattempt).resume hpending outcomes).1 _

theorem inv_step {label : Label} (hinv : Inv expiry arguments.userId state)
    (htame : Tame state label) (hstep : step expiry arguments state label = some next) :
    Inv expiry arguments.userId next := by
  obtain ⟨horderly, hkept⟩ := hinv
  refine ⟨orderly_step horderly hstep, ?_⟩
  cases label with
  | begin clock =>
      cases hstep
      exact hkept.begin
  | leave number =>
      cases hstep
      exact hkept.leave number
  | elapse seconds =>
      obtain ⟨hseconds, hnext⟩ := Option.ite_none_right_eq_some.mp hstep
      cases hnext
      exact hkept.elapse hseconds
  | answer number outcomes effect =>
      obtain ⟨attempt, request, hattempt, hpending, hanswers, rfl⟩ := step_answer hstep
      obtain ⟨-, mode, after, hbefore, hafter, hmode⟩ :=
        (horderly.keeps number attempt hattempt).resume hpending outcomes
      apply hkept.answer horderly hattempt hbefore hmode (move_of_uploadProtocol hafter)
        hanswers (htame attempt hattempt request hpending)
      split
      case isTrue => exact .inl rfl
      case isFalse hnot =>
        refine .inr ⟨rfl, ?_⟩
        cases houtcome : outcomes request with
        | ok reply =>
            rw [houtcome] at hnot
            exact absurd rfl hnot
        | error exception => exact ⟨exception, rfl⟩

/-- Attempts may overlap in every other way: what is cached stays in storage, and no link
that was sent dangles before it expires. -/
theorem sound_of_tame (expiry : String → ℚ) (arguments : Arguments) (now : ℚ)
    (state : State) (hrun : Reaches (step expiry arguments) Tame (start now) state) :
    Sound expiry arguments.userId state := by
  have hinv : Inv expiry arguments.userId state :=
    hrun.invariant ⟨orderly_start now, kept_start now⟩
      fun _ _ _ h htame hstep => inv_step h htame hstep
  exact hinv.2.sound

end Runs

/-- Every call but the upload succeeds. -/
def failUpload : (request : Call) → Except Exn (Reply request)
  | .uploadAndSign _ => .error .uploadError
  | request => .ok (obliging request)

/-- Signatures made at the start, for a day. -/
def aDay (_ : String) : ℚ := 86400

/-- The message is delivered twice, and both attempts find no URL. -/
def bothLookUp : List Label :=
  [.begin inMay, .begin inMay, .answer 0 succeed true, .answer 1 succeed true,
    .answer 0 succeed true, .answer 1 succeed true]

/-- From the upload phase to the send. -/
def delivers (number : ℕ) : List Label := List.replicate 8 (.answer number succeed true)

/-- Both attempts upload, and both links are good. -/
theorem sound_of_tame_twice :
    ∃ state, Reaches (step aDay inDirectMessage) Tame (start 0) state ∧
      state.store.sent.length = 2 ∧ Sound aDay 7 state := by
  obtain ⟨state, hrun, hcheck⟩ := exists_reaches_of_replay
    (guarded (step aDay inDirectMessage) Tame) (start 0)
    (bothLookUp ++ delivers 0 ++ delivers 1)
    (fun state => decide (state.store.sent.length = 2)) (by decide +kernel)
  exact ⟨state, hrun.of_guarded, of_decide_eq_true hcheck,
    sound_of_tame aDay inDirectMessage 0 state hrun.of_guarded⟩

/-- The second attempt fails after the first has sent the link, and cleans up. -/
theorem not_sound_overlapping :
    ∃ state, Reaches (step aDay inDirectMessage) unrestricted (start 0) state ∧
      ¬ Sound aDay 7 state := by
  obtain ⟨state, hrun, hcheck⟩ := exists_reaches_of_replay
    (step aDay inDirectMessage) (start 0)
    (bothLookUp ++ delivers 0 ++ List.replicate 4 (.answer 1 failUpload false))
    (fun state => decide (mediaDownload "url" 7 ∈ state.store.sent ∧
      state.now < aDay "url" ∧ state.store.blob = false)) (by decide +kernel)
  obtain ⟨hsent, hexpiry, hgone⟩ := of_decide_eq_true hcheck
  refine ⟨state, hrun, fun hsound => ?_⟩
  cases hgone.symm.trans (hsound.sent "url" hsent hexpiry)

end DownloaderBot.Overlap
