import DownloaderBot.Tasks.Overlap

/-!
# Reuse of a signed URL

The signature of a URL starts to run inside the upload, and its key when the URL is cached
afterwards.  Both run equally long, so a key outlives its URL by the time between the two.
Lookups are recorded along the runs of one task.
-/

namespace DownloaderBot.Reuse

open DownloaderBot.ExpiringStore (Cell fetch fetch_eq_some)
open DownloaderBot.Overlap
open DownloaderBot.Program
open DownloaderBot.Tasks
open DownloaderBot.TransitionSystem

/-- A cache write that took effect. -/
structure Write where
  url : String
  time : ℚ
  ttlSeconds : ℤ
  deriving DecidableEq

/-- The moment from which the key reads as absent. -/
def Write.deadline (write : Write) : ℚ := write.time + write.ttlSeconds

def Write.cell (write : Write) : Cell String ℚ := ⟨write.url, some write.deadline⟩

/-- A lookup that was answered: when its attempt began, when it was answered, what had been
cached last, and how the attempt goes on. -/
structure Lookup where
  began : ℚ
  time : ℚ
  cached : Option Write
  mode : Option Mode

/-- The attempts, with what was seen of them. -/
structure Watched where
  state : State
  began : ℕ → ℚ
  cached : Option Write
  lookups : List Lookup

namespace Watched

variable (watched : Watched)

def pending (number : ℕ) : Option Call :=
  (watched.state.attempts number).bind fun attempt => attempt.session.pending

/-- The answer is one to a lookup. -/
def looksUp (number : ℕ) (outcomes : (request : Call) → Except Exn (Reply request)) : Bool :=
  watched.pending number = some .getCachedArchiveUrl &&
    (outcomes .getCachedArchiveUrl).toBool

/-- What has been cached last, after an answer. -/
def cachedAfter (number : ℕ) (outcomes : (request : Call) → Except Exn (Reply request))
    (effect : Bool) : Option Write :=
  match watched.pending number with
  | some (.cacheArchiveUrl url ttlSeconds) =>
      if 0 < ttlSeconds ∧ takesEffect (outcomes (.cacheArchiveUrl url ttlSeconds)) effect then
        some ⟨url, watched.state.now, ttlSeconds⟩
      else watched.cached
  | _ => watched.cached

/-- What is seen of a step to `next`. -/
def observe (next : State) : Label → Watched
  | .begin _ =>
      { watched with
        state := next
        began := Function.update watched.began watched.state.begun watched.state.now }
  | .answer number outcomes effect =>
      { watched with
        state := next
        cached := watched.cachedAfter number outcomes effect
        lookups := watched.lookups ++
          if watched.looksUp number outcomes then
            [⟨watched.began number, watched.state.now, watched.cached,
              (next.attempts number).bind fun attempt => attempt.session.mode⟩]
          else [] }
  | .leave _ | .elapse _ => { watched with state := next }

end Watched

def step (expiry : String → ℚ) (arguments : Arguments) (watched : Watched) (label : Label) :
    Option Watched :=
  (Overlap.step expiry arguments watched.state label).map fun next =>
    watched.observe next label

def start (now : ℚ) : Watched := ⟨Overlap.start now, fun _ => now, none, []⟩

/-- `reused`: a URL that is found and reused has not expired.  `renewed`: an attempt that
starts when what is cached has expired goes through the upload phase. -/
structure InTime (expiry : String → ℚ) (lookup : Lookup) : Prop where
  reused : ∀ url, lookup.mode = some (.holding url) → url ≠ emptySentinel →
    lookup.time < expiry url
  renewed : ∀ write ∈ lookup.cached, write.url ≠ emptySentinel →
    expiry write.url ≤ lookup.began → lookup.mode = some .walking

/-- No attempt has reused a dead link. -/
def ReusesInTime (expiry : String → ℚ) (watched : Watched) : Prop :=
  ∀ lookup ∈ watched.lookups, InTime expiry lookup

/-- The moment is not between the expiry of the URL that was cached and the end of its
key. -/
def Clear (expiry : String → ℚ) (time : ℚ) (cached : Option Write) : Prop :=
  ∀ write ∈ cached, write.url ≠ emptySentinel →
    time < expiry write.url ∨ write.deadline ≤ time

instance (expiry : String → ℚ) (time : ℚ) (cached : Option Write) :
    Decidable (Clear expiry time cached) :=
  inferInstanceAs (Decidable (∀ write ∈ cached, _ → _))

/-- No lookup is answered in that time. -/
def Timely (expiry : String → ℚ) (watched : Watched) : Label → Prop
  | .answer number outcomes _ =>
      watched.looksUp number outcomes = true →
        Clear expiry watched.state.now watched.cached
  | _ => True

instance (expiry : String → ℚ) (watched : Watched) :
    (label : Label) → Decidable (Timely expiry watched label)
  | .answer _ _ _ => inferInstanceAs (Decidable (_ → _))
  | .begin _ | .leave _ | .elapse _ => .isTrue trivial

/-! ## Lookups -/

section Lookups

variable {expiry : String → ℚ}

/-- A lookup goes by what had been cached. -/
structure Lookup.Answered (lookup : Lookup) : Prop where
  mode_eq : lookup.mode =
    some ((fetch lookup.time (lookup.cached.map Write.cell)).elim .walking .holding)
  began_le : lookup.began ≤ lookup.time

theorem fetch_write {time : ℚ} (write : Write) :
    fetch time (some write.cell) = if time < write.deadline then some write.url else none := by
  rw [fetch]
  simp [Write.cell, Cell.Live]

/-- A lookup is in time exactly where it is clear of the gap. -/
theorem Lookup.Answered.inTime_iff {lookup : Lookup} (hanswered : lookup.Answered) :
    InTime expiry lookup ↔ Clear expiry lookup.time lookup.cached := by
  obtain ⟨hmode, hbegan⟩ := hanswered
  constructor
  · intro hinTime write hwrite hurl
    by_cases hlive : lookup.time < write.deadline
    · left
      rw [Option.mem_def.mp hwrite, Option.map_some, fetch_write, if_pos hlive] at hmode
      exact hinTime.reused write.url hmode hurl
    · right
      exact not_lt.mp hlive
  · intro hclear
    refine ⟨fun url hholding hurl => ?_, fun write hwrite hurl hexpired => ?_⟩
    · cases hcached : lookup.cached with
      | none => simp [hmode, hcached] at hholding
      | some write =>
          rw [hmode, hcached, Option.map_some, fetch_write] at hholding
          split at hholding
          case isTrue hlive =>
            cases hholding
            exact (hclear write hcached hurl).resolve_right (not_le.mpr hlive)
          case isFalse => cases hholding
    · have hdead : write.deadline ≤ lookup.time :=
        (hclear write hwrite hurl).resolve_left (not_lt.mpr (hexpired.trans hbegan))
      rw [hmode, Option.mem_def.mp hwrite, Option.map_some, fetch_write,
        if_neg (not_lt.mpr hdead)]
      rfl

end Lookups

/-! ## Runs -/

section Runs

variable {expiry : String → ℚ} {arguments : Arguments} {watched next : Watched}

/-- The key holds what was cached last. -/
structure Tracked (userId : ℕ) (watched : Watched) : Prop where
  orderly : Orderly userId watched.state
  archiveUrl : watched.state.store.archiveUrl = watched.cached.map Write.cell
  began_le : ∀ number, watched.began number ≤ watched.state.now

theorem tracked_start (userId : ℕ) (now : ℚ) : Tracked userId (start now) where
  orderly := orderly_start now
  archiveUrl := rfl
  began_le _ := le_rfl

/-- Only a cache write moves the key. -/
theorem archiveUrl_effect (store : Store) (now : ℚ) {request : Call}
    (hrequest : ∀ url ttlSeconds, request ≠ .cacheArchiveUrl url ttlSeconds) :
    (store.effect now request).archiveUrl = store.archiveUrl := by
  cases request with
  | cacheArchiveUrl url ttlSeconds => exact absurd rfl (hrequest url ttlSeconds)
  | _ => rfl

theorem Tracked.archiveUrl_answer (htracked : Tracked arguments.userId watched) {number : ℕ}
    {attempt : Attempt} {request : Call}
    (hattempt : watched.state.attempts number = some attempt)
    (hpending : attempt.session.pending = some request)
    (outcomes : (request : Call) → Except Exn (Reply request)) (effect : Bool) :
    (if takesEffect (outcomes request) effect then
        watched.state.store.effect watched.state.now request
      else watched.state.store).archiveUrl =
      (watched.cachedAfter number outcomes effect).map Write.cell := by
  have hat : watched.pending number = some request := by
    rw [Watched.pending, hattempt]
    exact hpending
  cases htakes : takesEffect (outcomes request) effect with
  | false =>
      have hsame : watched.cachedAfter number outcomes effect = watched.cached := by
        rw [Watched.cachedAfter, hat]
        split
        case h_1 url ttlSeconds hcall =>
          cases hcall
          simp [htakes]
        case h_2 => rfl
      rw [hsame]
      exact htracked.archiveUrl
  | true =>
      rw [if_pos rfl, Watched.cachedAfter, hat]
      split
      case h_1 url ttlSeconds hcall =>
        cases hcall
        simp only [Store.effect, htakes, and_true]
        split
        · rfl
        · exact htracked.archiveUrl
      case h_2 hother =>
        rw [archiveUrl_effect _ _ fun url ttlSeconds heq =>
          hother url ttlSeconds (congrArg some heq)]
        exact htracked.archiveUrl

/-- An attempt whose lookup is answered reuses what it finds, and else goes on to upload. -/
theorem Tracked.answered (htracked : Tracked arguments.userId watched) {number : ℕ}
    {attempt : Attempt} {request : Call}
    {outcomes : (request : Call) → Except Exn (Reply request)}
    (hattempt : watched.state.attempts number = some attempt)
    (hpending : attempt.session.pending = some request)
    (hanswers : ∀ reply, outcomes request = .ok reply →
      watched.state.store.Answers expiry watched.state.now request reply)
    (hlooksUp : watched.looksUp number outcomes = true) (store : Store) :
    Lookup.Answered ⟨watched.began number, watched.state.now, watched.cached,
      ((watched.state.advance number attempt
        (attempt.session.resume (uploadProtocol arguments.userId) outcomes)
        store).attempts number).bind fun attempt => attempt.session.mode⟩ := by
  obtain ⟨hat, hreturned⟩ := Bool.and_eq_true_iff.mp hlooksUp
  obtain rfl : request = .getCachedArchiveUrl := by
    have hsome : watched.pending number = some request := by
      rw [Watched.pending, hattempt]
      exact hpending
    exact Option.some.inj (hsome.symm.trans (of_decide_eq_true hat))
  obtain ⟨-, mode, after, -, hafter, hmode⟩ :=
    (htracked.orderly.keeps number attempt hattempt).resume hpending outcomes
  refine ⟨?_, htracked.began_le number⟩
  have hnext : ((watched.state.advance number attempt
      (attempt.session.resume (uploadProtocol arguments.userId) outcomes)
      store).attempts number).bind (fun attempt => attempt.session.mode) = some after := by
    simp [State.advance, hmode]
  rw [hnext, Option.some_inj]
  cases hreply : outcomes .getCachedArchiveUrl with
  | error exception =>
      rw [hreply] at hreturned
      cases hreturned
  | ok reply =>
      have hfound : reply = fetch watched.state.now watched.state.store.archiveUrl :=
        hanswers reply hreply
      rw [htracked.archiveUrl] at hfound
      rw [hreply] at hafter
      change after = (fetch watched.state.now (watched.cached.map Write.cell)).elim _ _
      rw [← hfound]
      cases move_of_uploadProtocol hafter with
      | quiet hquiet => cases hquiet
      | miss => rfl
      | hit url => rfl

theorem lookups_grow {label : Label}
    (hstep : step expiry arguments watched label = some next) :
    watched.lookups <+: next.lookups := by
  obtain ⟨state, -, rfl⟩ := Option.map_eq_some_iff.mp hstep
  cases label with
  | answer number outcomes effect => exact List.prefix_append _ _
  | begin _ | leave _ | elapse _ => exact List.prefix_rfl

/-- The lookup that a step is, if it is one. -/
theorem lookups_step {label : Label} (htracked : Tracked arguments.userId watched)
    (hstep : step expiry arguments watched label = some next) :
    Tracked arguments.userId next ∧ ∃ lookups, next.lookups = watched.lookups ++ lookups ∧
      (∀ lookup ∈ lookups, lookup.Answered) ∧
      (Timely expiry watched label ↔
        ∀ lookup ∈ lookups, Clear expiry lookup.time lookup.cached) := by
  obtain ⟨state, hmoved, rfl⟩ := Option.map_eq_some_iff.mp hstep
  have horderly := orderly_step htracked.orderly hmoved
  cases label with
  | begin clock =>
      cases hmoved
      refine ⟨⟨horderly, htracked.archiveUrl, fun number => ?_⟩, [], by simp [Watched.observe],
        List.forall_mem_nil _, by simp [Timely]⟩
      change Function.update watched.began watched.state.begun watched.state.now number ≤ _
      rcases eq_or_ne number watched.state.begun with rfl | hne
      · rw [Function.update_self]
        exact le_rfl
      · rw [Function.update_of_ne hne]
        exact htracked.began_le number
  | leave number =>
      cases hmoved
      exact ⟨⟨horderly, htracked.archiveUrl, htracked.began_le⟩, [],
        by simp [Watched.observe], List.forall_mem_nil _, by simp [Timely]⟩
  | elapse seconds =>
      obtain ⟨hseconds, hnext⟩ := Option.ite_none_right_eq_some.mp hmoved
      cases hnext
      exact ⟨⟨horderly, htracked.archiveUrl, fun number =>
        (htracked.began_le number).trans (le_add_of_nonneg_right hseconds)⟩, [],
        by simp [Watched.observe], List.forall_mem_nil _, by simp [Timely]⟩
  | answer number outcomes effect =>
      obtain ⟨attempt, request, hattempt, hpending, hanswers, rfl⟩ := step_answer hmoved
      refine ⟨⟨horderly, htracked.archiveUrl_answer hattempt hpending outcomes effect,
        htracked.began_le⟩, _, rfl, ?_, ?_⟩
      · split
        case isTrue hlooksUp =>
          intro lookup hlookup
          rw [List.mem_singleton.mp hlookup]
          exact htracked.answered hattempt hpending hanswers hlooksUp _
        case isFalse => exact List.forall_mem_nil _
      · rw [Timely]
        split
        case isTrue hlooksUp => simp [hlooksUp]
        case isFalse hnot => simp [hnot]

/-- In a run, no attempt has reused a dead link exactly if no lookup was answered between
the expiry of the URL that was cached and the end of its key. -/
theorem reusesInTime_iff (expiry : String → ℚ) (arguments : Arguments) (now : ℚ)
    (watched : Watched) (hrun : Reaches (step expiry arguments) unrestricted (start now) watched) :
    ReusesInTime expiry watched ↔
      Reaches (step expiry arguments) (Timely expiry) (start now) watched := by
  have hfirst : Tracked arguments.userId (start now) ∧ ReusesInTime expiry (start now) :=
    ⟨tracked_start arguments.userId now, List.forall_mem_nil _⟩
  refine hrun.iff_allowed hfirst ?_ ?_
  · intro state label next hstep hinTime lookup hlookup
    exact hinTime lookup ((lookups_grow hstep).subset hlookup)
  · intro state label next htracked hinTime hstep
    obtain ⟨hnext, lookups, hlookups, hanswered, htimely⟩ := lookups_step htracked hstep
    refine ⟨?_, fun _ => hnext⟩
    rw [htimely, ReusesInTime, hlookups, List.forall_mem_append]
    constructor
    · rintro ⟨-, hnew⟩ lookup hlookup
      exact (hanswered lookup hlookup).inTime_iff.mp (hnew lookup hlookup)
    · intro hclear
      exact ⟨hinTime, fun lookup hlookup =>
        (hanswered lookup hlookup).inTime_iff.mpr (hclear lookup hlookup)⟩

/-- A URL is cached in the moment of its signature. -/
def Punctual (expiry : String → ℚ) (watched : Watched) : Label → Prop
  | .answer number outcomes effect =>
      ∀ write ∈ watched.cachedAfter number outcomes effect, write.url ≠ emptySentinel →
        write.deadline ≤ expiry write.url
  | _ => True

/-- Then there is no time between the expiry of a URL and the end of its key. -/
theorem reusesInTime_of_punctual (expiry : String → ℚ) (arguments : Arguments) (now : ℚ)
    (watched : Watched)
    (hrun : Reaches (step expiry arguments) (Punctual expiry) (start now) watched) :
    ReusesInTime expiry watched := by
  have hboth : (∀ write ∈ watched.cached, write.url ≠ emptySentinel →
      write.deadline ≤ expiry write.url) ∧
      Reaches (step expiry arguments) (Timely expiry) (start now) watched := by
    induction hrun with
    | refl => exact ⟨nofun, .refl⟩
    | @tail middle last label _ hpunctual hstep ih =>
        obtain ⟨hcached, htimely⟩ := ih
        have hclear : Clear expiry middle.state.now middle.cached := fun write hwrite hurl =>
          (lt_or_ge middle.state.now (expiry write.url)).imp id
            (hcached write hwrite hurl).trans
        refine ⟨?_, htimely.tail label ?_ hstep⟩
        · obtain ⟨state, -, rfl⟩ := Option.map_eq_some_iff.mp hstep
          cases label with
          | answer number outcomes effect => exact hpunctual
          | begin _ | leave _ | elapse _ => exact hcached
        · cases label with
          | answer number outcomes effect => exact fun _ => hclear
          | begin _ | leave _ | elapse _ => trivial
  exact (reusesInTime_iff expiry arguments now watched hboth.2.forget).mpr hboth.2

end Runs

/-- Every call succeeds, and a URL is found. -/
def findUrl : (request : Call) → Except Exn (Reply request)
  | .getCachedArchiveUrl => .ok (some "url")
  | request => .ok (obliging request)

/-- An attempt uploads, caches the URL ten seconds after its signature and dies.  Another one
starts after so many seconds and looks the URL up. -/
def uploadThenRetry (seconds : ℚ) : List Label :=
  [.begin inMay] ++ List.replicate 5 (.answer 0 succeed true) ++
    [.elapse 10, .answer 0 succeed true, .leave 0, .elapse seconds, .begin inMay,
      .answer 1 succeed true, .answer 1 findUrl true]

/-- A minute later the URL is good. -/
theorem reusesInTime_iff_minute :
    ∃ watched, Reaches (step aDay inDirectMessage) (Timely aDay) (start 0) watched ∧
      (∃ lookup ∈ watched.lookups, lookup.mode = some (.holding "url")) ∧
      ReusesInTime aDay watched := by
  obtain ⟨watched, hrun, hcheck⟩ := exists_reaches_of_replay
    (guarded (step aDay inDirectMessage) (Timely aDay)) (start 0) (uploadThenRetry 60)
    (fun watched => decide (∃ lookup ∈ watched.lookups, lookup.mode = some (.holding "url")))
    (by decide +kernel)
  have htimely := hrun.of_guarded
  exact ⟨watched, htimely, of_decide_eq_true hcheck,
    (reusesInTime_iff aDay inDirectMessage 0 watched htimely.forget).mpr htimely⟩

/-- An attempt that starts when the URL expires finds it and sends it. -/
theorem not_reusesInTime_at_expiry :
    ∃ watched, Reaches (step aDay inDirectMessage) unrestricted (start 0) watched ∧
      aDay "url" ≤ watched.began 1 ∧
      Embeds.mediaDownload "url" 7 ∈ watched.state.store.sent ∧
      ¬ ReusesInTime aDay watched := by
  obtain ⟨watched, hrun, hcheck⟩ := exists_reaches_of_replay
    (step aDay inDirectMessage) (start 0)
    (uploadThenRetry 86390 ++ List.replicate 4 (.answer 1 succeed true))
    (fun watched => decide (aDay "url" ≤ watched.began 1 ∧
      Embeds.mediaDownload "url" 7 ∈ watched.state.store.sent ∧
      ∃ lookup ∈ watched.lookups, lookup.mode = some (.holding "url") ∧
        aDay "url" ≤ lookup.time)) (by decide +kernel)
  obtain ⟨hbegan, hsent, lookup, hlookup, hmode, hlate⟩ := of_decide_eq_true hcheck
  refine ⟨watched, hrun, hbegan, hsent, fun hinTime => ?_⟩
  exact absurd ((hinTime lookup hlookup).reused "url" hmode (by decide)) (not_lt.mpr hlate)

end DownloaderBot.Reuse
