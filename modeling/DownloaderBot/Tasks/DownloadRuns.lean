import DownloaderBot.Tasks.Download

/-!
# Attempts at one download

Any number of sequential attempts at the task, with calls that succeed or raise
without effect, and with attempts that stop between two calls.  The keys of the
task outlive the attempts.
-/

namespace DownloaderBot.Tasks

open DownloaderBot.Attempts
open DownloaderBot.Embeds
open DownloaderBot.Program
open DownloaderBot.TransitionSystem

/-- `task:{id}:archive_url`, `task:{id}:delivered` and the progress. -/
structure Keys where
  archiveUrl : Option String
  delivered : Bool
  progress : Option Phase
  deriving DecidableEq, Repr

/-- The keys answer for themselves; everything else may answer anything. -/
def service : Service Keys Reply where
  answer keys
    | .getCachedArchiveUrl, _ => keys.archiveUrl
    | .isDelivered, _ => keys.delivered
    | _, proposed => proposed
  effect keys
    | .setProgress phase => { keys with progress := some phase }
    | .cacheArchiveUrl url _ => { keys with archiveUrl := some url }
    | .markDelivered _ => { keys with delivered := true }
    | _ => keys

abbrev Happening := Event Call Exn DownloadResult

abbrev History := Log Keys Call Exn DownloadResult

abbrev Attempting := Attempts.State Keys Reply Exn DownloadResult

/-- Attempts at the task with these arguments, each with its own clock. -/
def attemptStep (arguments : Arguments) :
    Attempting → Label Reply Exn Clock → Option Attempting :=
  step service (downloadChannelMedia arguments)

/-- No key is set, and no attempt has been made. -/
def attemptStart : Attempting := start ⟨none, false, none⟩

/-! ## What happens in an attempt -/

/-- The storage backend is asked for an upload, which walks the history. -/
def uploads : Happening → Bool
  | .served (.uploadAndSign _) | .failed (.uploadAndSign _) _ => true
  | _ => false

def caches : Happening → Bool
  | .served (.cacheArchiveUrl ..) => true
  | _ => false

def sends : Happening → Bool
  | .served (.send ..) => true
  | _ => false

theorem sends_iff {event : Happening} :
    sends event = true ↔
      ∃ destination embed, event = .served (.send destination embed) := by
  constructor
  · intro hsend
    cases event with
    | served request =>
        cases request with
        | send destination embed => exact ⟨destination, embed, rfl⟩
        | _ => cases hsend
    | _ => cases hsend
  · rintro ⟨destination, embed, rfl⟩
    rfl

def marks : Happening → Bool
  | .served (.markDelivered _) => true
  | _ => false

def reportsDone : Happening → Bool
  | .served (.setProgress .done) => true
  | _ => false

/-- The job index is asked to forget the job. -/
def forgets : Happening → Bool
  | .served (.forgetJob _) | .failed (.forgetJob _) _ => true
  | _ => false

def returns : Happening → Bool
  | .returned _ => true
  | _ => false

/-- The attempts that ended after a send had returned and before
`mark_delivered` had succeeded. -/
def strays (history : History) : ℕ :=
  history.past.countP fun attempt => attempt.any sends && !attempt.any marks

/-- What holds of the attempts at one task: once the archive is cached nothing is
uploaded again; every embed tells of the cached archive; embeds are repeated only
after strays; an attempt returns only after an embed was sent, and the job is
forgotten only after that, the mark and the final progress. -/
structure Consistent (userId : ℕ) (history : History) : Prop where
  uploaded_once : NeverAfter (caches ·) (uploads ·) history.trace
  same_embed : ∀ destination embed,
    .served (.send destination embed) ∈ history.trace →
      ∃ url, history.world.archiveUrl = some url ∧ embed = resultEmbed url userId
  sends_le : history.trace.countP sends ≤ 1 + strays history
  returned_sent : PrecededBy (sends ·) (returns ·) history.trace
  forgotten_sent : PrecededBy (sends ·) (forgets ·) history.trace
  forgotten_marked : PrecededBy (marks ·) (forgets ·) history.trace
  forgotten_done : PrecededBy (reportsDone ·) (forgets ·) history.trace

/-- The invariant: the keys tell what is in the trace, and without a mark the
sends so far are strays, but for one of the current attempt. -/
structure Good (userId : ℕ) (history : History) : Prop
    extends Consistent userId history where
  uncached : history.world.archiveUrl = none →
    ∀ event ∈ history.trace, caches event = false
  delivered_sent : history.world.delivered = true →
    ∃ event ∈ history.trace, sends event
  delivered_marked : history.world.delivered = true →
    ∃ event ∈ history.trace, marks event
  unmarked : history.world.delivered = false →
    ∀ event ∈ history.trace, marks event = false
  fresh : history.world.delivered = false →
    history.trace.countP sends ≤ strays history ∨
      ∃ event ∈ history.current, sends event
  done_sent : history.world.progress = some .done →
    ∃ event ∈ history.trace, sends event
  forgets_own : ∀ owner, .served (.forgetJob owner) ∈ history.trace → owner = userId
  returned_forgotten : PrecededBy (forgets ·) (returns ·) history.trace

section Good

variable {userId : ℕ} {history after : History}

theorem good_start : Good userId ⟨⟨none, false, none⟩, [], []⟩ := by
  constructor
  · constructor
    · exact neverAfter_nil
    · simp [Log.trace]
    · simp [Log.trace]
    · exact precededBy_nil
    · exact precededBy_nil
    · exact precededBy_nil
    · exact precededBy_nil
  case returned_forgotten => exact precededBy_nil
  all_goals simp [Log.trace]

/-- What has happened has happened in a longer trace as well. -/
theorem exists_mem_concat {test : Happening → Bool} {trace : List Happening}
    {event : Happening} (hsome : ∃ earlier ∈ trace, test earlier) :
    ∃ earlier ∈ trace ++ [event], test earlier := by
  obtain ⟨earlier, hmem, htest⟩ := hsome
  exact ⟨earlier, List.mem_append_left _ hmem, htest⟩

theorem exists_mem_concat_self {test : Happening → Bool} {trace : List Happening}
    {event : Happening} (htest : test event) :
    ∃ earlier ∈ trace ++ [event], test earlier :=
  ⟨event, List.mem_append_right _ (List.mem_singleton_self _), htest⟩

/-- The event may come next, with keys that change at most as it says: the archive
is as it was or newly cached. -/
structure Admits (userId : ℕ) (history : History) (event : Happening) (keys : Keys) :
    Prop where
  kept : ∀ url, history.world.archiveUrl = some url → keys.archiveUrl = some url
  cached : caches event = true → keys.archiveUrl ≠ none
  uncached : uploads event = true → history.world.archiveUrl = none
  unsent : ∀ destination embed, event = .served (.send destination embed) →
    history.world.delivered = false ∧ history.trace.countP sends ≤ strays history ∧
      ∃ url, history.world.archiveUrl = some url ∧ embed = resultEmbed url userId
  sent : marks event = true → ∃ earlier ∈ history.trace, sends earlier
  delivered : keys.delivered = (history.world.delivered || marks event)
  done : keys.progress = some .done →
    history.world.progress = some .done ∨ history.world.delivered = true
  finished : forgets event = true →
    history.world.delivered = true ∧ ∃ earlier ∈ history.trace, reportsDone earlier
  own : ∀ owner, event = .served (.forgetJob owner) → owner = userId
  goes_on : returns event = false

/-- The history with one more event, and the keys after it. -/
abbrev extended (history : History) (event : Happening) (keys : Keys) : History :=
  { history with world := keys, current := history.current ++ [event] }

theorem trace_extended (history : History) (event : Happening) (keys : Keys) :
    (extended history event keys).trace = history.trace ++ [event] := by
  simp [Log.trace]

theorem Admits.not_returns {event : Happening} {keys : Keys}
    (hadmits : Admits userId history event keys) : ¬ returns event = true :=
  Bool.eq_false_iff.mp hadmits.goes_on

/-- An event that may come next repeats and skips nothing. -/
theorem Good.consistent_record (hgood : Good userId history) {event : Happening}
    {keys : Keys} (hadmits : Admits userId history event keys) :
    Consistent userId (extended history event keys) := by
  constructor <;> rw [trace_extended]
  case uploaded_once =>
    apply hgood.uploaded_once.concat
    intro hup earlier hmem
    simpa using hgood.uncached (hadmits.uncached hup) earlier hmem
  case same_embed =>
    intro destination embed hmem
    rcases List.mem_append.mp hmem with hold | hnew
    · obtain ⟨url, hurl, hembed⟩ := hgood.same_embed destination embed hold
      exact ⟨url, hadmits.kept url hurl, hembed⟩
    · obtain ⟨-, -, url, hurl, hembed⟩ :=
        hadmits.unsent destination embed (List.mem_singleton.mp hnew).symm
      exact ⟨url, hadmits.kept url hurl, hembed⟩
  case sends_le =>
    rw [show strays (extended history event keys) = strays history from rfl,
      List.countP_append, List.countP_singleton]
    have hle := hgood.sends_le
    split
    case isTrue hsend =>
      obtain ⟨destination, embed, hevent⟩ := sends_iff.mp hsend
      obtain ⟨-, hfew, -⟩ := hadmits.unsent destination embed hevent
      omega
    case isFalse => omega
  case returned_sent => exact hgood.returned_sent.concat_of_not hadmits.not_returns
  case forgotten_sent =>
    exact hgood.forgotten_sent.concat fun h => hgood.delivered_sent (hadmits.finished h).1
  case forgotten_marked =>
    exact hgood.forgotten_marked.concat fun h =>
      hgood.delivered_marked (hadmits.finished h).1
  case forgotten_done =>
    exact hgood.forgotten_done.concat fun h => (hadmits.finished h).2

theorem Good.record (hgood : Good userId history) {event : Happening} {keys : Keys}
    (hadmits : Admits userId history event keys) :
    Good userId (extended history event keys) := by
  have hdelivered : keys.delivered = true →
      history.world.delivered = true ∨ marks event = true := by
    rw [hadmits.delivered, Bool.or_eq_true]
    exact id
  have hundelivered : keys.delivered = false →
      history.world.delivered = false ∧ marks event = false := by
    rw [hadmits.delivered, Bool.or_eq_false_iff]
    exact id
  have hwas : keys.archiveUrl = none → history.world.archiveUrl = none := by
    intro hnone
    cases harchive : history.world.archiveUrl with
    | none => rfl
    | some url => cases (hadmits.kept url harchive).symm.trans hnone
  refine ⟨hgood.consistent_record hadmits, ?uncached, ?delivered_sent, ?delivered_marked,
    ?unmarked, ?fresh, ?done_sent, ?forgets_own, ?returned_forgotten⟩
  all_goals rw [trace_extended]
  case uncached =>
    intro hnone
    refine List.forall_mem_append.mpr ⟨hgood.uncached (hwas hnone), ?_⟩
    rw [List.forall_mem_singleton, ← Bool.not_eq_true]
    exact fun hcached => hadmits.cached hcached hnone
  case delivered_sent =>
    intro hnow
    exact exists_mem_concat ((hdelivered hnow).elim hgood.delivered_sent hadmits.sent)
  case delivered_marked =>
    intro hnow
    rcases hdelivered hnow with hbefore | hmark
    · exact exists_mem_concat (hgood.delivered_marked hbefore)
    · exact exists_mem_concat_self hmark
  case unmarked =>
    intro hnow
    obtain ⟨hnot, hunmarked⟩ := hundelivered hnow
    exact List.forall_mem_append.mpr
      ⟨hgood.unmarked hnot, List.forall_mem_singleton.mpr hunmarked⟩
  case fresh =>
    rw [show strays (extended history event keys) = strays history from rfl,
      List.countP_append, List.countP_singleton]
    intro hnow
    split
    case isTrue hsend => exact .inr (exists_mem_concat_self hsend)
    case isFalse =>
      rcases hgood.fresh (hundelivered hnow).1 with hle | hsome
      · exact .inl (by omega)
      · exact .inr (exists_mem_concat hsome)
  case done_sent =>
    intro hnow
    exact exists_mem_concat ((hadmits.done hnow).elim hgood.done_sent hgood.delivered_sent)
  case forgets_own =>
    intro owner hmem
    rcases List.mem_append.mp hmem with hold | hnew
    · exact hgood.forgets_own owner hold
    · exact hadmits.own owner (List.mem_singleton.mp hnew).symm
  case returned_forgotten =>
    exact hgood.returned_forgotten.concat_of_not hadmits.not_returns

/-- The end of an attempt: one that leaves a send without a mark is a stray. -/
theorem Good.close (hgood : Good userId history) {event : Happening}
    (hend : uploads event = false ∧ caches event = false ∧ sends event = false ∧
      marks event = false ∧ forgets event = false)
    (hreturns : returns event = true →
      (∃ earlier ∈ history.trace, sends earlier) ∧
        ∃ earlier ∈ history.trace, forgets earlier) :
    Good userId (history.close event) := by
  obtain ⟨huploads, hcaches, hsends, hmarks, hforgets⟩ := hend
  have hkeeps : ¬ forgets event = true := Bool.eq_false_iff.mp hforgets
  have hcount : (history.trace ++ [event]).countP sends =
      history.trace.countP sends := by
    rw [List.countP_append, List.countP_singleton, hsends]
    rfl
  have hstrays : strays (history.close event) = strays history +
      if history.current.any sends && !history.current.any marks then 1 else 0 := by
    simp [strays, Log.close, hsends, hmarks]
  constructor
  · constructor <;> rw [Log.trace_close]
    case uploaded_once =>
      exact hgood.uploaded_once.concat_of_not (Bool.eq_false_iff.mp huploads)
    case same_embed =>
      intro destination embed hmem
      rcases List.mem_append.mp hmem with hold | hnew
      · exact hgood.same_embed destination embed hold
      · obtain rfl := List.mem_singleton.mp hnew
        cases hsends
    case sends_le =>
      rw [hcount, hstrays]
      have := hgood.sends_le
      omega
    case returned_sent => exact hgood.returned_sent.concat fun h => (hreturns h).1
    case forgotten_sent => exact hgood.forgotten_sent.concat_of_not hkeeps
    case forgotten_marked => exact hgood.forgotten_marked.concat_of_not hkeeps
    case forgotten_done => exact hgood.forgotten_done.concat_of_not hkeeps
  all_goals rw [Log.trace_close]
  case uncached =>
    intro hnone
    exact List.forall_mem_append.mpr
      ⟨hgood.uncached hnone, List.forall_mem_singleton.mpr hcaches⟩
  case delivered_sent =>
    exact fun hdelivered => exists_mem_concat (hgood.delivered_sent hdelivered)
  case delivered_marked =>
    exact fun hdelivered => exists_mem_concat (hgood.delivered_marked hdelivered)
  case unmarked =>
    intro hnot
    exact List.forall_mem_append.mpr
      ⟨hgood.unmarked hnot, List.forall_mem_singleton.mpr hmarks⟩
  case fresh =>
    rw [hcount, hstrays]
    intro hnot
    left
    rcases hgood.fresh hnot with hle | ⟨earlier, hmem, hsent⟩
    · omega
    · -- The attempt sent and, the mark being absent, did not mark: a stray.
      have hstray : (history.current.any sends && !history.current.any marks) =
          true := by
        have hany : history.current.any sends = true :=
          List.any_eq_true.mpr ⟨earlier, hmem, hsent⟩
        have hnone : history.current.any marks = false :=
          List.any_eq_false.mpr fun other hother => by
            have := hgood.unmarked hnot other (List.mem_append_right _ hother)
            simp [this]
        simp [hany, hnone]
      rw [if_pos hstray]
      have := hgood.sends_le
      omega
  case done_sent => exact fun hdone => exists_mem_concat (hgood.done_sent hdone)
  case forgets_own =>
    intro owner hmem
    rcases List.mem_append.mp hmem with hold | hnew
    · exact hgood.forgets_own owner hold
    · obtain rfl := List.mem_singleton.mp hnew
      cases hforgets
  case returned_forgotten =>
    exact hgood.returned_forgotten.concat fun h => (hreturns h).2

end Good

/-! ## The calls of an attempt -/

/-- The calls that neither touch the two idempotency keys nor upload, send, forget
or report the end. -/
def Call.Quiet : Call → Prop
  | .setProgress phase => phase ≠ .done
  | .getSettings _ | .getCachedArchiveUrl | .fetchChannel _
  | .deleteBlob _ | .isDelivered | .fetchUser _ => True
  | _ => False

/-- Nothing has happened in between that matters to the invariant. -/
structure Quiet (userId : ℕ) (history after : History) : Prop where
  good : Good userId after
  archiveUrl : after.world.archiveUrl = history.world.archiveUrl
  delivered : after.world.delivered = history.world.delivered
  past : after.past = history.past
  sends : after.trace.countP sends = history.trace.countP sends

/-- Without a mark, all sends so far are strays of earlier attempts. -/
structure Fresh (userId : ℕ) (history : History) : Prop where
  good : Good userId history
  fresh : history.world.delivered = false →
    history.trace.countP sends ≤ strays history

/-- The archive is not cached. -/
structure Blank (userId : ℕ) (history : History) : Prop
    extends Fresh userId history where
  archiveUrl : history.world.archiveUrl = none

/-- The archive is cached. -/
structure Ready (userId : ℕ) (url : String) (history : History) : Prop
    extends Fresh userId history where
  archiveUrl : history.world.archiveUrl = some url

/-- About to deliver for the first time, as far as the keys know. -/
structure Unsent (userId : ℕ) (url : String) (history : History) : Prop
    extends Ready userId url history where
  undelivered : history.world.delivered = false

/-- The embed is out, the mark is not. -/
structure Sent (userId : ℕ) (history : History) : Prop where
  good : Good userId history
  undelivered : history.world.delivered = false
  sent : ∃ event ∈ history.trace, sends event

section Quiet

variable {userId : ℕ} {url : String} {history after : History}

theorem Quiet.strays (hquiet : Quiet userId history after) :
    strays after = strays history := by
  rw [Tasks.strays, hquiet.past, Tasks.strays]

theorem Fresh.quiet (hfresh : Fresh userId history)
    (hquiet : Quiet userId history after) : Fresh userId after where
  good := hquiet.good
  fresh hnot := by
    rw [hquiet.sends, hquiet.strays]
    exact hfresh.fresh (hquiet.delivered.symm.trans hnot)

theorem Blank.quiet (hblank : Blank userId history)
    (hquiet : Quiet userId history after) : Blank userId after where
  toFresh := hblank.toFresh.quiet hquiet
  archiveUrl := hquiet.archiveUrl.trans hblank.archiveUrl

theorem Ready.quiet (hready : Ready userId url history)
    (hquiet : Quiet userId history after) : Ready userId url after where
  toFresh := hready.toFresh.quiet hquiet
  archiveUrl := hquiet.archiveUrl.trans hready.archiveUrl

theorem Unsent.quiet (hunsent : Unsent userId url history)
    (hquiet : Quiet userId history after) : Unsent userId url after where
  toReady := hunsent.toReady.quiet hquiet
  undelivered := hquiet.delivered.trans hunsent.undelivered

/-- An event that matters to none of the predicates, with the two keys kept. -/
theorem Good.quiet (hgood : Good userId history) {event : Happening} {keys : Keys}
    (harchive : keys.archiveUrl = history.world.archiveUrl)
    (hdelivered : keys.delivered = history.world.delivered)
    (hdone : keys.progress = some .done → history.world.progress = some .done)
    (huploads : uploads event = true → history.world.archiveUrl = none)
    (hevent : caches event = false ∧ sends event = false ∧ marks event = false ∧
      forgets event = false ∧ returns event = false) :
    Quiet userId history { history with
      world := keys, current := history.current ++ [event] } := by
  obtain ⟨hcaches, hsends, hmarks, hforgets, hreturns⟩ := hevent
  refine ⟨?_, harchive, hdelivered, rfl, ?_⟩
  · refine hgood.record
      { kept := fun url h => harchive.trans h
        cached := fun h => absurd h (Bool.eq_false_iff.mp hcaches)
        uncached := huploads
        unsent := ?_
        sent := fun h => absurd h (Bool.eq_false_iff.mp hmarks)
        delivered := by rw [hdelivered, hmarks, Bool.or_false]
        done := fun h => .inl (hdone h)
        finished := fun h => absurd h (Bool.eq_false_iff.mp hforgets)
        own := ?_
        goes_on := hreturns }
    · rintro destination embed rfl
      cases hsends
    · rintro owner rfl
      cases hforgets
  · rw [trace_extended, List.countP_append, List.countP_singleton, hsends]
    rfl

/-- How a program may end: normally as told, or by raising with the invariant
kept. -/
def Ends {α : Type} (userId : ℕ) (normally : α → History → Prop)
    (history : History) : Except Exn α → Prop
  | .ok value => normally value history
  | .error _ => Good userId history

/-- Sequencing: what raises keeps the invariant, what goes on is proved from where
it starts. -/
theorem holds_bind_ends {α β : Type} {program : Task α} {rest : α → Task β}
    {first : α → History → Prop} {normally : β → History → Prop}
    (hprogram : program.Holds (Serves service) (Good userId) (Ends userId first)
      history)
    (hrest : ∀ value after, first value after →
      (rest value).Holds (Serves service) (Good userId) (Ends userId normally)
        after) :
    (program.bind rest).Holds (Serves service) (Good userId)
      (Ends userId normally) history := by
  refine Prog.holds_bind.mpr (hprogram.mono fun after outcome houtcome => ?_)
  cases outcome with
  | ok value => exact hrest value after houtcome
  | error exception => exact houtcome

/-- A quiet call, whether it succeeds or raises. -/
theorem holds_quiet {request : Call} (hrequest : request.Quiet)
    (hgood : Good userId history) :
    (await request).Holds (Serves service) (Good userId)
      (fun after outcome => Quiet userId history after ∧
        ∀ reply, outcome = .ok reply →
          ∃ proposed, reply = service.answer history.world request proposed)
      history := by
  refine Prog.holds_perform.mpr ⟨hgood, fun outcome after hserves => ?_⟩
  cases outcome with
  | ok reply =>
      obtain ⟨hreply, rfl⟩ := hserves
      refine ⟨?_, ?_⟩
      · cases request <;> first
          | exact hrequest.elim
          | exact hgood.quiet rfl rfl (fun h => absurd (Option.some.inj h) hrequest)
              (by simp [uploads]) ⟨rfl, rfl, rfl, rfl, rfl⟩
          | exact hgood.quiet rfl rfl id (by simp [uploads])
              ⟨rfl, rfl, rfl, rfl, rfl⟩
      · intro other hother
        cases hother
        exact hreply
  | error exception =>
      obtain rfl : after = history.record (.failed request exception) := hserves
      refine ⟨?_, fun _ h => by cases h⟩
      cases request <;> first
        | exact hrequest.elim
        | exact hgood.quiet rfl rfl id (by simp [uploads]) ⟨rfl, rfl, rfl, rfl, rfl⟩

/-- A quiet call and what follows it. -/
theorem holds_quiet_bind {α : Type} {request : Call} (hrequest : request.Quiet)
    {rest : Reply request → Task α} {normally : α → History → Prop}
    (hgood : Good userId history)
    (hrest : ∀ reply after, Quiet userId history after →
      (∃ proposed, reply = service.answer history.world request proposed) →
      (rest reply).Holds (Serves service) (Good userId) (Ends userId normally)
        after) :
    ((await request).bind rest).Holds (Serves service) (Good userId)
      (Ends userId normally) history := by
  refine Prog.holds_bind.mpr ((holds_quiet hrequest hgood).mono ?_)
  rintro after outcome ⟨hquiet, hreply⟩
  cases outcome with
  | ok reply =>
      exact hrest reply after hquiet (hreply reply rfl)
  | error exception => exact hquiet.good

end Quiet

/-! ## The parts of the task -/

section Parts

variable {userId : ℕ} {url : String} {history : History}

/-- Caching the archive. -/
theorem Blank.cache (hblank : Blank userId history) (url : String)
    (ttlSeconds : ℤ) :
    Ready userId url
      (history.serve service (.cacheArchiveUrl url ttlSeconds)) where
  good := by
    refine hblank.good.record
      { kept := fun other hother => ?_
        cached := by simp [service]
        uncached := by simp [uploads]
        unsent := by simp
        sent := by simp [marks]
        delivered := by simp [service, marks]
        done := .inl
        finished := by simp [forgets]
        own := by simp
        goes_on := rfl }
    cases hblank.archiveUrl.symm.trans hother
  archiveUrl := rfl
  fresh hnot := by
    rw [Log.trace_serve, List.countP_append]
    exact hblank.fresh hnot

/-- An upload from a blank state leaves a blank state, whatever becomes of it. -/
theorem holds_uploadOrEmpty (request : UploadRequest)
    (hblank : Blank userId history) :
    (uploadOrEmpty request).Holds (Serves service) (Good userId)
      (fun after _ => Blank userId after) history := by
  refine Prog.holds_tryExcept_always (Blank userId) (Prog.holds_bind.mpr
    (Prog.holds_perform.mpr ⟨hblank.good, fun outcome after hserves => ?_⟩)) ?_
  · cases outcome with
    | ok reply =>
        obtain ⟨-, rfl⟩ := hserves
        exact hblank.quiet (hblank.good.quiet rfl rfl id
          (fun _ => hblank.archiveUrl) ⟨rfl, rfl, rfl, rfl, rfl⟩)
    | error exception =>
        cases hserves
        exact hblank.quiet (hblank.good.quiet rfl rfl id
          (fun _ => hblank.archiveUrl) ⟨rfl, rfl, rfl, rfl, rfl⟩)
  · exact fun _ _ hafter => hafter

theorem holds_cleanUp (name : String) (outcome : Except Exn (String × Bool))
    (hblank : Blank userId history) :
    (cleanUp name outcome).Holds (Serves service) (Good userId)
      (fun after _ => Blank userId after) history := by
  have hdelete : (cleanUp name (.error .other)).Holds (Serves service)
      (Good userId) (fun after _ => Blank userId after) history := by
    refine Prog.holds_tryExcept_always (Blank userId)
      ((holds_quiet (by trivial) hblank.good).mono
        fun after _ hquiet => hblank.quiet hquiet.1)
      fun _ _ hafter => hafter
  match outcome with
  | .ok (_, false) => exact hblank
  | .ok (_, true) => exact hdelete
  | .error _ => exact hdelete

/-- Phase 1 caches the archive it returns. -/
theorem holds_uploadPhase (arguments : Arguments) (clock : Clock)
    (guildSettings : GuildSettings) (ttl : Calendar.TimeDelta) (ttlSeconds : ℤ)
    (hblank : Blank userId history) :
    (uploadPhase arguments clock guildSettings ttl ttlSeconds).Holds
      (Serves service) (Good userId)
      (Ends userId fun url after => Ready userId url after) history := by
  apply holds_quiet_bind (by trivial) hblank.good
  intro channel after hquiet _
  replace hblank := hblank.quiet hquiet
  split
  · exact hblank.good
  · apply holds_quiet_bind (by nofun) hblank.good
    intro _ after hquiet _
    replace hblank := hblank.quiet hquiet
    refine Prog.holds_bind.mpr (Prog.holds_ofExcept.mpr ?_)
    split
    case h_2 => exact hblank.good
    case h_1 resolved _ =>
      refine Prog.holds_bind.mpr ((Prog.holds_tryFinally_always (Blank userId)
        (holds_uploadOrEmpty _ hblank)
        fun outcome _ hafter => holds_cleanUp _ outcome hafter).mono ?_)
      intro after outcome hblank
      cases outcome with
      | error exception => exact hblank.good
      | ok uploaded =>
          refine Prog.holds_bind.mpr (Prog.holds_perform.mpr
            ⟨hblank.good, fun outcome after hserves => ?_⟩)
          cases outcome with
          | error exception =>
              cases hserves
              exact (hblank.good.quiet rfl rfl id (by simp [uploads])
                ⟨rfl, rfl, rfl, rfl, rfl⟩).good
          | ok _ =>
              obtain ⟨-, rfl⟩ := hserves
              exact hblank.cache uploaded.1 ttlSeconds

/-- The send of the result: out, or as before. -/
theorem holds_send (destination : Destination) (hunsent : Unsent userId url history) :
    (await (.send destination (resultEmbed url userId))).Holds (Serves service)
      (Good userId) (fun after outcome =>
        match outcome with
        | .ok _ => Sent userId after
        | .error _ => Unsent userId url after) history := by
  refine Prog.holds_perform.mpr ⟨hunsent.good, fun outcome after hserves => ?_⟩
  cases outcome with
  | error exception =>
      cases hserves
      exact hunsent.quiet (hunsent.good.quiet rfl rfl id (by simp [uploads])
        ⟨rfl, rfl, rfl, rfl, rfl⟩)
  | ok _ =>
      obtain ⟨-, rfl⟩ := hserves
      refine ⟨?_, hunsent.undelivered, ?_⟩
      · refine hunsent.good.record
          { kept := fun _ h => h
            cached := by simp [caches]
            uncached := by simp [uploads]
            unsent := fun other embed hsend => ?_
            sent := by simp [marks]
            delivered := by simp [service, marks]
            done := .inl
            finished := by simp [forgets]
            own := by simp
            goes_on := rfl }
        cases hsend
        exact ⟨hunsent.undelivered, hunsent.fresh hunsent.undelivered, url,
          hunsent.archiveUrl, rfl⟩
      · exact ⟨.served (.send destination (resultEmbed url userId)), by simp, rfl⟩

theorem holds_dmUser (hunsent : Unsent userId url history) :
    (dmUser userId (resultEmbed url userId)).Holds (Serves service) (Good userId)
      (Ends userId fun _ after => Sent userId after) history := by
  apply holds_quiet_bind (by trivial) hunsent.good
  intro _ after hquiet _
  refine Prog.holds_tryExcept ((holds_send _ (hunsent.quiet hquiet)).mono ?_)
  intro after outcome hafter
  cases outcome with
  | ok _ => exact hafter
  | error exception =>
      dsimp only
      split
      · exact hafter.good
      · exact hafter.good

theorem holds_postToChannel (channelId : ℕ) (hunsent : Unsent userId url history) :
    (postToChannel channelId (resultEmbed url userId) userId).Holds
      (Serves service) (Good userId)
      (Ends userId fun _ after => Sent userId after) history := by
  -- Whatever the channel raises, nothing is out yet, and the DM may be tried.
  have hraised : ∀ exception (after : History), Unsent userId url after →
      if decide (exception ∈ [Exn.notFound, .forbidden, .typeError]) = true then
        (dmUser userId (resultEmbed url userId)).Holds (Serves service)
          (Good userId) (Ends userId fun _ after => Sent userId after) after
      else Good userId after := by
    intro exception after hafter
    split
    · exact holds_dmUser hafter
    · exact hafter.good
  refine Prog.holds_tryExcept (Prog.holds_bind.mpr
    ((holds_quiet (by trivial) hunsent.good).mono ?_))
  rintro after outcome ⟨hquiet, -⟩
  cases outcome with
  | error exception => exact hraised exception after (hunsent.quiet hquiet)
  | ok channel =>
      dsimp only
      split
      · exact hraised .typeError after (hunsent.quiet hquiet)
      · refine (holds_send _ (hunsent.quiet hquiet)).mono ?_
        intro later outcome hlater
        cases outcome with
        | ok _ => exact hlater
        | error exception => exact hraised exception later hlater

/-- The job is marked: an embed is out and on record. -/
structure Marked (userId : ℕ) (history : History) : Prop where
  good : Good userId history
  delivered : history.world.delivered = true

theorem Marked.quiet {after : History} (hmarked : Marked userId history)
    (hquiet : Quiet userId history after) : Marked userId after where
  good := hquiet.good
  delivered := hquiet.delivered.trans hmarked.delivered

theorem holds_mark (ttlSeconds : ℤ) (hsent : Sent userId history) :
    (await (.markDelivered ttlSeconds)).Holds (Serves service) (Good userId)
      (Ends userId fun _ after => Marked userId after) history := by
  refine Prog.holds_perform.mpr ⟨hsent.good, fun outcome after hserves => ?_⟩
  cases outcome with
  | error exception =>
      cases hserves
      exact (hsent.good.quiet rfl rfl id (by simp [uploads])
        ⟨rfl, rfl, rfl, rfl, rfl⟩).good
  | ok _ =>
      obtain ⟨-, rfl⟩ := hserves
      refine ⟨hsent.good.record ?_, rfl⟩
      exact
        { kept := fun _ h => h
          cached := by simp [caches]
          uncached := by simp [uploads]
          unsent := by simp
          sent := fun _ => hsent.sent
          delivered := by simp [service, marks]
          done := .inl
          finished := by simp [forgets]
          own := by simp
          goes_on := rfl }

/-- Phase 2 ends with the mark. -/
theorem holds_deliverPhase (arguments : Arguments) (guildSettings : GuildSettings)
    (mode : DeliveryMode) (ttlSeconds : ℤ)
    (hunsent : Unsent arguments.userId url history) :
    (deliverPhase arguments guildSettings mode url ttlSeconds).Holds
      (Serves service) (Good arguments.userId)
      (Ends arguments.userId fun _ after => Marked arguments.userId after)
      history := by
  apply holds_quiet_bind (by nofun) hunsent.good
  intro _ after hquiet _
  replace hunsent := hunsent.quiet hquiet
  dsimp only
  split
  · exact holds_bind_ends (holds_postToChannel _ hunsent)
      fun _ _ hsent => holds_mark ttlSeconds hsent
  · exact holds_bind_ends (holds_dmUser hunsent)
      fun _ _ hsent => holds_mark ttlSeconds hsent

/-- The final progress of a marked job. -/
theorem holds_done (hmarked : Marked userId history) :
    (await (.setProgress .done)).Holds (Serves service) (Good userId)
      (Ends userId fun _ after => Marked userId after ∧
        ∃ event ∈ after.trace, reportsDone event) history := by
  refine Prog.holds_perform.mpr ⟨hmarked.good, fun outcome after hserves => ?_⟩
  cases outcome with
  | error exception =>
      cases hserves
      exact (hmarked.good.quiet rfl rfl id (by simp [uploads])
        ⟨rfl, rfl, rfl, rfl, rfl⟩).good
  | ok _ =>
      obtain ⟨-, rfl⟩ := hserves
      refine ⟨⟨hmarked.good.record ?_, hmarked.delivered⟩,
        .served (.setProgress .done), by simp, rfl⟩
      exact
        { kept := fun _ h => h
          cached := by simp [caches]
          uncached := by simp [uploads]
          unsent := by simp
          sent := by simp [marks]
          delivered := by simp [service, marks]
          done := fun _ => .inr hmarked.delivered
          finished := by simp [forgets]
          own := by simp
          goes_on := rfl }

/-- Where an attempt returns: marked, and the index asked to forget the job. -/
structure Finished (userId : ℕ) (history : History) : Prop
    extends Marked userId history where
  forgotten : ∃ event ∈ history.trace, forgets event

/-- Forgetting a job that is marked and reported done. -/
theorem holds_forgetFinished (hmarked : Marked userId history)
    (hdone : ∃ event ∈ history.trace, reportsDone event) :
    (forgetFinished userId).Holds (Serves service) (Good userId)
      (fun after _ => Finished userId after) history := by
  refine Prog.holds_tryExcept_always (Finished userId) (Prog.holds_perform.mpr
    ⟨hmarked.good, fun outcome after hserves => ?_⟩) fun _ _ hafter => hafter
  have hrecord : ∀ event, forgets event = true → caches event = false →
      uploads event = false → sends event = false → marks event = false →
      returns event = false →
      (∀ owner, event = .served (.forgetJob owner) → owner = userId) →
      Finished userId (history.record event) := by
    intro event hforgets hcaches huploads hsends hmarks hreturns hown
    refine ⟨⟨hmarked.good.record ?_, hmarked.delivered⟩, event, by simp, hforgets⟩
    exact
      { kept := fun _ h => h
        cached := by simp [hcaches]
        uncached := by simp [huploads]
        unsent := by
          rintro destination embed rfl
          cases hsends
        sent := by simp [hmarks]
        delivered := by simp [hmarks]
        done := .inl
        finished := fun _ => ⟨hmarked.delivered, hdone⟩
        own := hown
        goes_on := hreturns }
  cases outcome with
  | error exception =>
      cases hserves
      exact hrecord _ rfl rfl rfl rfl rfl rfl (by simp)
  | ok _ =>
      obtain ⟨-, rfl⟩ := hserves
      exact hrecord (.served (.forgetJob userId)) rfl rfl rfl rfl rfl rfl (by simp)

theorem holds_resolveSettings (arguments : Arguments)
    (hfresh : Fresh userId history) :
    (resolveSettings arguments).Holds (Serves service) (Good userId)
      (Ends userId fun _ after => Fresh userId after) history := by
  rw [resolveSettings]
  split
  · split
    · exact hfresh
    · refine (holds_quiet (by trivial) hfresh.good).mono ?_
      rintro after outcome ⟨hquiet, -⟩
      cases outcome with
      | ok _ => exact hfresh.quiet hquiet
      | error _ => exact hquiet.good
  · exact hfresh

theorem holds_reuseOrUpload (arguments : Arguments) (clock : Clock)
    (guildSettings : GuildSettings) (ttl : Calendar.TimeDelta) (ttlSeconds : ℤ)
    (hfresh : Fresh userId history) :
    (reuseOrUpload arguments clock guildSettings ttl ttlSeconds
      history.world.archiveUrl).Holds (Serves service) (Good userId)
      (Ends userId fun url after => Ready userId url after) history := by
  simp only [reuseOrUpload]
  split
  case h_1 hcached =>
    have hblank : Blank userId history :=
      { toFresh := hfresh, archiveUrl := hcached }
    exact holds_uploadPhase arguments clock guildSettings ttl ttlSeconds hblank
  case h_2 url hcached =>
    have hready : Ready userId url history :=
      { toFresh := hfresh, archiveUrl := hcached }
    exact hready

theorem holds_deliverOnce (arguments : Arguments) (guildSettings : GuildSettings)
    (mode : DeliveryMode) (ttlSeconds : ℤ)
    (hready : Ready arguments.userId url history) :
    (deliverOnce arguments guildSettings mode url ttlSeconds
      history.world.delivered).Holds (Serves service) (Good arguments.userId)
      (Ends arguments.userId fun _ after => Marked arguments.userId after)
      history := by
  rw [deliverOnce]
  split
  case isTrue hdelivered =>
    have hmarked : Marked arguments.userId history := ⟨hready.good, hdelivered⟩
    exact hmarked
  case isFalse hnot =>
    have hunsent : Unsent arguments.userId url history :=
      { toReady := hready, undelivered := by simpa using hnot }
    exact holds_deliverPhase arguments guildSettings mode ttlSeconds hunsent

/-- A whole attempt: it returns only from a finished state. -/
theorem holds_downloadChannelMedia (arguments : Arguments) (clock : Clock)
    (hfresh : Fresh arguments.userId history) :
    (downloadChannelMedia arguments clock).Holds (Serves service)
      (Good arguments.userId)
      (Ends arguments.userId fun _ after => Finished arguments.userId after)
      history := by
  apply holds_quiet_bind (by nofun) hfresh.good
  intro _ after hquiet _
  apply holds_bind_ends (holds_resolveSettings arguments (hfresh.quiet hquiet))
  intro guildSettings after hfresh
  refine Prog.holds_bind.mpr (Prog.holds_ofExcept.mpr ?_)
  split
  case h_2 => exact hfresh.good
  case h_1 ttl _ =>
    apply holds_quiet_bind (by trivial) hfresh.good
    intro cached after hquiet hanswer
    obtain rfl : cached = after.world.archiveUrl := by
      obtain ⟨_, rfl⟩ := hanswer
      exact hquiet.archiveUrl.symm
    apply holds_bind_ends (holds_reuseOrUpload arguments clock guildSettings ttl
      (ttl / 1000000) (hfresh.quiet hquiet))
    intro archiveUrl after hready
    apply holds_quiet_bind (by trivial) hready.good
    intro delivered after hquiet hanswer
    obtain rfl : delivered = after.world.delivered := by
      obtain ⟨_, rfl⟩ := hanswer
      exact hquiet.delivered.symm
    apply holds_bind_ends (holds_deliverOnce arguments guildSettings _ _
      (hready.quiet hquiet))
    intro _ after hmarked
    apply holds_bind_ends (holds_done hmarked)
    rintro _ after ⟨hmarked, hdone⟩
    have hforget := holds_forgetFinished hmarked hdone
    refine holds_bind_ends (hforget.mono fun after outcome hafter => ?_)
      fun _ after (hafter : Finished arguments.userId after) => hafter
    cases outcome with
    | ok _ => exact hafter
    | error _ => exact hafter.good

end Parts

/-! ## Runs -/

/-- Every attempt keeps the invariant, wherever it ends. -/
theorem keeps_downloadChannelMedia (arguments : Arguments) :
    Keeps service (downloadChannelMedia arguments) (Good arguments.userId)
      (Ends arguments.userId fun _ after => Finished arguments.userId after) where
  begins history clock hgood hcurrent := by
    refine holds_downloadChannelMedia arguments clock ⟨hgood, fun hnot => ?_⟩
    rcases hgood.fresh hnot with hle | ⟨event, hmem, -⟩
    · exact hle
    · rw [hcurrent] at hmem
      cases hmem
  good_of_post history outcome hends := by
    cases outcome with
    | ok _ => exact hends.good
    | error _ => exact hends
  ends history outcome hends := by
    cases outcome with
    | ok _ =>
        exact hends.good.close ⟨rfl, rfl, rfl, rfl, rfl⟩
          fun _ => ⟨hends.good.delivered_sent hends.delivered, hends.forgotten⟩
    | error _ =>
        exact Good.close hends ⟨rfl, rfl, rfl, rfl, rfl⟩
          (by simp [returns, Event.ofOutcome])
  stops history hgood :=
    hgood.close ⟨rfl, rfl, rfl, rfl, rfl⟩ (by simp [returns])

theorem good_of_attempts (arguments : Arguments) {state : Attempting}
    (hrun : Reaches (attemptStep arguments) unrestricted attemptStart state) :
    Good arguments.userId state.log :=
  good_of_reaches (keeps_downloadChannelMedia arguments) good_start hrun

theorem resultEmbed_eq_noAttachments (url : String) (userId : ℕ) :
    resultEmbed url userId = noAttachments userId ↔ url = emptySentinel := by
  constructor
  · intro heq
    by_contra hne
    rw [resultEmbed, if_neg hne] at heq
    exact Colour.noConfusion (congrArg Embed.colour heq)
  · rintro rfl
    rfl

/-- Whatever fails and whenever attempts stop, the attempts at a task are
consistent with each other, and the embed is the notice of an empty channel
exactly when the empty sentinel is what is cached. -/
theorem attempts_consistent (arguments : Arguments) (state : Attempting)
    (hrun : Reaches (attemptStep arguments) unrestricted attemptStart state) :
    Consistent arguments.userId state.log ∧
      ∀ destination embed, .served (.send destination embed) ∈ state.log.trace →
        (embed = noAttachments arguments.userId ↔
          state.log.world.archiveUrl = some emptySentinel) := by
  have hgood := good_of_attempts arguments hrun
  refine ⟨hgood.toConsistent, fun destination embed hsent => ?_⟩
  obtain ⟨url, hurl, rfl⟩ := hgood.same_embed destination embed hsent
  rw [resultEmbed_eq_noAttachments, hurl, Option.some_inj]

/-- The start of an attempt on the first of May 2024. -/
def inMay : Clock :=
  ⟨⟨739006 * Calendar.microsPerDay, by decide⟩, ⟨2024, 5, 1⟩⟩

/-- A reply to every call: channels are messageable and archives are at `"url"`. -/
def obliging : (request : Call) → Reply request
  | .getSettings guildId => { guildId := guildId }
  | .getCachedArchiveUrl => none
  | .fetchChannel channelId => ⟨channelId, some "general", true⟩
  | .uploadAndSign _ => "url"
  | .isDelivered => false
  | .setProgress _ | .deleteBlob _ | .cacheArchiveUrl .. | .fetchUser _ | .send ..
  | .markDelivered _ | .forgetJob _ => ()

/-- Every call succeeds. -/
def succeed (request : Call) : Except Exn (Reply request) := .ok (obliging request)

/-- A direct message. -/
def inDirectMessage : Arguments := ⟨"a", 3, 7, none, true, none⟩

/-- An attempt stops between its send and its mark; the next one sends the cached
archive again, marks and returns: two sends, one stray. -/
theorem attempts_consistent_stray :
    ∃ state,
      Reaches (attemptStep ⟨"a", 3, 7, none, true, none⟩) unrestricted attemptStart
        state ∧
      Consistent 7 state.log ∧ state.log.trace.countP sends = 2 ∧
      strays state.log = 1 ∧ state.log.trace.any returns = true := by
  obtain ⟨state, hrun, hcheck⟩ := exists_reaches_of_replay
    (attemptStep ⟨"a", 3, 7, none, true, none⟩) attemptStart
    ([.begin inMay] ++ List.replicate 10 (.succeed obliging) ++
      [.stop, .begin inMay] ++ List.replicate 9 (.succeed obliging) ++ [.finish])
    (fun state => decide (state.log.trace.countP sends = 2 ∧
      strays state.log = 1 ∧ state.log.trace.any returns = true))
    (by decide +kernel)
  exact ⟨state, hrun, (attempts_consistent _ state hrun).1, of_decide_eq_true hcheck⟩

end DownloaderBot.Tasks
