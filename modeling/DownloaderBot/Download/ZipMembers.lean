import DownloaderBot.Download.ZipPipeline
import DownloaderBot.Download.ZipStream

/-!
# What the zip pipeline hands to stream-zip

The member tuples are those of the matching attachments whose GET is answered with
200, numbered by the GETs, whatever the progress reports do.  From that follow what
stream-zip gets, that reports are not noticed, and which failures of the network a
walk survives.
-/

namespace DownloaderBot.ZipPipeline

open DownloaderBot.Calendar
open DownloaderBot.Discord
open DownloaderBot.Generator
open DownloaderBot.Program
open DownloaderBot.ZipStream (Visit visits)

/-! ## Calls and logs -/

section Logs

variable (left right : Log)

@[simp]
theorem urls_append : urls (left ++ right) = urls left ++ urls right :=
  List.filterMap_append

@[simp]
theorem snapshots_append : snapshots (left ++ right) = snapshots left ++ snapshots right :=
  List.filterMap_append

@[simp]
theorem readings_append : readings (left ++ right) = readings left + readings right :=
  List.countP_append

@[simp]
theorem urls_nil : urls [] = [] := rfl

@[simp]
theorem snapshots_nil : snapshots [] = [] := rfl

@[simp]
theorem readings_nil : readings [] = 0 := rfl

variable (request : Request)

@[simp]
theorem urls_cons :
    urls (request :: right) = match request with
      | .get url => url :: urls right
      | _ => urls right := by
  cases request <;> rfl

@[simp]
theorem snapshots_cons :
    snapshots (request :: right) = match request with
      | .onProgress snapshot => snapshot :: snapshots right
      | _ => snapshots right := by
  cases request <;> rfl

@[simp]
theorem readings_cons :
    readings (request :: right) = match request with
      | .monotonic => readings right + 1
      | _ => readings right := by
  cases request <;> simp [readings]

end Logs

/-- What is called in between says nothing of the progress. -/
def SameProgress (log later : Log) : Prop :=
  readings later = readings log ∧ snapshots later = snapshots log

theorem SameProgress.trans {log later last : Log} (hfirst : SameProgress log later)
    (hsecond : SameProgress later last) : SameProgress log last :=
  ⟨hsecond.1.trans hfirst.1, hsecond.2.trans hfirst.2⟩

/-! ## The pre-flight -/

section Preflight

variable (environment : Environment)

/-- What comes of the pre-flight that is the `count`-th GET. -/
def Environment.fetched (count : ℕ) : Except Exn (Option Response) :=
  match environment.network count with
  | .ok reception => .ok (if reception.status = 200 then some ⟨count, reception⟩ else none)
  | .error exception => if exception.isClientError then .ok none else .error exception

/-- The calls of that pre-flight. -/
def Environment.preflightLog (count : ℕ) (url : String) : Log :=
  match environment.network count with
  | .ok reception =>
      if reception.status = 200 then [.get url]
      else [.get url, .release ⟨count, reception⟩]
  | .error _ => [.get url]

theorem exec_ask (log : Log) (request : Request) :
    (ask request).exec environment.serve log =
      (environment.answer log request, log ++ [request]) :=
  Prog.exec_perform request log

theorem exec_preflight (attachment : Attachment) (log : Log) :
    (preflight attachment).exec environment.serve log =
      (environment.fetched (urls log).length,
        log ++ environment.preflightLog (urls log).length attachment.url) := by
  have hget := exec_ask environment log (.get attachment.url)
  cases hnetwork : environment.network (urls log).length with
  | error exception =>
      cases hclient : exception.isClientError <;>
        simp [preflight, Prog.tryExcept, Prog.exec_bind, Prog.exec_attempt, Prog.exec, hget,
          Environment.answer, hnetwork, Except.map, hclient, Environment.fetched,
          Environment.preflightLog]
  | ok reception =>
      have hrelease := exec_ask environment (log ++ [.get attachment.url])
        (.release ⟨(urls log).length, reception⟩)
      by_cases hstatus : reception.status = 200 <;>
        simp [preflight, Prog.tryExcept, Prog.exec_bind, Prog.exec_attempt, Prog.exec, hget,
          Environment.answer, hnetwork, Except.map, hstatus, hrelease, Environment.fetched,
          Environment.preflightLog]

variable {environment}

theorem urls_preflightLog {count : ℕ} {url : String} :
    urls (environment.preflightLog count url) = [url] := by
  rw [Environment.preflightLog]
  split
  · split <;> rfl
  · rfl

theorem sameProgress_preflightLog {log : Log} {count : ℕ} {url : String} :
    SameProgress log (log ++ environment.preflightLog count url) := by
  rw [SameProgress, readings_append, snapshots_append, Environment.preflightLog]
  split
  · split <;> simp
  · simp

end Preflight

/-! ## The walk -/

/-- The attachments that match. -/
def Arguments.pick (arguments : Arguments) (list : List Visit) : List Visit :=
  list.filter fun visit => arguments.selects visit.1 visit.2

section Walk

variable (environment : Environment) (verdict : MemberTuple → Except Exn Unit)

/-- The tuples of the picked attachments, and how the walk over them ends, where the
first of them has the `count`-th GET and `verdict` says how the consumer takes a tuple. -/
def Environment.received :
    ℕ → List Visit → List MemberTuple × Except Exn Unit
  | _, [] => ([], .ok ())
  | count, visit :: rest =>
      match environment.fetched count with
      | .error exception => ([], .error exception)
      | .ok none => received (count + 1) rest
      | .ok (some response) =>
          let member := memberTuple visit.1 visit.2 response
          match verdict member with
          | .error exception => ([member], .error exception)
          | .ok () =>
              let later := received (count + 1) rest
              (member :: later.1, later.2)

variable {environment verdict}

theorem received_append (first second : List Visit) (count : ℕ) :
    environment.received verdict count (first ++ second) =
      match environment.received verdict count first with
      | (items, .ok ()) =>
          let later := environment.received verdict (count + first.length) second
          (items ++ later.1, later.2)
      | (items, .error exception) => (items, .error exception) := by
  induction first generalizing count with
  | nil => rfl
  | cons visit rest ih =>
      have hcount : count + (visit :: rest).length = count + 1 + rest.length := by
        simp only [List.length_cons]
        omega
      rw [hcount]
      simp only [List.cons_append, Environment.received]
      cases environment.fetched count with
      | error exception => rfl
      | ok fetched =>
          cases fetched with
          | none => exact ih (count + 1)
          | some response =>
              dsimp only
              cases verdict (memberTuple visit.1 visit.2 response) with
              | error exception => rfl
              | ok _ =>
                  dsimp only
                  rw [ih]
                  rcases environment.received verdict (count + 1) rest with ⟨items, _ | _⟩ <;>
                    rfl

variable {use : MemberTuple → Log → Except Exn Unit × Log}

/-- The consumer takes a tuple as `verdict` says, without a GET or a report. -/
structure Takes (use : MemberTuple → Log → Except Exn Unit × Log)
    (verdict : MemberTuple → Except Exn Unit) : Prop where
  outcome : ∀ member log, (use member log).1 = verdict member
  gets : ∀ member log, urls (use member log).2 = urls log
  progress : ∀ member log, SameProgress log (use member log).2

/-- Consuming a part of the walk comes to what the picked attachments give: the tuples,
how it ends, and the GETs if it does not fail. -/
structure Comes {α : Type} (environment : Environment)
    (verdict : MemberTuple → Except Exn Unit) (picked : List Visit) (log : Log)
    (result : List MemberTuple × Except Exn α × Log) : Prop where
  items : result.1 = (environment.received verdict (urls log).length picked).1
  outcome : result.2.1.map (fun _ => ()) =
    (environment.received verdict (urls log).length picked).2
  gets : (environment.received verdict (urls log).length picked).2 = .ok () →
    urls result.2.2 = urls log ++ picked.map fun visit => visit.2.url

/-- One part after the other. -/
theorem Comes.bind {α β : Type} {body : Body Reply Exn MemberTuple α}
    {rest : α → Body Reply Exn MemberTuple β} {first second : List Visit} {log : Log}
    (hfirst : Comes environment verdict first log (consume environment.serve use body log))
    (hsecond : ∀ value later, Comes environment verdict second later
      (consume environment.serve use (rest value) later)) :
    Comes environment verdict (first ++ second) log
      (consume environment.serve use (body.bind rest) log) := by
  obtain ⟨hitems, houtcome, hgets⟩ := hfirst
  have happend := @received_append environment verdict first second (urls log).length
  rw [consume_bind]
  cases hbody : consume environment.serve use body log with
  | mk items result =>
  obtain ⟨outcome, later⟩ := result
  rw [hbody] at hitems houtcome hgets
  cases hreceived : environment.received verdict (urls log).length first with
  | mk tuples ended =>
  rw [hreceived] at hitems houtcome hgets happend
  obtain rfl : items = tuples := hitems
  obtain rfl : outcome.map (fun _ => ()) = ended := houtcome
  cases outcome with
  | error exception =>
      have happend : environment.received verdict (urls log).length (first ++ second) =
        (items, .error exception) := happend
      exact ⟨by rw [happend], by rw [happend]; rfl, by rw [happend]; intro hok; cases hok⟩
  | ok value =>
      have hlater : urls later = urls log ++ first.map fun visit => visit.2.url := hgets rfl
      have hcount : (urls later).length = (urls log).length + first.length := by simp [hlater]
      obtain ⟨hitems, houtcome, hgets⟩ := hsecond value later
      rw [hcount] at hitems houtcome hgets
      have happend : environment.received verdict (urls log).length (first ++ second) =
        (items ++ (environment.received verdict ((urls log).length + first.length) second).1,
          (environment.received verdict ((urls log).length + first.length) second).2) :=
        happend
      refine ⟨by rw [happend]; exact congrArg (items ++ ·) hitems,
        by rw [happend]; exact houtcome, fun hok => ?_⟩
      rw [happend] at hok
      exact (hgets hok).trans (by rw [hlater, List.map_append, List.append_assoc])

section Cons

variable {α : Type} {visit : Visit} {picked : List Visit} {response : Response}
variable {log after : Log} {items : List MemberTuple} {outcome : Except Exn α} {last : Log}

/-- A GET that raises ends the walk. -/
theorem Comes.failed {exception : Exn}
    (hfetched : environment.fetched (urls log).length = .error exception) :
    Comes environment verdict (visit :: picked) log
      ([], (.error exception : Except Exn α), after) where
  items := by simp [Environment.received, hfetched]
  outcome := by simp [Environment.received, hfetched, Except.map]
  gets := by simp [Environment.received, hfetched]

/-- A GET without a response leaves its attachment out. -/
theorem Comes.skipped (hfetched : environment.fetched (urls log).length = .ok none)
    (hurls : urls after = urls log ++ [visit.2.url])
    (hcomes : Comes environment verdict picked after (items, outcome, last)) :
    Comes environment verdict (visit :: picked) log (items, outcome, last) := by
  have hcount : (urls after).length = (urls log).length + 1 := by simp [hurls]
  refine ⟨?_, ?_, ?_⟩
  · simpa [Environment.received, hfetched, hcount] using hcomes.items
  · simpa [Environment.received, hfetched, hcount] using hcomes.outcome
  · simpa [Environment.received, hfetched, hcount, hurls] using hcomes.gets

/-- A tuple at which the consumer raises is the last one. -/
theorem Comes.refused {exception : Exn}
    (hfetched : environment.fetched (urls log).length = .ok (some response))
    (hverdict : verdict (memberTuple visit.1 visit.2 response) = .error exception) :
    Comes environment verdict (visit :: picked) log
      ([memberTuple visit.1 visit.2 response], (.error exception : Except Exn α), after) where
  items := by simp [Environment.received, hfetched, hverdict]
  outcome := by simp [Environment.received, hfetched, hverdict, Except.map]
  gets := by simp [Environment.received, hfetched, hverdict]

theorem Comes.taken (hfetched : environment.fetched (urls log).length = .ok (some response))
    (hverdict : verdict (memberTuple visit.1 visit.2 response) = .ok ())
    (hurls : urls after = urls log ++ [visit.2.url])
    (hcomes : Comes environment verdict picked after (items, outcome, last)) :
    Comes environment verdict (visit :: picked) log
      (memberTuple visit.1 visit.2 response :: items, outcome, last) := by
  have hcount : (urls after).length = (urls log).length + 1 := by simp [hurls]
  refine ⟨?_, ?_, ?_⟩
  · simpa [Environment.received, hfetched, hverdict, hcount] using hcomes.items
  · simpa [Environment.received, hfetched, hverdict, hcount] using hcomes.outcome
  · simpa [Environment.received, hfetched, hverdict, hcount, hurls] using hcomes.gets

end Cons

theorem consume_attachmentLoop {arguments : Arguments} (htakes : Takes use verdict)
    (message : Message) (attachments : List Attachment) (tally : Tally) (log : Log) :
    let result := consume environment.serve use
      (attachmentLoop arguments message attachments tally) log
    Comes environment verdict (arguments.pick (attachments.map (message, ·))) log result ∧
      SameProgress log result.2.2 ∧
      ∀ last, result.2.1 = .ok last → last.lastEmit = tally.lastEmit := by
  induction attachments generalizing tally log with
  | nil =>
      refine ⟨⟨rfl, rfl, fun _ => by simp [Arguments.pick, attachmentLoop, consume]⟩,
        ⟨rfl, rfl⟩, fun last hlast => ?_⟩
      obtain rfl := Except.ok.inj hlast
      rfl
  | cons attachment rest ih =>
      cases hselects : arguments.selects message attachment with
      | false => simpa [attachmentLoop, hselects, Arguments.pick] using ih tally log
      | true =>
          have hpick : arguments.pick ((attachment :: rest).map (message, ·)) =
              (message, attachment) :: arguments.pick (rest.map (message, ·)) := by
            simp [Arguments.pick, hselects]
          rw [hpick, attachmentLoop, if_pos hselects, consume_lift_bind, exec_preflight]
          have hurls : urls (log ++ environment.preflightLog (urls log).length attachment.url) =
              urls log ++ [attachment.url] := by
            rw [urls_append, urls_preflightLog]
          have hprogress : SameProgress log
              (log ++ environment.preflightLog (urls log).length attachment.url) :=
            sameProgress_preflightLog
          generalize log ++ environment.preflightLog (urls log).length attachment.url = after
            at hurls hprogress ⊢
          cases hfetched : environment.fetched (urls log).length with
          | error exception =>
              exact ⟨.failed hfetched, hprogress, fun last hlast => by cases hlast⟩
          | ok fetched =>
              cases fetched with
              | none =>
                  obtain ⟨hcomes, hrest, hlast⟩ := ih tally after
                  exact ⟨.skipped hfetched hurls hcomes, hprogress.trans hrest, hlast⟩
              | some response =>
                  dsimp only
                  rw [consume_yield_bind]
                  have houtcome := htakes.outcome (memberTuple message attachment response) after
                  have hgets := htakes.gets (memberTuple message attachment response) after
                  have htaken := htakes.progress (memberTuple message attachment response) after
                  cases huse : use (memberTuple message attachment response) after with
                  | mk taken later =>
                  rw [huse] at houtcome hgets htaken
                  obtain rfl : taken = verdict (memberTuple message attachment response) :=
                    houtcome
                  cases hverdict : verdict (memberTuple message attachment response) with
                  | error exception =>
                      exact ⟨.refused hfetched hverdict, hprogress.trans htaken,
                        fun last hlast => by cases hlast⟩
                  | ok _ =>
                      obtain ⟨hcomes, hrest, hlast⟩ := ih (tally.count attachment) later
                      exact ⟨.taken hfetched hverdict (hgets.trans hurls) hcomes,
                        hprogress.trans (htaken.trans hrest), hlast⟩

/-- No callback and no lookup raises but an `Exception`. -/
def Environment.ProgressContained (environment : Environment) : Prop :=
  (∀ call exception, environment.callback call = .error exception →
    exception.isException = true) ∧
  ∀ exception, environment.oldest = .error exception → exception.isException = true

/-- A call whose failure is logged. -/
theorem exec_ask_logged {request : Request} {log : Log} (default : Reply request)
    (hcontained : ∀ exception, environment.answer log request = .error exception →
      exception.isException = true) :
    ((ask request).tryExcept Exn.isException fun _ => .ret default).exec environment.serve
        log =
      (.ok ((environment.answer log request).toOption.getD default), log ++ [request]) := by
  have hask := exec_ask environment log request
  cases hanswer : environment.answer log request with
  | ok reply =>
      rw [hanswer] at hask
      exact Prog.exec_tryExcept_of_ok hask
  | error exception =>
      rw [hanswer] at hask
      exact Prog.exec_tryExcept_of_error hask (hcontained exception hanswer)

/-- A report does not fail the walk, and makes no GET. -/
theorem exec_report {arguments : Arguments}
    (hcontained : arguments.onProgress = true → environment.ProgressContained)
    (rounding : Rounding) (bounds : Option ℤ × Option ℤ) (message : Message)
    (tally : Tally) (log : Log) :
    ∃ next later, (report rounding arguments bounds message tally).exec environment.serve log =
      (.ok next, later) ∧ urls later = urls log := by
  rw [report]
  split
  case isFalse => exact ⟨tally, log, rfl, rfl⟩
  case isTrue hprogress =>
    rw [Prog.exec_bind_of_ok (exec_ask environment log .monotonic)]
    split
    case isFalse => exact ⟨tally, _, rfl, by simp⟩
    case isTrue =>
      rw [Prog.exec_bind_of_ok (@exec_ask_logged environment (.onProgress _) _ ()
        ((hcontained hprogress).1 _))]
      exact ⟨_, _, rfl, by simp⟩

theorem consume_messageLoop {arguments : Arguments} (htakes : Takes use verdict)
    (hcontained : arguments.onProgress = true → environment.ProgressContained)
    (rounding : Rounding) (bounds : Option ℤ × Option ℤ) (messages : List Message)
    (tally : Tally) (log : Log) :
    Comes environment verdict (arguments.pick (visits messages)) log
      (consume environment.serve use
        (messageLoop rounding arguments bounds messages tally) log) := by
  induction messages generalizing tally log with
  | nil => exact ⟨rfl, rfl, fun _ => by simp [Arguments.pick, visits, messageLoop, consume]⟩
  | cons message rest ih =>
      have hpick : arguments.pick (visits (message :: rest)) =
          arguments.pick (message.attachments.map (message, ·)) ++
            arguments.pick (visits rest) := by
        simp [Arguments.pick, visits]
      obtain ⟨next, later, hreport, hurls⟩ :=
        exec_report hcontained rounding bounds message tally log
      rw [hpick, messageLoop, consume_lift_bind, hreport]
      dsimp only
      have hcomes : Comes environment verdict
          (arguments.pick (message.attachments.map (message, ·)) ++
            arguments.pick (visits rest)) later
          (consume environment.serve use
            ((attachmentLoop arguments message message.attachments next).bind
              (messageLoop rounding arguments bounds rest)) later) :=
        (consume_attachmentLoop htakes message message.attachments next later).1.bind ih
      obtain ⟨hitems, houtcome, hgets⟩ := hcomes
      rw [hurls] at hitems houtcome hgets
      exact ⟨hitems, houtcome, hgets⟩

/-- What `_resolve_snowflake_bounds` comes to when the lookup raises an `Exception` at
most. -/
def Environment.bounds (environment : Environment) (timeSnowflake : DateTime → Bool → ℤ)
    (arguments : Arguments) : Option ℤ × Option ℤ :=
  (match arguments.after with
    | some after => some (timeSnowflake after false)
    | none => (environment.oldest.toOption.getD none).map Int.ofNat,
   match arguments.before with
    | some before => some (timeSnowflake before true)
    | none => arguments.lastMessageId.map Int.ofNat)

theorem exec_resolveSnowflakeBounds (timeSnowflake : DateTime → Bool → ℤ)
    {arguments : Arguments} (log : Log)
    (holdest : arguments.after = none → ∀ exception, environment.oldest = .error exception →
      exception.isException = true) :
    (resolveSnowflakeBounds timeSnowflake arguments).exec environment.serve log =
      (.ok (environment.bounds timeSnowflake arguments),
        if arguments.after.isSome then log else log ++ [.oldest]) := by
  rw [resolveSnowflakeBounds, Environment.bounds]
  cases hafter : arguments.after with
  | some after => rfl
  | none =>
      dsimp only
      rw [Prog.exec_bind_of_ok (@exec_ask_logged environment .oldest _ none (holdest hafter))]
      rfl

/-- How the iteration over a history ends. -/
def History.ended (history : History) : Except Exn Unit :=
  match history.failure with
  | none => .ok ()
  | some failure => .error failure

/-- The history that the walk is over. -/
def Environment.walked (environment : Environment) (arguments : Arguments) : History :=
  environment.history arguments.before arguments.after

/-- The attachments that the walk pre-flights. -/
def Environment.selected (environment : Environment) (arguments : Arguments) : List Visit :=
  arguments.pick (visits (environment.walked arguments).messages)

/-- The bounds and the first reading take no GET and do not fail. -/
theorem exec_prelude {arguments : Arguments}
    (hcontained : arguments.onProgress = true → environment.ProgressContained)
    (timeSnowflake : DateTime → Bool → ℤ) (log : Log) :
    ∃ bounds later, (if arguments.onProgress then
        resolveSnowflakeBounds timeSnowflake arguments
      else .ret (none, none)).exec environment.serve log = (.ok bounds, later) ∧
      urls later = urls log := by
  split
  case isFalse => exact ⟨_, log, rfl, rfl⟩
  case isTrue hprogress =>
    refine ⟨_, _, exec_resolveSnowflakeBounds timeSnowflake log
      fun _ => (hcontained hprogress).2, ?_⟩
    split
    · rfl
    · simp

/-- The walk hands on the tuples of the selected attachments. -/
theorem consume_members {arguments : Arguments} (htakes : Takes use verdict)
    (hcontained : arguments.onProgress = true → environment.ProgressContained)
    (rounding : Rounding) (timeSnowflake : DateTime → Bool → ℤ) (log : Log) :
    let received := environment.received verdict (urls log).length
      (environment.selected arguments)
    let result := consume environment.serve use
      (members rounding timeSnowflake arguments) log
    result.1 = received.1 ∧
      result.2.1 = received.2.bind (fun _ => (environment.walked arguments).ended) ∧
      (received.2 = .ok () → urls result.2.2 = urls log ++
        (environment.selected arguments).map fun visit => visit.2.url) := by
  obtain ⟨bounds, prelude, hprelude, hurls⟩ :=
    exec_prelude hcontained timeSnowflake log
  obtain ⟨hitems, houtcome, hgets⟩ := consume_messageLoop htakes
    hcontained rounding bounds (environment.walked arguments).messages
    ⟨0, 0, environment.clock (readings prelude)⟩
    (prelude ++ [.monotonic] ++ [.history arguments.before arguments.after])
  have hstart : urls (prelude ++ [.monotonic] ++
      [.history arguments.before arguments.after]) = urls log := by
    rw [urls_append, urls_append, hurls]
    simp
  rw [hstart] at hitems houtcome hgets
  have hmembers : consume environment.serve use (members rounding timeSnowflake arguments) log =
      consume environment.serve use
        ((messageLoop rounding arguments bounds (environment.walked arguments).messages
          ⟨0, 0, environment.clock (readings prelude)⟩).bind fun _ =>
            match (environment.walked arguments).failure with
            | none => .ret ()
            | some failure => .raise failure)
        (prelude ++ [.monotonic] ++ [.history arguments.before arguments.after]) := by
    rw [members, consume_lift_bind, hprelude]
    dsimp only
    rw [consume_lift_bind, exec_ask]
    simp only [Environment.answer]
    rw [consume_lift_bind, exec_ask]
    rfl
  rw [hmembers, consume_bind]
  cases hloop : consume environment.serve use
    (messageLoop rounding arguments bounds (environment.walked arguments).messages
      ⟨0, 0, environment.clock (readings prelude)⟩)
    (prelude ++ [.monotonic] ++ [.history arguments.before arguments.after]) with
  | mk items result =>
  obtain ⟨outcome, last⟩ := result
  rw [hloop] at hitems houtcome hgets
  rw [← Environment.selected] at hitems houtcome hgets
  dsimp only at houtcome hgets ⊢
  rw [← houtcome]
  cases outcome with
  | error exception =>
      exact ⟨hitems, rfl, fun hok => by cases hok⟩
  | ok _ =>
      rw [← houtcome] at hgets
      rw [History.ended]
      cases (environment.walked arguments).failure with
      | none => exact ⟨by simpa [consume] using hitems, rfl, hgets⟩
      | some failure => exact ⟨by simpa [consume] using hitems, rfl, hgets⟩

end Walk

/-! ## The body of a member -/

section Chunks

variable {environment : Environment}

/-- How reading a body to its end ends. -/
def Chunks.ended (chunks : Chunks) : Except Exn Unit :=
  match chunks.response.reception.failure with
  | none => .ok ()
  | some exception =>
      .error (if exception.isClientError then
        .attachmentStreamError ("Stream of '" ++ chunks.filename ++ "' failed mid-flight: " ++
          exception.text)
      else exception)

theorem consume_readChunks (failure : Option Exn) (pieces : List Chunk) (log : Log) :
    consume environment.serve keep (readChunks failure pieces) log =
      (pieces, match failure with
        | none => .ok ()
        | some exception => .error exception, log) := by
  induction pieces with
  | nil => cases failure <;> rfl
  | cons piece rest ih =>
      rw [readChunks, consume_yield_bind]
      dsimp only [keep]
      rw [ih]

/-- Read to its end, a body is released. -/
theorem consume_streamResponse (chunks : Chunks) (log : Log) :
    consume environment.serve keep (streamResponse chunks) log =
      (chunks.response.reception.chunks, chunks.ended, log ++ [.release chunks.response]) := by
  have hbody : consume environment.serve keep
      ((readChunks chunks.response.reception.failure
        chunks.response.reception.chunks).tryExcept Exn.isClientError fun exception =>
          .raise (.attachmentStreamError ("Stream of '" ++ chunks.filename ++
            "' failed mid-flight: " ++ exception.text))) log =
      (chunks.response.reception.chunks, chunks.ended, log) := by
    rw [Prog.tryExcept, consume_bind, consume_attempt, consume_readChunks, Chunks.ended]
    cases chunks.response.reception.failure with
    | none => simp [consume]
    | some exception => cases hclient : exception.isClientError <;> simp [consume, hclient]
  rw [streamResponse, Prog.tryFinally, consume_bind, consume_attempt, hbody]
  dsimp only
  rw [consume_lift_bind, exec_ask]
  cases hended : chunks.ended <;> simp [Environment.answer, Prog.ofExcept, consume]

/-- stream-zip reads each member to its end before it asks for the next one. -/
def Environment.readMember (environment : Environment) (member : MemberTuple) (log : Log) :
    Except Exn Unit × Log :=
  (consume environment.serve keep (streamResponse member.chunks) log).2

theorem takes_readMember : Takes environment.readMember fun member => member.chunks.ended := by
  refine ⟨?_, ?_, ?_⟩ <;> intro member log <;>
    rw [Environment.readMember, consume_streamResponse]
  · rw [urls_append]
    simp
  · rw [SameProgress, readings_append, snapshots_append]
    simp

theorem takes_keep : Takes keep fun _ => .ok () :=
  ⟨fun _ _ => rfl, fun _ _ => rfl, fun _ _ => ⟨rfl, rfl⟩⟩

end Chunks

/-! ## The tuples, attachment by attachment -/

section Tuples

variable (environment : Environment)

/-- The tuple of an attachment whose pre-flight is the given GET, if its outcome is 200. -/
def Environment.tupleOf (entry : Visit × ℕ) : Option MemberTuple :=
  match environment.network entry.2 with
  | .ok reception =>
      if reception.status = 200 then
        some (memberTuple entry.1.1 entry.1.2 ⟨entry.2, reception⟩)
      else none
  | .error _ => none

variable {environment}

theorem tupleOf_eq_some {entry : Visit × ℕ} {member : MemberTuple} :
    environment.tupleOf entry = some member ↔
      ∃ reception, environment.network entry.2 = .ok reception ∧ reception.status = 200 ∧
        memberTuple entry.1.1 entry.1.2 ⟨entry.2, reception⟩ = member := by
  rw [Environment.tupleOf]
  cases environment.network entry.2 <;> simp

/-- What a consumer that fails at nothing gets of a walk over pre-flights that raise
nothing but a `ClientError`. -/
theorem received_of_clientError {verdict : MemberTuple → Except Exn Unit} (list : List Visit)
    (count : ℕ)
    (hnetwork : ∀ entry ∈ list.zipIdx count, ∀ exception,
      environment.network entry.2 = .error exception → exception.isClientError = true)
    (hverdict : ∀ member ∈ (list.zipIdx count).filterMap environment.tupleOf,
      verdict member = .ok ()) :
    environment.received verdict count list =
      ((list.zipIdx count).filterMap environment.tupleOf, .ok ()) := by
  induction list generalizing count with
  | nil => rfl
  | cons visit rest ih =>
      rw [List.zipIdx_cons] at hnetwork hverdict ⊢
      have hrest := ih (count + 1) (fun entry hentry => hnetwork entry (.tail _ hentry))
      cases hanswer : environment.network count with
      | error exception =>
          have hclient := hnetwork _ (.head _) exception hanswer
          have hnone : environment.tupleOf (visit, count) = none := by
            rw [Environment.tupleOf, hanswer]
          rw [List.filterMap_cons_none hnone] at hverdict ⊢
          simp [Environment.received, Environment.fetched, hanswer, hclient, hrest hverdict]
      | ok reception =>
          by_cases hstatus : reception.status = 200
          · have hsome : environment.tupleOf (visit, count) =
                some (memberTuple visit.1 visit.2 ⟨count, reception⟩) := by
              simp [Environment.tupleOf, hanswer, hstatus]
            rw [List.filterMap_cons_some hsome] at hverdict ⊢
            simp [Environment.received, Environment.fetched, hanswer, hstatus,
              hverdict _ (.head _),
              hrest fun member hmember => hverdict member (.tail _ hmember)]
          · have hnone : environment.tupleOf (visit, count) = none := by
              simp [Environment.tupleOf, hanswer, hstatus]
            rw [List.filterMap_cons_none hnone] at hverdict ⊢
            simp [Environment.received, Environment.fetched, hanswer, hstatus, hrest hverdict]

end Tuples

/-! ## The peek -/

def noMatchingAttachments : Exn :=
  .noMatchingAttachments "channel yielded no attachments to zip"

/-- The peek changes nothing but the end of an empty walk. -/
theorem consume_peekOrRaiseEmpty {environment : Environment}
    {use : MemberTuple → Log → Except Exn Unit × Log}
    (body : Body Reply Exn MemberTuple Unit) (log : Log) :
    consume environment.serve use (peekOrRaiseEmpty body) log =
      match consume environment.serve use body log with
      | ([], .ok (), after) => ([], .error noMatchingAttachments, after)
      | result => result := by
  rw [peekOrRaiseEmpty, consume_lift_bind, consume_eq_advance body]
  rcases (advance body).exec environment.serve log with ⟨exception | step, after⟩
  · rfl
  · cases step with
    | none => rfl
    | some pair =>
        obtain ⟨first, resume⟩ := pair
        dsimp only
        rw [consume_yield_bind]
        rcases use first after with ⟨_ | _, later⟩
        · rfl
        · dsimp only
          rw [consume_forward]

/-! ## The whole pipeline -/

/-- Fully consumed, the pipeline has made one GET for each matching attachment, and
handed the tuples of those whose outcome was 200 to stream-zip, in order; it raises
`NoMatchingAttachments` if there is none. -/
theorem consume_buildZipStream {environment : Environment} (rounding : Rounding)
    (timeSnowflake : DateTime → Bool → ℤ) {arguments : Arguments}
    (hcontained : arguments.onProgress = true → environment.ProgressContained)
    (hhistory : (environment.walked arguments).failure = none)
    (hnetwork : ∀ count exception, environment.network count = .error exception →
      exception.isClientError = true)
    (hbodies : ∀ count reception, environment.network count = .ok reception →
      reception.failure = none) :
    let result := consume environment.serve environment.readMember
      (buildZipStream rounding timeSnowflake arguments) []
    urls result.2.2 = (environment.selected arguments).map (fun visit => visit.2.url) ∧
      result.1 = (environment.selected arguments).zipIdx.filterMap environment.tupleOf ∧
      result.2.1 = if result.1 = [] then .error noMatchingAttachments else .ok () := by
  have hverdict : ∀ member ∈ (environment.selected arguments).zipIdx.filterMap
      environment.tupleOf, member.chunks.ended = .ok () := by
    intro member hmember
    obtain ⟨entry, -, htuple⟩ := List.mem_filterMap.mp hmember
    obtain ⟨reception, hanswer, -, rfl⟩ := tupleOf_eq_some.mp htuple
    simp [Chunks.ended, memberTuple, hbodies entry.2 reception hanswer]
  have hreceived := received_of_clientError (environment.selected arguments) 0
    (fun entry _ exception => hnetwork entry.2 exception) hverdict
  obtain ⟨hitems, houtcome, hgets⟩ :=
    consume_members takes_readMember hcontained rounding timeSnowflake []
  rw [show (urls []).length = 0 from rfl, hreceived] at hitems houtcome hgets
  rw [History.ended, hhistory] at houtcome
  intro result
  have hresult : result = _ := consume_peekOrRaiseEmpty _ []
  cases hmembers : consume environment.serve environment.readMember
    (members rounding timeSnowflake arguments) [] with
  | mk items rest =>
  obtain ⟨outcome, last⟩ := rest
  rw [hmembers] at hitems houtcome hgets hresult
  obtain rfl : outcome = .ok () := houtcome
  have hlast := hgets rfl
  cases items with
  | nil =>
      rw [hresult]
      exact ⟨hlast, hitems, rfl⟩
  | cons first others =>
      rw [hresult]
      exact ⟨hlast, hitems, rfl⟩

/-- Two messages with two attachments each, of which the second is a text. -/
def fourAttachments : List Message :=
  let attachments : List Attachment :=
    [⟨"a.png", "u", some 9, some "image/png"⟩, ⟨"b.txt", "v", none, some "text/plain"⟩]
  [⟨6, 1, discordEpoch, attachments⟩, ⟨5, 1, discordEpoch, attachments⟩]

/-- A network with the given answers to the first GETs, and none afterwards. -/
def environmentOf (messages : List Message) (answers : List (Except Exn Reception)) :
    Environment where
  oldest := .ok none
  history _ _ := ⟨messages, none⟩
  clock count := count
  callback _ := .error (.other "Redis is away")
  network count := answers.getD count (.error (.clientError "no answer"))

/-- Images are wanted, progress is reported at every message. -/
def wantImages : Arguments where
  lastMessageId := some 6
  accepts := some fun attachment _ => attachment.contentType = some "image/png"
  before := none
  after := none
  onProgress := true
  progressThrottleSeconds := 0

/-- Images are wanted, without reports. -/
def quietImages : Arguments := { wantImages with onProgress := false }

/-- The first GET is answered with 404, the second with 200. -/
def secondFound : Environment :=
  environmentOf fourAttachments [.ok ⟨404, [], none⟩, .ok ⟨200, [[1]], none⟩]

theorem secondFound_contained : secondFound.ProgressContained := by
  refine ⟨fun call exception herror => ?_, fun exception herror => ?_⟩
  · cases herror
    rfl
  · cases herror

theorem consume_buildZipStream_secondFound :
    ((consume secondFound.serve secondFound.readMember
      (buildZipStream exactRounding (fun _ _ => 0) wantImages) []).1.map
        fun member => member.name) = ["5_a.png"] := by
  have hhistory : (secondFound.walked wantImages).failure = none := rfl
  have hnetwork : ∀ count exception, secondFound.network count = .error exception →
      exception.isClientError = true
    | 0, _, herror | 1, _, herror => by cases herror
    | _ + 2, _, herror => by cases herror; rfl
  have hbodies : ∀ count reception, secondFound.network count = .ok reception →
      reception.failure = none
    | 0, _, hok | 1, _, hok => by cases hok; rfl
    | _ + 2, _, hok => by cases hok
  obtain ⟨-, hitems, -⟩ := consume_buildZipStream exactRounding (fun _ _ => 0)
    (fun _ => secondFound_contained) hhistory hnetwork hbodies
  rw [hitems]
  decide

end DownloaderBot.ZipPipeline
