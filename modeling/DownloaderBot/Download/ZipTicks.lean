import DownloaderBot.Core.TransitionSystem
import DownloaderBot.Download.ZipProgress
import Mathlib.Data.List.DropRight

/-!
# The heartbeat of a walk

What the callback is told, and when, step by step along a walk: the calls of `_members` and
the members it hands on, with a consumer that may release bodies and raise in between.
-/

namespace DownloaderBot.ZipPipeline

open DownloaderBot.Calendar
open DownloaderBot.Discord
open DownloaderBot.Generator
open DownloaderBot.Program
open DownloaderBot.TransitionSystem
open DownloaderBot.ZipStream (Visit visits)

inductive Step
  | asked (request : Request)
  | handed (member : MemberTuple)
  deriving DecidableEq, Repr

/-- What has happened on a walk so far. -/
abbrev Trace := List Step

def requests (trace : Trace) : Log :=
  trace.filterMap fun
    | .asked request => some request
    | .handed _ => none

/-- The members handed on so far. -/
def handedOn (trace : Trace) : List MemberTuple :=
  trace.filterMap fun
    | .asked _ => none
    | .handed member => some member

def Step.isEmission : Step → Bool
  | .asked (.onProgress _) => true
  | _ => false

/-- Who takes the members: with each it releases some responses, and may raise. -/
structure Consumer where
  outcome : MemberTuple → Trace → Except Exn Unit
  released : MemberTuple → Trace → List Response

def Consumer.use (consumer : Consumer) (member : MemberTuple) (trace : Trace) :
    Except Exn Unit × Trace :=
  (consumer.outcome member trace, trace ++ .handed member ::
    (consumer.released member trace).map fun response => .asked (.release response))

section Environment

variable (environment : Environment)

/-- The environment answers as it does without the members on record. -/
def Environment.serveTraced (trace : Trace) (request : Request) :
    Except Exn (Reply request) × Trace :=
  (environment.answer (requests trace) request, trace ++ [.asked request])

/-- The latest reading of the clock, at first the one that starts the walk. -/
def Environment.now (trace : Trace) : ℚ :=
  environment.clock (readings (requests trace) - 1)

/-- The reading at which the callback was last called, or which started the walk. -/
def Environment.lastEmission (trace : Trace) : ℚ :=
  environment.now (trace.rdropWhile fun step => !step.isEmission)

variable (rounding : Rounding) (arguments : Arguments)

/-- By the subtraction of floats, the throttle lies between the two readings. -/
def Apart (earlier later : ℚ) : Prop :=
  arguments.progressThrottleSeconds ≤ rounding.round (later - earlier)

/-- The reported size of the attachment that a member was made of.  Its response tells by
its number which GET, so which selected attachment. -/
def Environment.sizeOf (member : MemberTuple) : ℕ :=
  ((environment.selected arguments)[member.chunks.response.id]?).elim 0
    fun visit => visit.2.size.getD 0

/-- The message that the walk is at: the first reading starts the walk, and each message
takes one more. -/
def Environment.current (trace : Trace) : Option Message :=
  (environment.walked arguments).messages[readings (requests trace) - 2]?

/-- A step suits what happened before it.  `counted`: a snapshot counts the members handed
on so far.  `apart`: it keeps the throttle.  `scanned` and `made`: the GETs are those of the
message the walk is at, and a member is made of the attachment its GET was for. -/
structure Suits (before : Trace) (step : Step) : Prop where
  counted : ∀ snapshot, step = .asked (.onProgress snapshot) →
    snapshot.attachmentsDone = (handedOn before).length ∧
      snapshot.bytesStreamed =
        ((handedOn before).map (environment.sizeOf arguments)).sum
  apart : ∀ snapshot, step = .asked (.onProgress snapshot) →
    Apart rounding arguments (environment.lastEmission before) (environment.now before)
  scanned : ∀ url, step = .asked (.get url) → arguments.onProgress = true →
    ∃ message ∈ environment.current arguments before, ∃ attachment ∈ message.attachments,
      arguments.selects message attachment = true ∧ attachment.url = url
  made : ∀ member, step = .handed member →
    ∃ visit, (environment.selected arguments)[member.chunks.response.id]? = some visit ∧
      member = memberTuple visit.1 visit.2 member.chunks.response

/-- A reading for a message that keeps the throttle is followed by a call of the callback. -/
def Prompt (trace : Trace) : Prop :=
  ∀ before after, trace = before ++ .asked .monotonic :: after →
    0 < readings (requests before) →
    Apart rounding arguments (environment.lastEmission before)
      (environment.clock (readings (requests before))) →
    ∃ snapshot rest, after = .asked (.onProgress snapshot) :: rest

/-- The walk so far has reported as it should. -/
structure Ticks (trace : Trace) : Prop where
  suits : AtEvery (Suits environment rounding arguments) trace
  prompt : Prompt environment rounding arguments trace

end Environment

/-! ## Traces that grow -/

section Traces

variable {environment : Environment} {rounding : Rounding} {arguments : Arguments}

@[simp]
theorem requests_append (left right : Trace) :
    requests (left ++ right) = requests left ++ requests right :=
  List.filterMap_append

@[simp]
theorem handedOn_append (left right : Trace) :
    handedOn (left ++ right) = handedOn left ++ handedOn right :=
  List.filterMap_append

/-- A program makes the same calls with the members on record. -/
theorem exec_serveTraced {α : Type} {program : Prog Reply Exn α} {trace : Trace}
    {outcome : Except Exn α} {calls : Log}
    (hexec : program.exec environment.serve (requests trace) =
      (outcome, requests trace ++ calls)) :
    program.exec environment.serveTraced trace = (outcome, trace ++ calls.map .asked) := by
  suffices hboth : ∃ made, program.exec environment.serve (requests trace) =
      ((program.exec environment.serveTraced trace).1, requests trace ++ made) ∧
        (program.exec environment.serveTraced trace).2 = trace ++ made.map .asked by
    obtain ⟨made, hserve, htraced⟩ := hboth
    obtain ⟨houtcome, hcalls⟩ := Prod.mk.inj (hserve.symm.trans hexec)
    rw [List.append_cancel_left hcalls] at htraced
    exact Prod.ext houtcome htraced
  clear hexec
  induction program generalizing trace with
  | ret value => exact ⟨[], by simp [Prog.exec], by simp [Prog.exec]⟩
  | raise exception => exact ⟨[], by simp [Prog.exec], by simp [Prog.exec]⟩
  | call request next ih =>
      obtain ⟨made, hserve, htraced⟩ :=
        @ih (environment.answer (requests trace) request) (trace ++ [.asked request])
      refine ⟨request :: made, ?_, ?_⟩
      · have hlog : requests (trace ++ [.asked request]) = requests trace ++ [request] := by
          rw [requests_append]
          rfl
        rw [hlog] at hserve
        simpa [Prog.exec, Environment.serve, Environment.serveTraced] using hserve
      · simpa [Prog.exec, Environment.serveTraced] using htraced

theorem lastEmission_concat (trace : Trace) (step : Step) :
    environment.lastEmission (trace ++ [step]) =
      if step.isEmission then environment.now (trace ++ [step])
      else environment.lastEmission trace := by
  rw [Environment.lastEmission, List.rdropWhile_concat]
  cases step.isEmission with
  | true => rfl
  | false => rfl

theorem lastEmission_append_of_not {trace steps : Trace}
    (hsteps : ∀ step ∈ steps, step.isEmission = false) :
    environment.lastEmission (trace ++ steps) = environment.lastEmission trace := by
  induction steps generalizing trace with
  | nil => rw [List.append_nil]
  | cons step steps ih =>
      rw [← List.singleton_append, ← List.append_assoc,
        ih fun other hother => hsteps other (.tail _ hother), lastEmission_concat,
        if_neg (Bool.eq_false_iff.mp (hsteps step List.mem_cons_self))]

theorem Prompt.append {trace steps : Trace} (htrace : Prompt environment rounding arguments trace)
    (hsteps : ∀ step ∈ steps, step ≠ .asked .monotonic) :
    Prompt environment rounding arguments (trace ++ steps) := by
  intro before after hsplit hstarted hapart
  rcases append_split hsplit with ⟨middle, hbefore, rfl⟩ | ⟨middle, -, hlater⟩
  · obtain ⟨snapshot, rest, rfl⟩ := htrace before middle hbefore hstarted hapart
    exact ⟨snapshot, rest ++ steps, rfl⟩
  · exact absurd rfl (hsteps (.asked .monotonic) (by simp [hlater]))

/-- The steps for a message: its reading, and the call of the callback if that is due. -/
theorem Prompt.round {trace steps : Trace} (htrace : Prompt environment rounding arguments trace)
    (hsteps : ∀ step ∈ steps, step ≠ .asked .monotonic)
    (hdue : 0 < readings (requests trace) →
      Apart rounding arguments (environment.lastEmission trace)
        (environment.clock (readings (requests trace))) →
      ∃ snapshot rest, steps = .asked (.onProgress snapshot) :: rest) :
    Prompt environment rounding arguments (trace ++ .asked .monotonic :: steps) := by
  intro before after hsplit hstarted hapart
  rcases append_split hsplit with ⟨middle, hbefore, rfl⟩ | ⟨middle, rfl, hlater⟩
  · obtain ⟨snapshot, rest, rfl⟩ := htrace before middle hbefore hstarted hapart
    exact ⟨snapshot, rest ++ .asked .monotonic :: steps, rfl⟩
  · cases middle with
    | nil =>
        obtain ⟨-, rfl⟩ := List.cons.inj hlater
        rw [List.append_nil] at hstarted hapart
        exact hdue hstarted hapart
    | cons step middle =>
        obtain ⟨rfl, rfl⟩ := List.cons.inj hlater
        exact absurd rfl (hsteps (.asked .monotonic) (by simp))

end Traces

/-! ## The counters -/

section Counters

variable (environment : Environment) (rounding : Rounding) (arguments : Arguments)

/-- The counters say what has happened, and so many GETs were made. -/
structure Tallied (gets : ℕ) (tally : Tally) (trace : Trace) : Prop where
  ticks : Ticks environment rounding arguments trace
  done : tally.attachmentsDone = (handedOn trace).length
  bytes : tally.bytesStreamed = ((handedOn trace).map (environment.sizeOf arguments)).sum
  lastEmit : tally.lastEmit = environment.lastEmission trace
  gets_eq : (urls (requests trace)).length = gets

variable {environment rounding arguments} {gets : ℕ} {tally : Tally} {trace : Trace}

/-- A step that is no emission, and not in place of one, may come at any time. -/
theorem Ticks.concat (hticks : Ticks environment rounding arguments trace) {step : Step}
    (hmonotonic : step ≠ .asked .monotonic)
    (hsuits : Suits environment rounding arguments trace step) :
    Ticks environment rounding arguments (trace ++ [step]) where
  suits := hticks.suits.concat hsuits
  prompt := hticks.prompt.append fun other hother => by
    rwa [List.mem_singleton.mp hother]

/-- A call that is neither a report nor a GET suits any trace. -/
theorem suits_asked {request : Request} (hreport : ∀ snapshot, request ≠ .onProgress snapshot)
    (hget : ∀ url, request ≠ .get url) :
    Suits environment rounding arguments trace (.asked request) where
  counted snapshot hstep := absurd (Step.asked.inj hstep) (hreport snapshot)
  apart snapshot hstep := absurd (Step.asked.inj hstep) (hreport snapshot)
  scanned url hstep := absurd (Step.asked.inj hstep) (hget url)
  made member hstep := by cases hstep

/-- The GET of an attachment suits the walk at its message. -/
theorem suits_get {message : Message} {attachment : Attachment}
    (hcurrent : arguments.onProgress = true →
      environment.current arguments trace = some message)
    (hattachment : attachment ∈ message.attachments)
    (hselects : arguments.selects message attachment = true) :
    Suits environment rounding arguments trace (.asked (.get attachment.url)) where
  counted snapshot hstep := by cases hstep
  apart snapshot hstep := by cases hstep
  scanned url hstep hprogress := by
    obtain rfl := Request.get.inj (Step.asked.inj hstep)
    exact ⟨message, hcurrent hprogress, attachment, hattachment, hselects, rfl⟩
  made member hstep := by cases hstep

theorem suits_handed {message : Message} {attachment : Attachment} {response : Response}
    (hvisit : (environment.selected arguments)[response.id]? = some (message, attachment)) :
    Suits environment rounding arguments trace
      (.handed (memberTuple message attachment response)) where
  counted snapshot hstep := by cases hstep
  apart snapshot hstep := by cases hstep
  scanned url hstep := by cases hstep
  made member hstep := by
    obtain rfl := Step.handed.inj hstep
    exact ⟨(message, attachment), hvisit, rfl⟩

/-- A call that is no report and no reading leaves the counters as they are. -/
theorem Tallied.ask (htallied : Tallied environment rounding arguments gets tally trace)
    (request : Request) (hmonotonic : request ≠ .monotonic)
    (hemission : (Step.asked request).isEmission = false)
    (hsuits : Suits environment rounding arguments trace (.asked request)) :
    Tallied environment rounding arguments (gets + (urls [request]).length) tally
        (trace ++ [.asked request]) ∧
      readings (requests (trace ++ [.asked request])) = readings (requests trace) := by
  have hrequests : requests (trace ++ [.asked request]) = requests trace ++ [request] :=
    requests_append trace [.asked request]
  have hhanded : handedOn (trace ++ [.asked request]) = handedOn trace :=
    (handedOn_append trace [.asked request]).trans (List.append_nil _)
  refine ⟨⟨htallied.ticks.concat (fun hstep => hmonotonic (Step.asked.inj hstep)) hsuits,
    ?_, ?_, ?_, ?_⟩, ?_⟩
  · rw [hhanded]
    exact htallied.done
  · rw [hhanded]
    exact htallied.bytes
  · rw [lastEmission_concat, hemission]
    exact htallied.lastEmit
  · rw [hrequests, urls_append, List.length_append, htallied.gets_eq]
  · have hnone : readings [request] = 0 := by simp [readings, hmonotonic]
    rw [hrequests, readings_append, hnone, Nat.add_zero]

theorem Tallied.release (htallied : Tallied environment rounding arguments gets tally trace)
    (responses : List Response) :
    Tallied environment rounding arguments gets tally
        (trace ++ responses.map fun response => .asked (.release response)) ∧
      readings (requests (trace ++ responses.map fun response =>
        .asked (.release response))) = readings (requests trace) := by
  induction responses generalizing trace with
  | nil => simpa using htallied
  | cons response responses ih =>
      obtain ⟨hone, hreadings⟩ := htallied.ask (.release response)
        (fun h => by cases h) rfl (suits_asked (fun _ h => by cases h) fun _ h => by cases h)
      have hrest := ih hone
      rw [hreadings] at hrest
      simpa using hrest

/-- A pre-flight makes its GET and may release the response. -/
theorem Tallied.preflight (htallied : Tallied environment rounding arguments gets tally trace)
    {message : Message} {attachment : Attachment}
    (hcurrent : arguments.onProgress = true →
      environment.current arguments trace = some message)
    (hattachment : attachment ∈ message.attachments)
    (hselects : arguments.selects message attachment = true) :
    Tallied environment rounding arguments (gets + 1) tally
        (trace ++ (environment.preflightLog gets attachment.url).map .asked) ∧
      readings (requests (trace ++
        (environment.preflightLog gets attachment.url).map .asked)) =
        readings (requests trace) := by
  have hcalls : ∃ responses : List Response, environment.preflightLog gets attachment.url =
      .get attachment.url :: responses.map .release := by
    rw [Environment.preflightLog]
    split
    · split
      · exact ⟨[], rfl⟩
      · exact ⟨[_], rfl⟩
    · exact ⟨[], rfl⟩
  obtain ⟨responses, hcalls⟩ := hcalls
  obtain ⟨hget, hreadings⟩ := htallied.ask (.get attachment.url)
    (fun h => by cases h) rfl (suits_get hcurrent hattachment hselects)
  have hreleased := hget.release responses
  rw [hreadings] at hreleased
  simpa [hcalls, Function.comp_def] using hreleased

/-- A member is handed on, and counted. -/
theorem Tallied.hand (htallied : Tallied environment rounding arguments gets tally trace)
    {message : Message} {attachment : Attachment} {response : Response}
    (hvisit : (environment.selected arguments)[response.id]? = some (message, attachment)) :
    Tallied environment rounding arguments gets (tally.count attachment)
      (trace ++ [.handed (memberTuple message attachment response)]) := by
  have hsize : environment.sizeOf arguments (memberTuple message attachment response) =
      attachment.size.getD 0 :=
    congrArg (fun visit : Option Visit => visit.elim 0 fun visit => visit.2.size.getD 0) hvisit
  have hhanded : handedOn (trace ++ [.handed (memberTuple message attachment response)]) =
      handedOn trace ++ [memberTuple message attachment response] :=
    handedOn_append trace [.handed (memberTuple message attachment response)]
  refine ⟨htallied.ticks.concat (fun h => by cases h) (suits_handed hvisit), ?_, ?_, ?_, ?_⟩
  · rw [hhanded, List.length_append, ← htallied.done]
    rfl
  · rw [hhanded, List.map_append, List.sum_append, ← htallied.bytes, List.map_singleton,
      List.sum_singleton, hsize]
    rfl
  · rw [lastEmission_concat]
    exact htallied.lastEmit
  · rw [requests_append, urls_append, List.length_append, htallied.gets_eq]
    rfl

/-- What the consumer does with a member it is handed reports nothing. -/
theorem Tallied.use (htallied : Tallied environment rounding arguments gets tally trace)
    (consumer : Consumer) {message : Message} {attachment : Attachment} {response : Response}
    (hvisit : (environment.selected arguments)[response.id]? = some (message, attachment)) :
    let later := (consumer.use (memberTuple message attachment response) trace).2
    Tallied environment rounding arguments gets (tally.count attachment) later ∧
      readings (requests later) = readings (requests trace) := by
  intro later
  obtain ⟨hreleased, hreadings⟩ := (htallied.hand hvisit).release
    (consumer.released (memberTuple message attachment response) trace)
  rw [List.append_assoc, List.singleton_append] at hreleased hreadings
  refine ⟨hreleased, hreadings.trans ?_⟩
  rw [requests_append]
  exact congrArg readings (List.append_nil (requests trace))

/-- A message that is not due leaves a reading only. -/
theorem Tallied.scan (htallied : Tallied environment rounding arguments gets tally trace)
    (hearly : ¬ Apart rounding arguments tally.lastEmit
      (environment.clock (readings (requests trace)))) :
    Tallied environment rounding arguments gets tally (trace ++ [.asked .monotonic]) ∧
      readings (requests (trace ++ [.asked .monotonic])) = readings (requests trace) + 1 := by
  refine ⟨⟨⟨htallied.ticks.suits.concat (suits_asked (fun _ h => by cases h)
    fun _ h => by cases h), ?_⟩, ?_, ?_, ?_, ?_⟩, ?_⟩
  · refine htallied.ticks.prompt.round (by simp) fun _ hapart => absurd ?_ hearly
    rwa [htallied.lastEmit]
  · simpa [handedOn] using htallied.done
  · simpa [handedOn] using htallied.bytes
  · rw [lastEmission_concat]
    exact htallied.lastEmit
  · simpa [requests] using htallied.gets_eq
  · simp [requests]

/-- A report that is due carries the counters. -/
theorem Tallied.suits_report
    (htallied : Tallied environment rounding arguments gets tally trace)
    (hdue : Apart rounding arguments tally.lastEmit
      (environment.clock (readings (requests trace)))) (fraction : Option ℚ) :
    Suits environment rounding arguments (trace ++ [.asked .monotonic])
      (.asked (.onProgress ⟨tally.attachmentsDone, tally.bytesStreamed, fraction⟩)) where
  counted snapshot hstep := by
    obtain rfl := Request.onProgress.inj (Step.asked.inj hstep)
    simpa [handedOn] using And.intro htallied.done htallied.bytes
  apart snapshot hstep := by
    have hlast : environment.lastEmission (trace ++ [.asked .monotonic]) =
        tally.lastEmit := by
      rw [lastEmission_concat]
      exact htallied.lastEmit.symm
    have hnow : environment.now (trace ++ [.asked .monotonic]) =
        environment.clock (readings (requests trace)) := by
      simp [Environment.now, requests]
    rwa [hlast, hnow]
  scanned url hstep := by cases hstep
  made member hstep := by cases hstep

/-- A message that is due leaves a reading and a report. -/
theorem Tallied.emit (htallied : Tallied environment rounding arguments gets tally trace)
    (hdue : Apart rounding arguments tally.lastEmit
      (environment.clock (readings (requests trace)))) (fraction : Option ℚ) :
    Tallied environment rounding arguments gets
        { tally with lastEmit := environment.clock (readings (requests trace)) }
        (trace ++ [.asked .monotonic, .asked (.onProgress
          ⟨tally.attachmentsDone, tally.bytesStreamed, fraction⟩)]) ∧
      readings (requests (trace ++ [.asked .monotonic, .asked (.onProgress
        ⟨tally.attachmentsDone, tally.bytesStreamed, fraction⟩)])) =
        readings (requests trace) + 1 := by
  have hscanned : Suits environment rounding arguments trace (.asked .monotonic) :=
    suits_asked (fun _ h => by cases h) fun _ h => by cases h
  have hsuits := (htallied.ticks.suits.concat hscanned).concat
    (htallied.suits_report hdue fraction)
  rw [List.append_assoc] at hsuits
  refine ⟨⟨⟨hsuits, ?_⟩, ?_, ?_, ?_, ?_⟩, ?_⟩
  · exact htallied.ticks.prompt.round (by simp) fun _ _ => ⟨_, [], rfl⟩
  · simpa [handedOn] using htallied.done
  · simpa [handedOn] using htallied.bytes
  · rw [← List.singleton_append, ← List.append_assoc, lastEmission_concat]
    simp [Step.isEmission, Environment.now, requests]
  · simpa [requests] using htallied.gets_eq
  · simp [requests]

variable (environment rounding arguments) in
/-- Where a part of the walk ends the reports are right, and the counters too if it
returns; it took so many readings. -/
structure Carries (gets taken : ℕ) (before after : Trace) (outcome : Except Exn Tally) :
    Prop where
  ticks : Ticks environment rounding arguments after
  returned : ∀ next, outcome = .ok next →
    Tallied environment rounding arguments gets next after ∧
      readings (requests after) = readings (requests before) + taken

theorem Carries.after_step {taken more : ℕ} {before middle after : Trace}
    {outcome : Except Exn Tally}
    (hcarries : Carries environment rounding arguments gets taken middle after outcome)
    (hmiddle : readings (requests middle) = readings (requests before) + more) :
    Carries environment rounding arguments gets (more + taken) before after outcome := by
  refine ⟨hcarries.ticks, fun next hnext => ?_⟩
  obtain ⟨htallied, hreadings⟩ := hcarries.returned next hnext
  exact ⟨htallied, by rw [hreadings, hmiddle, Nat.add_assoc]⟩

theorem carries_report (htallied : Tallied environment rounding arguments gets tally trace)
    (bounds : Option ℤ × Option ℤ) (message : Message) :
    let result := (report rounding arguments bounds message tally).exec
      environment.serveTraced trace
    Carries environment rounding arguments gets (if arguments.onProgress then 1 else 0) trace
      result.2 result.1 := by
  intro result
  cases hprogress : arguments.onProgress with
  | false =>
      have hexec : result = (.ok tally, trace) := by
        change (report rounding arguments bounds message tally).exec _ _ = _
        rw [report, hprogress]
        rfl
      rw [hexec]
      refine ⟨htallied.ticks, fun next hnext => ⟨?_, rfl⟩⟩
      obtain rfl := Except.ok.inj hnext
      exact htallied
  | true =>
      have hserve := @exec_report_eq environment rounding arguments hprogress bounds message tally
        (requests trace)
      split at hserve
      case isTrue hdue =>
        rw [List.append_assoc] at hserve
        obtain ⟨hemitted, hreadings⟩ := htallied.emit hdue
          (historyFraction rounding bounds message)
        have hexec : result = _ := exec_serveTraced hserve
        rw [hexec]
        refine ⟨hemitted.ticks, fun next hnext => ⟨?_, hreadings⟩⟩
        -- What the callback raises is logged, if it does not end the walk.
        have hnext : next =
            { tally with lastEmit := environment.clock (readings (requests trace)) } := by
          dsimp only at hnext
          split at hnext
          · exact (Except.ok.inj hnext).symm
          · split at hnext
            · exact (Except.ok.inj hnext).symm
            · cases hnext
        rw [hnext]
        exact hemitted
      case isFalse hearly =>
        obtain ⟨hscanned, hreadings⟩ := htallied.scan hearly
        have hexec : result = _ := exec_serveTraced hserve
        rw [hexec]
        refine ⟨hscanned.ticks, fun next hnext => ⟨?_, hreadings⟩⟩
        obtain rfl := Except.ok.inj hnext
        exact hscanned

variable {consumer : Consumer}

theorem id_of_fetched {count : ℕ} {response : Response}
    (hfetched : environment.fetched count = .ok (some response)) : response.id = count := by
  rw [Environment.fetched] at hfetched
  split at hfetched
  · split at hfetched
    · exact (Option.some.inj (Except.ok.inj hfetched)) ▸ rfl
    · cases hfetched
  · split at hfetched <;> cases hfetched

/-- A selected attachment, its member if there is one, and what comes after it. -/
theorem carries_attachment {message : Message} {attachment : Attachment}
    {first remaining : List Visit} {count : ℕ} {rest : Tally → Body Reply Exn MemberTuple Tally}
    (htallied : Tallied environment rounding arguments first.length tally trace)
    (hselected : environment.selected arguments = first ++ (message, attachment) :: remaining)
    (hcurrent : arguments.onProgress = true →
      environment.current arguments trace = some message)
    (hattachment : attachment ∈ message.attachments)
    (hselects : arguments.selects message attachment = true)
    (hrest : ∀ next later, Tallied environment rounding arguments (first.length + 1) next later →
      readings (requests later) = readings (requests trace) →
      let result := consume environment.serveTraced consumer.use (rest next) later
      Carries environment rounding arguments count 0 trace result.2.2 result.2.1) :
    let result := consume environment.serveTraced consumer.use
      ((lift (preflight attachment)).bind fun
        | none => rest tally
        | some response => (yield (memberTuple message attachment response)).bind fun _ =>
            rest (tally.count attachment)) trace
    Carries environment rounding arguments count 0 trace result.2.2 result.2.1 := by
  obtain ⟨hget, hreadings⟩ := htallied.preflight hcurrent hattachment hselects
  have hexec := exec_serveTraced (exec_preflight environment attachment (requests trace))
  rw [htallied.gets_eq] at hexec
  rw [consume_lift_bind, hexec]
  cases hfetched : environment.fetched first.length with
  | error exception => exact ⟨hget.ticks, fun _ h => by cases h⟩
  | ok fetched =>
      cases fetched with
      | none => exact hrest tally _ hget hreadings
      | some response =>
          have hid : response.id = first.length := id_of_fetched hfetched
          have hvisit : (environment.selected arguments)[response.id]? =
              some (message, attachment) := by
            rw [hid, hselected]
            simp
          dsimp only
          rw [consume_yield_bind]
          obtain ⟨hused, huses⟩ := hget.use consumer hvisit
          rw [hreadings] at huses
          split
          case h_1 _ after huse =>
            rw [huse] at hused huses
            exact hrest (tally.count attachment) after hused huses
          case h_2 _ _ after huse =>
            rw [huse] at hused
            exact ⟨hused.ticks, fun _ h => by cases h⟩

theorem carries_attachmentLoop {message : Message} {attachments : List Attachment}
    {first rest : List Visit}
    (htallied : Tallied environment rounding arguments first.length tally trace)
    (hselected : environment.selected arguments =
      first ++ (arguments.pick (attachments.map (message, ·)) ++ rest))
    (hcurrent : arguments.onProgress = true →
      environment.current arguments trace = some message)
    (hattachments : attachments ⊆ message.attachments) :
    let result := consume environment.serveTraced consumer.use
      (attachmentLoop arguments message attachments tally) trace
    Carries environment rounding arguments
      (first ++ arguments.pick (attachments.map (message, ·))).length 0 trace result.2.2
      result.2.1 := by
  induction attachments generalizing first tally trace with
  | nil =>
      refine ⟨htallied.ticks, fun next hnext => ⟨?_, rfl⟩⟩
      obtain rfl := Except.ok.inj hnext
      simpa [Arguments.pick, attachmentLoop, consume] using htallied
  | cons attachment attachments ih =>
      have hrest : attachments ⊆ message.attachments :=
        fun other hother => hattachments (.tail _ hother)
      rw [attachmentLoop]
      split
      case isFalse hselects =>
        have hpick : arguments.pick ((attachment :: attachments).map (message, ·)) =
            arguments.pick (attachments.map (message, ·)) := by
          simp [Arguments.pick, hselects]
        rw [hpick] at hselected ⊢
        exact ih htallied hselected hcurrent hrest
      case isTrue hselects =>
        have hpick : arguments.pick ((attachment :: attachments).map (message, ·)) =
            (message, attachment) :: arguments.pick (attachments.map (message, ·)) := by
          simp [Arguments.pick, hselects]
        rw [hpick] at hselected ⊢
        refine carries_attachment htallied hselected hcurrent
          (hattachments List.mem_cons_self) hselects fun next later hnext hlater => ?_
        -- The rest of the loop, from a trace without another reading.
        have hshift : environment.selected arguments = (first ++ [(message, attachment)]) ++
            (arguments.pick (attachments.map (message, ·)) ++ rest) := by
          rw [hselected]
          simp
        have hlength : first.length + 1 = (first ++ [(message, attachment)]).length := by simp
        rw [hlength] at hnext
        have hcarries := ih hnext hshift
          (fun hprogress => by rw [Environment.current, hlater]; exact hcurrent hprogress)
          hrest
        rw [List.append_assoc] at hcarries
        exact hcarries.after_step hlater

theorem ticks_messageLoop {bounds : Option ℤ × Option ℤ} {seen messages : List Message}
    {first : List Visit}
    (htallied : Tallied environment rounding arguments first.length tally trace)
    (hselected : environment.selected arguments = first ++ arguments.pick (visits messages))
    (hwalked : (environment.walked arguments).messages = seen ++ messages)
    (hreadings : arguments.onProgress = true →
      readings (requests trace) = seen.length + 1) :
    let result := consume environment.serveTraced consumer.use
      (messageLoop rounding arguments bounds messages tally) trace
    Ticks environment rounding arguments result.2.2 ∧
      (arguments.onProgress = true → result.2.1 = .ok () → readings (requests result.2.2) =
        (environment.walked arguments).messages.length + 1) := by
  induction messages generalizing seen first tally trace with
  | nil =>
      refine ⟨htallied.ticks, fun hprogress _ => ?_⟩
      rw [hwalked, List.append_nil]
      exact hreadings hprogress
  | cons message rest ih =>
      have hpick : arguments.pick (visits (message :: rest)) =
          arguments.pick (message.attachments.map (message, ·)) ++
            arguments.pick (visits rest) := by
        simp [Arguments.pick, visits]
      rw [hpick] at hselected
      have hreport := carries_report htallied bounds message
      rw [messageLoop, consume_lift_bind]
      cases hexec : (report rounding arguments bounds message tally).exec
        environment.serveTraced trace with
      | mk outcome later =>
      rw [hexec] at hreport
      cases outcome with
      | error exception => exact ⟨hreport.ticks, fun _ h => by cases h⟩
      | ok next =>
          obtain ⟨hreported, hscanned⟩ := hreport.returned next rfl
          have hlater : arguments.onProgress = true →
              readings (requests later) = seen.length + 2 := by
            intro hprogress
            rw [hscanned, hreadings hprogress, if_pos hprogress]
          have hloop := @carries_attachmentLoop _ _ _ _ _ consumer _ _ _ _ hreported hselected
            (fun hprogress => by
              rw [Environment.current, hlater hprogress, hwalked]
              simp) (List.Subset.refl _)
          dsimp only
          rw [consume_bind]
          cases hattachments : consume environment.serveTraced consumer.use
            (attachmentLoop arguments message message.attachments next) later with
          | mk items result =>
          obtain ⟨outcome, last⟩ := result
          rw [hattachments] at hloop
          cases outcome with
          | error exception => exact ⟨hloop.ticks, fun _ h => by cases h⟩
          | ok final =>
              obtain ⟨hfinal, hkept⟩ := hloop.returned final rfl
              exact ih hfinal (by rw [hselected, List.append_assoc])
                (hwalked.trans (List.append_cons seen message rest))
                fun hprogress => by
                  rw [hkept, hlater hprogress, List.length_append, List.length_singleton]

end Counters

/-! ## Whole walks -/

section Walks

variable (environment : Environment) (rounding : Rounding) (arguments : Arguments)

/-- Before the first reading there is at most the lookup of the oldest message. -/
theorem exec_bounds_traced (timeSnowflake : DateTime → Bool → ℤ) :
    ∀ step ∈ ((if arguments.onProgress then resolveSnowflakeBounds timeSnowflake arguments
      else .ret (none, none)).exec environment.serveTraced []).2, step = .asked .oldest := by
  have honly : (if arguments.onProgress then resolveSnowflakeBounds timeSnowflake arguments
      else .ret (none, none)).Only (· = .oldest) := by
    split
    · rw [resolveSnowflakeBounds]
      split
      · trivial
      · refine Prog.Only.bind (Prog.Only.tryExcept ?_ fun _ => ?_) fun _ => ?_
        · exact Prog.only_perform rfl
        · trivial
        · trivial
    · trivial
  have hkeep (trace : Trace) (request : Request) (hrequest : request = .oldest)
      (htrace : ∀ step ∈ trace, step = .asked .oldest) :
      ∀ step ∈ (environment.serveTraced trace request).2, step = .asked .oldest := by
    intro step hstep
    rcases List.mem_append.mp hstep with hold | hnew
    · exact htrace step hold
    · rw [List.mem_singleton.mp hnew, hrequest]
  exact honly.exec_invariant hkeep fun _ hstep => by cases hstep

variable {environment rounding arguments}

theorem ticks_oldest {trace : Trace} (htrace : ∀ step ∈ trace, step = .asked .oldest) :
    Ticks environment rounding arguments trace where
  suits before step after hsplit := by
    have hstep : step ∈ trace := by
      rw [hsplit]
      exact List.mem_append_right _ List.mem_cons_self
    rw [htrace step hstep]
    exact suits_asked (fun _ h => by cases h) fun _ h => by cases h
  prompt before after hsplit := by
    have hmonotonic : .asked .monotonic ∈ trace := by
      rw [hsplit]
      exact List.mem_append_right _ List.mem_cons_self
    cases htrace _ hmonotonic

/-- The first reading starts the counters. -/
theorem tallied_started {trace : Trace} (htrace : ∀ step ∈ trace, step = .asked .oldest) :
    Tallied environment rounding arguments 0 ⟨0, 0, environment.clock 0⟩
        (trace ++ [.asked .monotonic]) ∧
      readings (requests (trace ++ [.asked .monotonic])) = 1 := by
  have hrequests : ∀ request ∈ requests trace, request = .oldest := by
    intro request hrequest
    obtain ⟨step, hstep, hsome⟩ := List.mem_filterMap.mp hrequest
    rw [htrace step hstep] at hsome
    exact (Option.some.inj hsome).symm
  have hhanded : handedOn trace = [] :=
    List.filterMap_eq_nil_iff.mpr fun step hstep => by rw [htrace step hstep]
  have hurls : urls (requests trace) = [] :=
    List.filterMap_eq_nil_iff.mpr fun request hrequest => by rw [hrequests request hrequest]
  have hreadings : readings (requests trace) = 0 :=
    List.countP_eq_zero.mpr fun request hrequest => by simp [hrequests request hrequest]
  have hlast : environment.lastEmission trace = environment.clock 0 := by
    have hkept := @lastEmission_append_of_not environment [] trace fun step hstep => by
      rw [htrace step hstep]
      rfl
    exact hkept
  have hticks : Ticks environment rounding arguments trace := ticks_oldest htrace
  refine ⟨⟨⟨hticks.suits.concat (suits_asked (fun _ h => by cases h)
    fun _ h => by cases h), ?_⟩, ?_, ?_, ?_, ?_⟩, ?_⟩
  · refine hticks.prompt.round (by simp) fun hstarted => ?_
    rw [hreadings] at hstarted
    exact absurd hstarted (lt_irrefl 0)
  · rw [handedOn_append, hhanded]
    rfl
  · rw [handedOn_append, hhanded]
    rfl
  · rw [lastEmission_concat]
    exact hlast.symm
  · rw [requests_append, urls_append, hurls]
    rfl
  · rw [requests_append, readings_append, hreadings]
    rfl

/-- Counters of what was handed on never fall. -/
theorem pairwise_snapshots {trace : Trace}
    (hsuits : AtEvery (Suits environment rounding arguments) trace) :
    (snapshots (requests trace)).Pairwise (fun earlier later =>
        earlier.attachmentsDone ≤ later.attachmentsDone ∧
          earlier.bytesStreamed ≤ later.bytesStreamed) ∧
      ∀ snapshot ∈ snapshots (requests trace),
        snapshot.attachmentsDone ≤ (handedOn trace).length ∧
          snapshot.bytesStreamed ≤
            ((handedOn trace).map (environment.sizeOf arguments)).sum := by
  induction trace using List.reverseRecOn with
  | nil => simp [requests]
  | append_singleton trace step ih =>
      obtain ⟨hpairwise, hbounded⟩ := ih hsuits.of_append
      cases step with
      | handed member =>
          have hrequests : requests (trace ++ [.handed member]) = requests trace :=
            (requests_append trace [.handed member]).trans (List.append_nil _)
          rw [hrequests]
          refine ⟨hpairwise, fun snapshot hsnapshot => ?_⟩
          obtain ⟨hdone, hbytes⟩ := hbounded snapshot hsnapshot
          rw [handedOn_append, List.length_append, List.map_append, List.sum_append]
          exact ⟨hdone.trans (Nat.le_add_right _ _), hbytes.trans (Nat.le_add_right _ _)⟩
      | asked request =>
          have hhanded : handedOn (trace ++ [.asked request]) = handedOn trace :=
            (handedOn_append trace [.asked request]).trans (List.append_nil _)
          rw [hhanded, requests_append, snapshots_append]
          have hnew : ∀ snapshot ∈ snapshots (requests [.asked request]),
              snapshot.attachmentsDone = (handedOn trace).length ∧ snapshot.bytesStreamed =
                ((handedOn trace).map (environment.sizeOf arguments)).sum := by
            intro snapshot hsnapshot
            cases request with
            | onProgress reported =>
                obtain rfl := List.mem_singleton.mp hsnapshot
                exact (hsuits trace _ [] rfl).counted snapshot rfl
            | _ => cases hsnapshot
          refine ⟨List.pairwise_append.mpr ⟨hpairwise, ?_, fun earlier hearlier later hlater => ?_⟩,
            fun snapshot hsnapshot => ?_⟩
          · cases request <;> simp [requests]
          · rw [(hnew later hlater).1, (hnew later hlater).2]
            exact hbounded earlier hearlier
          · rcases List.mem_append.mp hsnapshot with hold | hreported
            · exact hbounded snapshot hold
            · exact ⟨(hnew snapshot hreported).1.le, (hnew snapshot hreported).2.le⟩

/-- The walk from the bounds on. -/
theorem ticks_started {consumer : Consumer} (bounds : Option ℤ × Option ℤ) {trace : Trace}
    (htrace : ∀ step ∈ trace, step = .asked .oldest) :
    let result := consume environment.serveTraced consumer.use
      ((lift (ask .monotonic)).bind fun lastEmit =>
        (lift (ask (.history arguments.before arguments.after))).bind fun history =>
        (messageLoop rounding arguments bounds history.messages ⟨0, 0, lastEmit⟩).bind
          fun _ => match history.failure with
            | none => .ret ()
            | some failure => .raise failure) trace
    Ticks environment rounding arguments result.2.2 ∧
      (arguments.onProgress = true → result.2.1 = .ok () → readings (requests result.2.2) =
        (environment.walked arguments).messages.length + 1) := by
  obtain ⟨hstarted, hone⟩ := @tallied_started environment rounding arguments trace htrace
  obtain ⟨hasked, hreadings⟩ := hstarted.ask (.history arguments.before arguments.after)
    (fun h => by cases h) rfl (suits_asked (fun _ h => by cases h) fun _ h => by cases h)
  have hfirst : readings (requests trace) = 0 := by
    simpa [requests] using hone
  have hmonotonic : (ask .monotonic).exec environment.serveTraced trace =
      (.ok (environment.clock 0), trace ++ [.asked .monotonic]) := by
    rw [ask, Prog.exec_perform, Environment.serveTraced, Environment.answer, hfirst]
  rw [consume_lift_bind, hmonotonic]
  dsimp only
  have hhistory : (ask (.history arguments.before arguments.after)).exec
      environment.serveTraced (trace ++ [.asked .monotonic]) =
      (.ok (environment.walked arguments), trace ++ [.asked .monotonic] ++
        [.asked (.history arguments.before arguments.after)]) :=
    Prog.exec_perform _ _
  rw [consume_lift_bind, hhistory]
  dsimp only
  have hloop := @ticks_messageLoop _ _ _ _ _ consumer bounds []
    (environment.walked arguments).messages [] hasked rfl rfl
    fun _ => hreadings.trans hone
  rw [consume_bind]
  cases hconsume : consume environment.serveTraced consumer.use
    (messageLoop rounding arguments bounds (environment.walked arguments).messages
      ⟨0, 0, environment.clock 0⟩) (trace ++ [.asked .monotonic] ++
        [.asked (.history arguments.before arguments.after)]) with
  | mk items result =>
  obtain ⟨outcome, last⟩ := result
  rw [hconsume] at hloop
  cases outcome with
  | error exception => exact ⟨hloop.1, fun _ h => by cases h⟩
  | ok _ =>
      cases (environment.walked arguments).failure with
      | none => exact hloop
      | some failure => exact ⟨hloop.1, fun _ h => by cases h⟩

/-- Along a walk, whatever the consumer does with the members, the callback is told what was
handed on; it is called no sooner than the throttle after its last call or the start, and at
the next message from then on. -/
theorem ticks_members (environment : Environment) (arguments : Arguments) (rounding : Rounding)
    (timeSnowflake : DateTime → Bool → ℤ) (consumer : Consumer) :
    let result := consume environment.serveTraced consumer.use
      (members rounding timeSnowflake arguments) []
    Ticks environment rounding arguments result.2.2 ∧
      (snapshots (requests result.2.2)).Pairwise (fun earlier later =>
        earlier.attachmentsDone ≤ later.attachmentsDone ∧
          earlier.bytesStreamed ≤ later.bytesStreamed) ∧
      (arguments.onProgress = true → result.2.1 = .ok () → readings (requests result.2.2) =
        (environment.walked arguments).messages.length + 1) := by
  intro result
  suffices hwalk : Ticks environment rounding arguments result.2.2 ∧
      (arguments.onProgress = true → result.2.1 = .ok () → readings (requests result.2.2) =
        (environment.walked arguments).messages.length + 1) from
    ⟨hwalk.1, (pairwise_snapshots hwalk.1.suits).1, hwalk.2⟩
  have hbounds := exec_bounds_traced environment arguments timeSnowflake
  have hresult : result = consume environment.serveTraced consumer.use
    (members rounding timeSnowflake arguments) [] := rfl
  rw [members, consume_lift_bind] at hresult
  rw [hresult]
  cases hexec : (if arguments.onProgress then resolveSnowflakeBounds timeSnowflake arguments
      else .ret (none, none)).exec environment.serveTraced [] with
  | mk outcome trace =>
  rw [hexec] at hbounds
  cases outcome with
  | error exception => exact ⟨ticks_oldest hbounds, fun _ h => by cases h⟩
  | ok bounds => exact ticks_started bounds hbounds

end Walks

end DownloaderBot.ZipPipeline
