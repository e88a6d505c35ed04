import DownloaderBot.Core.Program
import DownloaderBot.Core.TransitionSystem

/-!
# Sequential attempts at one program

A program is attempted any number of times, one attempt after the other, against
a service that keeps its state in between.  A call either succeeds, with its
effect, or raises without any; an attempt may stop for good between two calls.
Everything that happens is logged.
-/

namespace DownloaderBot.Attempts

open DownloaderBot.Program
open DownloaderBot.TransitionSystem

variable {World Call : Type} {Reply : Call → Type} {Exn Result Input : Type}

/-- What the callee does: the reply to a successful call, where it is determined
by the state (else the proposed one), and the state after the call. -/
structure Service (World : Type) {Call : Type} (Reply : Call → Type) where
  answer : World → (request : Call) → Reply request → Reply request
  effect : World → Call → World

inductive Event (Call Exn Result : Type)
  | served (request : Call)
  | failed (request : Call) (exception : Exn)
  | returned (result : Result)
  | raised (exception : Exn)
  | stopped
  deriving DecidableEq, Repr

def Event.ofOutcome : Except Exn Result → Event Call Exn Result
  | .ok result => .returned result
  | .error exception => .raised exception

/-- The state of the service and what has happened: in the attempts that are
over, and in the current one. -/
structure Log (World Call Exn Result : Type) where
  world : World
  past : List (List (Event Call Exn Result))
  current : List (Event Call Exn Result)

namespace Log

variable (log : Log World Call Exn Result)

/-- Everything that has happened, in order. -/
def trace : List (Event Call Exn Result) := log.past.flatten ++ log.current

def record (event : Event Call Exn Result) : Log World Call Exn Result :=
  { log with current := log.current ++ [event] }

/-- The current attempt is over. -/
def close (event : Event Call Exn Result) : Log World Call Exn Result :=
  { log with past := log.past ++ [log.current ++ [event]], current := [] }

/-- A call has succeeded. -/
def serve (service : Service World Reply) (request : Call) :
    Log World Call Exn Result :=
  { log with
    world := service.effect log.world request
    current := log.current ++ [.served request] }

@[simp]
theorem trace_record (event : Event Call Exn Result) :
    (log.record event).trace = log.trace ++ [event] := by
  simp [trace, record]

@[simp]
theorem trace_close (event : Event Call Exn Result) :
    (log.close event).trace = log.trace ++ [event] := by
  simp [trace, close]

@[simp]
theorem trace_serve (service : Service World Reply) (request : Call) :
    (log.serve service request).trace = log.trace ++ [.served request] := by
  simp [trace, serve]

end Log

/-- What may become of a call. -/
def Serves (service : Service World Reply) (log : Log World Call Exn Result)
    (request : Call) (outcome : Except Exn (Reply request))
    (after : Log World Call Exn Result) : Prop :=
  match outcome with
  | .ok reply =>
      (∃ proposed, reply = service.answer log.world request proposed) ∧
        after = log.serve service request
  | .error exception => after = log.record (.failed request exception)

structure State (World : Type) {Call : Type} (Reply : Call → Type)
    (Exn Result : Type) where
  log : Log World Call Exn Result
  /-- What is left of the current attempt. -/
  running : Option (Prog Reply Exn Result)

/-- The call the current attempt is at. -/
def State.pending (state : State World Reply Exn Result) : Option Call :=
  match state.running with
  | some (.call request _) => some request
  | _ => none

inductive Label {Call : Type} (Reply : Call → Type) (Exn Input : Type)
  | begin (input : Input)
  | succeed (proposed : (request : Call) → Reply request)
  | fail (exception : Exn)
  | finish
  | stop

/-- One step of the current attempt, or the start of the next. -/
def step (service : Service World Reply)
    (program : Input → Prog Reply Exn Result)
    (state : State World Reply Exn Result) :
    Label Reply Exn Input → Option (State World Reply Exn Result)
  | .begin input =>
      match state.running with
      | none => some ⟨state.log, some (program input)⟩
      | some _ => none
  | .succeed proposed =>
      match state.running with
      | some (.call request next) =>
          some ⟨state.log.serve service request,
            some (next (.ok (service.answer state.log.world request
              (proposed request))))⟩
      | _ => none
  | .fail exception =>
      match state.running with
      | some (.call request next) =>
          some ⟨state.log.record (.failed request exception),
            some (next (.error exception))⟩
      | _ => none
  | .finish =>
      match state.running with
      | some (.ret result) => some ⟨state.log.close (.returned result), none⟩
      | some (.raise exception) => some ⟨state.log.close (.raised exception), none⟩
      | _ => none
  | .stop =>
      match state.running with
      | some _ => some ⟨state.log.close .stopped, none⟩
      | none => none

def start (world : World) : State World Reply Exn Result := ⟨⟨world, [], []⟩, none⟩

section Steps

variable {service : Service World Reply} {program : Input → Prog Reply Exn Result}
variable {state next : State World Reply Exn Result}

theorem log_of_begin {input : Input}
    (hstep : step service program state (.begin input) = some next) :
    next.log = state.log := by
  obtain ⟨log, running⟩ := state
  cases running with
  | none =>
      cases hstep
      rfl
  | some _ => cases hstep

/-- What succeeds is the pending call. -/
theorem log_of_succeed {proposed : (request : Call) → Reply request}
    (hstep : step service program state (.succeed proposed) = some next) :
    ∃ request, state.pending = some request ∧
      next.log = state.log.serve service request := by
  obtain ⟨log, running⟩ := state
  match running with
  | some (.call request _) =>
      cases hstep
      exact ⟨request, rfl, rfl⟩
  | some (.ret _) | some (.raise _) | none => cases hstep

/-- What fails is the pending call. -/
theorem log_of_fail {exception : Exn}
    (hstep : step service program state (.fail exception) = some next) :
    ∃ request, state.pending = some request ∧
      next.log = state.log.record (.failed request exception) := by
  obtain ⟨log, running⟩ := state
  match running with
  | some (.call request _) =>
      cases hstep
      exact ⟨request, rfl, rfl⟩
  | some (.ret _) | some (.raise _) | none => cases hstep

theorem log_of_finish (hstep : step service program state .finish = some next) :
    ∃ outcome, next.log = state.log.close (.ofOutcome outcome) := by
  obtain ⟨log, running⟩ := state
  match running with
  | some (.ret result) =>
      cases hstep
      exact ⟨.ok result, rfl⟩
  | some (.raise exception) =>
      cases hstep
      exact ⟨.error exception, rfl⟩
  | some (.call ..) | none => cases hstep

theorem log_of_stop (hstep : step service program state .stop = some next) :
    next.log = state.log.close .stopped := by
  obtain ⟨log, running⟩ := state
  cases running with
  | none => cases hstep
  | some _ =>
      cases hstep
      rfl

theorem running_of_begin {input : Input}
    (hstep : step service program state (.begin input) = some next) :
    next.running = some (program input) := by
  obtain ⟨log, running⟩ := state
  cases running with
  | none =>
      cases hstep
      rfl
  | some _ => cases hstep

/-- A call that succeeds or raises leaves what the attempt goes on with. -/
theorem running_of_succeed {proposed : (request : Call) → Reply request}
    (hstep : step service program state (.succeed proposed) = some next) :
    ∃ request rest reply, state.running = some (.call request rest) ∧
      next.running = some (rest (.ok reply)) := by
  obtain ⟨log, running⟩ := state
  match running with
  | some (.call request rest) =>
      cases hstep
      exact ⟨request, rest, _, rfl, rfl⟩
  | some (.ret _) | some (.raise _) | none => cases hstep

theorem running_of_fail {exception : Exn}
    (hstep : step service program state (.fail exception) = some next) :
    ∃ request rest, state.running = some (.call request rest) ∧
      next.running = some (rest (.error exception)) := by
  obtain ⟨log, running⟩ := state
  match running with
  | some (.call request rest) =>
      cases hstep
      exact ⟨request, rest, rfl, rfl⟩
  | some (.ret _) | some (.raise _) | none => cases hstep

/-- After its end no attempt is under way. -/
theorem running_of_finish (hstep : step service program state .finish = some next) :
    next.running = none := by
  obtain ⟨log, running⟩ := state
  match running with
  | some (.ret _) | some (.raise _) =>
      cases hstep
      rfl
  | some (.call ..) | none => cases hstep

theorem running_of_stop (hstep : step service program state .stop = some next) :
    next.running = none := by
  obtain ⟨log, running⟩ := state
  cases running with
  | none => cases hstep
  | some _ =>
      cases hstep
      rfl

/-- What has happened stays in the trace. -/
theorem trace_prefix_of_step {label : Label Reply Exn Input}
    (hstep : step service program state label = some next) :
    state.log.trace <+: next.log.trace := by
  cases label with
  | begin input => simp [log_of_begin hstep]
  | succeed proposed =>
      obtain ⟨request, -, hlog⟩ := log_of_succeed hstep
      simp [hlog]
  | fail exception =>
      obtain ⟨request, -, hlog⟩ := log_of_fail hstep
      simp [hlog]
  | finish =>
      obtain ⟨outcome, hlog⟩ := log_of_finish hstep
      simp [hlog]
  | stop => simp [log_of_stop hstep]

end Steps

/-! ## The invariant rule -/

/-- Every attempt keeps `good`, from its start to whatever end. -/
structure Keeps (service : Service World Reply)
    (program : Input → Prog Reply Exn Result)
    (good : Log World Call Exn Result → Prop)
    (post : Log World Call Exn Result → Except Exn Result → Prop) : Prop where
  begins : ∀ log input, good log → log.current = [] →
    (program input).Holds (Serves service) good post log
  good_of_post : ∀ log outcome, post log outcome → good log
  ends : ∀ log outcome, post log outcome → good (log.close (.ofOutcome outcome))
  stops : ∀ log, good log → good (log.close .stopped)

section Keeps

variable {service : Service World Reply} {program : Input → Prog Reply Exn Result}
variable {good : Log World Call Exn Result → Prop}
variable {post : Log World Call Exn Result → Except Exn Result → Prop}

/-- The log is good, and what is left of the current attempt keeps it so. -/
def Inv (service : Service World Reply) (good : Log World Call Exn Result → Prop)
    (post : Log World Call Exn Result → Except Exn Result → Prop)
    (state : State World Reply Exn Result) : Prop :=
  good state.log ∧
    match state.running with
    | none => state.log.current = []
    | some program => program.Holds (Serves service) good post state.log

theorem inv_step (hkeeps : Keeps service program good post)
    {state next : State World Reply Exn Result} {label : Label Reply Exn Input}
    (hinv : Inv service good post state)
    (hstep : step service program state label = some next) :
    Inv service good post next := by
  obtain ⟨⟨world, past, current⟩, running⟩ := state
  obtain ⟨hgood, hrunning⟩ := hinv
  cases label with
  | begin input =>
      cases running with
      | none =>
          cases hstep
          exact ⟨hgood, hkeeps.begins _ input hgood hrunning⟩
      | some _ => cases hstep
  | succeed proposed =>
      match running with
      | some (.call request next) =>
          cases hstep
          have hnext := hrunning.2 (.ok _) _ ⟨⟨proposed request, rfl⟩, rfl⟩
          exact ⟨hnext.invariant hkeeps.good_of_post, hnext⟩
      | some (.ret _) => cases hstep
      | some (.raise _) => cases hstep
      | none => cases hstep
  | fail exception =>
      match running with
      | some (.call request next) =>
          cases hstep
          have hnext := hrunning.2 (.error exception) _ rfl
          exact ⟨hnext.invariant hkeeps.good_of_post, hnext⟩
      | some (.ret _) => cases hstep
      | some (.raise _) => cases hstep
      | none => cases hstep
  | finish =>
      match running with
      | some (.ret result) =>
          cases hstep
          exact ⟨hkeeps.ends _ (.ok result) hrunning, rfl⟩
      | some (.raise exception) =>
          cases hstep
          exact ⟨hkeeps.ends _ (.error exception) hrunning, rfl⟩
      | some (.call ..) => cases hstep
      | none => cases hstep
  | stop =>
      cases running with
      | none => cases hstep
      | some _ =>
          cases hstep
          exact ⟨hkeeps.stops _ hgood, rfl⟩

/-- What every attempt keeps holds in every state of every run. -/
theorem good_of_reaches (hkeeps : Keeps service program good post) {world : World}
    (hgood : good ⟨world, [], []⟩) {state : State World Reply Exn Result}
    (hrun : Reaches (step service program) unrestricted (start world) state) :
    good state.log := by
  have hinv : Inv service good post state :=
    hrun.invariant ⟨hgood, rfl⟩ fun _ _ _ hinv _ hstep => inv_step hkeeps hinv hstep
  exact hinv.1

end Keeps

/-! ## The attempt under way -/

/-- The log of an attempt, and whether all its calls have come to outcomes that are
allowed. -/
structure Judged (World Call Exn Result : Type) where
  log : Log World Call Exn Result
  intact : Prop

section Judged

variable {service : Service World Reply} {program : Input → Prog Reply Exn Result}
variable {allowed : Log World Call Exn Result → (request : Call) →
  Except Exn (Reply request) → Prop}
variable {inv : Judged World Call Exn Result → Prop}
variable {post : Judged World Call Exn Result → Except Exn Result → Prop}

/-- What may become of a call, and whether that is allowed. -/
def ServesJudged (service : Service World Reply)
    (allowed : Log World Call Exn Result → (request : Call) →
      Except Exn (Reply request) → Prop)
    (world : Judged World Call Exn Result) (request : Call)
    (outcome : Except Exn (Reply request)) (after : Judged World Call Exn Result) : Prop :=
  Serves service world.log request outcome after.log ∧
    (after.intact ↔ world.intact ∧ allowed world.log request outcome)

/-- Nothing that follows mends an outcome that was not allowed. -/
theorem holds_of_not_intact {α : Type} (body : Prog Reply Exn α)
    {world : Judged World Call Exn Result} (hspoilt : ¬ world.intact) :
    body.Holds (ServesJudged service allowed) (fun _ => True)
      (fun after _ => ¬ after.intact) world := by
  induction body generalizing world with
  | ret value => exact hspoilt
  | raise exception => exact hspoilt
  | call request next ih =>
      refine ⟨trivial, fun outcome after hserves => ih outcome fun hafter => ?_⟩
      exact hspoilt (hserves.2.mp hafter).1

/-- The pending call comes to an outcome that is allowed. -/
def Meets (service : Service World Reply)
    (allowed : Log World Call Exn Result → (request : Call) →
      Except Exn (Reply request) → Prop)
    (state : State World Reply Exn Result) : Label Reply Exn Input → Prop
  | .succeed proposed => ∀ request ∈ state.pending,
      allowed state.log request (.ok (service.answer state.log.world request
        (proposed request)))
  | .fail exception => ∀ request ∈ state.pending, allowed state.log request (.error exception)
  | .begin _ | .finish | .stop => False

/-- The pending call comes to some outcome. -/
def GoesOn (_ : State World Reply Exn Result) : Label Reply Exn Input → Prop
  | .succeed _ | .fail _ => True
  | .begin _ | .finish | .stop => False

/-- An attempt is under way, and what is left of it holds. -/
def UnderWay (service : Service World Reply)
    (allowed : Log World Call Exn Result → (request : Call) →
      Except Exn (Reply request) → Prop)
    (inv : Judged World Call Exn Result → Prop)
    (post : Judged World Call Exn Result → Except Exn Result → Prop)
    (state : State World Reply Exn Result) (intact : Prop) : Prop :=
  ∃ rest, state.running = some rest ∧
    rest.Holds (ServesJudged service allowed) inv post ⟨state.log, intact⟩

theorem UnderWay.of_step {state next : State World Reply Exn Result} {intact : Prop}
    {label : Label Reply Exn Input}
    (hunderway : UnderWay service allowed inv post state intact) (hgoes : GoesOn state label)
    (hstep : step service program state label = some next) :
    UnderWay service allowed inv post next (intact ∧ Meets service allowed state label) := by
  obtain ⟨log, running⟩ := state
  obtain ⟨rest, rfl, hrest⟩ := hunderway
  cases label with
  | begin | finish | stop => exact hgoes.elim
  | succeed proposed =>
      match rest with
      | .call request later =>
          cases hstep
          refine ⟨_, rfl, hrest.2 _ _ ⟨⟨⟨proposed request, rfl⟩, rfl⟩, and_congr_right' ?_⟩⟩
          simp [Meets, State.pending]
      | .ret _ | .raise _ => cases hstep
  | fail exception =>
      match rest with
      | .call request later =>
          cases hstep
          refine ⟨_, rfl, hrest.2 (.error exception) _ ⟨rfl, and_congr_right' ?_⟩⟩
          simp [Meets, State.pending]
      | .ret _ | .raise _ => cases hstep

/-- An attempt that is through with its calls has ended as the postcondition says. -/
theorem UnderWay.ended {state : State World Reply Exn Result} {intact : Prop}
    (hunderway : UnderWay service allowed inv post state intact)
    (hthrough : state.pending = none) :
    ∃ outcome, state.running = some (.ofExcept outcome) ∧ post ⟨state.log, intact⟩ outcome := by
  obtain ⟨rest, hrest, hholds⟩ := hunderway
  cases rest with
  | ret result => exact ⟨.ok result, hrest, hholds⟩
  | raise exception => exact ⟨.error exception, hrest, hholds⟩
  | call request later => simp [State.pending, hrest] at hthrough

/-- The judgement of an attempt is that of the run it has made. -/
theorem UnderWay.of_reaches {first last : State World Reply Exn Result}
    (hfirst : UnderWay service allowed inv post first True)
    (hrun : Reaches (step service program) GoesOn first last) :
    ∃ intact, UnderWay service allowed inv post last intact ∧
      (intact → Reaches (step service program) (Meets service allowed) first last) := by
  induction hrun with
  | refl => exact ⟨True, hfirst, fun _ => .refl⟩
  | tail label _ hgoes hstep ih =>
      obtain ⟨intact, hunderway, hallowed⟩ := ih
      exact ⟨_, hunderway.of_step hgoes hstep,
        fun ⟨hintact, hmeets⟩ => (hallowed hintact).tail label hmeets hstep⟩

theorem UnderWay.of_meets {first last : State World Reply Exn Result}
    (hfirst : UnderWay service allowed inv post first True)
    (hrun : Reaches (step service program) (Meets service allowed) first last) :
    UnderWay service allowed inv post last True := by
  induction hrun with
  | refl => exact hfirst
  | @tail middle _ label _ hmeets hstep ih =>
      have hgoes : GoesOn middle label := by
        cases label with
        | begin | finish | stop => exact hmeets
        | succeed | fail => trivial
      have hnext := ih.of_step hgoes hstep
      rwa [eq_true hmeets, and_true] at hnext

end Judged

end DownloaderBot.Attempts
