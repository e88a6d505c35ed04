import Mathlib.Data.List.Basic

/-!
# Programs that call their environment

A program makes calls one after the other.  The environment answers a call or
raises an exception out of it, which the program may handle; in the end the
program returns a value or raises.  `Holds` is the weakest precondition under
which an invariant holds whenever the program is at a call, whatever the
environment answers, and a postcondition holds at the end.
-/

namespace DownloaderBot.Program

variable {Call : Type} {Reply : Call → Type} {Exn α β : Type}

/-- `call request next`: make a call and go on with what becomes of it. -/
inductive Prog {Call : Type} (Reply : Call → Type) (Exn α : Type)
  | ret (value : α)
  | raise (exception : Exn)
  | call (request : Call)
      (next : Except Exn (Reply request) → Prog Reply Exn α)

namespace Prog

/-- Sequencing; an exception ends the whole. -/
def bind : Prog Reply Exn α → (α → Prog Reply Exn β) → Prog Reply Exn β
  | .ret value, rest => rest value
  | .raise exception, _ => .raise exception
  | .call request next, rest =>
      .call request fun outcome => (next outcome).bind rest

theorem bind_assoc {γ : Type} (program : Prog Reply Exn α)
    (rest : α → Prog Reply Exn β) (later : β → Prog Reply Exn γ) :
    (program.bind rest).bind later =
      program.bind fun value => (rest value).bind later := by
  induction program with
  | ret value => rfl
  | raise exception => rfl
  | call request next ih => exact congrArg (Prog.call request) (funext ih)

instance : Monad (Prog Reply Exn) where
  pure := .ret
  bind := Prog.bind

/-- One call; its exception is not handled. -/
def perform (request : Call) : Prog Reply Exn (Reply request) :=
  .call request fun
    | .ok reply => .ret reply
    | .error exception => .raise exception

/-- Run a program and hand over how it ended. -/
def attempt : Prog Reply Exn α → Prog Reply Exn (Except Exn α)
  | .ret value => .ret (.ok value)
  | .raise exception => .ret (.error exception)
  | .call request next => .call request fun outcome => (next outcome).attempt

/-- End as a computation without calls has ended. -/
def ofExcept : Except Exn α → Prog Reply Exn α
  | .ok value => .ret value
  | .error exception => .raise exception

/-- `try: body except ..`: the handler runs for the exceptions that it catches. -/
def tryExcept (body : Prog Reply Exn α) (catches : Exn → Bool)
    (handler : Exn → Prog Reply Exn α) : Prog Reply Exn α :=
  body.attempt.bind fun
    | .ok value => .ret value
    | .error exception =>
        if catches exception then handler exception else .raise exception

/-- `try: body finally: cleanup`: the cleanup sees how the body ended, and its own
exception takes precedence. -/
def tryFinally (body : Prog Reply Exn α)
    (cleanup : Except Exn α → Prog Reply Exn Unit) : Prog Reply Exn α :=
  body.attempt.bind fun outcome =>
    (cleanup outcome).bind fun _ => ofExcept outcome

/-! ## Weakest preconditions -/

section Holds

variable {World : Type}
variable {serves : World → (request : Call) → Except Exn (Reply request) → World → Prop}
variable {inv : World → Prop}

/-- From `world`, with an environment that answers as `serves` says: `inv` holds
whenever the program is at a call, and `post` where it ends. -/
def Holds
    (serves : World → (request : Call) → Except Exn (Reply request) → World → Prop)
    (inv : World → Prop) :
    Prog Reply Exn α → (World → Except Exn α → Prop) → World → Prop
  | .ret value, post, world => post world (.ok value)
  | .raise exception, post, world => post world (.error exception)
  | .call request next, post, world =>
      inv world ∧ ∀ outcome after, serves world request outcome after →
        (next outcome).Holds serves inv post after

theorem Holds.mono {program : Prog Reply Exn α}
    {post weaker : World → Except Exn α → Prop} {world : World}
    (hweaker : ∀ after outcome, post after outcome → weaker after outcome)
    (hholds : program.Holds serves inv post world) :
    program.Holds serves inv weaker world := by
  induction program generalizing world with
  | ret value => exact hweaker _ _ hholds
  | raise exception => exact hweaker _ _ hholds
  | call request next ih =>
      exact ⟨hholds.1, fun outcome after hserves =>
        ih outcome (hholds.2 outcome after hserves)⟩

/-- The program is nowhere without the invariant. -/
theorem Holds.invariant {program : Prog Reply Exn α}
    {post : World → Except Exn α → Prop} {world : World}
    (hpost : ∀ after outcome, post after outcome → inv after)
    (hholds : program.Holds serves inv post world) : inv world := by
  cases program with
  | ret value => exact hpost _ _ hholds
  | raise exception => exact hpost _ _ hholds
  | call request next => exact hholds.1

theorem holds_bind {program : Prog Reply Exn α} {rest : α → Prog Reply Exn β}
    {post : World → Except Exn β → Prop} {world : World} :
    (program.bind rest).Holds serves inv post world ↔
      program.Holds serves inv (fun after outcome =>
        match outcome with
        | .ok value => (rest value).Holds serves inv post after
        | .error exception => post after (.error exception)) world := by
  induction program generalizing world with
  | ret value => exact Iff.rfl
  | raise exception => exact Iff.rfl
  | call request next ih =>
      exact and_congr Iff.rfl (forall_congr' fun outcome =>
        forall_congr' fun after => imp_congr Iff.rfl (ih outcome))

theorem holds_attempt {program : Prog Reply Exn α}
    {post : World → Except Exn (Except Exn α) → Prop} {world : World} :
    program.attempt.Holds serves inv post world ↔
      program.Holds serves inv (fun after outcome => post after (.ok outcome))
        world := by
  induction program generalizing world with
  | ret value => exact Iff.rfl
  | raise exception => exact Iff.rfl
  | call request next ih =>
      exact and_congr Iff.rfl (forall_congr' fun outcome =>
        forall_congr' fun after => imp_congr Iff.rfl (ih outcome))

theorem holds_perform {request : Call}
    {post : World → Except Exn (Reply request) → Prop} {world : World} :
    (perform request).Holds serves inv post world ↔
      inv world ∧ ∀ outcome after, serves world request outcome after →
        post after outcome := by
  refine and_congr Iff.rfl (forall_congr' fun outcome => forall_congr' fun after =>
    imp_congr Iff.rfl ?_)
  cases outcome <;> exact Iff.rfl

theorem holds_ofExcept {outcome : Except Exn α}
    {post : World → Except Exn α → Prop} {world : World} :
    (ofExcept outcome : Prog Reply Exn α).Holds serves inv post world ↔
      post world outcome := by
  cases outcome <;> exact Iff.rfl

/-- A handled body: the handler runs where the body raised what it catches. -/
theorem holds_tryExcept {body : Prog Reply Exn α} {catches : Exn → Bool}
    {handler : Exn → Prog Reply Exn α} {post : World → Except Exn α → Prop}
    {world : World}
    (hbody : body.Holds serves inv (fun after outcome =>
      match outcome with
      | .ok value => post after (.ok value)
      | .error exception =>
          if catches exception then (handler exception).Holds serves inv post after
          else post after (.error exception)) world) :
    (body.tryExcept catches handler).Holds serves inv post world := by
  refine holds_bind.mpr (holds_attempt.mpr (hbody.mono ?_))
  intro after outcome houtcome
  cases outcome with
  | ok value => exact houtcome
  | error exception =>
      dsimp only at houtcome ⊢
      split
      case isTrue hcatches =>
        rw [if_pos hcatches] at houtcome
        exact houtcome
      case isFalse hcatches =>
        rw [if_neg hcatches] at houtcome
        exact houtcome

/-- A body with a cleanup: the outcome of the body survives a cleanup that
returns. -/
theorem holds_tryFinally {body : Prog Reply Exn α}
    {cleanup : Except Exn α → Prog Reply Exn Unit}
    {post : World → Except Exn α → Prop} {world : World}
    (hbody : body.Holds serves inv (fun after outcome =>
      (cleanup outcome).Holds serves inv (fun later cleaned =>
        match cleaned with
        | .ok _ => post later outcome
        | .error exception => post later (.error exception)) after) world) :
    (body.tryFinally cleanup).Holds serves inv post world := by
  refine holds_bind.mpr (holds_attempt.mpr (hbody.mono ?_))
  intro after outcome houtcome
  refine holds_bind.mpr (houtcome.mono ?_)
  intro later cleaned hcleaned
  cases cleaned with
  | ok _ => exact holds_ofExcept.mpr hcleaned
  | error exception => exact hcleaned

/-! What holds wherever a program ends is kept by handlers and cleanups that keep
it. -/

theorem holds_tryExcept_always (always : World → Prop)
    {body : Prog Reply Exn α} {catches : Exn → Bool}
    {handler : Exn → Prog Reply Exn α} {world : World}
    (hbody : body.Holds serves inv (fun after _ => always after) world)
    (hhandler : ∀ exception after, always after →
      (handler exception).Holds serves inv (fun later _ => always later) after) :
    (body.tryExcept catches handler).Holds serves inv (fun after _ => always after)
      world := by
  refine holds_tryExcept (hbody.mono ?_)
  intro after outcome halways
  cases outcome with
  | ok value => exact halways
  | error exception =>
      dsimp only
      split
      · exact hhandler exception after halways
      · exact halways

theorem holds_tryFinally_always (always : World → Prop)
    {body : Prog Reply Exn α} {cleanup : Except Exn α → Prog Reply Exn Unit}
    {world : World}
    (hbody : body.Holds serves inv (fun after _ => always after) world)
    (hcleanup : ∀ outcome after, always after →
      (cleanup outcome).Holds serves inv (fun later _ => always later) after) :
    (body.tryFinally cleanup).Holds serves inv (fun after _ => always after)
      world := by
  refine holds_tryFinally (hbody.mono ?_)
  intro after outcome halways
  refine (hcleanup outcome after halways).mono ?_
  intro later cleaned hlater
  cases cleaned <;> exact hlater

end Holds

/-! ## Runs -/

section Run

variable {answer : (request : Call) → Except Exn (Reply request)}

/-- The calls a program makes and how it ends, where every call is answered as told. -/
def run (answer : (request : Call) → Except Exn (Reply request)) :
    Prog Reply Exn α → List Call × Except Exn α
  | .ret value => ([], .ok value)
  | .raise exception => ([], .error exception)
  | .call request next =>
      let rest := (next (answer request)).run answer
      (request :: rest.1, rest.2)

theorem run_bind_of_ok {program : Prog Reply Exn α} {rest : α → Prog Reply Exn β}
    {calls : List Call} {value : α} (hrun : program.run answer = (calls, .ok value)) :
    (program.bind rest).run answer =
      (calls ++ ((rest value).run answer).1, ((rest value).run answer).2) := by
  induction program generalizing calls with
  | ret other =>
      cases hrun
      rfl
  | raise exception => cases hrun
  | call request next ih =>
      obtain ⟨rfl, hrest⟩ := Prod.mk.inj hrun
      have hnext := ih (answer request) (Prod.ext rfl hrest)
      simp [bind, run, hnext]

/-- What a sequence calls, the one part or the other calls. -/
theorem mem_run_bind {program : Prog Reply Exn α} {rest : α → Prog Reply Exn β}
    {request : Call} (hrequest : request ∈ ((program.bind rest).run answer).1) :
    request ∈ (program.run answer).1 ∨
      ∃ value, (program.run answer).2 = .ok value ∧
        request ∈ ((rest value).run answer).1 := by
  induction program with
  | ret value => exact .inr ⟨value, rfl, hrequest⟩
  | raise exception => cases hrequest
  | call first next ih =>
      rcases List.mem_cons.mp hrequest with rfl | hlater
      · exact .inl List.mem_cons_self
      · exact (ih (answer first) hlater).imp_left (List.mem_cons_of_mem first)

theorem run_perform_of_ok {request : Call} {reply : Reply request}
    (hanswer : answer request = .ok reply) :
    (perform request : Prog Reply Exn _).run answer = ([request], .ok reply) := by
  simp [perform, run, hanswer]

end Run

/-! ## Execution on a state -/

section Exec

variable {World : Type}
variable {serve : World → (request : Call) → Except Exn (Reply request) × World}
variable {world after : World}

/-- How a program ends, and in which state, where every call is served in turn. -/
def exec (serve : World → (request : Call) → Except Exn (Reply request) × World) :
    Prog Reply Exn α → World → Except Exn α × World
  | .ret value, world => (.ok value, world)
  | .raise exception, world => (.error exception, world)
  | .call request next, world =>
      (next (serve world request).1).exec serve (serve world request).2

theorem exec_bind (program : Prog Reply Exn α) (rest : α → Prog Reply Exn β)
    (world : World) :
    (program.bind rest).exec serve world =
      match program.exec serve world with
      | (.ok value, after) => (rest value).exec serve after
      | (.error exception, after) => (.error exception, after) := by
  induction program generalizing world with
  | ret value => rfl
  | raise exception => rfl
  | call request next ih => exact ih _ _

theorem exec_bind_of_ok {program : Prog Reply Exn α} {rest : α → Prog Reply Exn β}
    {value : α} (hexec : program.exec serve world = (.ok value, after)) :
    (program.bind rest).exec serve world = (rest value).exec serve after := by
  rw [exec_bind, hexec]

theorem exec_bind_of_error {program : Prog Reply Exn α} {rest : α → Prog Reply Exn β}
    {exception : Exn} (hexec : program.exec serve world = (.error exception, after)) :
    (program.bind rest).exec serve world = (.error exception, after) := by
  rw [exec_bind, hexec]

/-- A sequence that returns is two parts that do. -/
theorem exec_bind_eq_ok {program : Prog Reply Exn α} {rest : α → Prog Reply Exn β}
    {value : β} {last : World} :
    (program.bind rest).exec serve world = (.ok value, last) ↔
      ∃ first after, program.exec serve world = (.ok first, after) ∧
        (rest first).exec serve after = (.ok value, last) := by
  rw [exec_bind]
  constructor
  · intro hexec
    cases hprogram : program.exec serve world with
    | mk outcome after =>
        rw [hprogram] at hexec
        cases outcome with
        | ok first => exact ⟨first, after, rfl, hexec⟩
        | error exception => cases hexec
  · rintro ⟨first, after, hprogram, hrest⟩
    rw [hprogram]
    exact hrest

theorem exec_perform (request : Call) (world : World) :
    (perform request : Prog Reply Exn _).exec serve world = serve world request := by
  cases hserve : serve world request with
  | mk outcome after => cases outcome <;> simp [perform, exec, hserve]

theorem exec_attempt (program : Prog Reply Exn α) (world : World) :
    program.attempt.exec serve world =
      (.ok (program.exec serve world).1, (program.exec serve world).2) := by
  induction program generalizing world with
  | ret value => rfl
  | raise exception => rfl
  | call request next ih => exact ih _ _

theorem exec_ofExcept (outcome : Except Exn α) (world : World) :
    (ofExcept outcome : Prog Reply Exn α).exec serve world = (outcome, world) := by
  cases outcome <;> rfl

theorem exec_tryExcept_of_ok {body : Prog Reply Exn α} {catches : Exn → Bool}
    {handler : Exn → Prog Reply Exn α} {value : α}
    (hexec : body.exec serve world = (.ok value, after)) :
    (body.tryExcept catches handler).exec serve world = (.ok value, after) := by
  rw [tryExcept, exec_bind, exec_attempt, hexec]
  rfl

theorem exec_tryExcept_of_error {body : Prog Reply Exn α} {catches : Exn → Bool}
    {handler : Exn → Prog Reply Exn α} {exception : Exn}
    (hexec : body.exec serve world = (.error exception, after))
    (hcatches : catches exception = true) :
    (body.tryExcept catches handler).exec serve world =
      (handler exception).exec serve after := by
  rw [tryExcept, exec_bind, exec_attempt, hexec]
  simp only [hcatches, if_true]

theorem exec_tryExcept_of_uncaught {body : Prog Reply Exn α} {catches : Exn → Bool}
    {handler : Exn → Prog Reply Exn α} {exception : Exn}
    (hexec : body.exec serve world = (.error exception, after))
    (hcatches : catches exception = false) :
    (body.tryExcept catches handler).exec serve world = (.error exception, after) := by
  rw [tryExcept, exec_bind, exec_attempt, hexec]
  simp only [hcatches, Bool.false_eq_true, if_false]
  rfl

/-- A handled body returns, or its handler does. -/
theorem of_exec_tryExcept_eq_ok {body : Prog Reply Exn α} {catches : Exn → Bool}
    {handler : Exn → Prog Reply Exn α} {value : α} {last : World}
    (hexec : (body.tryExcept catches handler).exec serve world = (.ok value, last)) :
    body.exec serve world = (.ok value, last) ∨
      ∃ exception after, body.exec serve world = (.error exception, after) ∧
        catches exception = true ∧
        (handler exception).exec serve after = (.ok value, last) := by
  cases hbody : body.exec serve world with
  | mk outcome after =>
      cases outcome with
      | ok found =>
          left
          exact (exec_tryExcept_of_ok hbody).symm.trans hexec
      | error exception =>
          right
          cases hcatches : catches exception with
          | true =>
              exact ⟨exception, after, rfl, hcatches,
                (exec_tryExcept_of_error hbody hcatches).symm.trans hexec⟩
          | false => cases (exec_tryExcept_of_uncaught hbody hcatches).symm.trans hexec

/-- The outcome of the body survives a cleanup that returns. -/
theorem exec_tryFinally_of_ok {body : Prog Reply Exn α}
    {cleanup : Except Exn α → Prog Reply Exn Unit} {outcome : Except Exn α} {last : World}
    (hexec : body.exec serve world = (outcome, after))
    (hcleanup : (cleanup outcome).exec serve after = (.ok (), last)) :
    (body.tryFinally cleanup).exec serve world = (outcome, last) := by
  rw [tryFinally, exec_bind, exec_attempt, hexec]
  dsimp only
  rw [exec_bind_of_ok hcleanup, exec_ofExcept]

end Exec

/-! ## What a program may call -/

section Only

variable {allowed : Call → Prop}

/-- Whatever the environment answers, the program makes only allowed calls. -/
def Only (allowed : Call → Prop) : Prog Reply Exn α → Prop
  | .ret _ => True
  | .raise _ => True
  | .call request next => allowed request ∧ ∀ outcome, (next outcome).Only allowed

theorem Only.bind {program : Prog Reply Exn α} {rest : α → Prog Reply Exn β}
    (hprogram : program.Only allowed) (hrest : ∀ value, (rest value).Only allowed) :
    (program.bind rest).Only allowed := by
  induction program with
  | ret value => exact hrest value
  | raise exception => trivial
  | call request next ih =>
      exact ⟨hprogram.1, fun outcome => ih outcome (hprogram.2 outcome)⟩

theorem Only.mono {weaker : Call → Prop} {program : Prog Reply Exn α}
    (hprogram : program.Only allowed) (hweaker : ∀ request, allowed request → weaker request) :
    program.Only weaker := by
  induction program with
  | ret value => trivial
  | raise exception => trivial
  | call request next ih =>
      exact ⟨hweaker request hprogram.1, fun outcome => ih outcome (hprogram.2 outcome)⟩

theorem Only.attempt {program : Prog Reply Exn α} (hprogram : program.Only allowed) :
    program.attempt.Only allowed := by
  induction program with
  | ret value => trivial
  | raise exception => trivial
  | call request next ih =>
      exact ⟨hprogram.1, fun outcome => ih outcome (hprogram.2 outcome)⟩

theorem only_perform {request : Call} (hrequest : allowed request) :
    (perform request : Prog Reply Exn _).Only allowed := by
  refine ⟨hrequest, fun outcome => ?_⟩
  cases outcome <;> trivial

theorem only_ofExcept (outcome : Except Exn α) :
    (ofExcept outcome : Prog Reply Exn α).Only allowed := by
  cases outcome <;> trivial

/-- What follows a computation without calls, where that has returned. -/
theorem only_ofExcept_bind {outcome : Except Exn α} {rest : α → Prog Reply Exn β}
    (hrest : ∀ value, outcome = .ok value → (rest value).Only allowed) :
    ((ofExcept outcome : Prog Reply Exn α).bind rest).Only allowed := by
  cases outcome with
  | ok value => exact hrest value rfl
  | error exception => trivial

theorem Only.tryExcept {body : Prog Reply Exn α} {catches : Exn → Bool}
    {handler : Exn → Prog Reply Exn α} (hbody : body.Only allowed)
    (hhandler : ∀ exception, (handler exception).Only allowed) :
    (body.tryExcept catches handler).Only allowed := by
  apply hbody.attempt.bind
  intro outcome
  cases outcome with
  | ok value => trivial
  | error exception =>
      dsimp only
      split
      · exact hhandler exception
      · trivial

theorem Only.tryFinally {body : Prog Reply Exn α}
    {cleanup : Except Exn α → Prog Reply Exn Unit} (hbody : body.Only allowed)
    (hcleanup : ∀ outcome, (cleanup outcome).Only allowed) :
    (body.tryFinally cleanup).Only allowed :=
  hbody.attempt.bind fun outcome =>
    (hcleanup outcome).bind fun _ => only_ofExcept outcome

/-- The calls of a run are allowed. -/
theorem Only.of_mem_run {answer : (request : Call) → Except Exn (Reply request)}
    {program : Prog Reply Exn α} (hprogram : program.Only allowed) :
    ∀ request ∈ (program.run answer).1, allowed request := by
  induction program with
  | ret value => simp [run]
  | raise exception => simp [run]
  | call request next ih =>
      intro other hother
      rcases List.mem_cons.mp hother with rfl | hrest
      · exact hprogram.1
      · exact ih (answer request) (hprogram.2 _) other hrest

/-- A program keeps what its calls keep. -/
theorem Only.exec_invariant {World : Type}
    {serve : World → (request : Call) → Except Exn (Reply request) × World}
    {holds : World → Prop}
    (hkeep : ∀ world request, allowed request → holds world →
      holds (serve world request).2)
    {program : Prog Reply Exn α} (hprogram : program.Only allowed) {world : World}
    (hholds : holds world) : holds (program.exec serve world).2 := by
  induction program generalizing world with
  | ret value => exact hholds
  | raise exception => exact hholds
  | call request next ih =>
      exact ih _ (hprogram.2 _) (hkeep world request hprogram.1 hholds)

end Only

end Prog

end DownloaderBot.Program
