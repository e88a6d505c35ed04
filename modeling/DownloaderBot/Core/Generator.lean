import DownloaderBot.Core.Program

/-!
# Generators

The body of a generator is a program that, besides calling its environment,
yields items to its consumer.  A yield returns when the consumer asks for the
next item, and raises when the consumer closes the generator there, so that the
cleanups of the body run.  A generator that was never started has no body to
clean up.
-/

namespace DownloaderBot.Generator

open DownloaderBot.Program

variable {Call : Type} {Reply : Call → Type} {Exn Item α β : Type}

/-! ## Bodies -/

inductive Op (Call Item : Type)
  | call (request : Call)
  | yield (item : Item)

abbrev OpReply (Reply : Call → Type) (Item : Type) : Op Call Item → Type
  | .call request => Reply request
  | .yield _ => Unit

abbrev Body {Call : Type} (Reply : Call → Type) (Exn Item α : Type) :=
  Prog (OpReply Reply Item) Exn α

/-- A program as a part of a body. -/
def lift : Prog Reply Exn α → Body Reply Exn Item α
  | .ret value => .ret value
  | .raise exception => .raise exception
  | .call request next => .call (.call request) fun outcome => lift (next outcome)

def yield (item : Item) : Body Reply Exn Item Unit :=
  .call (.yield item) Prog.ofExcept

/-! ## Generator objects -/

/-- What is left of a body at a yield: it goes on with what becomes of the yield. -/
abbrev Resume {Call : Type} (Reply : Call → Type) (Exn Item : Type) :=
  Except Exn Unit → Body Reply Exn Item Unit

inductive Gen {Call : Type} (Reply : Call → Type) (Exn Item : Type)
  | unstarted (body : Body Reply Exn Item Unit)
  | suspended (resume : Resume Reply Exn Item)
  | finished

/-- Run a body to its next yield, `none` when it returns before. -/
def advance :
    Body Reply Exn Item Unit → Prog Reply Exn (Option (Item × Resume Reply Exn Item))
  | .ret _ => .ret none
  | .raise exception => .raise exception
  | .call (.call request) next => .call request fun outcome => advance (next outcome)
  | .call (.yield item) next => .ret (some (item, next))

/-- `async for item in body: yield item`.  Closing the loop at its yield does not close
the body. -/
def forward : Body Reply Exn Item Unit → Body Reply Exn Item Unit
  | .ret value => .ret value
  | .raise exception => .raise exception
  | .call (.call request) next => .call (.call request) fun outcome => forward (next outcome)
  | .call (.yield item) next => .call (.yield item) fun
      | .ok () => forward (next (.ok ()))
      | .error exception => .raise exception

namespace Gen

/-- `__anext__`.  The generator is then suspended at the yield, or finished. -/
def next : Gen Reply Exn Item → Prog Reply Exn (Option (Item × Resume Reply Exn Item))
  | .unstarted body => advance body
  | .suspended resume => advance (resume (.ok ()))
  | .finished => .ret none

/-- `aclose`, which throws `exit` in at the yield; a body that yields again has
ignored it. -/
def close [DecidableEq Exn] (exit ignored : Exn) :
    Gen Reply Exn Item → Prog Reply Exn Unit
  | .unstarted _ => .ret ()
  | .suspended resume => (advance (resume (.error exit))).attempt.bind fun
      | .ok none => .ret ()
      | .ok (some _) => .raise ignored
      | .error exception => if exception = exit then .ret () else .raise exception
  | .finished => .ret ()

end Gen

/-! ## Consumption to the end -/

section Consume

variable {World : Type}
variable (serve : World → (request : Call) → Except Exn (Reply request) × World)
variable (use : Item → World → Except Exn Unit × World)

/-- `async for item in body: use item`: the items in order, how it ends and in which
state. -/
def consume : Body Reply Exn Item α → World → List Item × Except Exn α × World
  | .ret value, world => ([], .ok value, world)
  | .raise exception, world => ([], .error exception, world)
  | .call (.call request) next, world =>
      consume (next (serve world request).1) (serve world request).2
  | .call (.yield item) next, world =>
      match use item world with
      | (.ok (), after) =>
          let rest := consume (next (.ok ())) after
          (item :: rest.1, rest.2)
      | (.error exception, after) => ([item], .error exception, after)

/-- Take the items and do nothing with them. -/
def keep : Item → World → Except Exn Unit × World := fun _ world => (.ok (), world)

variable {serve use} {world after : World}

/-- Consumption asks for the next item until there is none. -/
theorem consume_eq_advance (body : Body Reply Exn Item Unit) (world : World) :
    consume serve use body world =
      match (advance body).exec serve world with
      | (.ok none, after) => ([], .ok (), after)
      | (.error exception, after) => ([], .error exception, after)
      | (.ok (some (item, resume)), after) =>
          match use item after with
          | (.error exception, last) => ([item], .error exception, last)
          | (.ok (), last) =>
              let rest := consume serve use (resume (.ok ())) last
              (item :: rest.1, rest.2) := by
  induction body generalizing world with
  | ret value => rfl
  | raise exception => rfl
  | call op next ih =>
      cases op with
      | call request => exact ih _ _
      | yield item =>
          simp only [consume, advance, Prog.exec]
          split <;> rename_i heq <;> rw [heq]

theorem consume_bind (body : Body Reply Exn Item α)
    (rest : α → Body Reply Exn Item β) (world : World) :
    consume serve use (body.bind rest) world =
      match consume serve use body world with
      | (items, .ok value, after) =>
          let later := consume serve use (rest value) after
          (items ++ later.1, later.2)
      | (items, .error exception, after) => (items, .error exception, after) := by
  induction body generalizing world with
  | ret value => rfl
  | raise exception => rfl
  | call op next ih =>
      cases op with
      | call request => exact ih _ _
      | yield item =>
          simp only [Prog.bind, consume]
          cases huse : use item world with
          | mk outcome after =>
              cases outcome with
              | error exception => rfl
              | ok _ =>
                  dsimp only
                  rw [ih]
                  rcases consume serve use (next (.ok ())) after with ⟨items, value | _, last⟩ <;>
                    rfl

/-- A last part without calls and items leaves the state as it is. -/
theorem consume_bind_state {body : Body Reply Exn Item α}
    {rest : α → Body Reply Exn Item β}
    (hrest : ∀ value after, (consume serve use (rest value) after).2.2 = after)
    (world : World) :
    (consume serve use (body.bind rest) world).2.2 = (consume serve use body world).2.2 := by
  rw [consume_bind]
  rcases consume serve use body world with ⟨items, _ | value, after⟩
  · rfl
  · exact hrest value after

theorem consume_lift (program : Prog Reply Exn α) (world : World) :
    consume serve use (lift program) world = ([], program.exec serve world) := by
  induction program generalizing world with
  | ret value => rfl
  | raise exception => rfl
  | call request next ih => exact ih _ _

theorem consume_yield_bind (item : Item) (rest : Unit → Body Reply Exn Item α)
    (world : World) :
    consume serve use ((yield item).bind rest) world =
      match use item world with
      | (.ok (), after) =>
          let later := consume serve use (rest ()) after
          (item :: later.1, later.2)
      | (.error exception, after) => ([item], .error exception, after) := rfl

/-- A part without yields, and what comes after it. -/
theorem consume_lift_bind (program : Prog Reply Exn α)
    (rest : α → Body Reply Exn Item β) (world : World) :
    consume serve use ((lift program).bind rest) world =
      match program.exec serve world with
      | (.ok value, after) => consume serve use (rest value) after
      | (.error exception, after) => ([], .error exception, after) := by
  rw [consume_bind, consume_lift]
  rcases program.exec serve world with ⟨_ | value, after⟩ <;> rfl

/-- A consumer does not notice that the items are passed on. -/
theorem consume_forward (body : Body Reply Exn Item Unit) (world : World) :
    consume serve use (forward body) world = consume serve use body world := by
  induction body generalizing world with
  | ret value => rfl
  | raise exception => rfl
  | call op next ih =>
      cases op with
      | call request => exact ih _ _
      | yield item => simp only [forward, consume, ih]

/-- A consumer that only takes the items does not notice that the outcome is held back. -/
theorem consume_attempt (body : Body Reply Exn Item α) (world : World) :
    consume serve keep body.attempt world =
      ((consume serve keep body world).1, .ok (consume serve keep body world).2.1,
        (consume serve keep body world).2.2) := by
  induction body generalizing world with
  | ret value => rfl
  | raise exception => rfl
  | call op next ih =>
      cases op with
      | call request => exact ih _ _
      | yield item => simp only [Prog.attempt, consume, keep, ih]

end Consume

/-! ## Bodies without cleanups -/

section Uncleaned

/-- At every yield, what is thrown in ends the body at once. -/
def Uncleaned : Body Reply Exn Item α → Prop
  | .ret _ => True
  | .raise _ => True
  | .call (.call _) next => ∀ outcome, Uncleaned (next outcome)
  | .call (.yield _) next =>
      (∀ exception, next (.error exception) = .raise exception) ∧ Uncleaned (next (.ok ()))

theorem Uncleaned.bind {body : Body Reply Exn Item α} {rest : α → Body Reply Exn Item β}
    (hbody : Uncleaned body) (hrest : ∀ value, Uncleaned (rest value)) :
    Uncleaned (body.bind rest) := by
  induction body with
  | ret value => exact hrest value
  | raise exception => trivial
  | call op next ih =>
      cases op with
      | call request => exact fun outcome => ih outcome (hbody outcome)
      | yield item =>
          exact ⟨fun exception => congrArg (Prog.bind · rest) (hbody.1 exception),
            ih _ hbody.2⟩

theorem uncleaned_lift (program : Prog Reply Exn α) :
    Uncleaned (lift program : Body Reply Exn Item α) := by
  induction program with
  | ret value => trivial
  | raise exception => trivial
  | call request next ih => exact ih

theorem uncleaned_yield (item : Item) :
    Uncleaned (yield item : Body Reply Exn Item Unit) :=
  ⟨fun _ => rfl, trivial⟩

theorem uncleaned_forward (body : Body Reply Exn Item Unit) : Uncleaned (forward body) := by
  induction body with
  | ret value => trivial
  | raise exception => trivial
  | call op next ih =>
      cases op with
      | call request => exact ih
      | yield item => exact ⟨fun _ => rfl, ih (.ok ())⟩

variable {World : Type}
variable {serve : World → (request : Call) → Except Exn (Reply request) × World}

/-- What is suspended of such a body is done when it is closed. -/
theorem Uncleaned.of_advance {body : Body Reply Exn Item Unit} {item : Item}
    {resume : Resume Reply Exn Item} {world after : World} (hbody : Uncleaned body)
    (hadvance : (advance body).exec serve world = (.ok (some (item, resume)), after)) :
    (∀ exception, resume (.error exception) = .raise exception) ∧
      Uncleaned (resume (.ok ())) := by
  induction body generalizing world with
  | ret value => cases hadvance
  | raise exception => cases hadvance
  | call op next ih =>
      cases op with
      | call request => exact ih _ (hbody _) hadvance
      | yield yielded =>
          obtain ⟨rfl, rfl⟩ := Prod.mk.inj (Option.some.inj (Except.ok.inj
            (Prod.mk.inj hadvance).1))
          exact hbody

theorem Gen.close_of_uncleaned [DecidableEq Exn] {resume : Resume Reply Exn Item}
    {exit ignored : Exn} (hresume : resume (.error exit) = .raise exit) :
    (Gen.suspended resume).close exit ignored = .ret () := by
  rw [Gen.close, hresume]
  simp [advance, Prog.attempt, Prog.bind]

end Uncleaned

/-! ## What holds whatever the consumer does in between -/

section Keeps

variable {World : Type}
variable (serve : World → (request : Call) → Except Exn (Reply request) × World)
variable (hands : World → Item → Prop) (meanwhile : World → Item → World → Prop)

/-- From `world`: `hands` holds of every item that is yielded, and `post` where the body
ends, if in between the consumer takes the state along `meanwhile` only.  It may ask for
the next item or close the generator. -/
def Keeps : Body Reply Exn Item α → (World → Except Exn α → Prop) → World → Prop
  | .ret value, post, world => post world (.ok value)
  | .raise exception, post, world => post world (.error exception)
  | .call (.call request) next, post, world =>
      Keeps (next (serve world request).1) post (serve world request).2
  | .call (.yield item) next, post, world =>
      hands world item ∧ ∀ after, meanwhile world item after →
        ∀ outcome, Keeps (next outcome) post after

variable {serve hands meanwhile} {world : World}

theorem Keeps.mono {body : Body Reply Exn Item α}
    {post weaker : World → Except Exn α → Prop}
    (hweaker : ∀ after outcome, post after outcome → weaker after outcome)
    (hkeeps : Keeps serve hands meanwhile body post world) :
    Keeps serve hands meanwhile body weaker world := by
  induction body generalizing world with
  | ret value => exact hweaker _ _ hkeeps
  | raise exception => exact hweaker _ _ hkeeps
  | call op next ih =>
      cases op with
      | call request => exact ih _ hkeeps
      | yield item =>
          exact ⟨hkeeps.1, fun after hmeanwhile outcome =>
            ih outcome (hkeeps.2 after hmeanwhile outcome)⟩

theorem keeps_bind {body : Body Reply Exn Item α} {rest : α → Body Reply Exn Item β}
    {post : World → Except Exn β → Prop} :
    Keeps serve hands meanwhile (body.bind rest) post world ↔
      Keeps serve hands meanwhile body (fun after outcome =>
        match outcome with
        | .ok value => Keeps serve hands meanwhile (rest value) post after
        | .error exception => post after (.error exception)) world := by
  induction body generalizing world with
  | ret value => exact Iff.rfl
  | raise exception => exact Iff.rfl
  | call op next ih =>
      cases op with
      | call request => exact ih _
      | yield item =>
          exact and_congr Iff.rfl (forall_congr' fun after =>
            imp_congr Iff.rfl (forall_congr' fun outcome => ih outcome))

theorem keeps_lift {program : Prog Reply Exn α} {post : World → Except Exn α → Prop} :
    Keeps serve hands meanwhile (lift program) post world ↔
      post (program.exec serve world).2 (program.exec serve world).1 := by
  induction program generalizing world with
  | ret value => exact Iff.rfl
  | raise exception => exact Iff.rfl
  | call request next ih => exact ih _

/-- Passing the items on keeps what the body keeps, if an item that is handed on may be
the last one. -/
theorem Keeps.forward {body : Body Reply Exn Item Unit} {post : World → Except Exn Unit → Prop}
    (hclosed : ∀ before item after exception, hands before item →
      meanwhile before item after → post after (.error exception))
    (hkeeps : Keeps serve hands meanwhile body post world) :
    Keeps serve hands meanwhile (forward body) post world := by
  induction body generalizing world with
  | ret value => exact hkeeps
  | raise exception => exact hkeeps
  | call op next ih =>
      cases op with
      | call request => exact ih _ hkeeps
      | yield item =>
          refine ⟨hkeeps.1, fun after hmeanwhile outcome => ?_⟩
          cases outcome with
          | ok _ => exact ih _ (hkeeps.2 after hmeanwhile _)
          | error exception => exact hclosed _ _ _ _ hkeeps.1 hmeanwhile

/-- What a run to the next yield comes to. -/
theorem Keeps.exec_advance {body : Body Reply Exn Item Unit}
    {post : World → Except Exn Unit → Prop}
    (hkeeps : Keeps serve hands meanwhile body post world) :
    match (advance body).exec serve world with
    | (.ok none, after) => post after (.ok ())
    | (.error exception, after) => post after (.error exception)
    | (.ok (some (item, resume)), after) =>
        hands after item ∧ ∀ later, meanwhile after item later →
          ∀ outcome, Keeps serve hands meanwhile (resume outcome) post later := by
  induction body generalizing world with
  | ret value => exact hkeeps
  | raise exception => exact hkeeps
  | call op next ih =>
      cases op with
      | call request => exact ih _ hkeeps
      | yield item => exact hkeeps

end Keeps

end DownloaderBot.Generator
