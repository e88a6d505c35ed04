import DownloaderBot.Core.Protocol

/-!
# Interrupts

An exception that may be raised out of any call and is to end the program: once it has
been raised the program makes no call but those of its cleanups.
-/

namespace DownloaderBot.Program

variable {Call : Type} {Reply : Call → Type} {Exn α β : Type} [DecidableEq Exn]

/-- The call has been interrupted. -/
def interrupts (interrupt : Exn) : Except Exn α → Bool
  | .ok _ => false
  | .error exception => exception = interrupt

theorem interrupts_iff {interrupt : Exn} {outcome : Except Exn α} :
    interrupts interrupt outcome = true ↔ outcome = .error interrupt := by
  cases outcome with
  | ok value => simp [interrupts]
  | error exception => simp [interrupts]

/-- The mode says whether the program has been interrupted. -/
def interruptProtocol (interrupt : Exn) (cleansUp : Call → Bool) :
    Protocol Bool Reply Exn := fun interrupted request outcome =>
  if interrupted && !cleansUp request then none
  else some (interrupted || interrupts interrupt outcome)

theorem interruptProtocol_eq_some {interrupt : Exn} {cleansUp : Call → Bool}
    {interrupted after : Bool} {request : Call} {outcome : Except Exn (Reply request)} :
    interruptProtocol interrupt cleansUp interrupted request outcome = some after ↔
      (interrupted = true → cleansUp request = true) ∧
        after = (interrupted || interrupts interrupt outcome) := by
  rw [interruptProtocol, Option.ite_none_left_eq_some, Option.some.injEq,
    @eq_comm _ _ after]
  simp

/-- An interrupted program raises, and no other program raises the interrupt. -/
def GivesUp (interrupt : Exn) (interrupted : Bool) (outcome : Except Exn α) : Prop :=
  (interrupted = true → ∃ exception, outcome = .error exception) ∧
    (outcome = .error interrupt → interrupted = true)

/-- An interrupted program raises the interrupt itself. -/
def PassesOn (interrupt : Exn) (interrupted : Bool) (outcome : Except Exn α) : Prop :=
  interrupted = interrupts interrupt outcome

theorem PassesOn.givesUp {interrupt : Exn} {interrupted : Bool} {outcome : Except Exn α}
    (hpasses : PassesOn interrupt interrupted outcome) :
    GivesUp interrupt interrupted outcome := by
  have hiff : interrupted = true ↔ outcome = .error interrupt := by
    rw [show interrupted = interrupts interrupt outcome from hpasses]
    exact interrupts_iff
  exact ⟨fun htrue => ⟨interrupt, hiff.mp htrue⟩, hiff.mpr⟩

namespace Prog

variable {interrupt : Exn} {cleansUp : Call → Bool}

/-- The program gives up on an interrupt, but for its cleanups. -/
def Yields (interrupt : Exn) (cleansUp : Call → Bool) (program : Prog Reply Exn α) :
    Prop :=
  program.Follows (interruptProtocol interrupt cleansUp) (GivesUp interrupt) false

/-- The program makes no cleanups and passes the interrupt on. -/
def PassesThrough (interrupt : Exn) (cleansUp : Call → Bool)
    (program : Prog Reply Exn α) : Prop :=
  program.Follows (interruptProtocol interrupt cleansUp) (PassesOn interrupt) false

theorem PassesThrough.yields {program : Prog Reply Exn α}
    (hprogram : program.PassesThrough interrupt cleansUp) :
    program.Yields interrupt cleansUp :=
  hprogram.mono fun _ _ => PassesOn.givesUp

theorem passesThrough_ret (value : α) :
    (Prog.ret value : Prog Reply Exn α).PassesThrough interrupt cleansUp :=
  follows_ret rfl

theorem passesThrough_raise {exception : Exn} (hother : exception ≠ interrupt) :
    (Prog.raise exception : Prog Reply Exn α).PassesThrough interrupt cleansUp :=
  follows_raise (decide_eq_false hother).symm

theorem passesThrough_ofExcept {outcome : Except Exn α}
    (hother : outcome ≠ .error interrupt) :
    (ofExcept outcome : Prog Reply Exn α).PassesThrough interrupt cleansUp := by
  apply follows_ofExcept
  exact (Bool.eq_false_iff.mpr fun hraised => hother (interrupts_iff.mp hraised)).symm

theorem passesThrough_perform (request : Call) :
    (perform request : Prog Reply Exn _).PassesThrough interrupt cleansUp := by
  apply follows_perform
  exact fun outcome => ⟨interrupts interrupt outcome, rfl, rfl⟩

/-- An interrupted part never gets to the rest. -/
theorem Yields.bind {program : Prog Reply Exn α} {rest : α → Prog Reply Exn β}
    (hprogram : program.Yields interrupt cleansUp)
    (hrest : ∀ value, (rest value).Yields interrupt cleansUp) :
    (program.bind rest).Yields interrupt cleansUp := by
  apply follows_bind
  apply hprogram.mono
  rintro interrupted outcome ⟨hraises, hpassed⟩
  cases outcome with
  | ok value =>
      cases interrupted with
      | false => exact hrest value
      | true =>
          obtain ⟨exception, hraised⟩ := hraises rfl
          cases hraised
  | error exception =>
      refine ⟨fun _ => ⟨exception, rfl⟩, fun hsame => hpassed ?_⟩
      cases hsame
      rfl

theorem PassesThrough.bind {program : Prog Reply Exn α} {rest : α → Prog Reply Exn β}
    (hprogram : program.PassesThrough interrupt cleansUp)
    (hrest : ∀ value, (rest value).PassesThrough interrupt cleansUp) :
    (program.bind rest).PassesThrough interrupt cleansUp := by
  apply follows_bind
  apply hprogram.mono
  rintro interrupted outcome rfl
  cases outcome with
  | ok value => exact hrest value
  | error exception => rfl

/-- A handler that lets the interrupt through. -/
theorem PassesThrough.tryExcept {body : Prog Reply Exn α} {catches : Exn → Bool}
    {handler : Exn → Prog Reply Exn α}
    (hbody : body.PassesThrough interrupt cleansUp)
    (hlets : catches interrupt = false)
    (hhandler : ∀ exception, (handler exception).PassesThrough interrupt cleansUp) :
    (body.tryExcept catches handler).PassesThrough interrupt cleansUp := by
  apply follows_tryExcept
  apply hbody.mono
  rintro interrupted outcome rfl
  cases outcome with
  | ok value => rfl
  | error exception =>
      dsimp only
      split
      case isFalse => rfl
      case isTrue hcatches =>
        have hother : exception ≠ interrupt := by
          rintro rfl
          cases hlets.symm.trans hcatches
        rw [show interrupts interrupt (.error exception : Except Exn α) = false from
          decide_eq_false hother]
        exact hhandler exception

/-- A cleanup runs after an interrupt too, and then makes only its own calls. -/
theorem PassesThrough.tryFinally {body : Prog Reply Exn α}
    {cleanup : Except Exn α → Prog Reply Exn Unit}
    (hbody : body.PassesThrough interrupt cleansUp)
    (hcleanup : ∀ outcome, (cleanup outcome).Yields interrupt cleansUp)
    (honly : (cleanup (.error interrupt)).Only fun request => cleansUp request = true) :
    (body.tryFinally cleanup).Yields interrupt cleansUp := by
  apply follows_tryFinally
  apply hbody.mono
  rintro interrupted outcome rfl
  by_cases hraised : outcome = .error interrupt
  · subst hraised
    rw [show interrupts interrupt (.error interrupt : Except Exn α) = true from
      interrupts_iff.mpr rfl]
    apply Follows.mono (Only.follows honly ?_)
    · rintro last cleaned rfl
      refine ⟨fun _ => ?_, fun _ => rfl⟩
      cases cleaned with
      | ok _ => exact ⟨interrupt, rfl⟩
      | error exception => exact ⟨exception, rfl⟩
    · intro request hcleans answer
      simp [interruptProtocol, hcleans]
  · rw [Bool.eq_false_iff.mpr fun htrue => hraised (interrupts_iff.mp htrue)]
    apply (hcleanup outcome).mono
    rintro last cleaned ⟨hraises, hpassed⟩
    cases cleaned with
    | ok _ =>
        refine ⟨fun htrue => ?_, fun hsame => absurd hsame hraised⟩
        obtain ⟨exception, herror⟩ := hraises htrue
        cases herror
    | error exception =>
        refine ⟨fun _ => ⟨exception, rfl⟩, fun hsame => hpassed ?_⟩
        cases hsame
        rfl

end Prog

end DownloaderBot.Program
