import Mathlib.Data.List.Basic

/-!
# Labelled transition systems and recorded traces

A system is a guarded step function: `step state label` is the next state, or
`none` when the label is not enabled.  This file fixes what a run is, how a run
whose steps all meet a condition carries an invariant, and how the order of two
kinds of events in a recorded trace survives the recording of one more event.
-/

namespace DownloaderBot.TransitionSystem

section Runs

variable {State Label : Type*}

/-- No condition on the steps of a run. -/
def unrestricted : State → Label → Prop := fun _ _ => True

/-- `last` is reached from `first` by steps that are enabled and that all meet
`allowed` in the state they are taken in. -/
inductive Reaches (step : State → Label → Option State)
    (allowed : State → Label → Prop) (first : State) : State → Prop
  | refl : Reaches step allowed first first
  | tail {middle last : State} (label : Label)
      (hrun : Reaches step allowed first middle)
      (hallowed : allowed middle label)
      (hstep : step middle label = some last) :
      Reaches step allowed first last

variable {step : State → Label → Option State}
variable {allowed : State → Label → Prop} {first middle last : State}

/-- The invariant rule: what holds at the start and is kept by every allowed
step holds wherever a run leads. -/
theorem Reaches.invariant {holds : State → Prop} (hfirst : holds first)
    (hkeep : ∀ state label next, holds state → allowed state label →
      step state label = some next → holds next)
    (hrun : Reaches step allowed first last) : holds last := by
  induction hrun with
  | refl => exact hfirst
  | tail label _ hallowed hstep ih => exact hkeep _ label _ ih hallowed hstep

theorem Reaches.trans (hleft : Reaches step allowed first middle)
    (hright : Reaches step allowed middle last) :
    Reaches step allowed first last := by
  induction hright with
  | refl => exact hleft
  | tail label _ hallowed hstep ih => exact ih.tail label hallowed hstep

/-- A run under a condition is a run under a weaker one. -/
theorem Reaches.mono {weaker : State → Label → Prop}
    (himp : ∀ state label, allowed state label → weaker state label)
    (hrun : Reaches step allowed first last) : Reaches step weaker first last := by
  induction hrun with
  | refl => exact .refl
  | tail label _ hallowed hstep ih => exact ih.tail label (himp _ label hallowed) hstep

theorem Reaches.forget (hrun : Reaches step allowed first last) :
    Reaches step unrestricted first last :=
  hrun.mono fun _ _ _ => trivial

/-- A property of the past that exactly the allowed steps keep holds after a run exactly if
all its steps are allowed. -/
theorem Reaches.iff_allowed {holds good : State → Prop} (hfirst : holds first ∧ good first)
    (hpast : ∀ state label next, step state label = some next → good next → good state)
    (hkeep : ∀ state label next, holds state → good state → step state label = some next →
      (good next ↔ allowed state label) ∧ (allowed state label → holds next))
    (hrun : Reaches step unrestricted first last) :
    good last ↔ Reaches step allowed first last := by
  have hboth : ∀ {reached : State}, Reaches step allowed first reached →
      holds reached ∧ good reached := by
    intro reached hallowed
    refine @Reaches.invariant _ _ _ _ _ _ (fun state => holds state ∧ good state) hfirst
      (fun state label next hinv hlabel hstep => ?_) hallowed
    obtain ⟨hiff, hnext⟩ := hkeep state label next hinv.1 hinv.2 hstep
    exact ⟨hnext hlabel, hiff.mpr hlabel⟩
  refine ⟨fun hgood => ?_, fun hallowed => (hboth hallowed).2⟩
  induction hrun with
  | refl => exact .refl
  | tail label _ _ hstep ih =>
      have hbefore := hpast _ label _ hstep hgood
      have hreached := ih hbefore
      have hlabel := (hkeep _ label _ (hboth hreached).1 hbefore hstep).1.mp hgood
      exact hreached.tail label hlabel hstep

/-- Replay a list of labels; `none` as soon as one of them is not enabled. -/
def replay (step : State → Label → Option State) :
    State → List Label → Option State
  | state, [] => some state
  | state, label :: labels =>
      (step state label).bind fun next => replay step next labels

/-- A replay that goes through, of labels that are always allowed, is a run. -/
theorem reaches_of_replay {labels : List Label}
    (hallowed : ∀ label ∈ labels, ∀ state, allowed state label)
    (hreplay : replay step first labels = some last) :
    Reaches step allowed first last := by
  induction labels generalizing first with
  | nil =>
      obtain rfl : first = last := by simpa [replay] using hreplay
      exact .refl
  | cons label labels ih =>
      simp only [replay, Option.bind_eq_some_iff] at hreplay
      obtain ⟨next, hstep, hrest⟩ := hreplay
      have hhead := hallowed label List.mem_cons_self first
      exact (Reaches.refl.tail label hhead hstep).trans
        (ih (fun other hother => hallowed other (.tail _ hother)) hrest)

/-- Every step that spends takes from the potential, and only steps that grant add to it:
so a run spends no more than there was and was granted. -/
theorem countP_le_of_replay {potential : State → ℕ} {spends grants : Label → Bool}
    (hstep : ∀ state label next, step state label = some next →
      (spends label).toNat + potential next ≤ potential state + (grants label).toNat)
    {labels : List Label} (hreplay : replay step first labels = some last) :
    labels.countP spends + potential last ≤ potential first + labels.countP grants := by
  induction labels generalizing first with
  | nil =>
      obtain rfl : first = last := by simpa [replay] using hreplay
      simp
  | cons label labels ih =>
      simp only [replay, Option.bind_eq_some_iff] at hreplay
      obtain ⟨next, hnext, hrest⟩ := hreplay
      have hlabel := hstep first label next hnext
      have hlabels := ih hrest
      cases hspends : spends label <;> cases hgrants : grants label <;>
        simp only [hspends, hgrants, Bool.toNat_true, Bool.toNat_false] at hlabel <;>
        simp only [List.countP_cons, hspends, hgrants] <;> simp <;> omega

/-- A replay that goes through and ends as checked is a run that ends so. -/
theorem exists_reaches_of_replay (step : State → Label → Option State)
    (first : State) (labels : List Label) (check : State → Bool)
    (hreplay : (replay step first labels).any check = true) :
    ∃ last, Reaches step unrestricted first last ∧ check last = true := by
  cases hlast : replay step first labels with
  | none => simp [hlast] at hreplay
  | some last =>
      rw [hlast] at hreplay
      exact ⟨last, reaches_of_replay (fun _ _ _ => trivial) hlast, hreplay⟩

/-- The step function restricted to allowed steps. -/
def guarded (step : State → Label → Option State)
    (allowed : State → Label → Prop)
    [∀ state label, Decidable (allowed state label)] (state : State)
    (label : Label) : Option State :=
  if allowed state label then step state label else none

theorem Reaches.of_guarded [∀ state label, Decidable (allowed state label)]
    (hrun : Reaches (guarded step allowed) unrestricted first last) :
    Reaches step allowed first last := by
  induction hrun with
  | refl => exact .refl
  | tail label _ _ hstep ih =>
      obtain ⟨hallowed, hstep⟩ := Option.ite_none_right_eq_some.mp hstep
      exact ih.tail label hallowed hstep

end Runs

section Traces

variable {Event : Type*}

/-- Every `later` event of the trace comes after some `earlier` event. -/
def PrecededBy (earlier later : Event → Prop) (trace : List Event) : Prop :=
  ∀ before event after, trace = before ++ event :: after → later event →
    ∃ witness ∈ before, earlier witness

/-- No `later` event of the trace comes after an `earlier` event. -/
def NeverAfter (earlier later : Event → Prop) (trace : List Event) : Prop :=
  ∀ before event after, trace = before ++ event :: after → later event →
    ∀ witness ∈ before, ¬ earlier witness

/-- Every event of the trace suits what happened before it. -/
def AtEvery (suits : List Event → Event → Prop) (trace : List Event) : Prop :=
  ∀ before event after, trace = before ++ event :: after → suits before event

variable {earlier later : Event → Prop} {trace : List Event}

/-- The occurrences of an event in `left ++ right` are those of `left` and of `right`. -/
theorem append_split {left right before after : List Event} {event : Event}
    (hsplit : left ++ right = before ++ event :: after) :
    (∃ rest, left = before ++ event :: rest ∧ after = rest ++ right) ∨
      ∃ middle, before = left ++ middle ∧ right = middle ++ event :: after := by
  rcases List.append_eq_append_iff.mp hsplit with
    ⟨middle, hbefore, hright⟩ | ⟨middle, hleft, hafter⟩
  · exact .inr ⟨middle, hbefore, hright⟩
  · cases middle with
    | nil => exact .inr ⟨[], by simpa using hleft.symm, hafter.symm⟩
    | cons other rest =>
        obtain ⟨rfl, rfl⟩ := List.cons.inj hafter
        exact .inl ⟨rest, hleft, rfl⟩

/-- The occurrences of an event in `trace ++ [newest]` are those of `trace` and
the newest one. -/
private theorem concat_split {newest event : Event}
    {before after : List Event}
    (hsplit : trace ++ [newest] = before ++ event :: after) :
    (before = trace ∧ event = newest) ∨
      ∃ rest, after = rest ++ [newest] ∧ trace = before ++ event :: rest := by
  rcases append_split hsplit with ⟨rest, htrace, hafter⟩ | ⟨middle, hbefore, hnewest⟩
  · exact .inr ⟨rest, hafter, htrace⟩
  · left
    cases middle with
    | nil => exact ⟨hbefore.trans (List.append_nil _), (List.cons.inj hnewest).1.symm⟩
    | cons other middle =>
        have hempty := (List.cons.inj hnewest).2
        simp at hempty

theorem AtEvery.concat {suits : List Event → Event → Prop} (htrace : AtEvery suits trace)
    {newest : Event} (hnewest : suits trace newest) : AtEvery suits (trace ++ [newest]) := by
  intro before event after hsplit
  rcases concat_split hsplit with ⟨rfl, rfl⟩ | ⟨rest, -, hprefix⟩
  · exact hnewest
  · exact htrace before event rest hprefix

/-- Recording several events, each of which suits the trace up to it. -/
theorem AtEvery.append {suits : List Event → Event → Prop} (htrace : AtEvery suits trace)
    {events : List Event} (hevents : ∀ before event after, events = before ++ event :: after →
      suits (trace ++ before) event) : AtEvery suits (trace ++ events) := by
  intro before event after hsplit
  rcases append_split hsplit with ⟨rest, hbefore, -⟩ | ⟨middle, rfl, hafter⟩
  · exact htrace before event rest hbefore
  · exact hevents middle event after hafter

theorem AtEvery.of_append {suits : List Event → Event → Prop} {events : List Event}
    (htrace : AtEvery suits (trace ++ events)) : AtEvery suits trace := by
  intro before event after hsplit
  exact htrace before event (after ++ events) (by rw [hsplit, List.append_assoc]; rfl)

theorem precededBy_nil : PrecededBy earlier later ([] : List Event) := by
  intro before event after hsplit
  simp at hsplit

theorem neverAfter_nil : NeverAfter earlier later ([] : List Event) := by
  intro before event after hsplit
  simp at hsplit

/-- Recording one more event keeps precedence when the event, if it is a later
one, finds an earlier one in the trace. -/
theorem PrecededBy.concat (htrace : PrecededBy earlier later trace)
    {newest : Event}
    (hnewest : later newest → ∃ witness ∈ trace, earlier witness) :
    PrecededBy earlier later (trace ++ [newest]) := by
  intro before event after hsplit hlater
  rcases concat_split hsplit with ⟨rfl, rfl⟩ | ⟨rest, -, hprefix⟩
  · exact hnewest hlater
  · exact htrace before event rest hprefix hlater

theorem PrecededBy.concat_of_not (htrace : PrecededBy earlier later trace)
    {newest : Event} (hnot : ¬ later newest) :
    PrecededBy earlier later (trace ++ [newest]) :=
  htrace.concat fun hlater => absurd hlater hnot

/-- Recording one more event keeps the ban when the event, if it is a later
one, finds no earlier one in the trace. -/
theorem NeverAfter.concat (htrace : NeverAfter earlier later trace)
    {newest : Event}
    (hnewest : later newest → ∀ witness ∈ trace, ¬ earlier witness) :
    NeverAfter earlier later (trace ++ [newest]) := by
  intro before event after hsplit hlater
  rcases concat_split hsplit with ⟨rfl, rfl⟩ | ⟨rest, -, hprefix⟩
  · exact hnewest hlater
  · exact htrace before event rest hprefix hlater

theorem NeverAfter.concat_of_not (htrace : NeverAfter earlier later trace)
    {newest : Event} (hnot : ¬ later newest) :
    NeverAfter earlier later (trace ++ [newest]) :=
  htrace.concat fun hlater => absurd hlater hnot

end Traces

end DownloaderBot.TransitionSystem
