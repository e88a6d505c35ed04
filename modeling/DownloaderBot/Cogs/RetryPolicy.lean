import DownloaderBot.Cogs.Leftovers

/-!
# What the retries make of a job

However its attempts fail and its workers die, a job is picked up `max_retries` times at
most, and once more for every death.  It fails for good only after so many attempts or on
`/cancel`, and a cancellation that is known before a pick-up is the end of the work.
-/

namespace DownloaderBot.Leftovers

open DownloaderBot.StatusRuns (retried)
open DownloaderBot.Tasks
open DownloaderBot.TransitionSystem

def Label.picksUp : Label → Bool
  | .pickUp _ => true
  | _ => false

def Label.kills : Label → Bool
  | .die _ => true
  | _ => false

def Label.answers : Label → Bool
  | .answer .. => true
  | _ => false

/-- The end of an attempt is dealt with. -/
def Label.settles : Label → Bool
  | .settle => true
  | _ => false

/-- The pick-ups that are left to a job whose workers do not die. -/
def Worker.left (maxRetries retries : ℕ) : Worker → ℕ
  | .queued => 1 + (maxRetries - 1 - retries)
  | .running _ | .leaving _ => maxRetries - 1 - retries
  | .settled _ => 0

/-- The ends that have been dealt with. -/
def Worker.ends (retries : ℕ) : Worker → ℕ
  | .settled _ => retries + 1
  | .queued | .running _ | .leaving _ => retries

/-- A job fails for good on a cancellation or at its last retry. -/
def State.FailsLate (maxRetries : ℕ) (state : State) : Prop :=
  ∀ exception, state.worker = .settled (.error exception) →
    exception = .cancelled ∨ maxRetries ≤ state.retries + 1

/-- The cancellation is known, and no attempt is under way. -/
structure State.GivenUp (state : State) : Prop where
  flag : state.flag = true
  worker : state.worker = .queued ∨ state.worker = .leaving (.error .cancelled) ∨
    state.worker = .settled (.error .cancelled)

/-- What a step does to the message of the job. -/
inductive Turns (maxRetries : ℕ) (state next : State) : Label → Prop
  | setFlag (hnext : next = { state with flag := true }) : Turns maxRetries state next .setFlag
  | elapse {seconds : ℚ} (hnext : next = { state with now := state.now + seconds }) :
      Turns maxRetries state next (.elapse seconds)
  | pickUp {clock : Clock} (worker : Worker) (hqueued : state.worker = .queued)
      (hworker : if state.flag then worker = .leaving (.error .cancelled)
        else ∃ session, worker = .running session)
      (hnext : next = { state with worker := worker }) :
      Turns maxRetries state next (.pickUp clock)
  | answer {outcomes : (request : Call) → Except Exn (Reply request)} {effect : Bool}
      (hbefore : ∃ session, state.worker = .running session)
      (hafter : ∃ session, next.worker = .running session)
      (hretries : next.retries = state.retries) :
      Turns maxRetries state next (.answer outcomes effect)
  | finish (outcome : Except Exn DownloadResult)
      (hrunning : ∃ session, state.worker = .running session)
      (hnext : next = { state with worker := .leaving outcome }) :
      Turns maxRetries state next .finish
  | dieRunning {effect : Bool} (hrunning : ∃ session, state.worker = .running session)
      (hqueued : next.worker = .queued) (hretries : next.retries = state.retries) :
      Turns maxRetries state next (.die effect)
  | dieLeaving {effect : Bool} (outcome : Except Exn DownloadResult)
      (hleaving : state.worker = .leaving outcome)
      (hnext : next = { state with worker := .queued }) :
      Turns maxRetries state next (.die effect)
  | retry (outcome : Except Exn DownloadResult) (hleaving : state.worker = .leaving outcome)
      (hretried : retried maxRetries state.retries outcome = true)
      (hnext : next = { state with worker := .queued, retries := state.retries + 1 }) :
      Turns maxRetries state next .settle
  | settle (outcome : Except Exn DownloadResult) (hleaving : state.worker = .leaving outcome)
      (hretried : retried maxRetries state.retries outcome = false)
      (hnext : next = { state with worker := .settled outcome }) :
      Turns maxRetries state next .settle

section Steps

variable {expiry : String → ℚ} {arguments : Arguments} {maxRetries : ℕ}
variable {state next : State} {label : Label}

theorem turns_of_step (hstep : step expiry arguments maxRetries state label = some next) :
    Turns maxRetries state next label := by
  cases label with
  | setFlag => exact .setFlag (Option.some.inj hstep).symm
  | elapse seconds =>
      obtain ⟨-, hnext⟩ := Option.ite_none_right_eq_some.mp hstep
      exact .elapse (Option.some.inj hnext).symm
  | pickUp clock =>
      simp only [step] at hstep
      split at hstep
      case h_2 => cases hstep
      case h_1 hqueued =>
        refine .pickUp _ hqueued ?_ (Option.some.inj hstep).symm
        split
        · rfl
        · exact ⟨_, rfl⟩
  | answer outcomes effect =>
      simp only [step] at hstep
      split at hstep
      case h_2 => cases hstep
      case h_1 session hrunning =>
        split at hstep
        case h_1 => cases hstep
        case h_2 request _ =>
          split at hstep
          case h_1 reply _ =>
            obtain ⟨-, hnext⟩ := Option.ite_none_right_eq_some.mp hstep
            cases hnext
            exact .answer ⟨session, hrunning⟩ ⟨_, rfl⟩ rfl
          case h_2 exception _ =>
            obtain ⟨-, hnext⟩ := Option.ite_none_left_eq_some.mp hstep
            cases hnext
            exact .answer ⟨session, hrunning⟩ ⟨_, rfl⟩ rfl
  | finish =>
      simp only [step] at hstep
      split at hstep
      case h_2 => cases hstep
      case h_1 session hrunning =>
        obtain ⟨outcome, -, hnext⟩ := Option.map_eq_some_iff.mp hstep
        exact .finish outcome ⟨session, hrunning⟩ hnext.symm
  | die effect =>
      simp only [step] at hstep
      split at hstep
      case h_1 session hrunning =>
        cases hstep
        exact .dieRunning ⟨session, hrunning⟩ rfl rfl
      case h_2 outcome hleaving => exact .dieLeaving outcome hleaving (Option.some.inj hstep).symm
      case h_3 | h_4 => cases hstep
  | settle =>
      simp only [step] at hstep
      split at hstep
      case h_2 => cases hstep
      case h_1 outcome hleaving =>
        split at hstep
        case isTrue hretried =>
          exact .retry outcome hleaving hretried (Option.some.inj hstep).symm
        case isFalse hretried =>
          exact .settle outcome hleaving (Bool.eq_false_iff.mpr hretried)
            (Option.some.inj hstep).symm

theorem lt_of_retried {retries : ℕ} {outcome : Except Exn DownloadResult}
    (hretried : retried maxRetries retries outcome = true) : retries + 1 < maxRetries := by
  simp only [retried] at hretried
  split at hretried
  case h_1 | h_2 => cases hretried
  case h_3 => exact of_decide_eq_true hretried

theorem left_of_turns (hturns : Turns maxRetries state next label) :
    label.picksUp.toNat + next.worker.left maxRetries next.retries ≤
      state.worker.left maxRetries state.retries + label.kills.toNat := by
  cases hturns with
  | setFlag hnext | elapse hnext =>
      subst hnext
      simp [Label.picksUp]
  | pickUp worker hqueued hworker hnext =>
      subst hnext
      split at hworker
      case isTrue =>
        subst hworker
        simp [Worker.left, hqueued, Label.picksUp]
      case isFalse =>
        obtain ⟨session, rfl⟩ := hworker
        simp [Worker.left, hqueued, Label.picksUp]
  | answer hbefore hafter hretries =>
      obtain ⟨session, hbefore⟩ := hbefore
      obtain ⟨later, hafter⟩ := hafter
      simp [Worker.left, hbefore, hafter, hretries, Label.picksUp]
  | finish outcome hrunning hnext =>
      subst hnext
      obtain ⟨session, hrunning⟩ := hrunning
      simp [Worker.left, hrunning, Label.picksUp]
  | dieRunning hrunning hqueued hretries =>
      obtain ⟨session, hrunning⟩ := hrunning
      simp [Worker.left, hrunning, hqueued, hretries, Label.picksUp, Label.kills]
      omega
  | dieLeaving outcome hleaving hnext =>
      subst hnext
      simp [Worker.left, hleaving, Label.picksUp, Label.kills]
      omega
  | retry outcome hleaving hretried hnext =>
      subst hnext
      have hless := lt_of_retried hretried
      simp [Worker.left, hleaving, Label.picksUp]
      omega
  | settle outcome hleaving hretried hnext =>
      subst hnext
      simp [Worker.left, Label.picksUp]

theorem ends_of_turns (hturns : Turns maxRetries state next label) :
    false.toNat + next.worker.ends next.retries ≤
      state.worker.ends state.retries + label.settles.toNat := by
  cases hturns with
  | setFlag hnext | elapse hnext =>
      subst hnext
      simp
  | pickUp worker hqueued hworker hnext =>
      subst hnext
      split at hworker
      case isTrue =>
        subst hworker
        simp [Worker.ends, hqueued]
      case isFalse =>
        obtain ⟨session, rfl⟩ := hworker
        simp [Worker.ends, hqueued]
  | answer hbefore hafter hretries =>
      obtain ⟨session, hbefore⟩ := hbefore
      obtain ⟨later, hafter⟩ := hafter
      simp [Worker.ends, hbefore, hafter, hretries]
  | finish outcome hrunning hnext =>
      subst hnext
      obtain ⟨session, hrunning⟩ := hrunning
      simp [Worker.ends, hrunning]
  | dieRunning hrunning hqueued hretries =>
      obtain ⟨session, hrunning⟩ := hrunning
      simp [Worker.ends, hrunning, hqueued, hretries]
  | dieLeaving outcome hleaving hnext =>
      subst hnext
      simp [Worker.ends, hleaving]
  | retry outcome hleaving hretried hnext | settle outcome hleaving hretried hnext =>
      subst hnext
      simp [Worker.ends, hleaving, Label.settles]

theorem State.FailsLate.of_turns (hlate : state.FailsLate maxRetries)
    (hturns : Turns maxRetries state next label) : next.FailsLate maxRetries := by
  intro exception hsettled
  cases hturns with
  | setFlag hnext | elapse hnext =>
      subst hnext
      exact hlate exception hsettled
  | pickUp worker hqueued hworker hnext =>
      subst hnext
      dsimp only at hsettled
      subst hsettled
      split at hworker
      case isTrue => cases hworker
      case isFalse =>
        obtain ⟨session, hrunning⟩ := hworker
        cases hrunning
  | answer hbefore hafter hretries =>
      obtain ⟨later, hafter⟩ := hafter
      cases hafter.symm.trans hsettled
  | dieRunning hrunning hqueued hretries => cases hqueued.symm.trans hsettled
  | finish outcome hrunning hnext | dieLeaving outcome hleaving hnext
  | retry outcome hleaving hretried hnext =>
      subst hnext
      cases hsettled
  | settle outcome hleaving hretried hnext =>
      subst hnext
      cases hsettled
      by_contra hearly
      rw [not_or, not_le] at hearly
      obtain ⟨hother, hless⟩ := hearly
      have hagain : retried maxRetries state.retries (.error exception) = true := by
        simp only [retried]
        exact decide_eq_true hless
      cases hagain.symm.trans hretried

theorem State.GivenUp.of_turns (hgiven : state.GivenUp)
    (hturns : Turns maxRetries state next label) :
    next.GivenUp ∧ next.store = state.store ∧ label.answers = false := by
  obtain ⟨hflag, hworker⟩ := hgiven
  have hidle : ∀ session, state.worker ≠ .running session := by
    rintro session hrunning
    rw [hrunning] at hworker
    rcases hworker with hqueued | hleaving | hsettled
    · cases hqueued
    · cases hleaving
    · cases hsettled
  cases hturns with
  | setFlag hnext | elapse hnext =>
      subst hnext
      exact ⟨⟨by simp [hflag], hworker⟩, rfl, rfl⟩
  | pickUp worker hqueued hcancelled hnext =>
      subst hnext
      rw [if_pos hflag] at hcancelled
      exact ⟨⟨hflag, .inr (.inl hcancelled)⟩, rfl, rfl⟩
  | answer hbefore hafter hretries =>
      obtain ⟨session, hrunning⟩ := hbefore
      exact absurd hrunning (hidle session)
  | finish outcome hrunning hnext | dieRunning hrunning hqueued hretries =>
      obtain ⟨session, hrunning⟩ := hrunning
      exact absurd hrunning (hidle session)
  | dieLeaving outcome hleaving hnext =>
      subst hnext
      exact ⟨⟨hflag, .inl rfl⟩, rfl, rfl⟩
  | retry outcome hleaving hretried hnext =>
      rw [hleaving] at hworker
      rcases hworker with hqueued | hcancelled | hsettled
      · cases hqueued
      · cases hcancelled
        cases hretried
      · cases hsettled
  | settle outcome hleaving hretried hnext =>
      subst hnext
      rw [hleaving] at hworker
      rcases hworker with hqueued | hcancelled | hsettled
      · cases hqueued
      · cases hcancelled
        exact ⟨⟨hflag, .inr (.inr rfl)⟩, rfl, rfl⟩
      · cases hsettled

end Steps

/-! ## Runs -/

section Runs

variable {expiry : String → ℚ} {arguments : Arguments} {maxRetries : ℕ}
variable {state last : State} {labels : List Label}

theorem State.GivenUp.of_replay (hgiven : state.GivenUp)
    (hreplay : replay (step expiry arguments maxRetries) state labels = some last) :
    last.GivenUp ∧ last.store = state.store ∧ ∀ label ∈ labels, label.answers = false := by
  induction labels generalizing state with
  | nil =>
      obtain rfl : state = last := by simpa [replay] using hreplay
      exact ⟨hgiven, rfl, fun _ hmem => by cases hmem⟩
  | cons label labels ih =>
      simp only [replay, Option.bind_eq_some_iff] at hreplay
      obtain ⟨next, hstep, hrest⟩ := hreplay
      obtain ⟨hnext, hstore, hanswers⟩ := hgiven.of_turns (turns_of_step hstep)
      obtain ⟨hlast, hkept, hlabels⟩ := ih hnext hrest
      exact ⟨hlast, hkept.trans hstore, List.forall_mem_cons.mpr ⟨hanswers, hlabels⟩⟩

/-- In every run the pick-ups are at most `max_retries` and one for each death; a failure
that is final comes after `max_retries` ends or is the cancellation; and once a cancelled
job is back in the queue, nothing is called for it any more, and its end is the
cancellation. -/
theorem work_bounded (expiry : String → ℚ) (arguments : Arguments) (maxRetries : ℕ) (now : ℚ)
    {labels : List Label} {state : State}
    (hreplay : replay (step expiry arguments maxRetries) (start now) labels = some state) :
    labels.countP Label.picksUp ≤ max 1 maxRetries + labels.countP Label.kills ∧
      (∀ exception, state.worker = .settled (.error exception) →
        exception = .cancelled ∨ maxRetries ≤ labels.countP Label.settles) ∧
      (state.flag = true → state.worker = .queued → ∀ later last,
        replay (step expiry arguments maxRetries) state later = some last →
          last.store = state.store ∧ (∀ label ∈ later, label.answers = false) ∧
          ∀ outcome, last.worker = .settled outcome → outcome = .error .cancelled) := by
  refine ⟨?_, fun exception hsettled => ?_, fun hflag hqueued later last hlater => ?_⟩
  · have hcount : labels.countP Label.picksUp + state.worker.left maxRetries state.retries ≤
        1 + (maxRetries - 1) + labels.countP Label.kills :=
      countP_le_of_replay
        (fun state label next hstep => left_of_turns (turns_of_step hstep)) hreplay
    omega
  · have hends : labels.countP (fun _ => false) + state.worker.ends state.retries ≤
        0 + labels.countP Label.settles :=
      countP_le_of_replay
        (fun state label next hstep => ends_of_turns (turns_of_step hstep)) hreplay
    have hrun : Reaches (step expiry arguments maxRetries) unrestricted (start now) state :=
      reaches_of_replay (fun _ _ _ => trivial) hreplay
    have hlate : state.FailsLate maxRetries :=
      hrun.invariant (fun _ hsettled => by cases hsettled)
        fun _ _ _ hlate _ hstep => hlate.of_turns (turns_of_step hstep)
    refine (hlate exception hsettled).imp_right fun hretries => hretries.trans ?_
    rw [hsettled, Worker.ends] at hends
    omega
  · obtain ⟨⟨-, hworker⟩, hstore, hlabels⟩ :=
      (State.GivenUp.mk hflag (.inl hqueued)).of_replay hlater
    refine ⟨hstore, hlabels, fun outcome hsettled => ?_⟩
    rw [hsettled] at hworker
    rcases hworker with hqueued | hleaving | hcancelled
    · cases hqueued
    · cases hleaving
    · exact Worker.settled.inj hcancelled

/-- A job from a direct message after these steps. -/
def jobAfter (labels : List Label) : State :=
  (replay (step (fun _ => 0) inDirectMessage 3) (start 0) labels).getD (start 0)

/-- The first attempt fails, the worker of the second dies, and the job is cancelled. -/
def cancelledThird : List Label :=
  [.pickUp inMay, .answer (fun _ => .error .other) false, .finish, .settle, .pickUp inMay,
    .die false, .setFlag]

theorem replay_cancelledThird :
    replay (step (fun _ => 0) inDirectMessage 3) (start 0) cancelledThird =
      some (jobAfter cancelledThird) := by
  rfl

theorem work_bounded_cancelledThird :
    let last := jobAfter (cancelledThird ++ [.pickUp inMay, .settle])
    last.worker = .settled (.error .cancelled) ∧
      last.store = (jobAfter cancelledThird).store ∧
      cancelledThird.countP Label.picksUp ≤ 3 + cancelledThird.countP Label.kills := by
  obtain ⟨hpicks, -, hgivenUp⟩ :=
    work_bounded (fun _ => 0) inDirectMessage 3 0 replay_cancelledThird
  have hreplay : replay (step (fun _ => 0) inDirectMessage 3) (jobAfter cancelledThird)
      [.pickUp inMay, .settle] =
        some (jobAfter (cancelledThird ++ [.pickUp inMay, .settle])) := by
    rfl
  exact ⟨rfl, (hgivenUp rfl rfl _ _ hreplay).1, hpicks⟩

end Runs

end DownloaderBot.Leftovers
