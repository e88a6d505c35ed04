import DownloaderBot.Core.TransitionSystem
import Mathlib.Order.Lattice
import Mathlib.Logic.Function.Basic
import Mathlib.Data.List.Nodup

/-!
# Optimistic transactions on one watched value

Clients share a versioned value.  Each client runs one transaction: it watches
the value, reads it, may leave, reads the clock, may leave again, and otherwise
tries to commit a new value.  The store refuses a commit exactly when the value
was written since the client began to watch, and the client then starts over.

The result is linearizability: executing the committed transactions atomically,
in the order of their commits, gives the same results and the same final value.
-/

namespace DownloaderBot.OptimisticLock

open DownloaderBot.TransitionSystem

/-- What a transaction decides from the value and the clock it has read. -/
inductive Decision (Value Result : Type*)
  | leave (result : Result)
  | write (value : Value) (result : Result)

/-- A transaction.  `peek` is its exit before the clock is read. -/
structure Transaction (Value Clock Result : Type*) where
  peek : Value → Option Result
  decide : Value → Clock → Decision Value Result

variable {Client Value Clock Result : Type*}

/-- The transaction executed in one step: the value it commits and its result,
or `none` when it leaves without committing. -/
def Transaction.atomic (transaction : Transaction Value Clock Result)
    (value : Value) (now : Clock) : Option (Value × Result) :=
  match transaction.peek value with
  | some _ => none
  | none =>
      match transaction.decide value now with
      | .leave _ => none
      | .write next result => some (next, result)

theorem Transaction.atomic_of_write
    {transaction : Transaction Value Clock Result} {value next : Value}
    {now : Clock} {result : Result} (hpeek : transaction.peek value = none)
    (hdecide : transaction.decide value now = .write next result) :
    transaction.atomic value now = some (next, result) := by
  rw [atomic, hpeek]
  simp only [hdecide]

/-- Where a client is in its transaction.  `seen` is the version it watches. -/
inductive Phase (Value Clock Result : Type*)
  | idle
  | started
  | watching (seen : ℕ)
  | holding (seen : ℕ) (snapshot : Value)
  | leaving (result : Result)
  | ready (seen : ℕ) (now : Clock) (value : Value) (result : Result)
  | finished (result : Result)
  | returned

/-- What an observer of the clients sees. -/
inductive Event (Client Clock Result : Type*)
  | invoked (client : Client)
  | committed (client : Client) (now : Clock) (result : Result)
  | left (client : Client) (result : Result)
  | returned (client : Client) (result : Result)

def Event.client : Event Client Clock Result → Client
  | .invoked client => client
  | .committed client _ _ => client
  | .left client _ => client
  | .returned client _ => client

structure State (Client Value Clock Result : Type*) where
  value : Value
  version : ℕ
  clock : Clock
  phase : Client → Phase Value Clock Result
  trace : List (Event Client Clock Result)

inductive Label (Client Clock : Type*)
  | invoke (client : Client)
  | watch (client : Client)
  | read (client : Client)
  | readClock (client : Client)
  | exec (client : Client)
  | unwatch (client : Client)
  | ret (client : Client)
  | tick (now : Clock)

/-- Move one client to a phase. -/
def State.move [DecidableEq Client] (state : State Client Value Clock Result)
    (client : Client) (phase : Phase Value Clock Result) :
    State Client Value Clock Result :=
  { state with phase := Function.update state.phase client phase }

def State.record (state : State Client Value Clock Result)
    (event : Event Client Clock Result) : State Client Value Clock Result :=
  { state with trace := state.trace ++ [event] }

/-- A successful write: the new value under a new version. -/
def State.store (state : State Client Value Clock Result) (value : Value) :
    State Client Value Clock Result :=
  { state with value := value, version := state.version + 1 }

section Steps

variable [DecidableEq Client] [LinearOrder Clock]

/-- One step of one client, or of the shared clock. -/
def step (transaction : Client → Transaction Value Clock Result)
    (state : State Client Value Clock Result) :
    Label Client Clock → Option (State Client Value Clock Result)
  | .invoke client =>
      match state.phase client with
      | .idle => some ((state.move client .started).record (.invoked client))
      | _ => none
  | .watch client =>
      match state.phase client with
      | .started => some (state.move client (.watching state.version))
      | _ => none
  | .read client =>
      match state.phase client with
      | .watching seen =>
          match (transaction client).peek state.value with
          | some result => some (state.move client (.leaving result))
          | none => some (state.move client (.holding seen state.value))
      | _ => none
  | .readClock client =>
      match state.phase client with
      | .holding seen snapshot =>
          match (transaction client).decide snapshot state.clock with
          | .leave result => some (state.move client (.leaving result))
          | .write value result =>
              some (state.move client (.ready seen state.clock value result))
      | _ => none
  | .exec client =>
      match state.phase client with
      | .ready seen now value result =>
          if seen = state.version then
            some (((state.store value).move client (.finished result)).record
              (.committed client now result))
          -- The commit is refused: start over with a fresh watch.
          else some (state.move client .started)
      | _ => none
  | .unwatch client =>
      match state.phase client with
      | .leaving result =>
          some ((state.move client (.finished result)).record
            (.left client result))
      | _ => none
  | .ret client =>
      match state.phase client with
      | .finished result =>
          some ((state.move client .returned).record (.returned client result))
      | _ => none
  | .tick now =>
      if state.clock ≤ now then some { state with clock := now } else none

/-- Nobody has started. -/
def start (value : Value) (clock : Clock) : State Client Value Clock Result :=
  ⟨value, 0, clock, fun _ => .idle, []⟩

end Steps

/-! ## The sequential history -/

/-- A committed transaction: whose it is, the clock reading it used and what it
returned. -/
structure Commit (Client Clock Result : Type*) where
  client : Client
  now : Clock
  result : Result

def Event.commit : Event Client Clock Result → Option (Commit Client Clock Result)
  | .committed client now result => some ⟨client, now, result⟩
  | _ => none

/-- The commits of a trace, in order. -/
def commits (trace : List (Event Client Clock Result)) :
    List (Commit Client Clock Result) :=
  trace.filterMap Event.commit

/-- Executing exactly these commits one at a time, each with its client's atomic
effect at its clock reading, leads from `first` to `last` and returns these
results. -/
def Executes (effect : Client → Value → Clock → Option (Value × Result))
    (first : Value) : List (Commit Client Clock Result) → Value → Prop
  | [], last => first = last
  | commit :: rest, last =>
      ∃ next, effect commit.client first commit.now =
          some (next, commit.result) ∧
        Executes effect next rest last

theorem Executes.concat
    {effect : Client → Value → Clock → Option (Value × Result)}
    {first middle last : Value} {history : List (Commit Client Clock Result)}
    {commit : Commit Client Clock Result}
    (hexecutes : Executes effect first history middle)
    (hcommit : effect commit.client middle commit.now =
      some (last, commit.result)) :
    Executes effect first (history ++ [commit]) last := by
  induction history generalizing first with
  | nil =>
      obtain rfl : first = middle := hexecutes
      exact ⟨last, hcommit, rfl⟩
  | cons oldest history ih =>
      obtain ⟨next, hnext, hrest⟩ := hexecutes
      exact ⟨next, hnext, ih hrest⟩

theorem mem_commits {trace : List (Event Client Clock Result)}
    {commit : Commit Client Clock Result} :
    commit ∈ commits trace ↔
      .committed commit.client commit.now commit.result ∈ trace := by
  simp only [commits, List.mem_filterMap]
  constructor
  · rintro ⟨event, hevent, hcommit⟩
    cases event <;> simp only [Event.commit, Option.some.injEq, reduceCtorEq] at hcommit
    subst hcommit
    exact hevent
  · intro hmem
    exact ⟨_, hmem, rfl⟩

/-- The event fixes what the client answers: its commit, or its exit. -/
def Answers (client : Client) (result : Result)
    (event : Event Client Clock Result) : Prop :=
  (∃ now, event = .committed client now result) ∨ event = .left client result

/-- The trace shows the start of the client's transaction and nothing more. -/
def Unfinished (client : Client) (trace : List (Event Client Clock Result)) :
    Prop :=
  .invoked client ∈ trace ∧
    ∀ event ∈ trace, event.client = client → event = .invoked client

theorem Unfinished.not_committed {client : Client}
    {trace : List (Event Client Clock Result)}
    (hunfinished : Unfinished client trace) :
    ∀ commit ∈ commits trace, commit.client ≠ client := by
  intro commit hcommit hclient
  cases hunfinished.2 _ (mem_commits.mp hcommit) hclient

/-- What holds of the committed transactions of a run: they are what their
atomic effects in commit order are, the clock readings used never step back,
each takes effect once, after its start and before its end, what a client
returns is what it committed or left with, and who left has not committed. -/
structure Linearized [LE Clock]
    (effect : Client → Value → Clock → Option (Value × Result))
    (initial value : Value) (trace : List (Event Client Clock Result)) :
    Prop where
  executes : Executes effect initial (commits trace) value
  readings : (commits trace).Pairwise fun left right => left.now ≤ right.now
  once : ((commits trace).map Commit.client).Nodup
  started : ∀ client now result,
    PrecededBy (· = .invoked client) (· = .committed client now result) trace
  ended : ∀ client now result answer,
    NeverAfter (· = .returned client answer) (· = .committed client now result)
      trace
  answered : ∀ client result,
    PrecededBy (Answers client result) (· = .returned client result) trace
  left : ∀ client result, .left client result ∈ trace →
    ∀ commit ∈ commits trace, commit.client ≠ client

theorem commits_concat (trace : List (Event Client Clock Result))
    (event : Event Client Clock Result) :
    commits (trace ++ [event]) = commits trace ++ event.commit.toList := by
  rw [commits, List.filterMap_append]
  cases hcommit : event.commit <;> simp [commits, hcommit]

theorem commits_record (trace : List (Event Client Clock Result))
    {event : Event Client Clock Result} (hevent : event.commit = none) :
    commits (trace ++ [event]) = commits trace := by
  rw [commits_concat, hevent]
  simp

section Linearized

variable {effect : Client → Value → Clock → Option (Value × Result)}
variable {initial value next : Value} {trace : List (Event Client Clock Result)}

theorem linearized_start [LE Clock] :
    Linearized effect initial initial [] where
  executes := rfl
  readings := .nil
  once := List.nodup_nil
  started _ _ _ := precededBy_nil
  ended _ _ _ _ := neverAfter_nil
  answered _ _ := precededBy_nil
  left _ _ hleft := absurd hleft List.not_mem_nil

/-- Recording an event that is no commit: an answer needs its commit or exit in
the trace, an exit needs a client that has not committed. -/
theorem Linearized.record [LE Clock]
    (hlinear : Linearized effect initial value trace)
    {event : Event Client Clock Result} (hevent : event.commit = none)
    (hanswer : ∀ client result, event = .returned client result →
      ∃ witness ∈ trace, Answers client result witness)
    (hleft : ∀ client result, event = .left client result →
      ∀ commit ∈ commits trace, commit.client ≠ client) :
    Linearized effect initial value (trace ++ [event]) := by
  have hcommits := commits_record trace hevent
  have hnot : ∀ client now result, event ≠ .committed client now result := by
    rintro client now result rfl
    simp [Event.commit] at hevent
  refine ⟨?_, ?_, ?_, ?_, ?_, ?_, ?_⟩
  · rw [hcommits]
    exact hlinear.executes
  · rw [hcommits]
    exact hlinear.readings
  · rw [hcommits]
    exact hlinear.once
  · exact fun client now result =>
      (hlinear.started client now result).concat
        fun h => absurd h (hnot client now result)
  · exact fun client now result answer =>
      (hlinear.ended client now result answer).concat
        fun h => absurd h (hnot client now result)
  · exact fun client result =>
      (hlinear.answered client result).concat (hanswer client result)
  · intro client result hmem
    rw [hcommits]
    rcases List.mem_append.mp hmem with hold | hnew
    · exact hlinear.left client result hold
    · exact hleft client result (List.mem_singleton.mp hnew).symm

/-- Recording a commit: what it wrote is its client's atomic effect on the
value, with a clock reading no older than those before, by a client of which the
trace shows the start only. -/
theorem Linearized.commit [Preorder Clock]
    (hlinear : Linearized effect initial value trace)
    {client : Client} {now : Clock} {result : Result}
    (hatomic : effect client value now = some (next, result))
    (hreadings : ∀ commit ∈ commits trace, commit.now ≤ now)
    (hunfinished : Unfinished client trace) :
    Linearized effect initial next
      (trace ++ [.committed client now result]) := by
  have hcommits : commits (trace ++ [.committed client now result]) =
      commits trace ++ [⟨client, now, result⟩] := commits_concat _ _
  refine ⟨?_, ?_, ?_, ?_, ?_, ?_, ?_⟩
  · rw [hcommits]
    exact hlinear.executes.concat hatomic
  · rw [hcommits, List.pairwise_append]
    refine ⟨hlinear.readings, List.pairwise_singleton _ _, ?_⟩
    intro commit hcommit newest hnewest
    obtain rfl := List.mem_singleton.mp hnewest
    exact hreadings commit hcommit
  · rw [hcommits, List.map_append, List.map_singleton, List.nodup_append]
    refine ⟨hlinear.once, by simp, ?_⟩
    intro earlier hearlier newest hnewest
    obtain ⟨commit, hcommit, rfl⟩ := List.mem_map.mp hearlier
    obtain rfl := List.mem_singleton.mp hnewest
    exact hunfinished.not_committed commit hcommit
  · intro client' now' result'
    refine (hlinear.started client' now' result').concat fun hnewest => ?_
    cases hnewest
    exact ⟨_, hunfinished.1, rfl⟩
  · intro client' now' result' answer
    refine (hlinear.ended client' now' result' answer).concat fun hnewest => ?_
    cases hnewest
    rintro witness hwitness rfl
    cases hunfinished.2 _ hwitness rfl
  · intro client' result'
    exact (hlinear.answered client' result').concat (by simp)
  · intro client' result' hmem commit hcommit
    rw [hcommits] at hcommit
    have hold : .left client' result' ∈ trace := by simpa using hmem
    rcases List.mem_append.mp hcommit with hearlier | hnewest
    · exact hlinear.left client' result' hold commit hearlier
    · obtain rfl := List.mem_singleton.mp hnewest
      rintro rfl
      cases hunfinished.2 _ hold rfl

/-- A client that committed answers with the result of its commit. -/
theorem Linearized.answer_eq [LE Clock]
    (hlinear : Linearized effect initial value trace)
    {commit : Commit Client Clock Result} (hcommit : commit ∈ commits trace)
    {answer : Result} (hanswer : .returned commit.client answer ∈ trace) :
    answer = commit.result := by
  obtain ⟨before, after, hsplit⟩ := List.append_of_mem hanswer
  obtain ⟨event, hbefore, hanswers⟩ :=
    hlinear.answered _ _ before _ after hsplit rfl
  have hevent : event ∈ trace := by
    rw [hsplit]
    exact List.mem_append_left _ hbefore
  rcases hanswers with ⟨now, rfl⟩ | rfl
  · have hother : ⟨commit.client, now, answer⟩ ∈ commits trace :=
      mem_commits.mpr hevent
    have hsame := List.inj_on_of_nodup_map hlinear.once hother hcommit rfl
    rw [← hsame]
  · exact absurd rfl (hlinear.left _ _ hevent commit hcommit)

end Linearized

/-! ## The invariant of every interleaving -/

/-- What a client's phase says about the shared state: what it read is current
unless the version moved on, and the trace shows how far it got. -/
def PhaseOk [LE Clock] (transaction : Client → Transaction Value Clock Result)
    (state : State Client Value Clock Result) (client : Client) :
    Phase Value Clock Result → Prop
  | .idle => ∀ event ∈ state.trace, event.client ≠ client
  | .started => Unfinished client state.trace
  | .leaving _ => Unfinished client state.trace
  | .watching seen => Unfinished client state.trace ∧ seen ≤ state.version
  | .holding seen snapshot =>
      Unfinished client state.trace ∧ seen ≤ state.version ∧
        (transaction client).peek snapshot = none ∧
        (seen = state.version → snapshot = state.value)
  | .ready seen now value result =>
      Unfinished client state.trace ∧ seen ≤ state.version ∧
        now ≤ state.clock ∧
        (seen = state.version →
          (transaction client).atomic state.value now = some (value, result) ∧
          ∀ commit ∈ commits state.trace, commit.now ≤ now)
  | .finished result => ∃ event ∈ state.trace, Answers client result event
  | .returned => True

/-- `next` differs from `state` for `client` at most by what other clients did:
a write of theirs moves the version on. -/
structure Elsewhere [LE Clock] (client : Client)
    (state next : State Client Value Clock Result) : Prop where
  clock : state.clock ≤ next.clock
  version : state.version ≤ next.version
  value : state.version = next.version → next.value = state.value
  commits : state.version = next.version →
    commits next.trace = commits state.trace
  kept : ∀ event ∈ state.trace, event ∈ next.trace
  own : ∀ event ∈ next.trace, event.client = client → event ∈ state.trace

section Frame

variable [Preorder Clock] {transaction : Client → Transaction Value Clock Result}
variable {state next : State Client Value Clock Result} {client : Client}

theorem Elsewhere.unfinished (helsewhere : Elsewhere client state next)
    (hunfinished : Unfinished client state.trace) :
    Unfinished client next.trace := by
  refine ⟨helsewhere.kept _ hunfinished.1, ?_⟩
  intro event hevent hclient
  exact hunfinished.2 event (helsewhere.own event hevent hclient) hclient

/-- A client that watched no later than now and finds its version unmoved saw
nothing happen. -/
theorem Elsewhere.unmoved (helsewhere : Elsewhere client state next) {seen : ℕ}
    (hseen : seen ≤ state.version) (hnow : seen = next.version) :
    seen = state.version ∧ state.version = next.version := by
  have := helsewhere.version
  omega

/-- The frame rule: what other clients do keeps a client's phase sound. -/
theorem PhaseOk.frame {phase : Phase Value Clock Result}
    (helsewhere : Elsewhere client state next)
    (hphase : PhaseOk transaction state client phase) :
    PhaseOk transaction next client phase := by
  cases phase with
  | idle =>
      intro event hevent hclient
      exact hphase event (helsewhere.own event hevent hclient) hclient
  | started => exact helsewhere.unfinished hphase
  | leaving result => exact helsewhere.unfinished hphase
  | watching seen =>
      exact ⟨helsewhere.unfinished hphase.1,
        hphase.2.trans helsewhere.version⟩
  | holding seen snapshot =>
      obtain ⟨hunfinished, hseen, hpeek, hcurrent⟩ := hphase
      refine ⟨helsewhere.unfinished hunfinished,
        hseen.trans helsewhere.version, hpeek, fun hnow => ?_⟩
      obtain ⟨hwas, hsame⟩ := helsewhere.unmoved hseen hnow
      rw [helsewhere.value hsame]
      exact hcurrent hwas
  | ready seen now value result =>
      obtain ⟨hunfinished, hseen, hpast, hcurrent⟩ := hphase
      refine ⟨helsewhere.unfinished hunfinished,
        hseen.trans helsewhere.version, hpast.trans helsewhere.clock,
        fun hnow => ?_⟩
      obtain ⟨hwas, hsame⟩ := helsewhere.unmoved hseen hnow
      rw [helsewhere.value hsame, helsewhere.commits hsame]
      exact hcurrent hwas
  | finished result =>
      obtain ⟨event, hevent, hanswers⟩ := hphase
      exact ⟨event, helsewhere.kept event hevent, hanswers⟩
  | returned => exact hphase

end Frame

/-- The invariant: the committed transactions are linearized, no clock reading
lies ahead of the clock, and every client's phase is sound. -/
structure Inv [LE Clock] (transaction : Client → Transaction Value Clock Result)
    (initial : Value) (state : State Client Value Clock Result) : Prop where
  linear : Linearized (fun client => (transaction client).atomic) initial
    state.value state.trace
  past : ∀ commit ∈ commits state.trace, commit.now ≤ state.clock
  phases : ∀ client, PhaseOk transaction state client (state.phase client)

section Inv

variable [DecidableEq Client] [LinearOrder Clock]
variable {transaction : Client → Transaction Value Clock Result}
variable {initial : Value} {state next : State Client Value Clock Result}

omit [DecidableEq Client] in
theorem inv_start (initial : Value) (clock : Clock) :
    Inv transaction initial (start initial clock) where
  linear := linearized_start
  past _ hcommit := absurd hcommit List.not_mem_nil
  phases _ _ hevent := absurd hevent List.not_mem_nil

/-- A step that only moves one client, to a sound phase. -/
theorem Inv.move (hinv : Inv transaction initial state) {client : Client}
    {phase : Phase Value Clock Result}
    (hphase : PhaseOk transaction state client phase) :
    Inv transaction initial (state.move client phase) where
  linear := hinv.linear
  past := hinv.past
  phases other := by
    have helsewhere : Elsewhere other state (state.move client phase) :=
      ⟨le_rfl, le_rfl, fun _ => rfl, fun _ => rfl, fun _ h => h,
        fun _ h _ => h⟩
    rcases eq_or_ne other client with rfl | hother
    · simpa [State.move] using hphase.frame helsewhere
    · simpa [State.move, hother] using (hinv.phases other).frame helsewhere

/-- A step that moves one client and records an event of its that is no commit. -/
theorem Inv.moveRecord (hinv : Inv transaction initial state) {client : Client}
    {phase : Phase Value Clock Result} {event : Event Client Clock Result}
    (hclient : event.client = client) (hevent : event.commit = none)
    (hphase : PhaseOk transaction (state.record event) client phase)
    (hlinear : Linearized (fun client => (transaction client).atomic) initial
      state.value (state.trace ++ [event])) :
    Inv transaction initial ((state.move client phase).record event) := by
  have hcommits := commits_record state.trace hevent
  refine ⟨hlinear, ?_, ?_⟩
  · intro commit hcommit
    exact hinv.past commit (hcommits ▸ hcommit)
  · intro other
    rcases eq_or_ne other client with rfl | hother
    · have hframe : Elsewhere other (state.record event)
          ((state.move other phase).record event) :=
        ⟨le_rfl, le_rfl, fun _ => rfl, fun _ => rfl, fun _ h => h,
          fun _ h _ => h⟩
      simpa [State.move, State.record] using hphase.frame hframe
    · have hframe : Elsewhere other state
          ((state.move client phase).record event) := by
        refine ⟨le_rfl, le_rfl, fun _ => rfl, fun _ => hcommits,
          fun _ h => List.mem_append_left _ h, ?_⟩
        intro event' hevent' hclient'
        rcases List.mem_append.mp hevent' with hold | hnew
        · exact hold
        · obtain rfl := List.mem_singleton.mp hnew
          exact absurd (hclient'.symm.trans hclient) hother
      simpa [State.move, State.record, hother] using
        (hinv.phases other).frame hframe

/-- A commit that is not refused: nothing was written since the client began to
watch, so what it read is still there. -/
theorem Inv.commit (hinv : Inv transaction initial state) {client : Client}
    {now : Clock} {value : Value} {result : Result}
    (hphase : PhaseOk transaction state client
      (.ready state.version now value result)) :
    Inv transaction initial
      (((state.store value).move client (.finished result)).record
        (.committed client now result)) := by
  obtain ⟨hunfinished, -, hpast, hcurrent⟩ := hphase
  obtain ⟨hatomic, hreadings⟩ := hcurrent rfl
  refine ⟨hinv.linear.commit hatomic hreadings hunfinished, ?_, ?_⟩
  · intro commit hcommit
    rcases List.mem_append.mp (commits_concat .. ▸ hcommit) with hold | hnew
    · exact hinv.past commit hold
    · obtain rfl := List.mem_singleton.mp hnew
      exact hpast
  · intro other
    rcases eq_or_ne other client with rfl | hother
    · simp only [State.move, State.record, State.store, Function.update_self]
      exact ⟨.committed other now result, by simp, .inl ⟨now, rfl⟩⟩
    · have hframe : Elsewhere other state
          (((state.store value).move client (.finished result)).record
            (.committed client now result)) := by
        refine ⟨le_rfl, Nat.le_succ _, fun h => absurd h (Nat.lt_succ_self _).ne,
          fun h => absurd h (Nat.lt_succ_self _).ne,
          fun _ h => List.mem_append_left _ h, ?_⟩
        intro event hevent hclient
        rcases List.mem_append.mp hevent with hold | hnew
        · exact hold
        · obtain rfl := List.mem_singleton.mp hnew
          exact absurd hclient.symm hother
      simpa [State.move, State.record, State.store, hother] using
        (hinv.phases other).frame hframe

omit [DecidableEq Client] in
theorem Inv.tick (hinv : Inv transaction initial state) {now : Clock}
    (hnow : state.clock ≤ now) :
    Inv transaction initial { state with clock := now } where
  linear := hinv.linear
  past commit hcommit := (hinv.past commit hcommit).trans hnow
  phases client := (hinv.phases client).frame
    ⟨hnow, le_rfl, fun _ => rfl, fun _ => rfl, fun _ h => h, fun _ h _ => h⟩

/-- A call begins: nothing of its client is on record. -/
theorem Inv.invoke (hinv : Inv transaction initial state) {client : Client}
    (hstep : step transaction state (.invoke client) = some next) :
    Inv transaction initial next := by
  have hphase := hinv.phases client
  cases hwhere : state.phase client <;>
    simp only [step, hwhere, Option.some.injEq, reduceCtorEq] at hstep hphase
  subst hstep
  refine hinv.moveRecord rfl rfl ⟨by simp [State.record], ?_⟩
    (hinv.linear.record rfl (by simp) (by simp))
  intro event hevent hclient
  rcases List.mem_append.mp hevent with hold | hnew
  · exact absurd hclient (hphase event hold)
  · exact List.mem_singleton.mp hnew

/-- The clock is read, and what is to be written computed: so it would be in one step, if
nothing is written meanwhile. -/
theorem Inv.readClock (hinv : Inv transaction initial state) {client : Client}
    (hstep : step transaction state (.readClock client) = some next) :
    Inv transaction initial next := by
  have hphase := hinv.phases client
  cases hwhere : state.phase client <;>
    simp only [step, hwhere, reduceCtorEq] at hstep hphase
  obtain ⟨hunfinished, hseen, hpeek, hcurrent⟩ := hphase
  split at hstep <;> simp only [Option.some.injEq] at hstep <;> subst hstep
  · exact hinv.move hunfinished
  · refine hinv.move ⟨hunfinished, hseen, le_rfl, fun hnow => ⟨?_, hinv.past⟩⟩
    rw [← hcurrent hnow]
    exact Transaction.atomic_of_write hpeek ‹_›

/-- A call that writes nothing leaves. -/
theorem Inv.unwatch (hinv : Inv transaction initial state) {client : Client}
    (hstep : step transaction state (.unwatch client) = some next) :
    Inv transaction initial next := by
  have hphase := hinv.phases client
  cases hwhere : state.phase client <;>
    simp only [step, hwhere, Option.some.injEq, reduceCtorEq] at hstep hphase
  subst hstep
  refine hinv.moveRecord rfl rfl ⟨_, by simp [State.record], .inr rfl⟩
    (hinv.linear.record rfl (by simp) ?_)
  intro leaver result hleft
  cases hleft
  exact hphase.not_committed

/-- The step lemma. -/
theorem inv_step {label : Label Client Clock}
    (hinv : Inv transaction initial state)
    (hstep : step transaction state label = some next) :
    Inv transaction initial next := by
  cases label with
  | tick now =>
      simp only [step, Option.ite_none_right_eq_some, Option.some.injEq] at hstep
      obtain ⟨hnow, rfl⟩ := hstep
      exact hinv.tick hnow
  | invoke client => exact hinv.invoke hstep
  | watch client =>
      have hphase := hinv.phases client
      cases hwhere : state.phase client <;>
        simp only [step, hwhere, Option.some.injEq, reduceCtorEq] at hstep hphase
      subst hstep
      exact hinv.move ⟨hphase, le_rfl⟩
  | read client =>
      have hphase := hinv.phases client
      cases hwhere : state.phase client <;>
        simp only [step, hwhere, reduceCtorEq] at hstep hphase
      split at hstep <;> simp only [Option.some.injEq] at hstep <;> subst hstep
      · exact hinv.move hphase.1
      · exact hinv.move ⟨hphase.1, hphase.2, ‹_›, fun _ => rfl⟩
  | readClock client => exact hinv.readClock hstep
  | exec client =>
      have hphase := hinv.phases client
      cases hwhere : state.phase client <;>
        simp only [step, hwhere, reduceCtorEq] at hstep hphase
      split at hstep <;> simp only [Option.some.injEq] at hstep <;> subst hstep
      case isTrue hseen =>
        subst hseen
        exact hinv.commit hphase
      case isFalse => exact hinv.move hphase.1
  | unwatch client => exact hinv.unwatch hstep
  | ret client =>
      have hphase := hinv.phases client
      cases hwhere : state.phase client <;>
        simp only [step, hwhere, Option.some.injEq, reduceCtorEq] at hstep hphase
      subst hstep
      refine hinv.moveRecord rfl rfl trivial
        (hinv.linear.record rfl ?_ (by simp))
      intro caller result hreturned
      cases hreturned
      exact hphase

/-- Every interleaving of the clients is linearized. -/
theorem linearized_of_reaches {clock : Clock}
    (hrun : Reaches (step transaction) unrestricted (start initial clock) state) :
    Linearized (fun client => (transaction client).atomic) initial state.value
      state.trace :=
  (hrun.invariant (inv_start initial clock)
    fun _ _ _ hinv _ hstep => inv_step hinv hstep).linear

/-- Only a commit writes: every other step leaves the value, its version and the
commits as they are. -/
theorem step_value {label : Label Client Clock}
    (hstep : step transaction state label = some next) :
    (∃ client now result,
      next.trace = state.trace ++ [.committed client now result]) ∨
    (next.value = state.value ∧ next.version = state.version ∧
      commits next.trace = commits state.trace) := by
  cases label with
  | tick now =>
      simp only [step, Option.ite_none_right_eq_some, Option.some.injEq] at hstep
      obtain ⟨-, rfl⟩ := hstep
      exact .inr ⟨rfl, rfl, rfl⟩
  | exec client =>
      cases hwhere : state.phase client <;>
        simp only [step, hwhere, reduceCtorEq] at hstep
      split at hstep <;> simp only [Option.some.injEq] at hstep <;> subst hstep
      · exact .inl ⟨_, _, _, rfl⟩
      · exact .inr ⟨rfl, rfl, rfl⟩
  | invoke client | unwatch client | ret client =>
      cases hwhere : state.phase client <;>
        simp only [step, hwhere, Option.some.injEq, reduceCtorEq] at hstep
      subst hstep
      exact .inr ⟨rfl, rfl, commits_record _ rfl⟩
  | watch client =>
      cases hwhere : state.phase client <;>
        simp only [step, hwhere, Option.some.injEq, reduceCtorEq] at hstep
      subst hstep
      exact .inr ⟨rfl, rfl, rfl⟩
  | read client | readClock client =>
      cases hwhere : state.phase client <;>
        simp only [step, hwhere, reduceCtorEq] at hstep
      split at hstep <;> simp only [Option.some.injEq] at hstep <;> subst hstep
      · exact .inr ⟨rfl, rfl, rfl⟩
      · exact .inr ⟨rfl, rfl, rfl⟩

end Inv

end DownloaderBot.OptimisticLock
