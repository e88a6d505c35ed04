import DownloaderBot.Core.TransitionSystem
import DownloaderBot.Download.ZipMembers

/-!
# Who releases the responses

An open response passes from `_members` into the generator of a member's chunks, and
from there on is released by that generator's `finally`, which runs only if the
consumer ever started it.  The machine below lets a consumer pull member tuples, read
chunks and close generators in any order.
-/

namespace DownloaderBot.ZipPipeline

open DownloaderBot.Calendar
open DownloaderBot.Discord
open DownloaderBot.Generator
open DownloaderBot.Program
open DownloaderBot.TransitionSystem

/-! ## The consumer's steps -/

/-- A member tuple the consumer has obtained: the call of `_stream_response` in it, the
generator, and whether it was ever started. -/
structure Held where
  chunks : Chunks
  gen : Gen Reply Exn Chunk
  started : Bool

/-- The generator of `_peek_or_raise_empty`, the tuples it has handed on, the newest
first, and the calls so far. -/
structure State where
  peek : Gen Reply Exn MemberTuple
  held : List Held
  log : Log

/-- `read` and `closeChunks` name a tuple by its place in the list. -/
inductive Label
  | pull
  | read (index : ℕ)
  | closeChunks (index : ℕ)
  | closePeek
  deriving DecidableEq, Repr

/-- What closing a generator raises that yields again. -/
def ignoredExit : Exn := .other "async generator ignored GeneratorExit"

/-- The generator after a call of `__anext__`. -/
def genAfter {Item : Type} :
    Except Exn (Option (Item × Resume Reply Exn Item)) → Gen Reply Exn Item
  | .ok (some (_, resume)) => .suspended resume
  | .ok none | .error _ => .finished

/-- The generator of a tuple after it was asked for a chunk. -/
def Held.read (held : Held)
    (outcome : Except Exn (Option (Chunk × Resume Reply Exn Chunk))) : Held :=
  { held with
    gen := genAfter outcome
    started := match held.gen with
      | .finished => held.started
      | .unstarted _ | .suspended _ => true }

section Machine

variable (environment : Environment)

def step (state : State) : Label → Option State
  | .pull =>
      let pulled := state.peek.next.exec environment.serve state.log
      some
        { peek := genAfter pulled.1
          held := match pulled.1 with
            | .ok (some (member, _)) =>
                ⟨member.chunks, .unstarted (streamResponse member.chunks), false⟩ :: state.held
            | .ok none | .error _ => state.held
          log := pulled.2 }
  | .read index =>
      (state.held[index]?).map fun held =>
        let read := held.gen.next.exec environment.serve state.log
        { state with held := state.held.set index (held.read read.1), log := read.2 }
  | .closeChunks index =>
      (state.held[index]?).map fun held =>
        { state with
          held := state.held.set index { held with gen := .finished }
          log := ((held.gen.close .generatorExit ignoredExit).exec environment.serve
            state.log).2 }
  | .closePeek =>
      some { state with
        peek := .finished
        log := ((state.peek.close .generatorExit ignoredExit).exec environment.serve
          state.log).2 }

def start (rounding : Rounding) (timeSnowflake : DateTime → Bool → ℤ)
    (arguments : Arguments) : State :=
  ⟨.unstarted (buildZipStream rounding timeSnowflake arguments), [], []⟩

/-- The consumer is through with every generator. -/
def State.Closed (state : State) : Prop :=
  state.peek = .finished ∧ ∀ held ∈ state.held, held.gen = .finished

/-- Every response whose GET succeeded has been released. -/
def State.AllReleased (state : State) : Prop :=
  ∀ count < (urls state.log).length, ∀ reception,
    environment.network count = .ok reception → .release ⟨count, reception⟩ ∈ state.log

/-- The consumer has asked every tuple it obtained for a chunk. -/
def State.AllStarted (state : State) : Prop :=
  ∀ held ∈ state.held, held.started = true

end Machine

/-! ## The generator of the chunks -/

section Stream

variable (environment : Environment) (chunks : Chunks)

/-- `_stream_response`, with these pieces of the body still to come. -/
def guarded (body : Body Reply Exn Chunk Unit) : Body Reply Exn Chunk Unit :=
  (body.tryExcept Exn.isClientError fun exception =>
    .raise (.attachmentStreamError ("Stream of '" ++ chunks.filename ++
      "' failed mid-flight: " ++ exception.text))).tryFinally
    fun _ => lift (ask (.release chunks.response))

/-- The generator at the yield before these pieces. -/
def streamRest (pieces : List Chunk) : Resume Reply Exn Chunk := fun outcome =>
  guarded chunks ((Prog.ofExcept outcome).bind fun _ =>
    readChunks chunks.response.reception.failure pieces)

/-- However the body ends, the response is released then. -/
theorem exec_guarded_end (ended : Except Exn Unit) (log : Log) :
    let run := (advance (guarded chunks (Prog.ofExcept ended))).exec environment.serve log
    genAfter run.1 = .finished ∧ run.2 = log ++ [.release chunks.response] := by
  rcases ended with exception | _
  · cases exception <;> exact ⟨rfl, rfl⟩
  · exact ⟨rfl, rfl⟩

/-- Asked for a chunk, the generator yields one and is as it was, or ends and has
released the response. -/
theorem exec_advance_streamRest (pieces : List Chunk) (log : Log) :
    let run := (advance (streamRest chunks pieces (.ok ()))).exec environment.serve log
    (genAfter run.1 = .finished ∧ run.2 = log ++ [.release chunks.response]) ∨
      ∃ rest, genAfter run.1 = .suspended (streamRest chunks rest) ∧ run.2 = log := by
  cases pieces with
  | nil =>
      left
      cases hfailure : chunks.response.reception.failure with
      | none =>
          simp only [streamRest, readChunks, hfailure]
          exact exec_guarded_end environment chunks (.ok ()) log
      | some exception =>
          simp only [streamRest, readChunks, hfailure]
          exact exec_guarded_end environment chunks (.error exception) log
  | cons piece rest => exact .inr ⟨rest, rfl, rfl⟩

/-- Closed at a yield, it has released the response. -/
theorem exec_close_streamRest (pieces : List Chunk) (log : Log) :
    (((Gen.suspended (streamRest chunks pieces)).close .generatorExit ignoredExit).exec
      environment.serve log).2 = log ++ [.release chunks.response] := by
  rfl

end Stream

/-! ## The walk settles its responses -/

/-- What the walk sees of its consumer: the calls, the responses it has handed on, and
those of them whose generator was started. -/
structure Desk where
  log : Log
  held : List ℕ
  freed : List ℕ

section Walk

variable (environment : Environment)

def Desk.serve (desk : Desk) (request : Request) : Except Exn (Reply request) × Desk :=
  ((environment.serve desk.log request).1,
    { desk with log := (environment.serve desk.log request).2 })

/-- Every response is released or handed on, and of those with status 200 only started
ones are released. -/
structure Settled (desk : Desk) : Prop where
  covered : ∀ count < (urls desk.log).length, ∀ reception,
    environment.network count = .ok reception →
      .release ⟨count, reception⟩ ∈ desk.log ∨ count ∈ desk.held
  held_lt : ∀ count ∈ desk.held, count < (urls desk.log).length
  freed : ∀ response, .release response ∈ desk.log → response.reception.status = 200 →
    response.id ∈ desk.freed

/-- The consumer works on its tuples: it makes no GET, and releases what it starts. -/
structure Between (desk after : Desk) : Prop where
  held : after.held = desk.held
  gets : urls after.log = urls desk.log
  log : desk.log ⊆ after.log
  freed : desk.freed ⊆ after.freed
  released : ∀ response, .release response ∈ after.log →
    .release response ∈ desk.log ∨ response.id ∈ after.freed

/-- The desk after a tuple is handed on. -/
def Desk.hand (desk : Desk) (member : MemberTuple) : Desk :=
  { desk with held := member.chunks.response.id :: desk.held }

/-- A tuple is handed on with the response of the latest GET. -/
structure Hands (desk : Desk) (member : MemberTuple) : Prop where
  answered : environment.network member.chunks.response.id =
    .ok member.chunks.response.reception
  streamed : member.chunks.response.reception.status = 200
  latest : ∀ count ∈ desk.held, count < member.chunks.response.id
  settled : Settled environment (desk.hand member)

def Meanwhile (desk : Desk) (member : MemberTuple) (after : Desk) : Prop :=
  Between (desk.hand member) after

/-- From a settled desk, a part of the walk hands on what it must and leaves the desk
settled. -/
def Safe {α : Type} (body : Body Reply Exn MemberTuple α) : Prop :=
  ∀ desk, Settled environment desk →
    Keeps (Desk.serve environment) (Hands environment) Meanwhile body
      (fun after _ => Settled environment after) desk

variable {environment} {desk after : Desk}

theorem Between.refl : Between desk desk :=
  ⟨rfl, rfl, fun _ h => h, fun _ h => h, fun _ h => .inl h⟩

theorem Between.trans {last : Desk} (hfirst : Between desk after)
    (hsecond : Between after last) : Between desk last where
  held := hsecond.held.trans hfirst.held
  gets := hsecond.gets.trans hfirst.gets
  log := List.Subset.trans hfirst.log hsecond.log
  freed := List.Subset.trans hfirst.freed hsecond.freed
  released response hresponse := by
    rcases hsecond.released response hresponse with hbefore | hfreed
    · exact (hfirst.released response hbefore).imp_right fun hfreed => hsecond.freed hfreed
    · exact .inr hfreed

theorem Settled.between (hsettled : Settled environment desk) (hbetween : Between desk after) :
    Settled environment after where
  covered count hcount reception hanswer := by
    rw [hbetween.gets] at hcount
    rw [hbetween.held]
    exact (hsettled.covered count hcount reception hanswer).imp_left fun h => hbetween.log h
  held_lt count hcount := by
    rw [hbetween.gets]
    rw [hbetween.held] at hcount
    exact hsettled.held_lt count hcount
  freed response hresponse hstatus := by
    rcases hbetween.released response hresponse with hbefore | hfreed
    · exact hbetween.freed (hsettled.freed response hbefore hstatus)
    · exact hfreed

theorem exec_desk {α : Type} (program : Prog Reply Exn α) (desk : Desk) :
    program.exec (Desk.serve environment) desk =
      ((program.exec environment.serve desk.log).1,
        { desk with log := (program.exec environment.serve desk.log).2 }) := by
  induction program generalizing desk with
  | ret value => rfl
  | raise exception => rfl
  | call request next ih => exact ih _ _

theorem Safe.bind {α β : Type} {body : Body Reply Exn MemberTuple α}
    {rest : α → Body Reply Exn MemberTuple β} (hbody : Safe environment body)
    (hrest : ∀ value, Safe environment (rest value)) : Safe environment (body.bind rest) := by
  intro desk hsettled
  refine keeps_bind.mpr ((hbody desk hsettled).mono fun after outcome hafter => ?_)
  cases outcome with
  | ok value => exact hrest value after hafter
  | error exception => exact hafter

/-- A call that neither opens nor releases a response. -/
def Idle : Request → Prop
  | .get _ | .release _ => False
  | .oldest | .history _ _ | .monotonic | .onProgress _ => True

theorem Settled.idle {request : Request} (hsettled : Settled environment desk)
    (hidle : Idle request) :
    Settled environment { desk with log := desk.log ++ [request] } := by
  have hgets : urls (desk.log ++ [request]) = urls desk.log := by
    cases request <;> simp_all [Idle]
  have hrelease : ∀ response, .release response ∈ desk.log ++ [request] →
      .release response ∈ desk.log := by
    intro response hresponse
    rcases List.mem_append.mp hresponse with hbefore | hlast
    · exact hbefore
    · rw [← List.mem_singleton.mp hlast] at hidle
      exact absurd hidle not_false
  exact ⟨fun count hcount reception hanswer =>
      (hsettled.covered count (by rwa [hgets] at hcount) reception hanswer).imp_left
        fun h => List.mem_append_left _ h,
    fun count hcount => by simpa [hgets] using hsettled.held_lt count hcount,
    fun response hresponse => hsettled.freed response (hrelease response hresponse)⟩

theorem safe_lift {α : Type} {program : Prog Reply Exn α} (honly : program.Only Idle) :
    Safe environment (lift program) := by
  intro desk hsettled
  refine keeps_lift.mpr ?_
  induction program generalizing desk with
  | ret value => exact hsettled
  | raise exception => exact hsettled
  | call request next ih => exact ih _ (honly.2 _) _ (hsettled.idle honly.1)

/-- The calls of a pre-flight from a settled desk. -/
def Desk.preflighted (environment : Environment) (desk : Desk) (url : String) : Desk :=
  { desk with log := desk.log ++ environment.preflightLog (urls desk.log).length url }

theorem fetched_eq_some {count : ℕ} {response : Response}
    (hsome : environment.fetched count = .ok (some response)) :
    ∃ reception, environment.network count = .ok reception ∧ reception.status = 200 ∧
      response = ⟨count, reception⟩ := by
  rw [Environment.fetched] at hsome
  split at hsome
  case h_1 reception hanswer =>
    obtain ⟨hstatus, heq⟩ := Option.ite_none_right_eq_some.mp (Except.ok.inj hsome)
    exact ⟨reception, hanswer, hstatus, (Option.some.inj heq).symm⟩
  case h_2 => split at hsome <;> cases hsome

/-- A pre-flight without a response to stream leaves the desk settled. -/
theorem Settled.preflighted {url : String} (hsettled : Settled environment desk)
    (hnone : ∀ response, environment.fetched (urls desk.log).length ≠ .ok (some response)) :
    Settled environment (desk.preflighted environment url) := by
  have hcount : (urls (desk.preflighted environment url).log).length =
      (urls desk.log).length + 1 := by
    simp [Desk.preflighted, urls_preflightLog]
  refine ⟨fun count hlt reception hanswer => ?_, fun count hheld => ?_,
    fun response hresponse hstatus => ?_⟩
  · rw [hcount] at hlt
    rcases Nat.lt_succ_iff_lt_or_eq.mp hlt with hbefore | rfl
    · exact (hsettled.covered count hbefore reception hanswer).imp_left fun h =>
        List.mem_append_left _ h
    · have hstatus : reception.status ≠ 200 := by
        intro hstatus
        apply hnone ⟨(urls desk.log).length, reception⟩
        rw [Environment.fetched, hanswer]
        simp [hstatus]
      left
      refine List.mem_append_right _ ?_
      rw [Environment.preflightLog, hanswer]
      simp [hstatus]
  · rw [hcount]
    exact (hsettled.held_lt count hheld).trans (Nat.lt_succ_self _)
  · refine hsettled.freed response ?_ hstatus
    rcases List.mem_append.mp hresponse with hbefore | hnew
    · exact hbefore
    · rw [Environment.preflightLog] at hnew
      split at hnew
      · split at hnew
        · simp at hnew
        · simp only [List.mem_cons, reduceCtorEq, Request.release.injEq, List.not_mem_nil,
            or_false, false_or] at hnew
          subst hnew
          contradiction
      · simp at hnew

/-- A pre-flight with a response to stream makes a tuple to hand on. -/
theorem Settled.hands_preflighted {message : Message} {attachment : Attachment}
    {response : Response} (hsettled : Settled environment desk)
    (hsome : environment.fetched (urls desk.log).length = .ok (some response)) :
    Hands environment (desk.preflighted environment attachment.url)
      (memberTuple message attachment response) := by
  obtain ⟨reception, hanswer, hstatus, rfl⟩ := fetched_eq_some hsome
  have hlog : (desk.preflighted environment attachment.url).log =
      desk.log ++ [.get attachment.url] := by
    rw [Desk.preflighted, Environment.preflightLog, hanswer]
    simp [hstatus]
  have hcount : (urls (desk.preflighted environment attachment.url).log).length =
      (urls desk.log).length + 1 := by
    simp [hlog]
  refine ⟨hanswer, hstatus, hsettled.held_lt, fun count hlt other hother => ?_,
    fun count hheld => ?_, fun response hresponse hok => ?_⟩
  · replace hlt : count < (urls desk.log).length + 1 := hcount ▸ hlt
    rcases Nat.lt_succ_iff_lt_or_eq.mp hlt with hbefore | rfl
    · refine (hsettled.covered count hbefore other hother).imp (fun h => ?_) fun h => .tail _ h
      exact List.mem_append_left _ h
    · exact .inr (.head _)
  · refine lt_of_lt_of_eq ?_ hcount.symm
    rcases List.mem_cons.mp hheld with rfl | hbefore
    · exact Nat.lt_succ_self _
    · exact (hsettled.held_lt count hbefore).trans (Nat.lt_succ_self _)
  · refine hsettled.freed response ?_ hok
    replace hresponse : .release response ∈ desk.log ++ [.get attachment.url] :=
      hlog ▸ hresponse
    simpa using hresponse

theorem safe_attachmentLoop (arguments : Arguments) (message : Message)
    (attachments : List Attachment) (tally : Tally) :
    Safe environment (attachmentLoop arguments message attachments tally) := by
  induction attachments generalizing tally with
  | nil => exact fun desk hsettled => hsettled
  | cons attachment rest ih =>
      rw [attachmentLoop]
      split
      case isFalse => exact ih tally
      case isTrue =>
        intro desk hsettled
        refine keeps_bind.mpr (keeps_lift.mpr ?_)
        rw [exec_desk, exec_preflight]
        dsimp only
        cases hfetched : environment.fetched (urls desk.log).length with
        | error exception => exact hsettled.preflighted (by simp [hfetched])
        | ok fetched =>
            cases fetched with
            | none => exact ih tally _ (hsettled.preflighted (by simp [hfetched]))
            | some response =>
                have hhands : Hands environment (desk.preflighted environment attachment.url)
                    (memberTuple message attachment response) :=
                  hsettled.hands_preflighted hfetched
                refine ⟨hhands, fun after hmeanwhile outcome => ?_⟩
                have hafter := hhands.settled.between hmeanwhile
                cases outcome with
                | ok _ => exact ih _ after hafter
                | error exception => exact hafter

theorem only_idle_ask (request : Request) (hidle : Idle request) :
    (ask request).Only Idle :=
  Prog.only_perform hidle

theorem only_idle_report (rounding : Rounding) (arguments : Arguments)
    (bounds : Option ℤ × Option ℤ) (message : Message) (tally : Tally) :
    (report rounding arguments bounds message tally).Only Idle := by
  rw [report]
  split
  case isFalse => trivial
  case isTrue =>
    refine (only_idle_ask .monotonic trivial).bind fun now => ?_
    split
    · exact ((only_idle_ask (.onProgress _) trivial).tryExcept fun _ => by trivial).bind
        fun _ => by trivial
    · trivial

theorem only_idle_resolveSnowflakeBounds (timeSnowflake : DateTime → Bool → ℤ)
    (arguments : Arguments) : (resolveSnowflakeBounds timeSnowflake arguments).Only Idle := by
  rw [resolveSnowflakeBounds]
  split
  · trivial
  · exact ((only_idle_ask .oldest trivial).tryExcept fun _ => by trivial).bind fun _ => by trivial

theorem safe_messageLoop (rounding : Rounding) (arguments : Arguments)
    (bounds : Option ℤ × Option ℤ) (messages : List Message) (tally : Tally) :
    Safe environment (messageLoop rounding arguments bounds messages tally) := by
  induction messages generalizing tally with
  | nil => exact fun desk hsettled => hsettled
  | cons message rest ih =>
      exact (safe_lift (only_idle_report rounding arguments bounds message tally)).bind
        fun tally => (safe_attachmentLoop arguments message message.attachments tally).bind ih

theorem safe_members (rounding : Rounding) (timeSnowflake : DateTime → Bool → ℤ)
    (arguments : Arguments) : Safe environment (members rounding timeSnowflake arguments) := by
  refine (safe_lift ?_).bind fun bounds =>
    (safe_lift (only_idle_ask .monotonic trivial)).bind fun lastEmit =>
      (safe_lift (only_idle_ask (.history _ _) trivial)).bind fun history =>
        (safe_messageLoop rounding arguments bounds history.messages _).bind fun _ => ?_
  · split
    · exact only_idle_resolveSnowflakeBounds timeSnowflake arguments
    · trivial
  · split <;> exact fun desk hsettled => hsettled

/-- The peek hands on what the walk does. -/
theorem safe_buildZipStream (rounding : Rounding) (timeSnowflake : DateTime → Bool → ℤ)
    (arguments : Arguments) :
    Safe environment (buildZipStream rounding timeSnowflake arguments) := by
  intro desk hsettled
  have hmembers := (safe_members rounding timeSnowflake arguments desk hsettled).exec_advance
  refine keeps_bind.mpr (keeps_lift.mpr ?_)
  generalize (advance (members rounding timeSnowflake arguments)).exec
    (Desk.serve environment) desk = run at hmembers ⊢
  rcases run with ⟨exception | step, after⟩
  · exact hmembers
  · cases step with
    | none => exact hmembers
    | some pair =>
        obtain ⟨hhands, hresume⟩ := hmembers
        refine ⟨hhands, fun later hmeanwhile outcome => ?_⟩
        cases outcome with
        | error exception => exact hhands.settled.between hmeanwhile
        | ok _ =>
            exact (hresume later hmeanwhile (.ok ())).forward fun before item after _ hbefore
              hbetween => hbefore.settled.between hbetween

end Walk

/-! ## Generators that leave nothing behind -/

/-- The walk it peeks into may have something to clean up, the peek itself has not. -/
theorem uncleaned_peekOrRaiseEmpty (body : Body Reply Exn MemberTuple Unit) :
    Uncleaned (peekOrRaiseEmpty body) := by
  refine (uncleaned_lift _).bind fun step => ?_
  cases step with
  | none => trivial
  | some pair => exact (uncleaned_yield _).bind fun _ => uncleaned_forward _

/-! ## The invariant -/

section Invariant

variable (environment : Environment)

/-- A tuple's generator as far as it matters: not started, or started and then either
at a yield or through with its release. -/
structure Held.Sound (log : Log) (held : Held) : Prop where
  answered : environment.network held.chunks.response.id = .ok held.chunks.response.reception
  streamed : held.chunks.response.reception.status = 200
  fresh : held.started = false →
    held.gen = .unstarted (streamResponse held.chunks) ∨ held.gen = .finished
  underway : held.started = true →
    (held.gen = .finished ∧ .release held.chunks.response ∈ log) ∨
      ∃ pieces, held.gen = .suspended (streamRest held.chunks pieces)

def Held.id (held : Held) : ℕ := held.chunks.response.id

/-- What the walk sees of the state. -/
def State.desk (state : State) : Desk :=
  ⟨state.log, state.held.map Held.id, (state.held.filter Held.started).map Held.id⟩

/-- The peek goes on as the walk does, and does nothing when it is closed. -/
def PeekSound (desk : Desk) : Gen Reply Exn MemberTuple → Prop
  | .unstarted body => Uncleaned body ∧ ∀ after, Between desk after →
      Keeps (Desk.serve environment) (Hands environment) Meanwhile body
        (fun last _ => Settled environment last) after
  | .suspended resume => (∀ exception, resume (.error exception) = .raise exception) ∧
      Uncleaned (resume (.ok ())) ∧ ∀ after, Between desk after →
        Keeps (Desk.serve environment) (Hands environment) Meanwhile (resume (.ok ()))
          (fun last _ => Settled environment last) after
  | .finished => True

structure Owned (state : State) : Prop where
  settled : Settled environment state.desk
  sound : ∀ held ∈ state.held, held.Sound environment state.log
  distinct : (state.held.map Held.id).Nodup
  peek : PeekSound environment state.desk state.peek

variable {environment} {state next : State}

theorem PeekSound.between {desk after : Desk} {gen : Gen Reply Exn MemberTuple}
    (hpeek : PeekSound environment desk gen) (hbetween : Between desk after) :
    PeekSound environment after gen := by
  cases gen with
  | unstarted body =>
      exact ⟨hpeek.1, fun last hlast => hpeek.2 last (hbetween.trans hlast)⟩
  | suspended resume =>
      exact ⟨hpeek.1, hpeek.2.1, fun last hlast => hpeek.2.2 last (hbetween.trans hlast)⟩
  | finished => trivial

theorem Held.Sound.mono {log later : Log} {held : Held}
    (hsound : held.Sound environment log) (hlog : log ⊆ later) :
    held.Sound environment later :=
  ⟨hsound.answered, hsound.streamed, hsound.fresh,
    fun hstarted => (hsound.underway hstarted).imp_left fun h => ⟨h.1, hlog h.2⟩⟩

theorem owned_start (rounding : Rounding) (timeSnowflake : DateTime → Bool → ℤ)
    (arguments : Arguments) : Owned environment (start rounding timeSnowflake arguments) := by
  have hsettled : Settled environment (start rounding timeSnowflake arguments).desk :=
    ⟨by simp [start, State.desk], by simp [start, State.desk], by simp [start, State.desk]⟩
  refine ⟨hsettled, by simp [start], by simp [start], uncleaned_peekOrRaiseEmpty _, ?_⟩
  exact fun after hbetween =>
    safe_buildZipStream rounding timeSnowflake arguments after (hsettled.between hbetween)

theorem map_id_set {held fresh : Held} {index : ℕ} {all : List Held}
    (hheld : all[index]? = some held) (hid : fresh.id = held.id) :
    (all.set index fresh).map Held.id = all.map Held.id := by
  rw [List.map_set]
  refine List.ext_getElem? fun place => ?_
  rcases eq_or_ne index place with rfl | hne
  · have hlt : index < (all.map Held.id).length := by
      simpa using (List.getElem?_eq_some_iff.mp hheld).1
    rw [List.getElem?_set_self hlt, List.getElem?_map, hheld, Option.map_some, hid]
  · rw [List.getElem?_set_ne hne]

/-- Where the tuples stand after one of them was worked on. -/
theorem mem_set_of_ne {held fresh other : Held} {index : ℕ} {all : List Held}
    (hheld : all[index]? = some held) (hother : other ∈ all) :
    other ∈ all.set index fresh ∨ (other = held ∧ fresh ∈ all.set index fresh) := by
  obtain ⟨place, hplace⟩ := List.mem_iff_getElem?.mp hother
  rcases eq_or_ne index place with rfl | hne
  · right
    obtain ⟨hlt, -⟩ := List.getElem?_eq_some_iff.mp hheld
    exact ⟨Option.some.inj (hplace.symm.trans hheld), List.mem_set hlt fresh⟩
  · left
    exact List.mem_iff_getElem?.mpr ⟨place, (List.getElem?_set_ne hne).trans hplace⟩

/-- The consumer's work on one of its tuples: the walk does not notice. -/
theorem Owned.set (howned : Owned environment state) {index : ℕ} {held fresh : Held}
    (hheld : state.held[index]? = some held) {log : Log} (hchunks : fresh.chunks = held.chunks)
    (hstarted : held.started = true → fresh.started = true)
    (hsound : fresh.Sound environment log) (hgets : urls log = urls state.log)
    (hlog : state.log ⊆ log)
    (hreleased : ∀ response, .release response ∈ log →
      .release response ∈ state.log ∨ (response = held.chunks.response ∧ fresh.started = true)) :
    Owned environment { state with held := state.held.set index fresh, log := log } := by
  have hid : fresh.id = held.id := congrArg (fun chunks => chunks.response.id) hchunks
  have hmem : held ∈ state.held := List.mem_of_getElem? hheld
  have hsame : (state.held.set index fresh).map Held.id = state.held.map Held.id :=
    map_id_set hheld hid
  have hfresh : fresh.started = true →
      held.id ∈ ((state.held.set index fresh).filter Held.started).map Held.id := by
    intro hfresh
    obtain ⟨hlt, -⟩ := List.getElem?_eq_some_iff.mp hheld
    rw [← hid]
    exact List.mem_map_of_mem (List.mem_filter.mpr ⟨List.mem_set hlt fresh, hfresh⟩)
  have hbetween : Between state.desk
      (State.desk { state with held := state.held.set index fresh, log := log }) := by
    refine ⟨hsame, hgets, hlog, fun count hcount => ?_, fun response hresponse => ?_⟩
    · obtain ⟨other, hother, rfl⟩ := List.mem_map.mp hcount
      obtain ⟨hother, hdone⟩ := List.mem_filter.mp hother
      rcases mem_set_of_ne hheld hother with hstays | ⟨rfl, -⟩
      · exact List.mem_map_of_mem (List.mem_filter.mpr ⟨hstays, hdone⟩)
      · exact hfresh (hstarted hdone)
    · refine (hreleased response hresponse).imp_right fun ⟨heq, hdone⟩ => ?_
      rw [heq]
      exact hfresh hdone
  refine ⟨howned.settled.between hbetween, fun other hother => ?_, ?_,
    howned.peek.between hbetween⟩
  · rcases List.mem_or_eq_of_mem_set hother with hbefore | rfl
    · exact (howned.sound other hbefore).mono hlog
    · exact hsound
  · rw [hsame]
    exact howned.distinct

/-! ## The steps keep it -/

theorem subset_exec {α : Type} (program : Prog Reply Exn α) (log : Log) :
    log ⊆ (program.exec environment.serve log).2 := by
  induction program generalizing log with
  | ret value => exact List.Subset.refl log
  | raise exception => exact List.Subset.refl log
  | call request next ih =>
      exact List.Subset.trans (List.subset_append_left log [request]) (ih _ _)

/-- A tuple's generator is through or, when it is asked for a chunk, runs on from one of
its yields. -/
theorem Held.Sound.finished_or_next {log : Log} {held : Held}
    (hsound : held.Sound environment log) :
    held.gen = .finished ∨ held.gen ≠ .finished ∧
      ∃ pieces, held.gen.next = advance (streamRest held.chunks pieces (.ok ())) := by
  cases hstarted : held.started with
  | false =>
      refine (hsound.fresh hstarted).symm.imp_right fun hgen => ?_
      rw [hgen]
      exact ⟨nofun, held.chunks.response.reception.chunks, rfl⟩
  | true =>
      refine (hsound.underway hstarted).imp And.left fun ⟨pieces, hgen⟩ => ?_
      rw [hgen]
      exact ⟨nofun, pieces, rfl⟩

/-- A generator that is through stays so and makes no call. -/
theorem Owned.set_finished (howned : Owned environment state) {index : ℕ} {held fresh : Held}
    (hheld : state.held[index]? = some held) (hchunks : fresh.chunks = held.chunks)
    (hstarted : fresh.started = held.started) (hgen : fresh.gen = .finished)
    (hdone : held.started = true → held.gen = .finished) :
    Owned environment { state with held := state.held.set index fresh } := by
  have hsound := howned.sound held (List.mem_of_getElem? hheld)
  refine howned.set hheld hchunks (fun h => hstarted.trans h)
    ⟨hchunks ▸ hsound.answered, hchunks ▸ hsound.streamed, fun _ => .inr hgen, fun h => ?_⟩
    rfl (List.Subset.refl _) fun response hresponse => .inl hresponse
  rw [hstarted] at h
  rcases hsound.underway h with ⟨-, hrelease⟩ | ⟨pieces, hsuspended⟩
  · exact .inl ⟨hgen, hchunks ▸ hrelease⟩
  · cases (hdone h).symm.trans hsuspended

/-- A generator that is through after its release. -/
theorem Owned.set_released (howned : Owned environment state) {index : ℕ} {held fresh : Held}
    (hheld : state.held[index]? = some held) (hchunks : fresh.chunks = held.chunks)
    (hstarted : fresh.started = true) (hgen : fresh.gen = .finished) :
    Owned environment { state with
      held := state.held.set index fresh
      log := state.log ++ [.release held.chunks.response] } := by
  have hsound := howned.sound held (List.mem_of_getElem? hheld)
  refine howned.set hheld hchunks (fun _ => hstarted)
    ⟨hchunks ▸ hsound.answered, hchunks ▸ hsound.streamed, fun _ => .inr hgen, fun _ => ?_⟩
    (by simp) (List.subset_append_left _ _) fun response hresponse => ?_
  · exact .inl ⟨hgen, hchunks ▸ List.mem_append_right _ (List.mem_singleton_self _)⟩
  · rcases List.mem_append.mp hresponse with hbefore | hlast
    · exact .inl hbefore
    · exact .inr ⟨by simpa using hlast, hstarted⟩

theorem Owned.read (howned : Owned environment state) {index : ℕ} {held : Held}
    (hheld : state.held[index]? = some held) :
    let read := held.gen.next.exec environment.serve state.log
    Owned environment
      { state with held := state.held.set index (held.read read.1), log := read.2 } := by
  have hsound := howned.sound held (List.mem_of_getElem? hheld)
  rcases hsound.finished_or_next with hfinished | ⟨hunfinished, pieces, hnext⟩
  · have hread : held.gen.next.exec environment.serve state.log = (.ok none, state.log) := by
      rw [hfinished]
      rfl
    rw [hread]
    exact howned.set_finished hheld rfl (by simp [Held.read, hfinished]) rfl fun _ => hfinished
  · have hstarted : ∀ outcome, (held.read outcome).started = true := by
      intro outcome
      cases hgen : held.gen with
      | finished => exact absurd hgen hunfinished
      | unstarted body => simp [Held.read, hgen]
      | suspended resume => simp [Held.read, hgen]
    have hadvance := exec_advance_streamRest environment held.chunks pieces state.log
    rw [hnext]
    rcases hadvance with ⟨hgen, hlog⟩ | ⟨rest, hgen, hlog⟩
    · dsimp only
      rw [hlog]
      exact howned.set_released hheld rfl (hstarted _) hgen
    · dsimp only
      rw [hlog]
      refine howned.set hheld rfl (fun _ => hstarted _)
        ⟨hsound.answered, hsound.streamed, fun h => ?_, fun _ => .inr ⟨rest, hgen⟩⟩ rfl
        (List.Subset.refl _) fun response hresponse => .inl hresponse
      cases (hstarted _).symm.trans h

theorem Owned.closeChunks (howned : Owned environment state) {index : ℕ} {held : Held}
    (hheld : state.held[index]? = some held) :
    Owned environment { state with
      held := state.held.set index { held with gen := .finished }
      log := ((held.gen.close .generatorExit ignoredExit).exec environment.serve
        state.log).2 } := by
  have hsound := howned.sound held (List.mem_of_getElem? hheld)
  rcases Bool.eq_false_or_eq_true held.started with hstarted | hstarted
  · rcases hsound.underway hstarted with ⟨hgen, -⟩ | ⟨pieces, hgen⟩
    · have hclose : ((held.gen.close .generatorExit ignoredExit).exec environment.serve
          state.log).2 = state.log := by
        rw [hgen]
        rfl
      rw [hclose]
      exact howned.set_finished hheld rfl rfl rfl fun _ => hgen
    · rw [hgen, exec_close_streamRest]
      exact howned.set_released hheld rfl hstarted rfl
  · have hclose : ((held.gen.close .generatorExit ignoredExit).exec environment.serve
        state.log).2 = state.log := by
      rcases hsound.fresh hstarted with hgen | hgen <;> rw [hgen] <;> rfl
    rw [hclose]
    exact howned.set_finished hheld rfl rfl rfl fun h => absurd (hstarted.symm.trans h) nofun

theorem Owned.closePeek (howned : Owned environment state) :
    Owned environment { state with
      peek := .finished
      log := ((state.peek.close .generatorExit ignoredExit).exec environment.serve
        state.log).2 } := by
  have hclose : state.peek.close .generatorExit ignoredExit = .ret () := by
    have hpeek := howned.peek
    cases hgen : state.peek with
    | unstarted body => rfl
    | suspended resume =>
        rw [hgen] at hpeek
        exact Gen.close_of_uncleaned (hpeek.1 _)
    | finished => rfl
  rw [hclose]
  exact ⟨howned.settled, howned.sound, howned.distinct, trivial⟩

/-- The walk went on without a tuple to hand on. -/
theorem Owned.ended (howned : Owned environment state) {log : Log}
    (hsettled : Settled environment { state.desk with log := log })
    (hlog : state.log ⊆ log) :
    Owned environment { state with peek := .finished, log := log } :=
  ⟨hsettled, fun held hheld => (howned.sound held hheld).mono hlog, howned.distinct, trivial⟩

/-- The walk has handed on a tuple. -/
theorem Owned.handed (howned : Owned environment state) {log : Log} {member : MemberTuple}
    {resume : Resume Reply Exn MemberTuple}
    (hhands : Hands environment { state.desk with log := log } member)
    (hpeek : PeekSound environment (Desk.hand { state.desk with log := log } member)
      (.suspended resume))
    (hlog : state.log ⊆ log) :
    Owned environment
      { peek := .suspended resume
        held := ⟨member.chunks, .unstarted (streamResponse member.chunks), false⟩ :: state.held
        log := log } := by
  refine ⟨hhands.settled, fun held hheld => ?_, ?_, hpeek⟩
  · rcases List.mem_cons.mp hheld with rfl | hbefore
    · exact ⟨hhands.answered, hhands.streamed, fun _ => .inl rfl, nofun⟩
    · exact (howned.sound held hbefore).mono hlog
  · exact List.nodup_cons.mpr
      ⟨fun hmem => (hhands.latest _ hmem).ne rfl, howned.distinct⟩

/-- The generator that hands on, asked for the next tuple. -/
theorem PeekSound.exec_advance {desk : Desk} {body : Body Reply Exn MemberTuple Unit}
    (huncleaned : Uncleaned body)
    (hkeeps : Keeps (Desk.serve environment) (Hands environment) Meanwhile body
      (fun last _ => Settled environment last) desk) :
    match (advance body).exec environment.serve desk.log with
    | (.ok (some (member, resume)), log) =>
        Hands environment { desk with log := log } member ∧
          PeekSound environment (Desk.hand { desk with log := log } member)
            (.suspended resume)
    | (.ok none, log) | (.error _, log) => Settled environment { desk with log := log } := by
  have hadvance := hkeeps.exec_advance
  rw [exec_desk] at hadvance
  cases hrun : (advance body).exec environment.serve desk.log with
  | mk outcome log =>
      rw [hrun] at hadvance
      rcases outcome with exception | _ | ⟨member, resume⟩
      · exact hadvance
      · exact hadvance
      · obtain ⟨herror, hresume⟩ := huncleaned.of_advance hrun
        exact ⟨hadvance.1, herror, hresume, fun after hbetween => hadvance.2 after hbetween _⟩

theorem PeekSound.exec_next {desk : Desk} {gen : Gen Reply Exn MemberTuple}
    (hpeek : PeekSound environment desk gen) (hsettled : Settled environment desk) :
    match gen.next.exec environment.serve desk.log with
    | (.ok (some (member, resume)), log) =>
        Hands environment { desk with log := log } member ∧
          PeekSound environment (Desk.hand { desk with log := log } member)
            (.suspended resume)
    | (.ok none, log) | (.error _, log) => Settled environment { desk with log := log } := by
  cases gen with
  | unstarted body => exact PeekSound.exec_advance hpeek.1 (hpeek.2 desk .refl)
  | suspended resume => exact PeekSound.exec_advance hpeek.2.1 (hpeek.2.2 desk .refl)
  | finished => exact hsettled

theorem Owned.pull (howned : Owned environment state)
    (hstep : step environment state .pull = some next) : Owned environment next := by
  have hnext := howned.peek.exec_next howned.settled
  have hlog : state.log ⊆ (state.peek.next.exec environment.serve state.log).2 :=
    subset_exec state.peek.next state.log
  rw [step] at hstep
  obtain rfl := Option.some.inj hstep
  have hdesk : state.desk.log = state.log := rfl
  rw [hdesk] at hnext
  generalize state.peek.next.exec environment.serve state.log = run at hnext hlog ⊢
  rcases run with ⟨exception | _ | ⟨member, resume⟩, log⟩
  · exact howned.ended hnext hlog
  · exact howned.ended hnext hlog
  · exact howned.handed hnext.1 hnext.2 hlog

theorem Owned.of_step {label : Label} (howned : Owned environment state)
    (hstep : step environment state label = some next) : Owned environment next := by
  cases label with
  | pull => exact howned.pull hstep
  | read index =>
      obtain ⟨held, hheld, rfl⟩ := Option.map_eq_some_iff.mp hstep
      exact howned.read hheld
  | closeChunks index =>
      obtain ⟨held, hheld, rfl⟩ := Option.map_eq_some_iff.mp hstep
      exact howned.closeChunks hheld
  | closePeek =>
      obtain rfl := Option.some.inj hstep
      exact howned.closePeek

theorem Owned.reaches {first last : State} (hfirst : Owned environment first)
    (hrun : Reaches (step environment) unrestricted first last) : Owned environment last :=
  hrun.invariant hfirst fun _ _ _ howned _ hstep => howned.of_step hstep

/-- Once everything is closed, it is the generators never started that have kept their
responses. -/
theorem Owned.allReleased_iff (howned : Owned environment state) (hclosed : state.Closed) :
    state.AllReleased environment ↔ state.AllStarted := by
  constructor
  · intro hreleased held hheld
    have hsound := howned.sound held hheld
    have hmem : held.id ∈ state.desk.held := List.mem_map_of_mem hheld
    have hrelease := hreleased held.id (howned.settled.held_lt held.id hmem)
      held.chunks.response.reception hsound.answered
    have hfreed := howned.settled.freed _ hrelease hsound.streamed
    obtain ⟨other, hother, hid⟩ := List.mem_map.mp hfreed
    obtain ⟨hother, hstarted⟩ := List.mem_filter.mp hother
    obtain rfl := List.inj_on_of_nodup_map howned.distinct hother hheld hid
    exact hstarted
  · intro hstarted count hcount reception hanswer
    rcases howned.settled.covered count hcount reception hanswer with hrelease | hmem
    · exact hrelease
    · obtain ⟨held, hheld, rfl⟩ := List.mem_map.mp hmem
      have hsound := howned.sound held hheld
      have hresponse : held.chunks.response = ⟨held.id, reception⟩ := by
        have hreception := Except.ok.inj (hsound.answered.symm.trans hanswer)
        rw [← hreception]
        rfl
      rcases hsound.underway (hstarted held hheld) with ⟨-, hrelease⟩ | ⟨pieces, hgen⟩
      · rwa [hresponse] at hrelease
      · cases (hclosed.2 held hheld).symm.trans hgen

end Invariant

section Release

/-- However the consumer stops, once it has closed everything the responses are all
released if and only if it has asked each tuple it obtained for a chunk. -/
theorem allReleased_iff_allStarted {environment : Environment} (rounding : Rounding)
    (timeSnowflake : DateTime → Bool → ℤ) (arguments : Arguments) {state : State}
    (hrun : Reaches (step environment) unrestricted
      (start rounding timeSnowflake arguments) state)
    (hclosed : state.Closed) : state.AllReleased environment ↔ state.AllStarted :=
  ((owned_start rounding timeSnowflake arguments).reaches hrun).allReleased_iff hclosed

/-- The walk of `secondFound` without reports. -/
def firstState : State :=
  start exactRounding (fun _ _ => 0) quietImages

/-- Where its consumer stands after these steps. -/
def stateAfter (labels : List Label) : State :=
  (replay (step secondFound) firstState labels).getD firstState

/-- A consumer that is closed when it has a member's tuple and has not read it. -/
def closesUnread : List Label := [.pull, .closeChunks 0, .closePeek]

theorem replay_closesUnread :
    replay (step secondFound) firstState closesUnread = some (stateAfter closesUnread) := by
  rfl

theorem not_allReleased_closesUnread :
    Reaches (step secondFound) unrestricted firstState (stateAfter closesUnread) ∧
      (stateAfter closesUnread).Closed ∧
      ¬ (stateAfter closesUnread).AllReleased secondFound := by
  refine ⟨reaches_of_replay (fun _ _ _ => trivial) replay_closesUnread, ⟨rfl, ?_⟩,
    fun hreleased => ?_⟩
  · intro held hheld
    obtain rfl := List.mem_singleton.mp hheld
    rfl
  · have hrelease := hreleased 1 (by decide) _ rfl
    revert hrelease
    decide

/-- One that has read a chunk of it. -/
def closesRead : List Label := [.pull, .read 0, .closeChunks 0, .closePeek]

theorem replay_closesRead :
    replay (step secondFound) firstState closesRead = some (stateAfter closesRead) := by
  rfl

theorem allReleased_closesRead : (stateAfter closesRead).AllReleased secondFound := by
  have hrun : Reaches (step secondFound) unrestricted firstState (stateAfter closesRead) :=
    reaches_of_replay (fun _ _ _ => trivial) replay_closesRead
  refine (allReleased_iff_allStarted exactRounding (fun _ _ => 0) _ hrun
    ⟨rfl, fun held hheld => ?_⟩).mpr fun held hheld => ?_
  · obtain rfl := List.mem_singleton.mp hheld
    rfl
  · obtain rfl := List.mem_singleton.mp hheld
    rfl

end Release

end DownloaderBot.ZipPipeline
