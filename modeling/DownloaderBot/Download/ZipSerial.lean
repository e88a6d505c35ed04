import DownloaderBot.Download.ZipRelease

/-!
# One response at a time

A consumer that is through with one member before it asks for the next, as stream-zip is,
never has two responses open: `_members` opens a response only when it is asked for a
member, and has released those that are no members by then.
-/

namespace DownloaderBot.ZipPipeline

open DownloaderBot.Calendar
open DownloaderBot.Discord
open DownloaderBot.Generator
open DownloaderBot.Program
open DownloaderBot.TransitionSystem

/-! ## Open responses -/

section Logs

variable (environment : Environment)

/-- The GET was answered, and the response has not been released. -/
structure Environment.Open (log : Log) (response : Response) : Prop where
  asked : response.id < (urls log).length
  answered : environment.network response.id = .ok response.reception
  unreleased : .release response ∉ log

/-- Every GET found no response open. -/
def Serial (log : Log) : Prop :=
  ∀ earlier url later, log = earlier ++ .get url :: later →
    ∀ response, ¬ environment.Open earlier response

/-- And none is open now. -/
structure Calm (log : Log) : Prop where
  serial : Serial environment log
  closed : ∀ response, ¬ environment.Open log response

variable {environment} {log : Log}

theorem calm_nil : Calm environment [] where
  serial earlier url later heq := by simp at heq
  closed response hopen := absurd hopen.asked (Nat.not_lt_zero _)

/-- What is open after a call that is no GET was open before. -/
theorem Environment.Open.of_concat {request : Request} {response : Response}
    (hopen : environment.Open (log ++ [request]) response)
    (hget : ∀ url, request ≠ .get url) : environment.Open log response where
  asked := by
    have hgets : urls (log ++ [request]) = urls log := by
      cases request <;> simp_all
    exact hgets ▸ hopen.asked
  answered := hopen.answered
  unreleased hrelease := hopen.unreleased (List.mem_append_left _ hrelease)

theorem Serial.concat (hserial : Serial environment log) {request : Request}
    (hget : ∀ url, request = .get url → ∀ response, ¬ environment.Open log response) :
    Serial environment (log ++ [request]) := by
  intro earlier url later heq
  rcases List.eq_nil_or_concat' later with rfl | ⟨init, last, rfl⟩
  · obtain ⟨rfl, hlast⟩ := List.append_inj' heq rfl
    exact hget url (List.cons.inj hlast).1
  · rw [← List.cons_append, ← List.append_assoc] at heq
    obtain ⟨hlog, -⟩ := List.append_inj' heq rfl
    exact hserial earlier url init hlog

theorem Calm.concat (hcalm : Calm environment log) {request : Request}
    (hget : ∀ url, request ≠ .get url) : Calm environment (log ++ [request]) where
  serial := hcalm.serial.concat fun url heq => absurd heq (hget url)
  closed response hopen := hcalm.closed response (hopen.of_concat hget)

theorem urls_cons_of_ne {request : Request} (hget : ∀ url, request ≠ .get url) (rest : Log) :
    urls (request :: rest) = urls rest := by
  cases request <;> simp_all

theorem exists_get {count : ℕ} (hcount : count < (urls log).length) :
    ∃ earlier url later, log = earlier ++ .get url :: later ∧ (urls earlier).length = count := by
  induction log generalizing count with
  | nil => exact absurd hcount (Nat.not_lt_zero _)
  | cons request rest ih =>
      by_cases hget : ∃ url, request = .get url
      · obtain ⟨url, rfl⟩ := hget
        cases count with
        | zero => exact ⟨[], url, rest, rfl, rfl⟩
        | succ count =>
            obtain ⟨earlier, other, later, rfl, hlength⟩ := ih (Nat.lt_of_succ_lt_succ hcount)
            exact ⟨.get url :: earlier, other, later, rfl, congrArg Nat.succ hlength⟩
      · have hskip := urls_cons_of_ne (not_exists.mp hget)
        rw [hskip] at hcount
        obtain ⟨earlier, url, later, rfl, hlength⟩ := ih hcount
        exact ⟨request :: earlier, url, later, rfl, (hskip earlier).symm ▸ hlength⟩

/-- What is open is the response of the latest GET. -/
theorem Serial.open_latest (hserial : Serial environment log) {moment : Log}
    (hmoment : moment <+: log) {response : Response}
    (hopen : environment.Open moment response) : response.id + 1 = (urls moment).length := by
  by_contra hne
  have hlt : response.id + 1 < (urls moment).length := lt_of_le_of_ne hopen.asked hne
  obtain ⟨rest, rfl⟩ := hmoment
  obtain ⟨earlier, url, later, rfl, hlength⟩ := exists_get hlt
  apply hserial earlier url (later ++ rest) (by simp) response
  exact ⟨by omega, hopen.answered,
    fun hrelease => hopen.unreleased (List.mem_append_left _ hrelease)⟩

/-- At every moment at most one response is open. -/
theorem Serial.open_unique (hserial : Serial environment log) {moment : Log}
    (hmoment : moment <+: log) {left right : Response}
    (hleft : environment.Open moment left) (hright : environment.Open moment right) :
    left = right := by
  have hid : left.id = right.id := Nat.succ_injective
    ((hserial.open_latest hmoment hleft).trans (hserial.open_latest hmoment hright).symm)
  obtain ⟨leftId, leftReception⟩ := left
  obtain ⟨rightId, rightReception⟩ := right
  obtain rfl : leftId = rightId := hid
  have hreception := Except.ok.inj (hleft.answered.symm.trans hright.answered)
  exact congrArg _ hreception

/-- A pre-flight from a calm log, without a response to stream. -/
theorem Calm.preflighted (hcalm : Calm environment log) {url : String}
    (hnone : ∀ response, environment.fetched (urls log).length ≠ .ok (some response)) :
    Calm environment (log ++ environment.preflightLog (urls log).length url) := by
  have hasked : Serial environment (log ++ [.get url]) :=
    hcalm.serial.concat fun _ _ => hcalm.closed
  have hstatus : ∀ reception, environment.network (urls log).length = .ok reception →
      reception.status ≠ 200 := by
    intro reception hanswer hstatus
    apply hnone ⟨(urls log).length, reception⟩
    rw [Environment.fetched, hanswer]
    simp [hstatus]
  constructor
  · rw [Environment.preflightLog]
    cases hanswer : environment.network (urls log).length with
    | error exception => exact hasked
    | ok reception =>
        simp only [if_neg (hstatus reception hanswer)]
        rw [List.append_cons]
        exact hasked.concat fun url heq => by cases heq
  · rintro ⟨count, reception⟩ ⟨hcount, hanswer, hunreleased⟩
    dsimp only at hcount hanswer
    rw [urls_append, urls_preflightLog, List.length_append] at hcount
    rcases Nat.lt_succ_iff_lt_or_eq.mp hcount with hbefore | rfl
    · exact hcalm.closed ⟨count, reception⟩
        ⟨hbefore, hanswer, fun hrelease => hunreleased (List.mem_append_left _ hrelease)⟩
    · apply hunreleased
      rw [Environment.preflightLog, hanswer]
      simp [hstatus reception hanswer]

/-- A pre-flight from a calm log, with a response to stream. -/
theorem Calm.serial_preflighted (hcalm : Calm environment log) {url : String}
    {response : Response}
    (hsome : environment.fetched (urls log).length = .ok (some response)) :
    Serial environment (log ++ environment.preflightLog (urls log).length url) := by
  obtain ⟨reception, hanswer, hstatus, -⟩ := fetched_eq_some hsome
  simp only [Environment.preflightLog, hanswer, if_pos hstatus]
  exact hcalm.serial.concat fun _ _ => hcalm.closed

end Logs

/-! ## The walk -/

section Walk

variable (environment : Environment)

/-- From a calm log, a part of the walk opens one response at a time, if its consumer is
through with each tuple before it asks for the next. -/
def Serially {α : Type} (body : Body Reply Exn MemberTuple α) : Prop :=
  ∀ log, Calm environment log →
    Keeps environment.serve (fun log _ => Serial environment log)
      (fun _ _ after => Calm environment after) body (fun after _ => Calm environment after) log

variable {environment}

theorem Serially.bind {α β : Type} {body : Body Reply Exn MemberTuple α}
    {rest : α → Body Reply Exn MemberTuple β} (hbody : Serially environment body)
    (hrest : ∀ value, Serially environment (rest value)) :
    Serially environment (body.bind rest) := by
  intro log hcalm
  refine keeps_bind.mpr ((hbody log hcalm).mono fun after outcome hafter => ?_)
  cases outcome with
  | ok value => exact hrest value after hafter
  | error exception => exact hafter

theorem serially_lift {α : Type} {program : Prog Reply Exn α} (honly : program.Only Idle) :
    Serially environment (lift program) := by
  intro log hcalm
  refine keeps_lift.mpr ?_
  induction program generalizing log with
  | ret value => exact hcalm
  | raise exception => exact hcalm
  | call request next ih =>
      have hget : ∀ url, request ≠ .get url := by
        rintro url rfl
        exact honly.1
      exact ih _ (honly.2 _) _ (hcalm.concat hget)

theorem serially_attachmentLoop (arguments : Arguments) (message : Message)
    (attachments : List Attachment) (tally : Tally) :
    Serially environment (attachmentLoop arguments message attachments tally) := by
  induction attachments generalizing tally with
  | nil => exact fun log hcalm => hcalm
  | cons attachment rest ih =>
      rw [attachmentLoop]
      split
      case isFalse => exact ih tally
      case isTrue =>
        intro log hcalm
        refine keeps_bind.mpr (keeps_lift.mpr ?_)
        rw [exec_preflight]
        dsimp only
        cases hfetched : environment.fetched (urls log).length with
        | error exception => exact hcalm.preflighted (by simp [hfetched])
        | ok fetched =>
            cases fetched with
            | none => exact ih tally _ (hcalm.preflighted (by simp [hfetched]))
            | some response =>
                refine ⟨hcalm.serial_preflighted hfetched, fun after hafter outcome => ?_⟩
                cases outcome with
                | ok _ => exact ih _ after hafter
                | error exception => exact hafter

theorem serially_messageLoop (rounding : Rounding) (arguments : Arguments)
    (bounds : Option ℤ × Option ℤ) (messages : List Message) (tally : Tally) :
    Serially environment (messageLoop rounding arguments bounds messages tally) := by
  induction messages generalizing tally with
  | nil => exact fun log hcalm => hcalm
  | cons message rest ih =>
      exact (serially_lift (only_idle_report rounding arguments bounds message tally)).bind
        fun tally => (serially_attachmentLoop arguments message message.attachments tally).bind ih

theorem serially_members (rounding : Rounding) (timeSnowflake : DateTime → Bool → ℤ)
    (arguments : Arguments) :
    Serially environment (members rounding timeSnowflake arguments) := by
  refine (serially_lift ?_).bind fun bounds =>
    (serially_lift (only_idle_ask .monotonic trivial)).bind fun lastEmit =>
      (serially_lift (only_idle_ask (.history _ _) trivial)).bind fun history =>
        (serially_messageLoop rounding arguments bounds history.messages _).bind fun _ => ?_
  · split
    · exact only_idle_resolveSnowflakeBounds timeSnowflake arguments
    · trivial
  · split <;> exact fun log hcalm => hcalm

theorem serially_buildZipStream (rounding : Rounding) (timeSnowflake : DateTime → Bool → ℤ)
    (arguments : Arguments) :
    Serially environment (buildZipStream rounding timeSnowflake arguments) := by
  intro log hcalm
  have hmembers := (serially_members rounding timeSnowflake arguments log hcalm).exec_advance
  refine keeps_bind.mpr (keeps_lift.mpr ?_)
  generalize (advance (members rounding timeSnowflake arguments)).exec environment.serve log =
    run at hmembers ⊢
  rcases run with ⟨exception | step, after⟩
  · exact hmembers
  · cases step with
    | none => exact hmembers
    | some pair =>
        obtain ⟨hserial, hresume⟩ := hmembers
        refine ⟨hserial, fun later hlater outcome => ?_⟩
        cases outcome with
        | error exception => exact hlater
        | ok _ =>
            exact (hresume later hlater (.ok ())).forward fun _ _ _ _ _ hafter => hafter

end Walk

/-! ## The consumer -/

section Consumer

variable (environment : Environment)

/-- The consumer has asked every tuple it has for chunks, and is through with it. -/
def State.Through (state : State) : Prop :=
  ∀ held ∈ state.held, held.started = true ∧ held.gen = .finished

/-- It is before it asks for the next one. -/
def OneByOne (state : State) : Label → Prop
  | .pull => state.Through
  | .read _ | .closeChunks _ | .closePeek => True

def PeekSerial : Gen Reply Exn MemberTuple → Prop
  | .unstarted body => Serially environment body
  | .suspended resume => Serially environment (resume (.ok ()))
  | .finished => True

structure Orderly (state : State) : Prop where
  owned : Owned environment state
  serial : Serial environment state.log
  peek : PeekSerial environment state.peek

variable {environment} {state next : State}

theorem orderly_start (rounding : Rounding) (timeSnowflake : DateTime → Bool → ℤ)
    (arguments : Arguments) : Orderly environment (start rounding timeSnowflake arguments) where
  owned := owned_start rounding timeSnowflake arguments
  serial := calm_nil.serial
  peek := serially_buildZipStream rounding timeSnowflake arguments

/-- Then no response is open. -/
theorem Orderly.calm (horderly : Orderly environment state) (hthrough : state.Through) :
    Calm environment state.log where
  serial := horderly.serial
  closed := by
    obtain ⟨hsettled, hsound, hdistinct, -⟩ := horderly.owned
    have hended : Owned environment { state with peek := .finished } :=
      ⟨hsettled, hsound, hdistinct, trivial⟩
    have hreleased := (hended.allReleased_iff
      ⟨rfl, fun held hheld => (hthrough held hheld).2⟩).mpr
        fun held hheld => (hthrough held hheld).1
    rintro ⟨count, reception⟩ ⟨hcount, hanswer, hunreleased⟩
    exact hunreleased (hreleased count hcount reception hanswer)

theorem PeekSerial.exec_next {gen : Gen Reply Exn MemberTuple}
    (hpeek : PeekSerial environment gen) {log : Log} (hcalm : Calm environment log) :
    let pulled := gen.next.exec environment.serve log
    Serial environment pulled.2 ∧ PeekSerial environment (genAfter pulled.1) := by
  have hbody : ∀ {body : Body Reply Exn MemberTuple Unit}, Serially environment body →
      let pulled := (advance body).exec environment.serve log
      Serial environment pulled.2 ∧ PeekSerial environment (genAfter pulled.1) := by
    intro body hserially
    have hadvance := (hserially log hcalm).exec_advance
    generalize (advance body).exec environment.serve log = run at hadvance ⊢
    rcases run with ⟨exception | _ | ⟨member, resume⟩, after⟩
    · exact ⟨hadvance.serial, trivial⟩
    · exact ⟨hadvance.serial, trivial⟩
    · exact ⟨hadvance.1, fun later hlater => hadvance.2 later hlater _⟩
  cases gen with
  | unstarted body => exact hbody hpeek
  | suspended resume => exact hbody hpeek
  | finished => exact ⟨hcalm.serial, trivial⟩

/-- What the consumer does to the chunks of a tuple makes no GET. -/
theorem Held.Sound.log_read {log : Log} {held : Held} (hsound : held.Sound environment log) :
    (held.gen.next.exec environment.serve log).2 = log ∨
      (held.gen.next.exec environment.serve log).2 = log ++ [.release held.chunks.response] := by
  rcases hsound.finished_or_next with hfinished | ⟨-, pieces, hnext⟩
  · rw [hfinished]
    exact .inl rfl
  · rw [hnext]
    rcases exec_advance_streamRest environment held.chunks pieces log with
      ⟨-, hlog⟩ | ⟨-, -, hlog⟩
    · exact .inr hlog
    · exact .inl hlog

theorem Held.Sound.log_close {log : Log} {held : Held} (hsound : held.Sound environment log) :
    let closed := (held.gen.close .generatorExit ignoredExit).exec environment.serve log
    closed.2 = log ∨ closed.2 = log ++ [.release held.chunks.response] := by
  cases hstarted : held.started with
  | true =>
      rcases hsound.underway hstarted with ⟨hgen, -⟩ | ⟨pieces, hgen⟩
      · rw [hgen]
        exact .inl rfl
      · rw [hgen]
        exact .inr (exec_close_streamRest environment held.chunks pieces log)
  | false =>
      rcases hsound.fresh hstarted with hgen | hgen
      · rw [hgen]
        exact .inl rfl
      · rw [hgen]
        exact .inl rfl

theorem Serial.of_released {log after : Log} {response : Response}
    (hserial : Serial environment log)
    (hafter : after = log ∨ after = log ++ [.release response]) : Serial environment after := by
  rcases hafter with rfl | rfl
  · exact hserial
  · exact hserial.concat fun url heq => by cases heq

/-- Closed, the peek does nothing. -/
theorem PeekSound.log_close {desk : Desk} {gen : Gen Reply Exn MemberTuple}
    (hpeek : PeekSound environment desk gen) (log : Log) :
    ((gen.close .generatorExit ignoredExit).exec environment.serve log).2 = log := by
  cases gen with
  | unstarted body => rfl
  | suspended resume =>
      rw [Gen.close_of_uncleaned (hpeek.1 _)]
      rfl
  | finished => rfl

theorem Orderly.of_step {label : Label} (horderly : Orderly environment state)
    (hallowed : OneByOne state label) (hstep : step environment state label = some next) :
    Orderly environment next := by
  have howned := horderly.owned.of_step hstep
  cases label with
  | pull =>
      obtain rfl := Option.some.inj hstep
      obtain ⟨hserial, hpeek⟩ := horderly.peek.exec_next (horderly.calm hallowed)
      exact ⟨howned, hserial, hpeek⟩
  | read index =>
      obtain ⟨held, hheld, rfl⟩ := Option.map_eq_some_iff.mp hstep
      have hsound := horderly.owned.sound held (List.mem_of_getElem? hheld)
      exact ⟨howned, horderly.serial.of_released hsound.log_read, horderly.peek⟩
  | closeChunks index =>
      obtain ⟨held, hheld, rfl⟩ := Option.map_eq_some_iff.mp hstep
      have hsound := horderly.owned.sound held (List.mem_of_getElem? hheld)
      exact ⟨howned, horderly.serial.of_released hsound.log_close, horderly.peek⟩
  | closePeek =>
      obtain rfl := Option.some.inj hstep
      refine ⟨howned, ?_, trivial⟩
      dsimp only
      rw [horderly.owned.peek.log_close]
      exact horderly.serial

/-- Whatever the network does, a consumer that is through with one member before it asks
for the next has at most one response open at every moment, and none when it asks. -/
theorem open_unique_of_oneByOne (rounding : Rounding) (timeSnowflake : DateTime → Bool → ℤ)
    (arguments : Arguments) {state : State}
    (hrun : Reaches (step environment) OneByOne (start rounding timeSnowflake arguments) state) :
    (∀ moment, moment <+: state.log → ∀ left right, environment.Open moment left →
        environment.Open moment right → left = right) ∧
      (state.Through → ∀ response, ¬ environment.Open state.log response) := by
  have horderly : Orderly environment state :=
    hrun.invariant (orderly_start rounding timeSnowflake arguments)
      fun _ _ _ horderly hallowed hstep => horderly.of_step hallowed hstep
  exact ⟨fun moment hmoment left right => horderly.serial.open_unique hmoment,
    fun hthrough => (horderly.calm hthrough).closed⟩

/-- Both images are answered with 200. -/
def bothFound : Environment :=
  environmentOf fourAttachments [.ok ⟨200, [[1]], none⟩, .ok ⟨200, [[2]], none⟩]

/-- Where a consumer of the walk without reports stands after these steps. -/
def servedAfter (labels : List Label) : State :=
  let first := start exactRounding (fun _ _ => 0) quietImages
  (replay (step bothFound) first labels).getD first

/-- The first image has been read to its end, and the second asked for. -/
def secondAsked : State := servedAfter [.pull, .read 0, .read 0, .pull]

theorem open_unique_of_oneByOne_secondAsked :
    bothFound.Open secondAsked.log ⟨1, ⟨200, [[2]], none⟩⟩ ∧
      ∀ response, bothFound.Open secondAsked.log response → response.id = 1 := by
  have hasked : Reaches (step bothFound) OneByOne (servedAfter []) (servedAfter [.pull]) :=
    .tail .pull .refl (fun held hheld => by cases hheld) rfl
  have hread : Reaches (step bothFound) OneByOne (servedAfter [])
      (servedAfter [.pull, .read 0, .read 0]) :=
    hasked.trans (.tail (.read 0) (.tail (.read 0) .refl trivial rfl) trivial rfl)
  have hrun : Reaches (step bothFound) OneByOne (servedAfter []) secondAsked := by
    refine hread.tail .pull (fun held hheld => ?_) rfl
    obtain rfl := List.mem_singleton.mp hheld
    exact ⟨rfl, rfl⟩
  have hopen : bothFound.Open secondAsked.log ⟨1, ⟨200, [[2]], none⟩⟩ :=
    ⟨by decide, rfl, by decide⟩
  refine ⟨hopen, fun response hother => ?_⟩
  rw [(open_unique_of_oneByOne exactRounding (fun _ _ => 0) quietImages hrun).1 _
    (List.prefix_refl _) response _ hother hopen]

end Consumer

end DownloaderBot.ZipPipeline
