import DownloaderBot.Core.Program

/-!
# Programs that keep to a protocol

A protocol says, in each mode, which calls a program may make and in which mode an
outcome leaves it.  A program that follows a protocol keeps to it whatever its calls
come to.  A session is a program under way with the mode it is in; sessions next to
each other each keep to the protocol, however their calls interleave.
-/

namespace DownloaderBot.Program

variable {Mode Call : Type} {Reply : Call → Type} {Exn α β : Type}

/-- The mode after a call; `none` where the call is not allowed. -/
abbrev Protocol (Mode : Type) {Call : Type} (Reply : Call → Type) (Exn : Type) :=
  Mode → (request : Call) → Except Exn (Reply request) → Option Mode

/-- The mode moves with the outcomes; `none` once the protocol has been broken. -/
def Protocol.Serves (protocol : Protocol Mode Reply Exn) (mode : Option Mode)
    (request : Call) (outcome : Except Exn (Reply request)) (after : Option Mode) :
    Prop :=
  after = mode.bind fun current => protocol current request outcome

namespace Prog

variable {protocol : Protocol Mode Reply Exn}

/-- From `mode` on the protocol is kept, and `post` holds of the mode at the end. -/
def Follows (protocol : Protocol Mode Reply Exn) (program : Prog Reply Exn α)
    (post : Mode → Except Exn α → Prop) (mode : Mode) : Prop :=
  program.Holds protocol.Serves (fun current => current.isSome = true)
    (fun current outcome => ∃ last, current = some last ∧ post last outcome) (some mode)

theorem Follows.mono {program : Prog Reply Exn α}
    {post weaker : Mode → Except Exn α → Prop} {mode : Mode}
    (hfollows : program.Follows protocol post mode)
    (hweaker : ∀ last outcome, post last outcome → weaker last outcome) :
    program.Follows protocol weaker mode := by
  apply Holds.mono _ hfollows
  rintro current outcome ⟨last, hlast, hpost⟩
  exact ⟨last, hlast, hweaker last outcome hpost⟩

theorem follows_ret {value : α} {post : Mode → Except Exn α → Prop} {mode : Mode}
    (hpost : post mode (.ok value)) :
    (Prog.ret value : Prog Reply Exn α).Follows protocol post mode :=
  ⟨mode, rfl, hpost⟩

theorem follows_raise {exception : Exn} {post : Mode → Except Exn α → Prop} {mode : Mode}
    (hpost : post mode (.error exception)) :
    (Prog.raise exception : Prog Reply Exn α).Follows protocol post mode :=
  ⟨mode, rfl, hpost⟩

theorem follows_ofExcept {outcome : Except Exn α} {post : Mode → Except Exn α → Prop}
    {mode : Mode} (hpost : post mode outcome) :
    (ofExcept outcome : Prog Reply Exn α).Follows protocol post mode :=
  holds_ofExcept.mpr ⟨mode, rfl, hpost⟩

theorem follows_perform {request : Call} {post : Mode → Except Exn (Reply request) → Prop}
    {mode : Mode}
    (hallowed : ∀ outcome, ∃ next, protocol mode request outcome = some next ∧
      post next outcome) :
    (perform request : Prog Reply Exn _).Follows protocol post mode := by
  refine holds_perform.mpr ⟨rfl, ?_⟩
  rintro outcome _ rfl
  exact hallowed outcome

theorem follows_bind {program : Prog Reply Exn α} {rest : α → Prog Reply Exn β}
    {post : Mode → Except Exn β → Prop} {mode : Mode}
    (hprogram : program.Follows protocol (fun next outcome =>
      match outcome with
      | .ok value => (rest value).Follows protocol post next
      | .error exception => post next (.error exception)) mode) :
    (program.bind rest).Follows protocol post mode := by
  apply holds_bind.mpr (Holds.mono _ hprogram)
  rintro _ outcome ⟨next, rfl, hnext⟩
  cases outcome with
  | ok value => exact hnext
  | error exception => exact ⟨next, rfl, hnext⟩

theorem follows_tryExcept {body : Prog Reply Exn α} {catches : Exn → Bool}
    {handler : Exn → Prog Reply Exn α} {post : Mode → Except Exn α → Prop} {mode : Mode}
    (hbody : body.Follows protocol (fun next outcome =>
      match outcome with
      | .ok value => post next (.ok value)
      | .error exception =>
          if catches exception then (handler exception).Follows protocol post next
          else post next (.error exception)) mode) :
    (body.tryExcept catches handler).Follows protocol post mode := by
  apply holds_tryExcept (Holds.mono _ hbody)
  rintro _ outcome ⟨next, rfl, hnext⟩
  cases outcome with
  | ok value => exact ⟨next, rfl, hnext⟩
  | error exception =>
      dsimp only at hnext ⊢
      split
      case isTrue hcatches =>
        rw [if_pos hcatches] at hnext
        exact hnext
      case isFalse hcatches =>
        rw [if_neg hcatches] at hnext
        exact ⟨next, rfl, hnext⟩

theorem follows_tryFinally {body : Prog Reply Exn α}
    {cleanup : Except Exn α → Prog Reply Exn Unit} {post : Mode → Except Exn α → Prop}
    {mode : Mode}
    (hbody : body.Follows protocol (fun next outcome =>
      (cleanup outcome).Follows protocol
        (fun last cleaned => post last (cleaned.bind fun _ => outcome)) next) mode) :
    (body.tryFinally cleanup).Follows protocol post mode := by
  apply holds_tryFinally (Holds.mono _ hbody)
  rintro _ outcome ⟨next, rfl, hnext⟩
  apply Holds.mono _ hnext
  rintro _ cleaned ⟨last, rfl, hlast⟩
  cases cleaned with
  | ok _ => exact ⟨last, rfl, hlast⟩
  | error exception => exact ⟨last, rfl, hlast⟩

/-- Calls that are allowed in a mode and leave it unchanged. -/
theorem Only.follows {allowed : Call → Prop} {mode : Mode} {program : Prog Reply Exn α}
    (honly : program.Only allowed)
    (hstays : ∀ request, allowed request → ∀ outcome,
      protocol mode request outcome = some mode) :
    program.Follows protocol (fun last _ => last = mode) mode := by
  induction program with
  | ret value => exact follows_ret rfl
  | raise exception => exact follows_raise rfl
  | call request next ih =>
      refine ⟨rfl, ?_⟩
      rintro outcome _ rfl
      rw [Option.bind_some, hstays request honly.1 outcome]
      exact ih outcome (honly.2 outcome)

end Prog

/-! ## Sessions -/

/-- What is left of a program, and the mode it is in. -/
structure Session (Mode : Type) {Call : Type} (Reply : Call → Type) (Exn α : Type) where
  running : Prog Reply Exn α
  mode : Option Mode

namespace Session

/-- The call the session is at. -/
def pending (session : Session Mode Reply Exn α) : Option Call :=
  match session.running with
  | .call request _ => some request
  | _ => none

/-- How the session has ended. -/
def outcome (session : Session Mode Reply Exn α) : Option (Except Exn α) :=
  match session.running with
  | .ret value => some (.ok value)
  | .raise exception => some (.error exception)
  | .call .. => none

/-- The pending call comes to the outcome told for it. -/
def resume (protocol : Protocol Mode Reply Exn) (session : Session Mode Reply Exn α)
    (outcomes : (request : Call) → Except Exn (Reply request)) :
    Session Mode Reply Exn α :=
  match session.running with
  | .call request next =>
      ⟨next (outcomes request),
        session.mode.bind fun mode => protocol mode request (outcomes request)⟩
  | _ => session

/-- The session keeps to the protocol, and ends as `post` says. -/
def Keeps (protocol : Protocol Mode Reply Exn) (post : Mode → Except Exn α → Prop)
    (session : Session Mode Reply Exn α) : Prop :=
  ∃ mode, session.mode = some mode ∧ session.running.Follows protocol post mode

variable {protocol : Protocol Mode Reply Exn} {post : Mode → Except Exn α → Prop}
variable {session : Session Mode Reply Exn α}

/-- What the next call of a session that keeps to the protocol may be. -/
theorem Keeps.resume (hkeeps : session.Keeps protocol post) {request : Call}
    (hpending : session.pending = some request)
    (outcomes : (request : Call) → Except Exn (Reply request)) :
    (session.resume protocol outcomes).Keeps protocol post ∧
      ∃ mode after, session.mode = some mode ∧
        protocol mode request (outcomes request) = some after ∧
        (session.resume protocol outcomes).mode = some after := by
  obtain ⟨running, current⟩ := session
  obtain ⟨mode, rfl, hfollows⟩ := hkeeps
  match running with
  | .call request next =>
      cases hpending
      have hnext := hfollows.2 (outcomes request) _ rfl
      have hsome : (protocol mode request (outcomes request)).isSome = true := by
        apply hnext.invariant
        rintro _ outcome ⟨last, rfl, -⟩
        rfl
      obtain ⟨after, hafter⟩ := Option.isSome_iff_exists.mp hsome
      rw [Option.bind_some, hafter] at hnext
      exact ⟨⟨after, hafter, hnext⟩, mode, after, rfl, hafter, hafter⟩

/-- The end of a session that keeps to the protocol. -/
theorem Keeps.of_outcome (hkeeps : session.Keeps protocol post)
    {outcome : Except Exn α} (hended : session.outcome = some outcome) :
    ∃ mode, session.mode = some mode ∧ post mode outcome := by
  obtain ⟨running, current⟩ := session
  obtain ⟨mode, rfl, hfollows⟩ := hkeeps
  match running with
  | .ret value =>
      cases hended
      obtain ⟨last, hlast, hpost⟩ := hfollows
      exact ⟨last, hlast, hpost⟩
  | .raise exception =>
      cases hended
      obtain ⟨last, hlast, hpost⟩ := hfollows
      exact ⟨last, hlast, hpost⟩

/-! A session may keep to a second protocol besides, with a mode of its own. -/

section Beside

variable {Other : Type} {beside : Protocol Other Reply Exn}
variable {postBeside : Other → Except Exn α → Prop} {mode : Other}

theorem follows_resume (hfollows : session.running.Follows beside postBeside mode)
    {request : Call} (hpending : session.pending = some request)
    (outcomes : (request : Call) → Except Exn (Reply request)) :
    ∃ after, beside mode request (outcomes request) = some after ∧
      (session.resume protocol outcomes).running.Follows beside postBeside after := by
  obtain ⟨running, current⟩ := session
  have hkeeps : Keeps beside postBeside ⟨running, some mode⟩ := ⟨mode, rfl, hfollows⟩
  obtain ⟨⟨last, hlast, hrest⟩, before, after, hbefore, hafter, hnext⟩ :=
    hkeeps.resume hpending outcomes
  cases hbefore
  cases hlast.symm.trans hnext
  refine ⟨_, hafter, ?_⟩
  cases running with
  | call request next => exact hrest
  | ret value => cases hpending
  | raise exception => cases hpending

theorem follows_outcome (hfollows : session.running.Follows beside postBeside mode)
    {outcome : Except Exn α} (hended : session.outcome = some outcome) :
    postBeside mode outcome := by
  have hkeeps : Keeps beside postBeside ⟨session.running, some mode⟩ :=
    ⟨mode, rfl, hfollows⟩
  obtain ⟨last, hlast, hpost⟩ := hkeeps.of_outcome hended
  cases hlast
  exact hpost

end Beside

end Session

end DownloaderBot.Program
