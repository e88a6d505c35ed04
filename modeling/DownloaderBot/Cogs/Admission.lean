import DownloaderBot.Cogs.AllOrNothing
import DownloaderBot.Core.Protocol
import DownloaderBot.Download.RatelimitRuns

/-!
# The jobs of a guild against its rate limit

Any number of `/download` invocations under way at once, for any callers in any guilds,
next to whatever `/cancel` refunds and Redis evicts.  Every job of a paying caller
stands for a token of its own, so the rate limit on the bucket is one on the jobs.
-/

namespace DownloaderBot.Admission

open DownloaderBot.DownloadCog
open DownloaderBot.Embeds (jobEnqueued)
open DownloaderBot.JobControl (Caller)
open DownloaderBot.Program
open DownloaderBot.Ratelimit (Limits Verdict)
open DownloaderBot.RatelimitRuns (countIn Sound)
open DownloaderBot.TransitionSystem

/-! ## What one invocation does -/

/-- How far an invocation is with its token. -/
inductive Mode
  | unasked
  | refused
  | holding
  | spent
  deriving DecidableEq, Repr

/-- Whether the task may be published. -/
def Mode.ready (payer : Option ℕ) : Mode → Bool
  | .unasked => payer.isNone
  | .holding => true
  | .refused | .spent => false

/-- The mode after an `acquire`. -/
def Mode.ofVerdict : Except Exn Verdict → Mode
  | .ok verdict => if verdict.allowed then .holding else .refused
  | .error _ => .refused

/-- A paying caller asks for one token, and publishes at most once and only with it;
who does not pay publishes at most once. -/
def protocol (payer : Option ℕ) : Protocol Mode Reply Exn := fun mode request outcome =>
  match request, outcome with
  | .acquire guildId, outcome =>
      if mode = .unasked ∧ payer = some guildId then some (.ofVerdict outcome) else none
  | .kiq _, _ => if mode.ready payer then some .spent else none
  | .defer _, _ | .send .., _ | .getSettings _, _ | .recordJob .., _ => some mode

section Invocation

variable {payer : Option ℕ} {mode : Mode}

/-- The call is about neither the token nor the queue. -/
def Plain : Call → Prop
  | .defer _ | .send .. | .getSettings _ | .recordJob .. => True
  | .acquire _ | .kiq _ => False

theorem follows_plain {α : Type} {program : Cog α} (hplain : program.Only Plain) :
    program.Follows (protocol payer) (fun _ _ => True) mode := by
  have hstays : program.Follows (protocol payer) (fun last _ => last = mode) mode := by
    refine hplain.follows ?_
    intro request hrequest outcome
    cases request with
    | acquire _ => cases hrequest
    | kiq _ => cases hrequest
    | _ => rfl
  exact hstays.mono fun _ _ _ => trivial

/-- A job may be published where a token has been taken or none is due. -/
def Taken (payer : Option ℕ) (last : Mode) : Except Exn (Option Bool) → Prop
  | .ok (some _) => last.ready payer = true
  | .ok none | .error _ => True

theorem follows_takeToken (clock : Clock) (caller : Caller) :
    (takeToken clock caller).Follows (protocol (payingGuild caller))
      (Taken (payingGuild caller)) .unasked := by
  rcases hguild : caller.guild with _ | guild
  · have hfree : payingGuild caller = none := by simp only [payingGuild, hguild]
    rw [takeToken, hguild, hfree]
    exact Prog.follows_ret rfl
  by_cases howner : caller.authorId = guild.ownerId
  · have hfree : payingGuild caller = none := by
      simp only [payingGuild, hguild, if_pos howner]
    simp only [takeToken, hguild, if_pos howner, hfree]
    exact Prog.follows_ret rfl
  have hpaying : payingGuild caller = some guild.id := by
    simp only [payingGuild, hguild, if_neg howner]
  simp only [takeToken, hguild, if_neg howner, hpaying]
  apply Prog.follows_bind
  apply Prog.follows_perform
  intro outcome
  refine ⟨.ofVerdict outcome, by simp [protocol], ?_⟩
  rcases outcome with exception | verdict
  · trivial
  by_cases hallowed : verdict.allowed
  · simp only [hallowed, if_true]
    exact Prog.follows_ret (by simp [Taken, Mode.ofVerdict, hallowed, Mode.ready])
  · simp only [hallowed]
    apply Prog.follows_bind
    apply Prog.follows_ofExcept
    rcases clock.retryAt verdict.retryAfter with exception | retryAt
    · trivial
    apply Prog.follows_bind
    apply Prog.follows_perform
    rintro (exception | _)
    · exact ⟨_, rfl, trivial⟩
    · exact ⟨_, rfl, Prog.follows_ret trivial⟩

theorem plain_readSettings (caller : Caller) : (readSettings caller).Only Plain := by
  rw [readSettings]
  split
  · exact Prog.only_perform trivial
  · trivial

/-- What follows the publication. -/
theorem plain_acknowledge (clock : Clock) (context : Context) (options : Options)
    (consumedToken : Bool) (taskId : String) :
    (do
      let guildSettings ← readSettings context.caller
      recordBestEffort taskId (jobMetaOf clock context consumedToken)
        (guildSettings.retentionHours * 3600)
      await (.send (jobEnqueued taskId options.dmMe) options.dmMe) : Cog Unit).Only Plain := by
  refine (plain_readSettings context.caller).bind fun guildSettings => ?_
  refine Prog.Only.bind ?_ fun _ => Prog.only_perform trivial
  exact (Prog.only_perform trivial).tryExcept fun _ => trivial

theorem follows_enqueue (clock : Clock) (context : Context) (options : Options)
    (consumedToken : Bool) (hready : mode.ready payer = true) :
    (enqueue clock context options consumedToken).Follows (protocol payer)
      (fun _ _ => True) mode := by
  apply Prog.follows_bind
  apply Prog.follows_tryExcept
  apply Prog.follows_bind
  apply Prog.follows_perform
  rintro (exception | taskId)
  · refine ⟨.spent, if_pos hready, ?_⟩
    simp only [if_true]
    apply Prog.follows_bind
    apply Prog.follows_perform
    rintro (exception | _)
    · exact ⟨_, rfl, trivial⟩
    · exact ⟨_, rfl, Prog.follows_ret (Prog.follows_ret trivial)⟩
  · refine ⟨.spent, if_pos hready, Prog.follows_ret ?_⟩
    exact follows_plain (plain_acknowledge clock context options consumedToken taskId)

theorem follows_download (clock : Clock) (context : Context) (options : Options) :
    (download clock context options).Follows (protocol (payingGuild context.caller))
      (fun _ _ => True) .unasked := by
  apply Prog.follows_bind
  apply Prog.follows_perform
  rintro (exception | _)
  · exact ⟨_, rfl, trivial⟩
  refine ⟨_, rfl, Prog.follows_bind (Prog.follows_ofExcept ?_)⟩
  rcases rejection context options with exception | (_ | embed)
  · trivial
  · refine Prog.follows_bind ((follows_takeToken clock context.caller).mono ?_)
    rintro last (exception | (_ | consumedToken)) htaken
    · trivial
    · exact Prog.follows_ret trivial
    · exact follows_enqueue clock context options consumedToken htaken
  · exact follows_plain (Prog.only_perform trivial)

end Invocation

/-! ## Invocations next to each other -/

/-- `paidAt`: when the token the invocation holds or has spent was taken. -/
structure Invocation where
  context : Context
  session : Session Mode Reply Exn Unit
  paidAt : Option ℚ

def Invocation.payer (invocation : Invocation) : Option ℕ :=
  payingGuild invocation.context.caller

/-- The pending call comes to its outcome. -/
def Invocation.resume (invocation : Invocation)
    (outcomes : (request : Call) → Except Exn (Reply request)) (paidAt : Option ℚ) :
    Invocation :=
  ⟨invocation.context, invocation.session.resume (protocol invocation.payer) outcomes,
    paidAt⟩

@[simp]
theorem Invocation.payer_resume (invocation : Invocation)
    (outcomes : (request : Call) → Except Exn (Reply request)) (paidAt : Option ℚ) :
    (invocation.resume outcomes paidAt).payer = invocation.payer := rfl

@[simp]
theorem Invocation.paidAt_resume (invocation : Invocation)
    (outcomes : (request : Call) → Except Exn (Reply request)) (paidAt : Option ℚ) :
    (invocation.resume outcomes paidAt).paidAt = paidAt := rfl

/-- A call of `kiq`, whether or not it raised: the message may be out either way. -/
structure Job where
  payer : Option ℕ
  paidAt : Option ℚ
  request : Enqueue

structure State where
  guilds : ℕ → RatelimitRuns.State
  invocations : List Invocation
  jobs : List Job

/-- `answer`: a call other than `acquire` comes to an outcome, or `acquire` raises
without effect.  `acquire`: its transaction goes through; the reply may be lost. -/
inductive Label
  | invoke (clock : Clock) (context : Context) (options : Options)
  | answer (index : ℕ) (outcomes : (request : Call) → Except Exn (Reply request))
  | acquire (index : ℕ) (now : ℚ) (lost : Bool)
  | refund (guildId : ℕ) (now : ℚ)
  | evict (guildId : ℕ) (now : ℚ)

namespace State

variable (state : State)

def resume (index : ℕ) (invocation : Invocation)
    (outcomes : (request : Call) → Except Exn (Reply request)) (paidAt : Option ℚ) : State :=
  { state with
    invocations := state.invocations.set index (invocation.resume outcomes paidAt) }

@[simp]
theorem guilds_resume (index : ℕ) (invocation : Invocation)
    (outcomes : (request : Call) → Except Exn (Reply request)) (paidAt : Option ℚ) :
    (state.resume index invocation outcomes paidAt).guilds = state.guilds := rfl

def setGuild (guildId : ℕ) (guild : RatelimitRuns.State) : State :=
  { state with guilds := Function.update state.guilds guildId guild }

end State

/-- An `acquire` on the bucket of a guild, with its verdict, in exact arithmetic.  It is read
at its commit, and from one commit on a bucket to the next the clock does not step back. -/
def acquireFrom (limits : Limits) (guild : RatelimitRuns.State) (now : ℚ) :
    Option (RatelimitRuns.State × Verdict) :=
  if guild.clock ≤ now then
    match Ratelimit.acquire limits.capacity limits.refillPerHour guild.bucket now with
    | .ok (bucket, verdict) =>
        some (⟨some bucket, now, guild.history ++ [⟨now, .verdict verdict⟩]⟩, verdict)
    | .error _ => none
  else none

/-- What an `acquire` that went through comes to. -/
def granted (verdict : Verdict) (lost : Bool) :
    (request : Call) → Except Exn (Reply request)
  | .acquire _ => if lost then .error .other else .ok verdict
  | _ => .error .other

def step (limits : Limits) (state : State) : Label → Option State
  | .invoke clock context options =>
      some { state with invocations := state.invocations ++
        [⟨context, ⟨download clock context options, some .unasked⟩, none⟩] }
  | .answer index outcomes => do
      let invocation ← state.invocations[index]?
      let resumed := state.resume index invocation outcomes invocation.paidAt
      match ← invocation.session.pending with
      | .acquire guildId =>
          if (outcomes (.acquire guildId)).isOk then none else some resumed
      | .kiq request =>
          some { resumed with
            jobs := state.jobs ++ [⟨invocation.payer, invocation.paidAt, request⟩] }
      | _ => some resumed
  | .acquire index now lost => do
      let invocation ← state.invocations[index]?
      match ← invocation.session.pending with
      | .acquire guildId =>
          let (guild, verdict) ← acquireFrom limits (state.guilds guildId) now
          some ((state.setGuild guildId guild).resume index invocation
            (granted verdict lost) (if verdict.allowed && !lost then some now else none))
      | _ => none
  | .refund guildId now =>
      (RatelimitRuns.step limits (state.guilds guildId) (.operate .refund now)).map
        (state.setGuild guildId)
  | .evict guildId now =>
      (RatelimitRuns.step limits (state.guilds guildId) (.evict now)).map
        (state.setGuild guildId)

/-- No invocation, no job, and no bucket yet. -/
def start (clock : ℚ) : State := ⟨fun _ => RatelimitRuns.start clock, [], []⟩

/-! ## What a step can do -/

section Steps

variable {limits : Limits} {state next : State}

/-- The steps that are enabled. -/
inductive Move (limits : Limits) (state : State) : Label → State → Prop
  | invoke (clock : Clock) (context : Context) (options : Options) :
      Move limits state (.invoke clock context options)
        { state with invocations := state.invocations ++
          [⟨context, ⟨download clock context options, some .unasked⟩, none⟩] }
  | plain (index : ℕ) (invocation : Invocation) (request : Call)
      (outcomes : (request : Call) → Except Exn (Reply request))
      (hinvocation : state.invocations[index]? = some invocation)
      (hpending : invocation.session.pending = some request) (hplain : Plain request) :
      Move limits state (.answer index outcomes)
        (state.resume index invocation outcomes invocation.paidAt)
  | raise (index : ℕ) (invocation : Invocation) (guildId : ℕ)
      (outcomes : (request : Call) → Except Exn (Reply request)) (exception : Exn)
      (hinvocation : state.invocations[index]? = some invocation)
      (hpending : invocation.session.pending = some (.acquire guildId))
      (hraises : outcomes (.acquire guildId) = .error exception) :
      Move limits state (.answer index outcomes)
        (state.resume index invocation outcomes invocation.paidAt)
  | kiq (index : ℕ) (invocation : Invocation) (request : Enqueue)
      (outcomes : (request : Call) → Except Exn (Reply request))
      (hinvocation : state.invocations[index]? = some invocation)
      (hpending : invocation.session.pending = some (.kiq request)) :
      Move limits state (.answer index outcomes)
        { state.resume index invocation outcomes invocation.paidAt with
          jobs := state.jobs ++ [⟨invocation.payer, invocation.paidAt, request⟩] }
  | acquire (index : ℕ) (invocation : Invocation) (guildId : ℕ) (now : ℚ) (lost : Bool)
      (guild : RatelimitRuns.State) (verdict : Verdict)
      (hinvocation : state.invocations[index]? = some invocation)
      (hpending : invocation.session.pending = some (.acquire guildId))
      (hacquire : acquireFrom limits (state.guilds guildId) now = some (guild, verdict)) :
      Move limits state (.acquire index now lost)
        ((state.setGuild guildId guild).resume index invocation (granted verdict lost)
          (if verdict.allowed && !lost then some now else none))
  | refund (guildId : ℕ) (now : ℚ) (guild : RatelimitRuns.State)
      (hrefund : RatelimitRuns.step limits (state.guilds guildId) (.operate .refund now) =
        some guild) :
      Move limits state (.refund guildId now) (state.setGuild guildId guild)
  | evict (guildId : ℕ) (now : ℚ) (guild : RatelimitRuns.State)
      (hevict : RatelimitRuns.step limits (state.guilds guildId) (.evict now) =
        some guild) :
      Move limits state (.evict guildId now) (state.setGuild guildId guild)

theorem move_of_step {label : Label} (hstep : step limits state label = some next) :
    Move limits state label next := by
  cases label with
  | invoke clock context options =>
      cases hstep
      exact .invoke clock context options
  | answer index outcomes =>
      obtain ⟨invocation, hinvocation, hstep⟩ := Option.bind_eq_some_iff.mp hstep
      obtain ⟨request, hpending, hstep⟩ := Option.bind_eq_some_iff.mp hstep
      cases request with
      | acquire guildId =>
          obtain ⟨hraises, hnext⟩ := Option.ite_none_left_eq_some.mp hstep
          cases hnext
          rcases houtcome : outcomes (.acquire guildId) with exception | verdict
          · exact .raise index invocation guildId outcomes exception hinvocation hpending
              houtcome
          · exact absurd (by rw [houtcome]; rfl) hraises
      | kiq request =>
          cases hstep
          exact .kiq index invocation request outcomes hinvocation hpending
      | _ =>
          cases hstep
          exact .plain index invocation _ outcomes hinvocation hpending trivial
  | acquire index now lost =>
      obtain ⟨invocation, hinvocation, hstep⟩ := Option.bind_eq_some_iff.mp hstep
      obtain ⟨request, hpending, hstep⟩ := Option.bind_eq_some_iff.mp hstep
      cases request with
      | acquire guildId =>
          obtain ⟨⟨guild, verdict⟩, hacquire, hnext⟩ := Option.bind_eq_some_iff.mp hstep
          cases hnext
          exact .acquire index invocation guildId now lost guild verdict hinvocation hpending
            hacquire
      | _ => cases hstep
  | refund guildId now =>
      obtain ⟨guild, hrefund, rfl⟩ := Option.map_eq_some_iff.mp hstep
      exact .refund guildId now guild hrefund
  | evict guildId now =>
      obtain ⟨guild, hevict, rfl⟩ := Option.map_eq_some_iff.mp hstep
      exact .evict guildId now guild hevict

end Steps

/-! ## Every job stands for a token -/

/-- The time lies in `[first, last]`. -/
def within (first last : ℚ) (paidAt : Option ℚ) : Bool :=
  paidAt.any fun time => first ≤ time ∧ time ≤ last

section Counts

variable (guildId : ℕ) (first last : ℚ)

/-- A job of the guild whose token was taken in `[first, last]`. -/
def Job.countsIn (job : Job) : Bool :=
  job.payer = some guildId && within first last job.paidAt

/-- An invocation that holds such a token. -/
def Invocation.holdsIn (invocation : Invocation) : Bool :=
  invocation.payer = some guildId && invocation.session.mode = some .holding &&
    within first last invocation.paidAt

end Counts

/-- The tokens held and spent are among those that the buckets have granted. -/
structure Admitted (limits : Limits) (state : State) : Prop where
  sound : ∀ guildId, Sound limits (state.guilds guildId)
  keeps : ∀ invocation ∈ state.invocations,
    invocation.session.Keeps (protocol invocation.payer) fun _ _ => True
  held : ∀ invocation ∈ state.invocations,
    invocation.session.mode = some .holding → invocation.paidAt.isSome = true
  paid : ∀ job ∈ state.jobs, job.payer.isSome = true → job.paidAt.isSome = true
  covered : ∀ guildId first last,
    state.jobs.countP (Job.countsIn guildId first last) +
        state.invocations.countP (Invocation.holdsIn guildId first last) ≤
      countIn RatelimitRuns.Reply.isAllowed (state.guilds guildId).history first last

section Run

variable {limits : Limits} {state : State}

theorem holdsIn_congr {left right : Invocation} (hpayer : left.payer = right.payer)
    (hmode : left.session.mode = right.session.mode) (hpaidAt : left.paidAt = right.paidAt)
    (guildId : ℕ) (first last : ℚ) :
    left.holdsIn guildId first last = right.holdsIn guildId first last := by
  simp only [Invocation.holdsIn, hpayer, hmode, hpaidAt]

theorem holdsIn_of_mode {invocation : Invocation} {mode : Mode}
    (hmode : invocation.session.mode = some mode) (hnot : mode ≠ .holding)
    (guildId : ℕ) (first last : ℚ) : invocation.holdsIn guildId first last = false := by
  simp [Invocation.holdsIn, hmode, hnot]

/-- The token an invocation holds after its `acquire` went through. -/
theorem of_holdsIn {invocation : Invocation} {kept : Bool} {now : ℚ} {guildId : ℕ}
    {first last : ℚ}
    (hmode : invocation.session.mode = some (if kept then .holding else .refused))
    (hpaidAt : invocation.paidAt = if kept then some now else none)
    (hholds : invocation.holdsIn guildId first last = true) :
    invocation.payer = some guildId ∧ kept = true ∧ first ≤ now ∧ now ≤ last := by
  cases kept with
  | false => simp [Invocation.holdsIn, hmode] at hholds
  | true => simpa [Invocation.holdsIn, hmode, hpaidAt, within] using hholds

theorem admitted_start (limits : Limits) (clock : ℚ) : Admitted limits (start clock) where
  sound _ := RatelimitRuns.sound_start limits clock
  keeps _ hinvocation := absurd hinvocation List.not_mem_nil
  held _ hinvocation := absurd hinvocation List.not_mem_nil
  paid _ hjob := absurd hjob List.not_mem_nil
  covered _ _ _ := Nat.zero_le _

/-- The tokens held once one invocation has moved on. -/
theorem countP_holdsIn_set {invocations : List Invocation} {index : ℕ}
    {invocation : Invocation} (hinvocation : invocations[index]? = some invocation)
    (moved : Invocation) (guildId : ℕ) (first last : ℚ) :
    (invocations.set index moved).countP (Invocation.holdsIn guildId first last) +
        (if invocation.holdsIn guildId first last then 1 else 0) =
      invocations.countP (Invocation.holdsIn guildId first last) +
        (if moved.holdsIn guildId first last then 1 else 0) := by
  obtain ⟨hlt, rfl⟩ := List.getElem?_eq_some_iff.mp hinvocation
  have hle :
      (if invocations[index].holdsIn guildId first last then 1 else 0) ≤
        invocations.countP (Invocation.holdsIn guildId first last) :=
    List.boole_getElem_le_countP hlt
  rw [List.countP_set hlt]
  omega

/-- One invocation moves on, with what it does to the buckets and the queue. -/
theorem Admitted.move (hadmitted : Admitted limits state) {index : ℕ}
    {invocation moved : Invocation}
    (hinvocation : state.invocations[index]? = some invocation)
    {guilds : ℕ → RatelimitRuns.State} {jobs : List Job}
    (hsound : ∀ guildId, Sound limits (guilds guildId))
    (hkeeps : moved.session.Keeps (protocol moved.payer) fun _ _ => True)
    (hheld : moved.session.mode = some .holding → moved.paidAt.isSome = true)
    (hpaid : ∀ job ∈ jobs, job.payer.isSome = true → job.paidAt.isSome = true)
    (hcovered : ∀ guildId first last,
      jobs.countP (Job.countsIn guildId first last) +
          (if moved.holdsIn guildId first last then 1 else 0) +
          countIn RatelimitRuns.Reply.isAllowed (state.guilds guildId).history first last ≤
        state.jobs.countP (Job.countsIn guildId first last) +
          (if invocation.holdsIn guildId first last then 1 else 0) +
          countIn RatelimitRuns.Reply.isAllowed (guilds guildId).history first last) :
    Admitted limits ⟨guilds, state.invocations.set index moved, jobs⟩ where
  sound := hsound
  keeps other hother := by
    rcases List.mem_or_eq_of_mem_set hother with hold | rfl
    · exact hadmitted.keeps other hold
    · exact hkeeps
  held other hother := by
    rcases List.mem_or_eq_of_mem_set hother with hold | rfl
    · exact hadmitted.held other hold
    · exact hheld
  paid := hpaid
  covered guildId first last := by
    have hset := countP_holdsIn_set hinvocation moved guildId first last
    have hbefore := hadmitted.covered guildId first last
    have hmoved := hcovered guildId first last
    dsimp only
    omega

/-- A bucket that moves on forgets no call. -/
theorem countIn_le_of_step {guild next : RatelimitRuns.State} {label : RatelimitRuns.Label}
    (hstep : RatelimitRuns.step limits guild label = some next)
    (kind : RatelimitRuns.Reply → Bool) (first last : ℚ) :
    countIn kind guild.history first last ≤ countIn kind next.history first last := by
  rcases RatelimitRuns.step_cases hstep with
    ⟨_, _, _, _, _, _, _, rfl⟩ | ⟨_, _, _, _, _, _, rfl⟩
  · rw [RatelimitRuns.countIn_concat]
    exact Nat.le_add_right _ _
  · exact le_refl _

theorem countIn_setGuild {guildId : ℕ} {guild : RatelimitRuns.State}
    {label : RatelimitRuns.Label}
    (hstep : RatelimitRuns.step limits (state.guilds guildId) label = some guild)
    (kind : RatelimitRuns.Reply → Bool) (other : ℕ) (first last : ℚ) :
    countIn kind (state.guilds other).history first last ≤
      countIn kind ((state.setGuild guildId guild).guilds other).history first last := by
  by_cases hother : other = guildId
  · subst hother
    simpa [State.setGuild] using countIn_le_of_step hstep kind first last
  · simp [State.setGuild, hother]

/-- A refund or an eviction touches no invocation. -/
theorem Admitted.setGuild (hadmitted : Admitted limits state) {guildId : ℕ}
    {guild : RatelimitRuns.State} {label : RatelimitRuns.Label}
    (hstep : RatelimitRuns.step limits (state.guilds guildId) label = some guild) :
    Admitted limits (state.setGuild guildId guild) where
  sound other := by
    by_cases hother : other = guildId
    · subst hother
      simpa [State.setGuild] using RatelimitRuns.sound_step (hadmitted.sound other) hstep
    · simpa [State.setGuild, hother] using hadmitted.sound other
  keeps := hadmitted.keeps
  held := hadmitted.held
  paid := hadmitted.paid
  covered other first last :=
    (hadmitted.covered other first last).trans (countIn_setGuild hstep _ other first last)

/-- An acquired token is one that the bucket has granted. -/
theorem step_of_acquireFrom {guild next : RatelimitRuns.State} {now : ℚ} {verdict : Verdict}
    (hacquire : acquireFrom limits guild now = some (next, verdict)) :
    RatelimitRuns.step limits guild (.operate .acquire now) = some next ∧
      next.history = guild.history ++ [⟨now, .verdict verdict⟩] := by
  simp only [acquireFrom] at hacquire
  split at hacquire
  case isFalse => cases hacquire
  case isTrue htime =>
    split at hacquire
    case h_2 => cases hacquire
    case h_1 bucket granted hgranted =>
      cases hacquire
      refine ⟨?_, rfl⟩
      simp only [RatelimitRuns.step, RatelimitRuns.perform, if_pos htime, hgranted]
      rfl

theorem ofVerdict_granted (verdict : Verdict) (lost : Bool) (guildId : ℕ) :
    Mode.ofVerdict (granted verdict lost (.acquire guildId)) =
      if verdict.allowed && !lost then .holding else .refused := by
  cases lost <;> simp [granted, Mode.ofVerdict]

/-- What the pending call of an invocation does to its mode. -/
theorem Admitted.resume (hadmitted : Admitted limits state) {index : ℕ}
    {invocation : Invocation} {request : Call}
    (hinvocation : state.invocations[index]? = some invocation)
    (hpending : invocation.session.pending = some request)
    (outcomes : (request : Call) → Except Exn (Reply request)) (paidAt : Option ℚ) :
    (invocation.resume outcomes paidAt).session.Keeps (protocol invocation.payer)
        (fun _ _ => True) ∧
      ∃ mode after, invocation.session.mode = some mode ∧
        protocol invocation.payer mode request (outcomes request) = some after ∧
        (invocation.resume outcomes paidAt).session.mode = some after :=
  (hadmitted.keeps invocation (List.mem_of_getElem? hinvocation)).resume hpending outcomes

theorem ready_cases {payer : Option ℕ} {mode : Mode} (hready : mode.ready payer = true) :
    mode = .unasked ∧ payer = none ∨ mode = .holding := by
  cases mode with
  | unasked => exact .inl ⟨rfl, Option.isNone_iff_eq_none.mp hready⟩
  | holding => exact .inr rfl
  | refused => cases hready
  | spent => cases hready

theorem protocol_plain {payer : Option ℕ} {mode : Mode} {request : Call}
    (hplain : Plain request) (outcome : Except Exn (Reply request)) :
    protocol payer mode request outcome = some mode := by
  cases request with
  | acquire _ => cases hplain
  | kiq _ => cases hplain
  | _ => rfl

/-- A new invocation has asked for nothing yet. -/
theorem Admitted.invoke (hadmitted : Admitted limits state) (clock : Clock)
    (context : Context) (options : Options) :
    Admitted limits { state with
      invocations := state.invocations ++
        [⟨context, ⟨download clock context options, some .unasked⟩, none⟩] } := by
  refine ⟨hadmitted.sound, ?_, ?_, hadmitted.paid, ?_⟩
  · intro invocation hinvocation
    rcases List.mem_append.mp hinvocation with hold | hnew
    · exact hadmitted.keeps invocation hold
    · obtain rfl := List.mem_singleton.mp hnew
      exact ⟨.unasked, rfl, follows_download clock context options⟩
  · intro invocation hinvocation hholding
    rcases List.mem_append.mp hinvocation with hold | hnew
    · exact hadmitted.held invocation hold hholding
    · obtain rfl := List.mem_singleton.mp hnew
      cases hholding
  · intro guildId first last
    simpa [Invocation.holdsIn] using hadmitted.covered guildId first last

/-- A call that is neither an acquire nor a publication leaves the mode as it is. -/
theorem Admitted.plain (hadmitted : Admitted limits state) {index : ℕ}
    {invocation : Invocation} {request : Call}
    (outcomes : (request : Call) → Except Exn (Reply request))
    (hinvocation : state.invocations[index]? = some invocation)
    (hpending : invocation.session.pending = some request) (hplain : Plain request) :
    Admitted limits (state.resume index invocation outcomes invocation.paidAt) := by
  obtain ⟨hkeeps, mode, after, hmode, hafter, hnext⟩ :=
    hadmitted.resume hinvocation hpending outcomes invocation.paidAt
  cases (protocol_plain hplain _).symm.trans hafter
  refine hadmitted.move hinvocation hadmitted.sound hkeeps ?_ hadmitted.paid ?_
  · intro hholding
    exact hadmitted.held invocation (List.mem_of_getElem? hinvocation)
      (hmode.trans (hnext.symm.trans hholding))
  · intro guildId first last
    rw [holdsIn_congr (Invocation.payer_resume ..) (hnext.trans hmode.symm) rfl]

/-- An acquire that raises without its effect holds no token. -/
theorem Admitted.raised (hadmitted : Admitted limits state) {index : ℕ}
    {invocation : Invocation} {guildId : ℕ}
    {outcomes : (request : Call) → Except Exn (Reply request)} {exception : Exn}
    (hinvocation : state.invocations[index]? = some invocation)
    (hpending : invocation.session.pending = some (.acquire guildId))
    (hraises : outcomes (.acquire guildId) = .error exception) :
    Admitted limits (state.resume index invocation outcomes invocation.paidAt) := by
  obtain ⟨hkeeps, mode, after, hmode, hafter, hnext⟩ :=
    hadmitted.resume hinvocation hpending outcomes invocation.paidAt
  rw [hraises] at hafter
  obtain ⟨⟨rfl, -⟩, hsome⟩ := Option.ite_none_right_eq_some.mp hafter
  cases hsome
  refine hadmitted.move hinvocation hadmitted.sound hkeeps ?_ hadmitted.paid ?_
  · intro hholding
    cases hnext.symm.trans hholding
  · intro guildId first last
    rw [holdsIn_of_mode hnext nofun]
    simp

/-- A publication turns the token that is held into a job's. -/
theorem Admitted.kiq (hadmitted : Admitted limits state) {index : ℕ}
    {invocation : Invocation} {request : Enqueue}
    (outcomes : (request : Call) → Except Exn (Reply request))
    (hinvocation : state.invocations[index]? = some invocation)
    (hpending : invocation.session.pending = some (.kiq request)) :
    Admitted limits { state.resume index invocation outcomes invocation.paidAt with
      jobs := state.jobs ++ [⟨invocation.payer, invocation.paidAt, request⟩] } := by
  obtain ⟨hkeeps, mode, after, hmode, hafter, hnext⟩ :=
    hadmitted.resume hinvocation hpending outcomes invocation.paidAt
  obtain ⟨hready, hsome⟩ := Option.ite_none_right_eq_some.mp hafter
  cases hsome
  refine hadmitted.move hinvocation hadmitted.sound hkeeps ?_ ?_ ?_
  · intro hholding
    cases hnext.symm.trans hholding
  · intro job hjob
    rcases List.mem_append.mp hjob with hold | hnew
    · exact hadmitted.paid job hold
    obtain rfl := List.mem_singleton.mp hnew
    intro hpaying
    rcases ready_cases hready with ⟨-, hfree⟩ | rfl
    · exact absurd hpaying (by simp [hfree])
    · exact hadmitted.held invocation (List.mem_of_getElem? hinvocation) hmode
  · intro guildId first last
    rw [List.countP_append, List.countP_singleton]
    rcases ready_cases hready with ⟨rfl, hfree⟩ | rfl
    · simp [Invocation.holdsIn, Job.countsIn, hmode, hnext, hfree]
    · simp [Invocation.holdsIn, Job.countsIn, hmode, hnext]

/-- A token that is held anew is one more that the bucket has granted. -/
theorem covered_acquire {invocation : Invocation} {guildId : ℕ} {now : ℚ} {lost : Bool}
    {guild : RatelimitRuns.State} {verdict : Verdict}
    (hacquire : acquireFrom limits (state.guilds guildId) now = some (guild, verdict))
    (hpayer : invocation.payer = some guildId)
    (hnext : (invocation.resume (granted verdict lost)
      (if verdict.allowed && !lost then some now else none)).session.mode =
        some (if verdict.allowed && !lost then .holding else .refused))
    (other : ℕ) (first last : ℚ) :
    (if (invocation.resume (granted verdict lost)
          (if verdict.allowed && !lost then some now else none)).holdsIn other first last
        then 1 else 0) +
        countIn RatelimitRuns.Reply.isAllowed (state.guilds other).history first last ≤
      countIn RatelimitRuns.Reply.isAllowed ((state.setGuild guildId guild).guilds other).history
        first last := by
  obtain ⟨hstep, hhistory⟩ := step_of_acquireFrom hacquire
  by_cases hholds : (invocation.resume (granted verdict lost)
      (if verdict.allowed && !lost then some now else none)).holdsIn other first last
  · obtain ⟨hother, hallowed, hwindow⟩ := of_holdsIn hnext rfl hholds
    cases hpayer.symm.trans hother
    have hcounted : countIn RatelimitRuns.Reply.isAllowed guild.history first last =
        countIn RatelimitRuns.Reply.isAllowed (state.guilds guildId).history first last + 1 := by
      rw [hhistory, RatelimitRuns.countIn_concat]
      exact congrArg _ (if_pos ⟨hwindow.1, hwindow.2, (Bool.and_eq_true_iff.mp hallowed).1⟩)
    rw [if_pos hholds]
    simp only [State.setGuild, Function.update_self, hcounted]
    omega
  · rw [if_neg hholds, Nat.zero_add]
    exact countIn_setGuild hstep RatelimitRuns.Reply.isAllowed other first last

theorem Admitted.acquire (hadmitted : Admitted limits state) {index : ℕ}
    {invocation : Invocation} {guildId : ℕ} {now : ℚ} {lost : Bool}
    {guild : RatelimitRuns.State} {verdict : Verdict}
    (hinvocation : state.invocations[index]? = some invocation)
    (hpending : invocation.session.pending = some (.acquire guildId))
    (hacquire : acquireFrom limits (state.guilds guildId) now = some (guild, verdict)) :
    Admitted limits ((state.setGuild guildId guild).resume index invocation
      (granted verdict lost) (if verdict.allowed && !lost then some now else none)) := by
  obtain ⟨hkeeps, mode, after, hmode, hafter, hnext⟩ :=
    hadmitted.resume hinvocation hpending (granted verdict lost)
      (if verdict.allowed && !lost then some now else none)
  obtain ⟨⟨rfl, hpayer⟩, hsome⟩ := Option.ite_none_right_eq_some.mp hafter
  cases hsome
  have hbucket := hadmitted.setGuild (step_of_acquireFrom hacquire).1
  refine hadmitted.move hinvocation hbucket.sound hkeeps ?_ hadmitted.paid ?_
  · rw [hnext, ofVerdict_granted]
    split
    · intro _
      rfl
    · intro hholding
      cases hholding
  · intro other first last
    rw [ofVerdict_granted] at hnext
    have hcovered := covered_acquire hacquire hpayer hnext other first last
    have hjobs : (state.setGuild guildId guild).jobs = state.jobs := rfl
    rw [holdsIn_of_mode hmode nofun, hjobs]
    simp only [Bool.false_eq_true, if_false]
    omega

theorem admitted_step {label : Label} {next : State} (hadmitted : Admitted limits state)
    (hstep : step limits state label = some next) : Admitted limits next := by
  cases move_of_step hstep with
  | invoke clock context options => exact hadmitted.invoke clock context options
  | plain index invocation request outcomes hinvocation hpending hplain =>
      exact hadmitted.plain outcomes hinvocation hpending hplain
  | raise index invocation guildId outcomes exception hinvocation hpending hraises =>
      exact hadmitted.raised hinvocation hpending hraises
  | kiq index invocation request outcomes hinvocation hpending =>
      exact hadmitted.kiq outcomes hinvocation hpending
  | acquire index invocation guildId now lost guild verdict hinvocation hpending hacquire =>
      exact hadmitted.acquire hinvocation hpending hacquire
  | refund guildId now guild hrefund => exact hadmitted.setGuild hrefund
  | evict guildId now guild hevict => exact hadmitted.setGuild hevict

theorem admitted_of_reaches {clock : ℚ}
    (hrun : Reaches (step limits) unrestricted (start clock) state) :
    Admitted limits state :=
  hrun.invariant (admitted_start limits clock)
    fun _ _ _ hadmitted _ hstep => admitted_step hadmitted hstep

/-- The cap of the bucket on the tokens it grants. -/
theorem allowed_le_of_sound {guild : RatelimitRuns.State} (hsound : Sound limits guild)
    {first last : ℚ} (hwindow : first ≤ last) :
    (countIn RatelimitRuns.Reply.isAllowed guild.history first last : ℚ) ≤
      limits.capacity + limits.refillPerHour * (last - first) / 3600 +
        countIn RatelimitRuns.Reply.isRefund guild.history first last := by
  have hspent := hsound.covers.window first last hwindow
  rw [RatelimitRuns.spent_charges] at hspent
  have hrate : (last - first) * limits.rate =
      limits.refillPerHour * (last - first) / 3600 := by
    rw [Limits.rate, Ratelimit.refillRate]
    ring
  linarith

/-- Whoever invokes `/download` and however the invocations, refunds and evictions fall:
every job of a paying caller has a token, and the jobs of a guild whose tokens were
taken in `[first, last]` exceed the refunds of that time by at most the burst and what
refills meanwhile. -/
theorem jobs_le_limit (limits : Limits) {clock : ℚ} {state : State}
    (hrun : Reaches (step limits) unrestricted (start clock) state)
    (guildId : ℕ) (first last : ℚ) (hwindow : first ≤ last) :
    (∀ job ∈ state.jobs, job.payer.isSome = true → job.paidAt.isSome = true) ∧
      (state.jobs.countP (Job.countsIn guildId first last) : ℚ) ≤
        limits.capacity + limits.refillPerHour * (last - first) / 3600 +
          countIn RatelimitRuns.Reply.isRefund (state.guilds guildId).history
            first last := by
  have hadmitted := admitted_of_reaches hrun
  refine ⟨hadmitted.paid, ?_⟩
  have hcovered := hadmitted.covered guildId first last
  have hgranted : (state.jobs.countP (Job.countsIn guildId first last) : ℚ) ≤
      countIn RatelimitRuns.Reply.isAllowed (state.guilds guildId).history first last :=
    Nat.cast_le.mpr (by omega)
  exact hgranted.trans (allowed_le_of_sound (hadmitted.sound guildId) hwindow)

/-- Everything but `acquire` answers. -/
def answers : (request : Call) → Except Exn (Reply request)
  | .defer _ | .send .. | .recordJob .. => .ok ()
  | .acquire _ => .error .other
  | .kiq _ => .ok "a"
  | .getSettings guildId => .ok { guildId := guildId }

def anyClock : Clock := ⟨fun _ => .error .other, "2024-05-02T00:00:00+00:00"⟩

/-- An invocation up to its job. -/
def asks (index authorId : ℕ) : List Label :=
  [.invoke anyClock ⟨⟨authorId, false, some ⟨1, 2⟩⟩, 3, true⟩ {}, .answer index answers,
    .acquire index 0 false, .answer index answers]

/-- Two members take the burst, and the owner of the guild goes past it. -/
theorem jobs_le_limit_burst :
    ∃ state, Reaches (step .default) unrestricted (start 0) state ∧
      state.jobs.length = 3 ∧ state.jobs.countP (Job.countsIn 1 0 0) = 2 ∧
      (∀ job ∈ state.jobs, job.payer.isSome = true → job.paidAt.isSome = true) ∧
        (state.jobs.countP (Job.countsIn 1 0 0) : ℚ) ≤
          Limits.default.capacity + Limits.default.refillPerHour * (0 - 0) / 3600 +
            countIn RatelimitRuns.Reply.isRefund (state.guilds 1).history 0 0 := by
  obtain ⟨state, hrun, hcheck⟩ := exists_reaches_of_replay (step .default) (start 0)
    (asks 0 7 ++ asks 1 8 ++ [.invoke anyClock ⟨⟨2, false, some ⟨1, 2⟩⟩, 3, true⟩ {},
      .answer 2 answers, .answer 2 answers])
    (fun state => state.jobs.length = 3 ∧ state.jobs.countP (Job.countsIn 1 0 0) = 2)
    (by decide +kernel)
  obtain ⟨hlength, hcount⟩ := of_decide_eq_true hcheck
  exact ⟨state, hrun, hlength, hcount, jobs_le_limit .default hrun 1 0 0 (le_refl 0)⟩

end Run

end DownloaderBot.Admission
