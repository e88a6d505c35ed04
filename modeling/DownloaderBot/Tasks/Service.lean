import DownloaderBot.Tasks.Overlap

/-!
# Many tasks, one container

The workers serve any number of tasks at once, each with attempts of its own, all of them
uploading into one container.  A task names its blob after its channel and its id, and
touches no other: what a run of the service does to one task is a run of that task alone.
-/

namespace DownloaderBot.Service

open DownloaderBot.Embeds
open DownloaderBot.ExpiringStore (Cell fetch)
open DownloaderBot.Overlap (Attempt Tame start)
open DownloaderBot.Program
open DownloaderBot.Tasks
open DownloaderBot.Text (append_separator_inj toString_injective)
open DownloaderBot.TransitionSystem

/-! ## Blob names -/

/-- The key under which a task uploads. -/
def blobName (channelId : ℕ) (taskId : String) : String :=
  "channel-" ++ toString channelId ++ "-" ++ taskId ++ ".zip"

/-- The id of the channel ends at the first dash. -/
theorem blobName_injective {channelId other : ℕ} {taskId otherTask : String}
    (heq : blobName channelId taskId = blobName other otherTask) :
    channelId = other ∧ taskId = otherTask := by
  have hdash (number : ℕ) : '-' ∉ (toString number).toList := by
    rw [Nat.toString_eq_ofList_toDigits, String.toList_ofList]
    intro hmem
    exact absurd (Nat.isDigit_of_mem_toDigits (by decide) (by decide) hmem) (by decide)
  have hlist := congrArg String.toList heq
  simp only [blobName, String.toList_append, List.append_assoc, List.append_cancel_left_eq]
    at hlist
  obtain ⟨hchannel, hrest⟩ := (append_separator_inj (hdash channelId) (hdash other)).mp hlist
  exact ⟨toString_injective (String.toList_injective hchannel),
    String.toList_injective (List.append_cancel_right hrest)⟩

/-- The call touches no blob but the one of this name. -/
def Touches (name : String) : Call → Prop
  | .uploadAndSign asked => asked.name = name
  | .deleteBlob other => other = name
  | _ => True

section Names

variable {name : String}

theorem touches_await (request : Call) (hrequest : Touches name request) :
    (await request).Only (Touches name) :=
  Prog.only_perform hrequest

theorem touches_resolveSettings (arguments : Arguments) :
    (resolveSettings arguments).Only (Touches name) := by
  rw [resolveSettings]
  split
  · split
    · trivial
    · exact touches_await (.getSettings _) trivial
  · trivial

theorem touches_cleanUp (outcome : Except Exn (String × Bool)) :
    (cleanUp name outcome).Only (Touches name) := by
  have hdelete : ((await (.deleteBlob name)).tryExcept (· = .uploadError)
      fun _ => pure ()).Only (Touches name) :=
    (touches_await (.deleteBlob name) rfl).tryExcept fun _ => trivial
  match outcome with
  | .ok (_, false) => trivial
  | .ok (_, true) => exact hdelete
  | .error _ => exact hdelete

theorem touches_uploadPhase (arguments : Arguments) (clock : Clock)
    (guildSettings : GuildSettings) (ttl : Calendar.TimeDelta) (ttlSeconds : ℤ) :
    (uploadPhase arguments clock guildSettings ttl ttlSeconds).Only
      (Touches (blobName arguments.channelId arguments.taskId)) := by
  apply (touches_await (.fetchChannel arguments.channelId) trivial).bind
  intro channel
  split
  · trivial
  · apply (touches_await (.setProgress .stream) trivial).bind
    intro _
    apply (Prog.only_ofExcept _).bind
    intro resolved
    apply Prog.Only.bind
    · apply Prog.Only.tryFinally
      · apply Prog.Only.tryExcept
        · exact (touches_await (.uploadAndSign _) rfl).bind fun _ => trivial
        · exact fun _ => trivial
      · exact touches_cleanUp
    · intro _
      exact (touches_await (.cacheArchiveUrl _ _) trivial).bind fun _ => trivial

theorem touches_dmUser (userId : ℕ) (embed : Embed) :
    (dmUser userId embed).Only (Touches name) := by
  apply (touches_await (.fetchUser userId) trivial).bind
  intro _
  exact (touches_await (.send _ _) trivial).tryExcept fun _ => trivial

theorem touches_postToChannel (channelId userId : ℕ) (embed : Embed) :
    (postToChannel channelId embed userId).Only (Touches name) := by
  apply Prog.Only.tryExcept
  · apply (touches_await (.fetchChannel channelId) trivial).bind
    intro channel
    split
    · trivial
    · exact touches_await (.send _ _) trivial
  · exact fun _ => touches_dmUser userId embed

theorem touches_deliverOnce (arguments : Arguments) (guildSettings : GuildSettings)
    (mode : DeliveryMode) (url : String) (ttlSeconds : ℤ) (delivered : Bool) :
    (deliverOnce arguments guildSettings mode url ttlSeconds delivered).Only
      (Touches name) := by
  have hmark : (await (.markDelivered ttlSeconds)).Only (Touches name) :=
    touches_await (.markDelivered ttlSeconds) trivial
  rw [deliverOnce]
  split
  · trivial
  · apply (touches_await (.setProgress .deliver) trivial).bind
    intro _
    dsimp only
    split
    · exact (touches_postToChannel _ _ _).bind fun _ => hmark
    · exact (touches_dmUser _ _).bind fun _ => hmark

/-- An attempt touches the blob of its task only. -/
theorem touches_downloadChannelMedia (arguments : Arguments) (clock : Clock) :
    (downloadChannelMedia arguments clock).Only
      (Touches (blobName arguments.channelId arguments.taskId)) := by
  apply (touches_await (.setProgress .pickedUp) trivial).bind
  intro _
  apply (touches_resolveSettings arguments).bind
  intro guildSettings
  apply (Prog.only_ofExcept _).bind
  intro ttl
  apply (touches_await .getCachedArchiveUrl trivial).bind
  intro cached
  apply Prog.Only.bind
  · cases cached with
    | none => exact touches_uploadPhase arguments clock guildSettings ttl _
    | some url => trivial
  · intro archiveUrl
    apply (touches_await .isDelivered trivial).bind
    intro delivered
    apply (touches_deliverOnce arguments guildSettings _ archiveUrl _ delivered).bind
    intro _
    apply (touches_await (.setProgress .done) trivial).bind
    intro _
    have hforget : (forgetFinished arguments.userId).Only
        (Touches (blobName arguments.channelId arguments.taskId)) :=
      (touches_await (.forgetJob arguments.userId) trivial).tryExcept fun _ => trivial
    exact hforget.bind fun _ => trivial

end Names

/-! ## The service -/

/-- A task that has been published: its message, its `archive_url` key, the embeds that its
attempts have sent, and the attempts. -/
structure Published where
  arguments : Arguments
  archiveUrl : Option (Cell String ℚ)
  sent : List Embed
  begun : ℕ
  attempts : ℕ → Option Attempt

/-- The container by blob name, and the tasks by task id. -/
structure State where
  container : String → Bool
  now : ℚ
  tasks : String → Option Published

/-- Every task id is published once. -/
inductive Label
  | publish (arguments : Arguments)
  | begin (taskId : String) (clock : Clock)
  | answer (taskId : String) (attempt : ℕ)
      (outcomes : (request : Call) → Except Exn (Reply request)) (effect : Bool)
  | leave (taskId : String) (attempt : ℕ)
  | elapse (seconds : ℚ)

/-- What a call that takes effect does to the container. -/
def upload (container : String → Bool) : Call → String → Bool
  | .uploadAndSign asked => Function.update container asked.name true
  | .deleteBlob name => Function.update container name false
  | _ => container

namespace Published

def fresh (arguments : Arguments) : Published := ⟨arguments, none, [], 0, fun _ => none⟩

def name (task : Published) : String :=
  blobName task.arguments.channelId task.arguments.taskId

/-- What a call that takes effect does to the rest of its task. -/
def effect (task : Published) (now : ℚ) : Call → Published
  | .cacheArchiveUrl url ttlSeconds =>
      if 0 < ttlSeconds then
        { task with archiveUrl := some ⟨url, some (now + ttlSeconds)⟩ }
      else task
  | .send _ embed => { task with sent := task.sent ++ [embed] }
  | _ => task

end Published

namespace State

/-- What the attempts at a task see of the service. -/
def view (state : State) (task : Published) : Overlap.State :=
  ⟨⟨state.container task.name, task.archiveUrl, task.sent⟩, state.now, task.begun,
    task.attempts⟩

def put (state : State) (taskId : String) (task : Published) : State :=
  { state with tasks := Function.update state.tasks taskId (some task) }

/-- The pending call of an attempt comes to its outcome. -/
def answer (state : State) (taskId : String) (task : Published) (number : ℕ)
    (attempt : Attempt) (request : Call)
    (outcomes : (request : Call) → Except Exn (Reply request)) (effect : Bool) : State :=
  let session := attempt.session.resume (uploadProtocol task.arguments.userId) outcomes
  let moved := (state.view task).advance number attempt session (state.view task).store
  let served := if Overlap.takesEffect (outcomes request) effect then
      (upload state.container request, task.effect state.now request)
    else (state.container, task)
  { state with container := served.1 }.put taskId
    { served.2 with attempts := moved.attempts }

end State

/-- One step of the service. -/
def step (expiry : String → ℚ) (state : State) : Label → Option State
  | .publish arguments =>
      match state.tasks arguments.taskId with
      | some _ => none
      | none => some (state.put arguments.taskId (.fresh arguments))
  | .begin taskId clock =>
      (state.tasks taskId).map fun task =>
        let session := ⟨downloadChannelMedia task.arguments clock, some .before⟩
        state.put taskId { task with
          begun := task.begun + 1
          attempts := Function.update task.attempts task.begun (some ⟨session, false⟩) }
  | .answer taskId number outcomes effect => do
      let task ← state.tasks taskId
      let attempt ← task.attempts number
      let request ← attempt.session.pending
      match outcomes request with
      | .ok reply =>
          if (state.view task).store.Answers expiry state.now request reply then
            return state.answer taskId task number attempt request outcomes effect
          else none
      | .error _ => return state.answer taskId task number attempt request outcomes effect
  | .leave taskId number =>
      (state.tasks taskId).map fun task =>
        state.put taskId { task with attempts := Function.update task.attempts number none }
  | .elapse seconds =>
      if 0 ≤ seconds then some { state with now := state.now + seconds } else none

/-- Nothing has been published. -/
def empty (now : ℚ) : State := ⟨fun _ => false, now, fun _ => none⟩

/-- The step does no harm among the attempts at its own task. -/
def Harmless (state : State) : Label → Prop
  | .answer taskId number outcomes effect =>
      ∀ task ∈ state.tasks taskId, Tame (state.view task) (.answer number outcomes effect)
  | _ => True

/-! ## One task of the service -/

section Share

variable {expiry : String → ℚ} {state : State} {taskId : String} {task : Published}

/-- On its own blob a call does to the container what it does to the store of its task. -/
theorem view_effect {request : Call} (htouches : Touches task.name request) :
    (state.view task).store.effect state.now request =
      ⟨upload state.container request task.name, (task.effect state.now request).archiveUrl,
        (task.effect state.now request).sent⟩ := by
  cases request with
  | uploadAndSign asked =>
      have hname : asked.name = task.name := htouches
      rw [upload, hname, Function.update_self]
      rfl
  | deleteBlob name =>
      have hname : name = task.name := htouches
      rw [upload, hname, Function.update_self]
      rfl
  | cacheArchiveUrl url ttlSeconds =>
      simp only [Store.effect, Published.effect]
      split <;> rfl
  | _ => rfl

/-- On other blobs it does nothing. -/
theorem upload_of_ne {container : String → Bool} {request : Call} {name other : String}
    (htouches : Touches name request) (hne : other ≠ name) :
    upload container request other = container other := by
  cases request with
  | uploadAndSign asked => exact Function.update_of_ne (by rw [htouches]; exact hne) _ _
  | deleteBlob deleted => exact Function.update_of_ne (by rw [htouches]; exact hne) _ _
  | _ => rfl

/-- Each task has its own id and its own blob, and what happened to it is a run of that task
alone. -/
structure Apart (expiry : String → ℚ) (state : State) : Prop where
  named : ∀ taskId task, state.tasks taskId = some task → task.arguments.taskId = taskId
  touches : ∀ taskId task, state.tasks taskId = some task → ∀ number attempt,
    task.attempts number = some attempt → attempt.session.running.Only (Touches task.name)
  idle : ∀ channelId taskId, state.tasks taskId = none →
    state.container (blobName channelId taskId) = false
  share : ∀ taskId task, state.tasks taskId = some task → ∃ published,
    Reaches (Overlap.step expiry task.arguments) Tame (start published) (state.view task)

theorem apart_empty (now : ℚ) : Apart expiry (empty now) where
  named _ _ htask := by cases htask
  touches _ _ htask := by cases htask
  idle _ _ _ := rfl
  share _ _ htask := by cases htask

/-- A step of one task leaves the others where they are. -/
theorem Apart.move (hapart : Apart expiry state) (htask : state.tasks taskId = some task)
    (label : Overlap.Label) (moved : Published) (container : String → Bool)
    (harguments : moved.arguments = task.arguments)
    (hcontainer : ∀ other, other ≠ task.name → container other = state.container other)
    (htouches : ∀ number attempt, moved.attempts number = some attempt →
      attempt.session.running.Only (Touches task.name))
    (htame : Tame (state.view task) label)
    (hstep : Overlap.step expiry task.arguments (state.view task) label =
      some (({ state with container := container }.put taskId moved).view moved)) :
    Apart expiry ({ state with container := container }.put taskId moved) := by
  have hid : task.arguments.taskId = taskId := hapart.named taskId task htask
  have hname : moved.name = task.name := by rw [Published.name, harguments]; rfl
  have htasks (other : String) (found : Published)
      (hfound : ({ state with container := container }.put taskId moved).tasks other =
        some found) :
      (other = taskId ∧ found = moved) ∨
        (other ≠ taskId ∧ state.tasks other = some found ∧ found.name ≠ task.name) := by
    by_cases hsame : other = taskId
    · subst hsame
      simp only [State.put, Function.update_self, Option.some.injEq] at hfound
      exact .inl ⟨rfl, hfound.symm⟩
    · simp only [State.put, Function.update_of_ne hsame] at hfound
      refine .inr ⟨hsame, hfound, fun heq => hsame ?_⟩
      rw [← hapart.named other found hfound, ← hid]
      exact (blobName_injective heq).2
  constructor
  case named =>
    intro other found hfound
    rcases htasks other found hfound with ⟨rfl, rfl⟩ | ⟨-, hbefore, -⟩
    · rw [harguments, hid]
    · exact hapart.named other found hbefore
  case touches =>
    intro other found hfound number attempt hattempt
    rcases htasks other found hfound with ⟨rfl, rfl⟩ | ⟨-, hbefore, -⟩
    · rw [hname]
      exact htouches number attempt hattempt
    · exact hapart.touches other found hbefore number attempt hattempt
  case idle =>
    intro channelId other hnone
    have hne : other ≠ taskId := by
      rintro rfl
      simp [State.put] at hnone
    simp only [State.put, Function.update_of_ne hne] at hnone
    have hblob : blobName channelId other ≠ task.name := by
      intro heq
      rw [← hid] at hne
      exact hne (blobName_injective heq).2
    exact (hcontainer _ hblob).trans (hapart.idle channelId other hnone)
  case share =>
    intro other found hfound
    rcases htasks other found hfound with ⟨rfl, rfl⟩ | ⟨-, hbefore, hother⟩
    · obtain ⟨published, hrun⟩ := hapart.share other task htask
      rw [harguments]
      exact ⟨published, hrun.tail label htame hstep⟩
    · obtain ⟨published, hrun⟩ := hapart.share other found hbefore
      refine ⟨published, ?_⟩
      have hview : ({ state with container := container }.put taskId moved).view found =
          state.view found := by
        simp only [State.view, State.put, hcontainer found.name hother]
      rw [hview]
      exact hrun

theorem Apart.publish (hapart : Apart expiry state) (arguments : Arguments)
    (hnone : state.tasks arguments.taskId = none) :
    Apart expiry (state.put arguments.taskId (.fresh arguments)) := by
  have htasks (other : String) (found : Published)
      (hfound : (state.put arguments.taskId (.fresh arguments)).tasks other = some found) :
      (other = arguments.taskId ∧ found = .fresh arguments) ∨
        state.tasks other = some found := by
    by_cases hsame : other = arguments.taskId
    · subst hsame
      simp only [State.put, Function.update_self, Option.some.injEq] at hfound
      exact .inl ⟨rfl, hfound.symm⟩
    · simp only [State.put, Function.update_of_ne hsame] at hfound
      exact .inr hfound
  constructor
  case named =>
    intro other found hfound
    rcases htasks other found hfound with ⟨rfl, rfl⟩ | hbefore
    · rfl
    · exact hapart.named other found hbefore
  case touches =>
    intro other found hfound number attempt hattempt
    rcases htasks other found hfound with ⟨rfl, rfl⟩ | hbefore
    · cases hattempt
    · exact hapart.touches other found hbefore number attempt hattempt
  case idle =>
    intro channelId other hother
    by_cases hsame : other = arguments.taskId
    · subst hsame
      simp [State.put] at hother
    · simp only [State.put, Function.update_of_ne hsame] at hother
      exact hapart.idle channelId other hother
  case share =>
    intro other found hfound
    rcases htasks other found hfound with ⟨rfl, rfl⟩ | hbefore
    · refine ⟨state.now, ?_⟩
      have hview : (state.put arguments.taskId (.fresh arguments)).view (.fresh arguments) =
          start state.now := by
        have hblob := hapart.idle arguments.channelId arguments.taskId hnone
        simp only [State.view, State.put, Published.name, Published.fresh, hblob]
        rfl
      rw [hview]
      exact .refl
    · exact hapart.share other found hbefore

theorem only_resume {name : String} {session : Session Mode Reply Exn DownloadResult}
    (honly : session.running.Only (Touches name)) (userId : ℕ)
    (outcomes : (request : Call) → Except Exn (Reply request)) :
    (session.resume (uploadProtocol userId) outcomes).running.Only (Touches name) := by
  obtain ⟨running, mode⟩ := session
  cases running with
  | ret value => trivial
  | raise exception => trivial
  | call request rest => exact honly.2 (outcomes request)

theorem touches_pending {name : String} {session : Session Mode Reply Exn DownloadResult}
    (honly : session.running.Only (Touches name)) {request : Call}
    (hpending : session.pending = some request) : Touches name request := by
  obtain ⟨running, mode⟩ := session
  cases running with
  | ret value => cases hpending
  | raise exception => cases hpending
  | call request rest =>
      cases hpending
      exact honly.1

theorem Apart.begin (hapart : Apart expiry state) (htask : state.tasks taskId = some task)
    (clock : Clock) : Apart expiry (state.put taskId { task with
      begun := task.begun + 1
      attempts := Function.update task.attempts task.begun
        (some ⟨⟨downloadChannelMedia task.arguments clock, some .before⟩, false⟩) }) := by
  refine hapart.move htask (.begin clock) _ state.container rfl (fun _ _ => rfl) ?_ trivial rfl
  intro number attempt hattempt
  by_cases hsame : number = task.begun
  · subst hsame
    simp only [Function.update_self, Option.some.injEq] at hattempt
    subst hattempt
    exact touches_downloadChannelMedia task.arguments clock
  · simp only [Function.update_of_ne hsame] at hattempt
    exact hapart.touches taskId task htask number attempt hattempt

theorem Apart.leave (hapart : Apart expiry state) (htask : state.tasks taskId = some task)
    (number : ℕ) : Apart expiry (state.put taskId { task with
      attempts := Function.update task.attempts number none }) := by
  refine hapart.move htask (.leave number) _ state.container rfl (fun _ _ => rfl) ?_ trivial rfl
  intro other attempt hattempt
  by_cases hsame : other = number
  · subst hsame
    simp at hattempt
  · simp only [Function.update_of_ne hsame] at hattempt
    exact hapart.touches taskId task htask other attempt hattempt

theorem arguments_effect (task : Published) (now : ℚ) (request : Call) :
    (task.effect now request).arguments = task.arguments := by
  cases request with
  | cacheArchiveUrl url ttlSeconds =>
      rw [Published.effect]
      split <;> rfl
  | _ => rfl

theorem begun_effect (task : Published) (now : ℚ) (request : Call) :
    (task.effect now request).begun = task.begun := by
  cases request with
  | cacheArchiveUrl url ttlSeconds =>
      rw [Published.effect]
      split <;> rfl
  | _ => rfl

/-- The step of a run of the task alone for an answer. -/
theorem overlap_step_answer {overlap : Overlap.State} {arguments : Arguments} {number : ℕ}
    {attempt : Attempt} {request : Call}
    {outcomes : (request : Call) → Except Exn (Reply request)} {effect : Bool}
    (hattempt : overlap.attempts number = some attempt)
    (hpending : attempt.session.pending = some request)
    (hanswers : ∀ reply, outcomes request = .ok reply →
      overlap.store.Answers expiry overlap.now request reply) :
    Overlap.step expiry arguments overlap (.answer number outcomes effect) =
      some (overlap.advance number attempt
        (attempt.session.resume (uploadProtocol arguments.userId) outcomes)
        (if Overlap.takesEffect (outcomes request) effect then
          overlap.store.effect overlap.now request else overlap.store)) := by
  simp only [Overlap.step, hattempt, hpending]
  cases houtcome : outcomes request with
  | ok reply =>
      simp only [if_pos (hanswers reply houtcome)]
      rfl
  | error exception => rfl

/-- What an answer does to its own task it does to a run of that task alone. -/
theorem overlap_answer {number : ℕ} {attempt : Attempt} {request : Call}
    {outcomes : (request : Call) → Except Exn (Reply request)} {effect : Bool}
    (hattempt : task.attempts number = some attempt)
    (hpending : attempt.session.pending = some request) (htouches : Touches task.name request)
    (hanswers : ∀ reply, outcomes request = .ok reply →
      (state.view task).store.Answers expiry state.now request reply) :
    ∃ moved container, moved.arguments = task.arguments ∧
      state.answer taskId task number attempt request outcomes effect =
        { state with container := container }.put taskId moved ∧
      (∀ other, other ≠ task.name → container other = state.container other) ∧
      moved.attempts = ((state.view task).advance number attempt
        (attempt.session.resume (uploadProtocol task.arguments.userId) outcomes)
        (state.view task).store).attempts ∧
      Overlap.step expiry task.arguments (state.view task) (.answer number outcomes effect) =
        some (({ state with container := container }.put taskId moved).view moved) := by
  rw [overlap_step_answer hattempt hpending hanswers]
  by_cases heffect : Overlap.takesEffect (outcomes request) effect = true
  · have hname : (task.effect state.now request).name = task.name := by
      rw [Published.name, arguments_effect]
      rfl
    refine ⟨{ task.effect state.now request with attempts := ((state.view task).advance number
        attempt (attempt.session.resume (uploadProtocol task.arguments.userId) outcomes)
        (state.view task).store).attempts }, upload state.container request,
      arguments_effect task state.now request, ?_,
      fun other hother => upload_of_ne htouches hother, rfl, ?_⟩
    · simp only [State.answer, if_pos heffect]
    · have hstore : (state.view task).store.effect (state.view task).now request =
          ⟨upload state.container request (task.effect state.now request).name,
            (task.effect state.now request).archiveUrl,
            (task.effect state.now request).sent⟩ := by
        rw [hname]
        exact view_effect htouches
      rw [if_pos heffect, hstore]
      have hbegun : (task.effect state.now request).begun = task.begun := begun_effect task _ _
      simp only [State.view, Overlap.State.advance, State.put, hbegun]
      rfl
  · refine ⟨{ task with attempts := ((state.view task).advance number
        attempt (attempt.session.resume (uploadProtocol task.arguments.userId) outcomes)
        (state.view task).store).attempts }, state.container, rfl, ?_, fun _ _ => rfl, rfl, ?_⟩
    · simp only [State.answer, if_neg heffect]
    · rw [if_neg heffect]
      rfl

theorem Apart.answer (hapart : Apart expiry state) (htask : state.tasks taskId = some task)
    {number : ℕ} {attempt : Attempt} {request : Call}
    {outcomes : (request : Call) → Except Exn (Reply request)} {effect : Bool}
    (hattempt : task.attempts number = some attempt)
    (hpending : attempt.session.pending = some request)
    (hanswers : ∀ reply, outcomes request = .ok reply →
      (state.view task).store.Answers expiry state.now request reply)
    (htame : Tame (state.view task) (.answer number outcomes effect)) :
    Apart expiry (state.answer taskId task number attempt request outcomes effect) := by
  have honly := hapart.touches taskId task htask number attempt hattempt
  obtain ⟨moved, container, harguments, hanswer, hcontainer, hattempts, hstep⟩ :=
    overlap_answer hattempt hpending (touches_pending honly hpending) hanswers
  rw [hanswer]
  refine hapart.move htask _ moved container harguments hcontainer ?_ htame hstep
  intro other found hfound
  rw [hattempts] at hfound
  obtain ⟨-, hsession⟩ | ⟨-, before, hbefore, hsession, -⟩ :=
    Overlap.State.attempts_advance hfound
  · rw [hsession]
    exact only_resume honly _ outcomes
  · rw [hsession]
    exact hapart.touches taskId task htask other before hbefore

theorem Apart.elapse (hapart : Apart expiry state) {seconds : ℚ} (hseconds : 0 ≤ seconds) :
    Apart expiry { state with now := state.now + seconds } where
  named := hapart.named
  touches := hapart.touches
  idle := hapart.idle
  share taskId task htask := by
    obtain ⟨published, hrun⟩ := hapart.share taskId task htask
    exact ⟨published, hrun.tail (.elapse seconds) trivial (if_pos hseconds)⟩

/-- Every harmless step of the service is, for each task, a step of that task or none. -/
theorem apart_step {label : Label} {next : State} (hapart : Apart expiry state)
    (hharmless : Harmless state label) (hstep : step expiry state label = some next) :
    Apart expiry next := by
  cases label with
  | publish arguments =>
      simp only [step] at hstep
      split at hstep
      case h_1 => cases hstep
      case h_2 hnone =>
        cases hstep
        exact hapart.publish arguments hnone
  | begin taskId clock =>
      obtain ⟨task, htask, rfl⟩ := Option.map_eq_some_iff.mp hstep
      exact hapart.begin htask clock
  | leave taskId number =>
      obtain ⟨task, htask, rfl⟩ := Option.map_eq_some_iff.mp hstep
      exact hapart.leave htask number
  | elapse seconds =>
      obtain ⟨hseconds, hnext⟩ := Option.ite_none_right_eq_some.mp hstep
      cases hnext
      exact hapart.elapse hseconds
  | answer taskId number outcomes effect =>
      simp only [step, Option.bind_eq_bind, Option.bind_eq_some_iff] at hstep
      obtain ⟨task, htask, attempt, hattempt, request, hpending, hnext⟩ := hstep
      have htame := hharmless task htask
      split at hnext
      case h_1 reply hreply =>
        obtain ⟨hanswers, hsome⟩ := Option.ite_none_right_eq_some.mp hnext
        cases hsome
        refine hapart.answer htask hattempt hpending (fun other hother => ?_) htame
        cases hreply.symm.trans hother
        exact hanswers
      case h_2 exception hraised =>
        cases hnext
        refine hapart.answer htask hattempt hpending (fun other hother => ?_) htame
        cases hraised.symm.trans hother

end Share

/-! ## Runs of the service -/

/-- What the tasks have cached is in the container, and so is what they have sent and what
has not expired. -/
def Sound (expiry : String → ℚ) (state : State) : Prop :=
  ∀ taskId task, state.tasks taskId = some task →
    (∀ url, fetch state.now task.archiveUrl = some url → url ≠ emptySentinel →
      state.container task.name = true) ∧
    (∀ url, mediaDownload url task.arguments.userId ∈ task.sent → state.now < expiry url →
      state.container task.name = true)

/-- However many tasks there are and however their attempts interleave, as long as no
attempt does harm among those at its own task: what has happened to a task is a run of that
task alone, and no link of any task dangles. -/
theorem sound_of_harmless (expiry : String → ℚ) (now : ℚ) (state : State)
    (hrun : Reaches (step expiry) Harmless (empty now) state) :
    (∀ taskId task, state.tasks taskId = some task → ∃ published,
      Reaches (Overlap.step expiry task.arguments) Tame (start published) (state.view task)) ∧
    Sound expiry state := by
  have hapart : Apart expiry state := hrun.invariant (apart_empty now)
    fun _ _ _ h hharmless hstep => apart_step h hharmless hstep
  refine ⟨hapart.share, fun taskId task htask => ?_⟩
  obtain ⟨published, hshare⟩ := hapart.share taskId task htask
  have hinv : Overlap.Inv expiry task.arguments.userId (state.view task) :=
    hshare.invariant ⟨Overlap.orderly_start published, Overlap.kept_start published⟩
      fun _ _ _ h htame hstep => Overlap.inv_step h htame hstep
  exact ⟨hinv.2.sound.cached, hinv.2.sound.sent⟩

instance (state : State) : (label : Label) → Decidable (Harmless state label)
  | .answer _ _ _ _ => inferInstanceAs (Decidable (∀ task ∈ state.tasks _, _))
  | .publish _ | .begin _ _ | .leave _ _ | .elapse _ => .isTrue trivial

/-- The same channel, asked for again. -/
def again : Arguments := { inDirectMessage with taskId := "b" }

/-- One task sends its link; the other fails in between and cleans up. -/
def oneFails : List Label :=
  [.publish inDirectMessage, .publish again, .begin "a" inMay, .begin "b" inMay] ++
    List.replicate 6 (.answer "a" 0 succeed true) ++
    List.replicate 6 (.answer "b" 0 Overlap.failUpload false) ++
    List.replicate 4 (.answer "a" 0 succeed true)

theorem sound_of_harmless_oneFails :
    ∃ state, Reaches (step Overlap.aDay) Harmless (empty 0) state ∧
      state.container (blobName 3 "a") = true ∧ Sound Overlap.aDay state := by
  obtain ⟨state, hrun, hcheck⟩ := exists_reaches_of_replay
    (guarded (step Overlap.aDay) Harmless) (empty 0) oneFails
    (fun state => decide (state.container (blobName 3 "a") = true ∧
      state.container (blobName 3 "b") = false ∧
      (state.tasks "a").any fun task => task.sent.length = 1)) (by decide +kernel)
  exact ⟨state, hrun.of_guarded, (of_decide_eq_true hcheck).1,
    (sound_of_harmless Overlap.aDay 0 state hrun.of_guarded).2⟩

end DownloaderBot.Service
