import DownloaderBot.Cogs.StatusRuns
import DownloaderBot.Core.Interrupts
import DownloaderBot.Tasks.UploadProtocol
import Mathlib.Algebra.Order.Field.Rat

/-!
# What a cancelled job leaves in storage

One job, the attempts at it one after the other, and `/cancel`, which may surface at the
pick-up of any attempt and out of any call.  Every other call may raise too, with or
without its effect, and a worker may die; only `delete_blob` always does its work.
-/

namespace DownloaderBot.Leftovers

open DownloaderBot.Embeds
open DownloaderBot.Program
open DownloaderBot.StatusRuns (retried)
open DownloaderBot.Tasks
open DownloaderBot.TransitionSystem

/-- Where the message of the job is. -/
inductive Worker
  | queued
  | running (session : Session Mode Reply Exn DownloadResult)
  | leaving (outcome : Except Exn DownloadResult)
  | settled (outcome : Except Exn DownloadResult)

/-- The job has ended on the cancellation. -/
def Worker.cancelled : Worker → Bool
  | .settled (.error .cancelled) => true
  | _ => false

theorem Worker.eq_of_cancelled {worker : Worker} (hcancelled : worker.cancelled = true) :
    worker = .settled (.error .cancelled) := by
  simp only [cancelled] at hcancelled
  split at hcancelled
  case h_1 => rfl
  case h_2 => cases hcancelled

/-- `retries` counts the re-kicks. -/
structure State where
  store : Store
  now : ℚ
  worker : Worker
  retries : ℕ
  flag : Bool

/-- `answer`: the pending call comes to its outcome; `effect` says whether a call that
raises, or that the worker dies in, has taken effect. -/
inductive Label
  | setFlag
  | pickUp (clock : Clock)
  | answer (outcomes : (request : Call) → Except Exn (Reply request)) (effect : Bool)
  | finish
  | die (effect : Bool)
  | settle
  | elapse (seconds : ℚ)

def deletes : Call → Bool
  | .deleteBlob _ => true
  | _ => false

/-- The call is one of those of the storage backend. -/
def storageCall : Call → Bool
  | .uploadAndSign _ | .deleteBlob _ => true
  | _ => false

/-- One step.  Calls are cancelled out of only once the flag is set. -/
def step (expiry : String → ℚ) (arguments : Arguments) (maxRetries : ℕ) (state : State) :
    Label → Option State
  | .setFlag => some { state with flag := true }
  | .pickUp clock =>
      match state.worker with
      | .queued =>
          some { state with
            worker :=
              if state.flag then .leaving (.error .cancelled)
              else .running ⟨downloadChannelMedia arguments clock, some .before⟩ }
      | _ => none
  | .answer outcomes effect =>
      match state.worker with
      | .running session =>
          match session.pending with
          | none => none
          | some request =>
              let next := session.resume (uploadProtocol arguments.userId) outcomes
              let served := state.store.effect state.now request
              match outcomes request with
              | .ok reply =>
                  if state.store.Answers expiry state.now request reply then
                    some { state with store := served, worker := .running next }
                  else none
              | .error exception =>
                  if exception = .cancelled ∧ state.flag = false then none
                  else
                    some { state with
                      store := if effect || deletes request then served else state.store
                      worker := .running next }
      | _ => none
  | .finish =>
      match state.worker with
      | .running session =>
          session.outcome.map fun outcome => { state with worker := .leaving outcome }
      | _ => none
  | .die effect =>
      match state.worker with
      | .running session =>
          some { state with
            store :=
              match session.pending, effect with
              | some request, true => state.store.effect state.now request
              | _, _ => state.store
            worker := .queued }
      | .leaving _ => some { state with worker := .queued }
      | .queued | .settled _ => none
  | .settle =>
      match state.worker with
      | .leaving outcome =>
          if retried maxRetries state.retries outcome then
            some { state with worker := .queued, retries := state.retries + 1 }
          else some { state with worker := .settled outcome }
      | _ => none
  | .elapse seconds =>
      if 0 ≤ seconds then some { state with now := state.now + seconds } else none

/-- Published, not yet picked up. -/
def start (now : ℚ) : State := ⟨⟨false, none, []⟩, now, .queued, 0, false⟩

/-! ## When nothing is left -/

/-- A link to the archive has been sent. -/
def LinkSent (store : Store) : Prop :=
  ∃ embed ∈ store.sent, embed.title = (mediaDownload emptySentinel 0).title

instance (store : Store) : Decidable (LinkSent store) :=
  inferInstanceAs (Decidable (∃ embed ∈ store.sent, _ = _))

/-- The job has ended on `/cancel`, and nobody has been sent a link to its archive. -/
def CancelledUnsent (state : State) : Prop :=
  state.worker.cancelled = true ∧ ¬ LinkSent state.store

instance (state : State) : Decidable (CancelledUnsent state) :=
  inferInstanceAs (Decidable (_ ∧ _))

/-- There is no blob that nobody knows of. -/
def Clear (store : Store) : Prop := store.blob = false ∨ LinkSent store

instance (store : Store) : Decidable (Clear store) :=
  inferInstanceAs (Decidable (_ ∨ _))

/-- The call sends a link to the archive. -/
def sendsLink : Call → Bool
  | .send _ embed => embed.title = (mediaDownload emptySentinel 0).title
  | _ => false

/-- Where the cancellation surfaces there is no blob that nobody knows of, unless it is
out of a call of the storage backend, or out of a send that takes effect all the same. -/
def Tame (state : State) : Label → Prop
  | .pickUp _ => state.flag = true → Clear state.store
  | .answer outcomes effect =>
      match state.worker with
      | .running session =>
          ∀ request ∈ session.pending, interrupts .cancelled (outcomes request) = true →
            storageCall request = true ∨ Clear state.store ∨
              effect = true ∧ sendsLink request = true
      | _ => True
  | _ => True

instance (state : State) : (label : Label) → Decidable (Tame state label)
  | .pickUp _ => inferInstanceAs (Decidable (_ → _))
  | .answer outcomes effect =>
      match hworker : state.worker with
      | .running session => decidable_of_iff (∀ request ∈ session.pending,
          interrupts .cancelled (outcomes request) = true →
            storageCall request = true ∨ Clear state.store ∨
              effect = true ∧ sendsLink request = true) (by simp only [Tame, hworker])
      | .queued | .leaving _ | .settled _ => .isTrue (by simp only [Tame, hworker])
  | .setFlag | .finish | .die _ | .settle | .elapse _ => .isTrue trivial

/-! ## The task gives up -/

section Task

theorem passesThrough_resolveSettings (arguments : Arguments) :
    (resolveSettings arguments).PassesThrough .cancelled deletes := by
  rw [resolveSettings]
  split
  · split
    · exact Prog.passesThrough_ret _
    · exact Prog.passesThrough_perform _
  · exact Prog.passesThrough_ret _

theorem passesThrough_uploadOrEmpty (request : UploadRequest) :
    (uploadOrEmpty request).PassesThrough .cancelled deletes := by
  apply Prog.PassesThrough.tryExcept
  · exact (Prog.passesThrough_perform _).bind fun _ => Prog.passesThrough_ret _
  · rfl
  · exact fun _ => Prog.passesThrough_ret _

theorem passesThrough_delete (name : String) :
    ((await (.deleteBlob name)).tryExcept (· = .uploadError) fun _ => pure ()).PassesThrough
      .cancelled deletes :=
  (Prog.passesThrough_perform _).tryExcept rfl fun _ => Prog.passesThrough_ret _

theorem yields_cleanUp (name : String) (outcome : Except Exn (String × Bool)) :
    (cleanUp name outcome).Yields .cancelled deletes := by
  match outcome with
  | .ok (_, false) => exact (Prog.passesThrough_ret _).yields
  | .ok (_, true) => exact (passesThrough_delete name).yields
  | .error _ => exact (passesThrough_delete name).yields

/-- The cleanup runs on a cancellation, and does nothing but delete. -/
theorem yields_upload (request : UploadRequest) (name : String) :
    ((uploadOrEmpty request).tryFinally (cleanUp name)).Yields .cancelled deletes := by
  apply (passesThrough_uploadOrEmpty request).tryFinally (yields_cleanUp name)
  apply Prog.Only.tryExcept
  · exact Prog.only_perform rfl
  · exact fun _ => trivial

theorem yields_uploadPhase (arguments : Arguments) (clock : Clock)
    (guildSettings : GuildSettings) (ttl : Calendar.TimeDelta) (ttlSeconds : ℤ) :
    (uploadPhase arguments clock guildSettings ttl ttlSeconds).Yields .cancelled
      deletes := by
  apply (Prog.passesThrough_perform _).yields.bind
  intro channel
  dsimp only
  split
  · apply Prog.PassesThrough.yields
    apply Prog.passesThrough_raise
    exact nofun
  · apply (Prog.passesThrough_perform _).yields.bind
    intro _
    apply (Prog.passesThrough_ofExcept ?_).yields.bind
    · intro resolved
      apply (yields_upload _ _).bind
      intro archived
      exact ((Prog.passesThrough_perform _).bind fun _ => Prog.passesThrough_ret _).yields
    · cases Filters.resolve arguments.filters guildSettings clock.now with
      | ok _ => exact nofun
      | error exception => cases exception <;> exact nofun

theorem passesThrough_dmUser (userId : ℕ) (embed : Embed) :
    (dmUser userId embed).PassesThrough .cancelled deletes := by
  apply (Prog.passesThrough_perform _).bind
  intro _
  exact (Prog.passesThrough_perform _).tryExcept rfl
    fun _ => Prog.passesThrough_raise nofun

theorem passesThrough_postToChannel (channelId : ℕ) (embed : Embed) (userId : ℕ) :
    (postToChannel channelId embed userId).PassesThrough .cancelled deletes := by
  apply Prog.PassesThrough.tryExcept
  · apply (Prog.passesThrough_perform _).bind
    intro channel
    split
    · exact Prog.passesThrough_raise nofun
    · exact Prog.passesThrough_perform _
  · rfl
  · exact fun _ => passesThrough_dmUser userId embed

theorem passesThrough_deliverOnce (arguments : Arguments) (guildSettings : GuildSettings)
    (mode : DeliveryMode) (archiveUrl : String) (ttlSeconds : ℤ) (delivered : Bool) :
    (deliverOnce arguments guildSettings mode archiveUrl ttlSeconds delivered).PassesThrough
      .cancelled deletes := by
  rw [deliverOnce]
  split
  · exact Prog.passesThrough_ret _
  · apply (Prog.passesThrough_perform _).bind
    intro _
    dsimp only
    split
    · exact (passesThrough_postToChannel _ _ _).bind fun _ => Prog.passesThrough_perform _
    · exact (passesThrough_dmUser _ _).bind fun _ => Prog.passesThrough_perform _

/-- Once cancelled, the task does nothing but delete. -/
theorem yields_downloadChannelMedia (arguments : Arguments) (clock : Clock) :
    (downloadChannelMedia arguments clock).Yields .cancelled deletes := by
  apply (Prog.passesThrough_perform _).yields.bind
  intro _
  apply (passesThrough_resolveSettings arguments).yields.bind
  intro guildSettings
  apply (Prog.passesThrough_ofExcept ?_).yields.bind
  · intro ttl
    apply (Prog.passesThrough_perform _).yields.bind
    intro cached
    apply Prog.Yields.bind
    · cases cached with
      | none => exact yields_uploadPhase arguments clock guildSettings ttl _
      | some url => exact (Prog.passesThrough_ret _).yields
    · intro archiveUrl
      apply Prog.PassesThrough.yields
      apply (Prog.passesThrough_perform _).bind
      intro delivered
      apply (passesThrough_deliverOnce _ _ _ _ _ _).bind
      intro _
      apply (Prog.passesThrough_perform _).bind
      intro _
      apply Prog.PassesThrough.bind
      · exact (Prog.passesThrough_perform _).tryExcept rfl
          fun _ => Prog.passesThrough_ret _
      · exact fun _ => Prog.passesThrough_ret _
  · cases Calendar.timedeltaHours guildSettings.retentionHours <;> exact nofun

end Task

/-! ## Runs -/

/-- A cancelled attempt either leaves nothing behind or is about to clean up. -/
structure Running (userId : ℕ) (store : Store)
    (session : Session Mode Reply Exn DownloadResult) (interrupted : Bool) : Prop where
  keeps : session.Keeps (uploadProtocol userId) CleanedUp
  yields : session.running.Follows (interruptProtocol .cancelled deletes)
    (GivesUp .cancelled) interrupted
  clean : interrupted = true → Clear store ∨ session.mode = some .failed

def Inv (userId : ℕ) (state : State) : Prop :=
  match state.worker with
  | .queued => True
  | .running session => ∃ interrupted, Running userId state.store session interrupted
  | .leaving outcome | .settled outcome =>
      outcome = .error .cancelled → Clear state.store

section Inv

variable {expiry : String → ℚ} {arguments : Arguments} {maxRetries userId : ℕ}
variable {state next : State} {store after : Store} {interrupted : Bool}
variable {session : Session Mode Reply Exn DownloadResult} {request : Call}

theorem Clear.effect (hclear : Clear store) (now : ℚ) (hstores : ∀ asked,
    request ≠ .uploadAndSign asked) : Clear (store.effect now request) := by
  rcases hclear with hgone | ⟨embed, hmem, htitle⟩
  · left
    cases request with
    | uploadAndSign asked => exact absurd rfl (hstores asked)
    | deleteBlob name => rfl
    | cacheArchiveUrl url ttlSeconds =>
        simp only [Store.effect]
        split <;> exact hgone
    | _ => exact hgone
  · right
    refine ⟨embed, ?_, htitle⟩
    cases request with
    | send destination other => exact List.mem_append_left _ hmem
    | cacheArchiveUrl url ttlSeconds =>
        simp only [Store.effect]
        split <;> exact hmem
    | _ => exact hmem

theorem clear_of_deletes (hdeletes : deletes request = true) (now : ℚ) :
    Clear (store.effect now request) := by
  cases request with
  | deleteBlob name => exact .inl rfl
  | _ => cases hdeletes

theorem call_cases (request : Call) : deletes request = true ∨
    (∃ asked, request = .uploadAndSign asked) ∨
      storageCall request = false ∧ deletes request = false := by
  cases request with
  | uploadAndSign asked => exact .inr (.inl ⟨asked, rfl⟩)
  | deleteBlob name => exact .inl rfl
  | _ => exact .inr (.inr ⟨rfl, rfl⟩)

theorem clear_of_sendsLink (hsends : sendsLink request = true) (now : ℚ) :
    Clear (store.effect now request) := by
  cases request with
  | send destination embed =>
      exact .inr ⟨embed, by simp [Store.effect], of_decide_eq_true hsends⟩
  | _ => cases hsends

/-- What raises the cancellation leaves no blob that nobody knows of, unless it is a call
of the storage backend. -/
theorem clear_of_tame {effect : Bool} (now : ℚ)
    (htame : storageCall request = true ∨ Clear store ∨
      effect = true ∧ sendsLink request = true) :
    storageCall request = true ∨
      Clear (if effect || deletes request then store.effect now request else store) := by
  rcases call_cases request with hdeletes | ⟨asked, rfl⟩ | ⟨hother, -⟩
  · rw [hdeletes, Bool.or_true, if_pos rfl]
    exact .inr (clear_of_deletes hdeletes now)
  · exact .inl rfl
  · right
    rcases htame with hstorage | hclear | ⟨rfl, hsends⟩
    · cases hother.symm.trans hstorage
    · split
      · apply hclear.effect now
        rintro asked rfl
        cases hother
      · exact hclear
    · exact clear_of_sendsLink hsends now

/-- What the end of the pending call makes of a running attempt. -/
theorem Running.answer (hrunning : Running userId store session interrupted)
    (hpending : session.pending = some request)
    (outcomes : (request : Call) → Except Exn (Reply request)) (now : ℚ)
    (htame : interrupts .cancelled (outcomes request) = true →
      storageCall request = true ∨ Clear after)
    (hafter : after = store.effect now request ∨
      after = store ∧ deletes request = false) :
    ∃ interrupted, Running userId after
      (session.resume (uploadProtocol userId) outcomes) interrupted := by
  obtain ⟨hkeeps, mode, moved, hbefore, hmoved, hmode⟩ :=
    hrunning.keeps.resume hpending outcomes
  obtain ⟨interrupted', hallowed, hyields⟩ :=
    Session.follows_resume hrunning.yields hpending outcomes
  obtain ⟨hcleans, rfl⟩ := interruptProtocol_eq_some.mp hallowed
  refine ⟨_, hkeeps, hyields, fun hinterrupted => ?_⟩
  rw [hmode]
  rcases call_cases request with hdeletes | ⟨asked, rfl⟩ | ⟨hother, hkept⟩
  · left
    rcases hafter with rfl | ⟨-, hnot⟩
    · exact clear_of_deletes hdeletes now
    · cases hdeletes.symm.trans hnot
  · right
    obtain rfl : interrupted = false := Bool.eq_false_iff.mpr fun h => nomatch hcleans h
    rw [interrupts_iff.mp hinterrupted] at hmoved
    cases move_of_uploadProtocol hmoved with
    | quiet hquiet => cases hquiet
    | fail => rfl
  · left
    obtain rfl : interrupted = false :=
      Bool.eq_false_iff.mpr fun h => nomatch hkept.symm.trans (hcleans h)
    rcases htame hinterrupted with hstorage | hclear
    · cases hother.symm.trans hstorage
    · exact hclear

/-- An attempt that ends on the cancellation has cleaned up. -/
theorem Running.outcome (hrunning : Running userId store session interrupted)
    (hended : session.outcome = some (.error .cancelled)) : Clear store := by
  obtain ⟨last, hlast, hcleaned⟩ := hrunning.keeps.of_outcome hended
  have hinterrupted := (Session.follows_outcome hrunning.yields hended).2 rfl
  rcases hrunning.clean hinterrupted with hclear | hfailed
  · exact hclear
  · cases hlast.symm.trans hfailed
    exact absurd rfl hcleaned

/-- A step of a running attempt. -/
theorem inv_answer {outcomes : (request : Call) → Except Exn (Reply request)}
    {effect : Bool} (hworker : state.worker = .running session)
    (hrunning : Running arguments.userId state.store session interrupted)
    (htame : Tame state (.answer outcomes effect))
    (hstep : step expiry arguments maxRetries state (.answer outcomes effect) = some next) :
    Inv arguments.userId next := by
  simp only [step, hworker] at hstep
  simp only [Tame, hworker] at htame
  split at hstep
  case h_1 => cases hstep
  case h_2 request hpending =>
    split at hstep
    case h_1 reply hreply =>
      obtain ⟨-, hnext⟩ := Option.ite_none_right_eq_some.mp hstep
      cases hnext
      refine hrunning.answer hpending outcomes state.now (fun hinterrupts => ?_) (.inl rfl)
      cases hreply.symm.trans (interrupts_iff.mp hinterrupts)
    case h_2 =>
      obtain ⟨-, hnext⟩ := Option.ite_none_left_eq_some.mp hstep
      cases hnext
      apply hrunning.answer hpending outcomes state.now fun hinterrupts =>
        clear_of_tame state.now (htame request hpending hinterrupts)
      split
      case isTrue => exact .inl rfl
      case isFalse hnot =>
        exact .inr ⟨rfl, (Bool.or_eq_false_iff.mp (Bool.eq_false_iff.mpr hnot)).2⟩

/-- A pick-up starts an attempt or gives the job up. -/
theorem inv_pickUp {clock : Clock} (htame : Tame state (.pickUp clock))
    (hstep : step expiry arguments maxRetries state (.pickUp clock) = some next) :
    Inv arguments.userId next := by
  simp only [step] at hstep
  split at hstep
  case h_2 => cases hstep
  case h_1 =>
    cases hstep
    rw [Inv]
    dsimp only
    split
    case h_1 => trivial
    case h_2 session hworker =>
      split at hworker
      case isTrue => cases hworker
      case isFalse =>
        cases hworker
        exact ⟨false, ⟨.before, rfl, follows_downloadChannelMedia arguments clock⟩,
          yields_downloadChannelMedia arguments clock, nofun⟩
    case h_3 outcome hworker =>
      split at hworker
      case isTrue hflag => exact fun _ => htame hflag
      case isFalse => cases hworker
    case h_4 outcome hworker => split at hworker <;> cases hworker

theorem inv_step {label : Label} (hinv : Inv arguments.userId state)
    (htame : Tame state label)
    (hstep : step expiry arguments maxRetries state label = some next) :
    Inv arguments.userId next := by
  cases label with
  | setFlag =>
      cases hstep
      exact hinv
  | elapse seconds =>
      obtain ⟨-, hnext⟩ := Option.ite_none_right_eq_some.mp hstep
      cases hnext
      exact hinv
  | pickUp clock => exact inv_pickUp htame hstep
  | answer outcomes effect =>
      cases hworker : state.worker with
      | running session =>
          rw [Inv, hworker] at hinv
          obtain ⟨interrupted, hrunning⟩ := hinv
          exact inv_answer hworker hrunning htame hstep
      | _ => simp [step, hworker] at hstep
  | finish =>
      cases hworker : state.worker with
      | running session =>
          rw [Inv, hworker] at hinv
          obtain ⟨interrupted, hrunning⟩ := hinv
          simp only [step, hworker] at hstep
          obtain ⟨outcome, hended, hnext⟩ := Option.map_eq_some_iff.mp hstep
          cases hnext
          rintro rfl
          exact hrunning.outcome hended
      | _ => simp [step, hworker] at hstep
  | die effect =>
      simp only [step] at hstep
      split at hstep
      case h_1 | h_2 =>
        cases hstep
        trivial
      case h_3 | h_4 => cases hstep
  | settle =>
      cases hworker : state.worker with
      | leaving outcome =>
          rw [Inv, hworker] at hinv
          simp only [step, hworker] at hstep
          split at hstep <;> cases hstep
          · trivial
          · exact hinv
      | _ => simp [step, hworker] at hstep

end Inv

/-- A job that ended on `/cancel` leaves no blob that nobody was told of, where the
cancellation never surfaced with such a blob in storage but out of the storage backend. -/
theorem cleaned_of_tame (expiry : String → ℚ) (arguments : Arguments) (maxRetries : ℕ)
    (now : ℚ) (state : State)
    (hrun : Reaches (step expiry arguments maxRetries) Tame (start now) state)
    (hcancelled : CancelledUnsent state) : state.store.blob = false := by
  have hinv : Inv arguments.userId state :=
    hrun.invariant (show Inv arguments.userId (start now) from trivial)
      fun _ _ _ h htame hstep => inv_step h htame hstep
  obtain ⟨hsettled, hunsent⟩ := hcancelled
  rw [Inv, Worker.eq_of_cancelled hsettled] at hinv
  exact (hinv rfl).resolve_right hunsent

/-- The upload is cancelled with a part of the blob stored; all else succeeds. -/
def cancelUpload : (request : Call) → Except Exn (Reply request)
  | .uploadAndSign _ => .error .cancelled
  | request => succeed request

/-- A cancellation in the upload: the cleanup runs. -/
theorem cleaned_of_tame_uploading :
    ∃ state, Reaches (step (fun _ => 0) inDirectMessage 3) Tame (start 0) state ∧
      CancelledUnsent state ∧ state.store.blob = false := by
  obtain ⟨state, hrun, hcheck⟩ := exists_reaches_of_replay
    (guarded (step (fun _ => 0) inDirectMessage 3) Tame) (start 0)
    ([.pickUp inMay] ++ List.replicate 4 (.answer succeed true) ++
      [.setFlag, .answer cancelUpload true, .answer succeed true, .finish, .settle])
    (fun state => decide (CancelledUnsent state)) (by decide +kernel)
  have hcancelled := of_decide_eq_true hcheck
  exact ⟨state, hrun.of_guarded, hcancelled,
    cleaned_of_tame _ inDirectMessage 3 0 state hrun.of_guarded hcancelled⟩

/-- A cancellation between the upload and the cache write. -/
theorem not_cleaned_uploaded :
    ∃ state,
      Reaches (step (fun _ => 0) inDirectMessage 3) unrestricted (start 0) state ∧
      ¬ (CancelledUnsent state → state.store.blob = false) := by
  obtain ⟨state, hrun, hcheck⟩ := exists_reaches_of_replay
    (step (fun _ => 0) inDirectMessage 3) (start 0)
    ([.pickUp inMay] ++ List.replicate 5 (.answer succeed true) ++
      [.setFlag, .answer (fun _ => .error .cancelled) false, .finish, .settle])
    (fun state => decide (CancelledUnsent state ∧ state.store.blob = true))
    (by decide +kernel)
  obtain ⟨hcancelled, hthere⟩ := of_decide_eq_true hcheck
  exact ⟨state, hrun, fun hcleaned => nomatch hthere.symm.trans (hcleaned hcancelled)⟩

end DownloaderBot.Leftovers
