import DownloaderBot.Core.ExpiringStore
import DownloaderBot.Core.Text
import DownloaderBot.Core.TransitionSystem
import Mathlib.Algebra.Order.Ring.Rat
import Mathlib.Tactic.Linarith

/-!
# Heartbeats and the liveness probe

Every process that starts the broker writes a sentinel into Redis under its role
and its process id, refreshes it, and deletes it when it stops cleanly.  The
probe of a role looks for any sentinel of that role.  A process without a role of
its own counts as a worker, and namesakes share one sentinel.  The probe is right along
the runs in which every bot's sentinel stands beside that of a live worker, and no clean
stop deletes the sentinel of another worker on schedule.
-/

namespace DownloaderBot.Healthcheck

open DownloaderBot.ExpiringStore
open DownloaderBot.Text
open DownloaderBot.TransitionSystem

/-! ## Sentinels -/

inductive Kind
  | bot
  | worker
  | scheduler
  deriving DecidableEq, Repr

/-- `TASKIQ_PROCESS_ROLE`, as docker-compose.prod.yml sets it. -/
def Kind.processRole : Kind → Option String
  | .bot => none
  | .worker => some "worker"
  | .scheduler => some "scheduler"

/-- `_role`. -/
def Kind.role (kind : Kind) : String := kind.processRole.getD "worker"

def heartbeatTtlSeconds : ℚ := 90

def heartbeatRefreshSeconds : ℚ := 30

def heartbeatNamespace : String := "taskiq:heartbeat:"

/-- The keys that `_check` scans for begin so. -/
def sentinelPrefix (role : String) : String := heartbeatNamespace ++ role ++ ":"

/-- `_key`. -/
def sentinelKey (role : String) (pid : ℕ) : String := sentinelPrefix role ++ toString pid

/-- `stopped tick`: cleanly, at the given step. -/
inductive Status
  | running
  | stopped (tick : ℕ)
  | killed
  deriving DecidableEq, Repr

/-- A process, and when and at which step it last wrote its sentinel. -/
structure Process where
  kind : Kind
  pid : ℕ
  status : Status
  refreshedAt : ℚ
  refreshedTick : ℕ
  deriving DecidableEq, Repr

def Process.key (process : Process) : String :=
  sentinelKey process.kind.role process.pid

theorem colon_notMem_role (kind : Kind) : ':' ∉ kind.role.toList := by
  cases kind <;> decide

/-- The sentinel keys of a role are those of its processes. -/
theorem prefix_key_iff (probed : Kind) (process : Process) :
    (sentinelPrefix probed.role).toList <+: process.key.toList ↔
      process.kind.role = probed.role := by
  have hprefix (kind : Kind) : (sentinelPrefix kind.role).toList =
      heartbeatNamespace.toList ++ (kind.role.toList ++ [':']) := by
    simp only [sentinelPrefix, String.toList_append, List.append_assoc]
    rfl
  rw [Process.key, sentinelKey, String.toList_append, hprefix, hprefix, List.append_assoc,
    List.prefix_append_right_inj]
  constructor
  · rintro ⟨rest, heq⟩
    rw [List.append_assoc, List.append_assoc] at heq
    exact (String.toList_injective ((append_separator_inj (colon_notMem_role _)
      (colon_notMem_role _)).mp heq).1).symm
  · intro hrole
    rw [hrole]
    exact List.prefix_append _ _

/-! ## The processes and their Redis -/

abbrev Redis := AList fun _ : String => Cell String ℚ

structure State where
  now : ℚ
  tick : ℕ
  redis : Redis
  process : ℕ → Option Process

inductive Label
  | start (id : ℕ) (kind : Kind) (pid : ℕ)
  | refresh (id : ℕ)
  | stop (id : ℕ)
  | kill (id : ℕ)
  | elapse (seconds : ℚ)
  deriving Repr

/-- A step of one process leaves this of it, and this Redis. -/
def State.put (state : State) (id : ℕ) (process : Process) (redis : Redis) : State :=
  { state with
    tick := state.tick + 1
    redis := redis
    process := Function.update state.process id (some process) }

/-- The process after a write of its sentinel. -/
def State.written (state : State) (process : Process) : Process :=
  { process with refreshedAt := state.now, refreshedTick := state.tick }

/-- `_refresh`. -/
def State.refresh (state : State) (id : ℕ) (process : Process) : State :=
  state.put id (state.written process) <| state.redis.insert process.key
    ⟨"1", some (state.now + heartbeatTtlSeconds)⟩

/-- `shutdown`. -/
def State.shutdown (state : State) (id : ℕ) (process : Process) : State :=
  state.put id { process with status := .stopped state.tick }
    (state.redis.erase process.key)

def State.kill (state : State) (id : ℕ) (process : Process) : State :=
  state.put id { process with status := .killed } state.redis

/-- The process, if it runs. -/
def State.running (state : State) (id : ℕ) : Option Process :=
  (state.process id).filter fun process => process.status = .running

/-- A process writes its first sentinel as it starts. -/
def step (state : State) : Label → Option State
  | .start id kind pid =>
      match state.process id with
      | none => some (state.refresh id ⟨kind, pid, .running, 0, 0⟩)
      | some _ => none
  | .refresh id => (state.running id).map (state.refresh id)
  | .stop id => (state.running id).map (state.shutdown id)
  | .kill id => (state.running id).map (state.kill id)
  | .elapse seconds =>
      if 0 ≤ seconds then some { state with now := state.now + seconds } else none

def start : State := ⟨0, 0, ∅, fun _ => none⟩

/-- `_check`. -/
def check (state : State) (role : String) : ℕ :=
  if state.redis.entries.any fun entry =>
      (sentinelPrefix role).toList.isPrefixOf entry.1.toList &&
        entry.2.Live state.now then 0
  else 1

/-! ## What the probe is meant to say -/

/-- The process last wrote its sentinel less than a TTL ago. -/
def State.Fresh (state : State) (process : Process) : Prop :=
  state.now < process.refreshedAt + heartbeatTtlSeconds

/-- The process runs, and its idle loop refreshes on schedule. -/
def State.OnSchedule (state : State) (process : Process) : Prop :=
  process.status = .running ∧
    state.now ≤ process.refreshedAt + heartbeatRefreshSeconds

/-- The process was not stopped cleanly; it may have been killed. -/
def Process.NotStopped (process : Process) : Prop :=
  ∀ tick, process.status ≠ .stopped tick

/-- The process wrote its sentinel in time and has not stopped. -/
def State.Alive (state : State) (process : Process) : Prop :=
  state.Fresh process ∧ process.NotStopped

/-- Some process of one of the kinds is as told. -/
def State.Any (state : State) (kinds : List Kind) (told : Process → Prop) : Prop :=
  ∃ id process, state.process id = some process ∧ process.kind ∈ kinds ∧ told process

/-- `_check('worker')` returns 0 only on account of a worker process that wrote its
sentinel in time and has not stopped since, and whenever a worker process refreshes
on schedule. -/
structure State.ProbeCorrect (state : State) : Prop where
  sound : check state "worker" = 0 → state.Any [.worker] state.Alive
  complete : state.Any [.worker] state.OnSchedule → check state "worker" = 0

/-- A process with the same key stopped cleanly after this one last wrote it. -/
def State.Erased (state : State) (process : Process) : Prop :=
  ∃ id other tick, state.process id = some other ∧ other.key = process.key ∧
    other.status = .stopped tick ∧ process.refreshedTick < tick

/-- The process wrote its sentinel in time, and no namesake deleted it since. -/
def State.Announced (state : State) (process : Process) : Prop :=
  state.Fresh process ∧ ¬ state.Erased process

/-- Some process other than `id` of one of the kinds is as told. -/
def State.AnyBut (state : State) (id : ℕ) (kinds : List Kind) (told : Process → Prop) : Prop :=
  ∃ otherId process, otherId ≠ id ∧ state.process otherId = some process ∧
    process.kind ∈ kinds ∧ told process

/-- The steps that leave the probe its meaning.  A bot writes its sentinel while a worker
is alive; until the sentinel has run out or a namesake's clean stop has deleted it, the
last worker that is alive does not stop, and the workers' refreshes do not all fall a TTL
behind.  A clean stop deletes the sentinel of no other worker that is on schedule. -/
def Clear (state : State) : Label → Prop
  | .start _ kind _ => kind = .bot → state.Any [.worker] state.Alive
  | .refresh id => ∀ process ∈ state.running id, process.kind = .bot →
      state.Any [.worker] state.Alive
  | .stop id => ∀ process ∈ state.running id,
      (¬ state.AnyBut id [.worker] fun other =>
          other.key = process.key ∧ state.OnSchedule other) ∧
        ((state.AnyBut id [.bot] fun bot =>
            bot.key ≠ process.key ∧ state.Announced bot) →
          state.AnyBut id [.worker] state.Alive)
  | .kill _ => True
  | .elapse seconds => ∀ id bot, state.process id = some bot → bot.kind = .bot →
      ¬ state.Erased bot → state.now + seconds < bot.refreshedAt + heartbeatTtlSeconds →
        state.Any [.worker] fun worker => worker.NotStopped ∧
          state.now + seconds < worker.refreshedAt + heartbeatTtlSeconds

/-! ## The invariant -/

/-- What a process did lies in the past, a stop after the last refresh. -/
structure State.Dated (state : State) (process : Process) : Prop where
  refreshedAt_le : process.refreshedAt ≤ state.now
  refreshedTick_lt : process.refreshedTick < state.tick
  stopped : ∀ tick, process.status = .stopped tick →
    process.refreshedTick < tick ∧ tick < state.tick

/-- The sentinels are those of the processes that no namesake erased. -/
structure Mirrors (state : State) : Prop where
  written : ∀ key cell, state.redis.lookup key = some cell →
    ∃ id process, state.process id = some process ∧ process.key = key ∧
      cell.deadline = some (process.refreshedAt + heartbeatTtlSeconds) ∧
      ¬ state.Erased process
  kept : ∀ id process, state.process id = some process → ¬ state.Erased process →
    ∃ cell deadline, state.redis.lookup process.key = some cell ∧
      cell.deadline = some deadline ∧
      process.refreshedAt + heartbeatTtlSeconds ≤ deadline
  dated : ∀ id process, state.process id = some process → state.Dated process

theorem mirrors_start : Mirrors start where
  written := by simp [start]
  kept := by simp [start]
  dated := by simp [start]

section Put

variable {state : State} {id otherId : ℕ} {process fresh other : Process} {redis : Redis}

theorem State.put_process_self :
    (state.put id fresh redis).process id = some fresh := Function.update_self ..

theorem State.put_process_of_ne (hne : otherId ≠ id) :
    (state.put id fresh redis).process otherId = state.process otherId :=
  Function.update_of_ne hne ..

/-- What is read of a process after a step is what the step leaves of it, or what was
there before. -/
theorem State.put_process_cases
    (hother : (state.put id fresh redis).process otherId = some other) :
    (otherId = id ∧ other = fresh) ∨ (otherId ≠ id ∧ state.process otherId = some other) := by
  by_cases hne : otherId = id
  · subst hne
    exact .inl ⟨rfl, (Option.some.inj (put_process_self.symm.trans hother)).symm⟩
  · exact .inr ⟨hne, (put_process_of_ne hne).symm.trans hother⟩

/-- What stopped stays recorded when a process that has not stopped takes a step. -/
theorem State.Erased.put (hnot : ∀ old ∈ state.process id, old.NotStopped)
    (herased : state.Erased other) : (state.put id fresh redis).Erased other := by
  obtain ⟨otherId, namesake, tick, hsome, hrest⟩ := herased
  have hne : otherId ≠ id := by
    rintro rfl
    exact hnot namesake hsome tick hrest.2.1
  exact ⟨otherId, namesake, tick, (put_process_of_ne hne).trans hsome, hrest⟩

/-- The step adds no other stop than that of the process that takes it. -/
theorem State.Erased.of_put (herased : (state.put id fresh redis).Erased other) :
    state.Erased other ∨ ∃ tick, fresh.key = other.key ∧
      fresh.status = .stopped tick ∧ other.refreshedTick < tick := by
  obtain ⟨otherId, namesake, tick, hsome, hrest⟩ := herased
  rcases put_process_cases hsome with ⟨rfl, rfl⟩ | ⟨-, hsome⟩
  · exact .inr ⟨tick, hrest⟩
  · exact .inl ⟨otherId, namesake, tick, hsome, hrest⟩

/-- A process that has not stopped erases nothing. -/
theorem State.Erased.of_put_notStopped (hnot : fresh.NotStopped)
    (herased : (state.put id fresh redis).Erased other) : state.Erased other := by
  refine herased.of_put.resolve_right ?_
  rintro ⟨tick, -, hstatus, -⟩
  exact hnot tick hstatus

theorem Mirrors.dated_put (hmirrors : Mirrors state)
    (hfresh : (state.put id fresh redis).Dated fresh) (otherId : ℕ) (other : Process)
    (hother : (state.put id fresh redis).process otherId = some other) :
    (state.put id fresh redis).Dated other := by
  rcases State.put_process_cases hother with ⟨rfl, rfl⟩ | ⟨-, hother⟩
  · exact hfresh
  · obtain ⟨hat, htick, hstopped⟩ := hmirrors.dated otherId other hother
    exact ⟨hat, htick.trans (Nat.lt_succ_self _), fun tick hstatus =>
      ⟨(hstopped tick hstatus).1, (hstopped tick hstatus).2.trans (Nat.lt_succ_self _)⟩⟩

theorem Process.notStopped_of_running (hrunning : process.status = .running) :
    process.NotStopped := by
  intro tick hstopped
  cases hrunning.symm.trans hstopped

/-- A refresh by a process that starts or runs. -/
theorem Mirrors.refresh (hmirrors : Mirrors state)
    (hbefore : ∀ old ∈ state.process id, old = process)
    (hrunning : process.status = .running) : Mirrors (state.refresh id process) := by
  have hnew {other : Process} (herased : state.Erased other) :
      (state.refresh id process).Erased other := by
    refine herased.put fun old hold => ?_
    rw [hbefore old hold]
    exact Process.notStopped_of_running hrunning
  have hold {other : Process} (herased : (state.refresh id process).Erased other) :
      state.Erased other := by
    have hnot : (state.written process).NotStopped := Process.notStopped_of_running hrunning
    exact herased.of_put_notStopped hnot
  refine ⟨?_, ?_, hmirrors.dated_put ⟨le_rfl, Nat.lt_succ_self _, fun tick hstatus =>
    absurd hstatus (Process.notStopped_of_running hrunning tick)⟩⟩
  · intro key cell hlookup
    by_cases hkey : key = process.key
    · subst hkey
      obtain rfl := Option.some.inj ((AList.lookup_insert _).symm.trans hlookup)
      refine ⟨id, _, State.put_process_self, rfl, rfl, fun herased => ?_⟩
      -- Every stop on record is older than this refresh.
      obtain ⟨otherId, namesake, tick, hsome, -, hstatus, hlt⟩ := hold herased
      exact lt_asymm hlt ((hmirrors.dated otherId namesake hsome).stopped tick hstatus).2
    · have hlookup : state.redis.lookup key = some cell :=
        (AList.lookup_insert_ne hkey).symm.trans hlookup
      obtain ⟨otherId, other, hother, rfl, hdeadline, hnot⟩ :=
        hmirrors.written key cell hlookup
      have hne : otherId ≠ id := by
        rintro rfl
        exact hkey (congrArg Process.key (hbefore other hother))
      exact ⟨otherId, other, (State.put_process_of_ne hne).trans hother, rfl, hdeadline,
        fun herased => hnot (hold herased)⟩
  · intro otherId other hother hnot
    by_cases hkey : other.key = process.key
    · -- A namesake wrote the sentinel, no earlier than this one.
      refine ⟨_, _, by rw [hkey]; exact AList.lookup_insert _, rfl, ?_⟩
      rcases State.put_process_cases hother with ⟨-, rfl⟩ | ⟨-, hother⟩
      · exact le_rfl
      · have hpast := (hmirrors.dated otherId other hother).refreshedAt_le
        gcongr
    · rcases State.put_process_cases hother with ⟨-, rfl⟩ | ⟨-, hother⟩
      · exact absurd rfl hkey
      · obtain ⟨cell, deadline, hlookup, hrest⟩ := hmirrors.kept otherId other hother
          fun herased => hnot (hnew herased)
        exact ⟨cell, deadline, (AList.lookup_insert_ne hkey).trans hlookup, hrest⟩

/-- A process that has just written its sentinel announces itself. -/
theorem Mirrors.announced_refresh (hmirrors : Mirrors (state.refresh id process)) :
    (state.refresh id process).Announced (state.written process) := by
  refine ⟨lt_add_of_pos_right _ (by decide), ?_⟩
  rintro ⟨otherId, namesake, tick, hsome, -, hstatus, hlt⟩
  have hpast := ((hmirrors.dated otherId namesake hsome).stopped tick hstatus).2
  exact absurd hlt (Nat.lt_succ_iff.mp hpast).not_gt

/-- A clean stop of a process that runs. -/
theorem Mirrors.shutdown (hmirrors : Mirrors state) (hprocess : state.process id = some process)
    (hrunning : process.status = .running) : Mirrors (state.shutdown id process) := by
  have hdated := hmirrors.dated id process hprocess
  have hnew {other : Process} (herased : state.Erased other) :
      (state.shutdown id process).Erased other := by
    refine herased.put fun old hold => ?_
    obtain rfl := Option.some.inj (hprocess.symm.trans hold)
    exact Process.notStopped_of_running hrunning
  -- The stop erases the sentinel of everyone who shares it.
  have herases {otherId : ℕ} {other : Process}
      (hother : (state.shutdown id process).process otherId = some other)
      (hkey : other.key = process.key) : (state.shutdown id process).Erased other := by
    refine ⟨id, _, state.tick, State.put_process_self, hkey.symm, rfl, ?_⟩
    rcases State.put_process_cases hother with ⟨-, rfl⟩ | ⟨-, hother⟩
    · exact hdated.refreshedTick_lt
    · exact (hmirrors.dated otherId other hother).refreshedTick_lt
  refine ⟨?_, ?_, hmirrors.dated_put ⟨hdated.refreshedAt_le,
    hdated.refreshedTick_lt.trans (Nat.lt_succ_self _), ?_⟩⟩
  · intro key cell hlookup
    have hkey : key ≠ process.key := by
      rintro rfl
      cases (AList.lookup_erase process.key state.redis).symm.trans hlookup
    have hlookup : state.redis.lookup key = some cell :=
      (AList.lookup_erase_ne hkey).symm.trans hlookup
    obtain ⟨otherId, other, hother, rfl, hdeadline, hnot⟩ := hmirrors.written key cell hlookup
    have hne : otherId ≠ id := by
      rintro rfl
      exact hkey (congrArg Process.key (Option.some.inj (hother.symm.trans hprocess)))
    refine ⟨otherId, other, (State.put_process_of_ne hne).trans hother, rfl, hdeadline,
      fun herased => ?_⟩
    rcases herased.of_put with herased | ⟨_, hsame, -, -⟩
    · exact hnot herased
    · exact hkey hsame.symm
  · intro otherId other hother hnot
    have hkey : other.key ≠ process.key := fun hkey => hnot (herases hother hkey)
    rcases State.put_process_cases hother with ⟨-, rfl⟩ | ⟨-, hother⟩
    · exact absurd rfl hkey
    · obtain ⟨cell, deadline, hlookup, hrest⟩ := hmirrors.kept otherId other hother
        fun herased => hnot (hnew herased)
      exact ⟨cell, deadline, (AList.lookup_erase_ne hkey).trans hlookup, hrest⟩
  · intro tick hstatus
    obtain rfl := Status.stopped.inj hstatus
    exact ⟨hdated.refreshedTick_lt, Nat.lt_succ_self _⟩

/-- A process that is killed leaves its sentinel behind. -/
theorem Mirrors.kill (hmirrors : Mirrors state) (hprocess : state.process id = some process)
    (hrunning : process.status = .running) : Mirrors (state.kill id process) := by
  have hdated := hmirrors.dated id process hprocess
  have hnew {other : Process} (herased : state.Erased other) :
      (state.kill id process).Erased other := by
    refine herased.put fun old hold => ?_
    obtain rfl := Option.some.inj (hprocess.symm.trans hold)
    exact Process.notStopped_of_running hrunning
  have hold {other : Process} (herased : (state.kill id process).Erased other) :
      state.Erased other :=
    herased.of_put_notStopped fun tick hstatus => by cases hstatus
  refine ⟨?_, ?_, hmirrors.dated_put ⟨hdated.refreshedAt_le,
    hdated.refreshedTick_lt.trans (Nat.lt_succ_self _), nofun⟩⟩
  · intro key cell hlookup
    obtain ⟨otherId, other, hother, rfl, hdeadline, hnot⟩ := hmirrors.written key cell hlookup
    by_cases hne : otherId = id
    · subst hne
      obtain rfl := Option.some.inj (hprocess.symm.trans hother)
      exact ⟨otherId, _, State.put_process_self, rfl, hdeadline,
        fun herased => hnot (hold herased)⟩
    · exact ⟨otherId, other, (State.put_process_of_ne hne).trans hother, rfl, hdeadline,
        fun herased => hnot (hold herased)⟩
  · intro otherId other hother hnot
    rcases State.put_process_cases hother with ⟨-, rfl⟩ | ⟨-, hother⟩
    · exact hmirrors.kept id process hprocess fun herased => hnot (hnew herased)
    · exact hmirrors.kept otherId other hother fun herased => hnot (hnew herased)

end Put

theorem Mirrors.elapse {state : State} (hmirrors : Mirrors state) {seconds : ℚ}
    (hseconds : 0 ≤ seconds) :
    Mirrors { state with now := state.now + seconds } where
  written := hmirrors.written
  kept := hmirrors.kept
  dated id process hprocess := by
    obtain ⟨hat, htick, hstopped⟩ := hmirrors.dated id process hprocess
    exact ⟨hat.trans (le_add_of_nonneg_right hseconds), htick, hstopped⟩

theorem State.running_eq_some {state : State} {id : ℕ} {process : Process} :
    state.running id = some process ↔
      state.process id = some process ∧ process.status = .running := by
  simp [State.running, Option.filter_eq_some_iff]

theorem Mirrors.step {state next : State} {label : Label} (hmirrors : Mirrors state)
    (hstep : step state label = some next) : Mirrors next := by
  cases label with
  | start id kind pid =>
      simp only [Healthcheck.step] at hstep
      split at hstep
      case h_1 hnone =>
        obtain rfl := Option.some.inj hstep
        exact hmirrors.refresh (by simp [hnone]) rfl
      case h_2 => cases hstep
  | refresh id =>
      obtain ⟨process, hrunning, rfl⟩ := Option.map_eq_some_iff.mp hstep
      obtain ⟨hprocess, hrunning⟩ := State.running_eq_some.mp hrunning
      refine hmirrors.refresh (fun old hold => ?_) hrunning
      exact Option.some.inj (hold.symm.trans hprocess)
  | stop id =>
      obtain ⟨process, hrunning, rfl⟩ := Option.map_eq_some_iff.mp hstep
      obtain ⟨hprocess, hrunning⟩ := State.running_eq_some.mp hrunning
      exact hmirrors.shutdown hprocess hrunning
  | kill id =>
      obtain ⟨process, hrunning, rfl⟩ := Option.map_eq_some_iff.mp hstep
      obtain ⟨hprocess, hrunning⟩ := State.running_eq_some.mp hrunning
      exact hmirrors.kill hprocess hrunning
  | elapse seconds =>
      obtain ⟨hseconds, hnext⟩ := Option.ite_none_right_eq_some.mp hstep
      obtain rfl := Option.some.inj hnext
      exact hmirrors.elapse hseconds

theorem mirrors_of_reaches {state : State}
    (hrun : Reaches step unrestricted start state) : Mirrors state :=
  hrun.invariant mirrors_start fun _ _ _ hmirrors _ hstep => hmirrors.step hstep

/-! ## The probe -/

section Probe

variable {state : State}

theorem check_eq_zero_iff {role : String} :
    check state role = 0 ↔ ∃ key cell, state.redis.lookup key = some cell ∧
      (sentinelPrefix role).toList <+: key.toList ∧ cell.Live state.now := by
  have hany : check state role = 0 ↔ ∃ entry ∈ state.redis.entries,
      (sentinelPrefix role).toList <+: entry.1.toList ∧ entry.2.Live state.now := by
    simp [check, -List.isPrefixOf_iff_prefix, ← List.isPrefixOf_iff_prefix]
  rw [hany]
  constructor
  · rintro ⟨⟨key, cell⟩, hentry, hrest⟩
    exact ⟨key, cell, AList.mem_lookup_iff.mpr hentry, hrest⟩
  · rintro ⟨key, cell, hlookup, hrest⟩
    exact ⟨⟨key, cell⟩, AList.mem_lookup_iff.mp hlookup, hrest⟩

/-- The probe of a role finds the processes that announce themselves under it. -/
theorem Mirrors.check_eq_zero_iff (hmirrors : Mirrors state) (probed : Kind) :
    check state probed.role = 0 ↔ ∃ id process, state.process id = some process ∧
      process.kind.role = probed.role ∧ state.Announced process := by
  rw [Healthcheck.check_eq_zero_iff]
  constructor
  · rintro ⟨key, cell, hlookup, hprefix, hlive⟩
    obtain ⟨id, process, hprocess, rfl, hdeadline, hnot⟩ := hmirrors.written key cell hlookup
    exact ⟨id, process, hprocess, (prefix_key_iff probed process).mp hprefix,
      hlive _ hdeadline, hnot⟩
  · rintro ⟨id, process, hprocess, hrole, hfresh, hnot⟩
    obtain ⟨cell, deadline, hlookup, hdeadline, hle⟩ := hmirrors.kept id process hprocess hnot
    refine ⟨process.key, cell, hlookup, (prefix_key_iff probed process).mpr hrole, ?_⟩
    intro other hother
    obtain rfl := Option.some.inj (hdeadline.symm.trans hother)
    exact hfresh.trans_le hle

/-- Whoever has no role of its own counts as a worker. -/
theorem role_eq_worker_iff {kind : Kind} :
    kind.role = Kind.worker.role ↔ kind ∈ [Kind.bot, Kind.worker] := by
  cases kind <;> simp [Kind.role, Kind.processRole]

theorem Mirrors.check_worker_eq_zero_iff (hmirrors : Mirrors state) :
    check state "worker" = 0 ↔ state.Any [.bot, .worker] state.Announced := by
  simp only [State.Any, ← role_eq_worker_iff]
  exact hmirrors.check_eq_zero_iff .worker

/-- A process that announces itself has not stopped. -/
theorem Mirrors.notStopped_of_announced (hmirrors : Mirrors state) {id : ℕ}
    {process : Process} (hprocess : state.process id = some process)
    (hannounced : state.Announced process) : process.NotStopped := by
  intro tick hstatus
  exact hannounced.2 ⟨id, process, tick, hprocess, rfl, hstatus,
    ((hmirrors.dated id process hprocess).stopped tick hstatus).1⟩

/-- What the clear steps keep: bots stand beside live workers, and every worker on schedule
still has its sentinel. -/
structure Guarded (state : State) : Prop where
  bots : state.Any [.bot] state.Announced → state.Any [.worker] state.Alive
  kept : ∀ id process, state.process id = some process → process.kind = .worker →
    state.OnSchedule process → ¬ state.Erased process

theorem guarded_start : Guarded start where
  bots := by rintro ⟨id, process, hprocess, -⟩; cases hprocess
  kept id process hprocess := by cases hprocess

theorem State.OnSchedule.fresh {process : Process} (hschedule : state.OnSchedule process) :
    state.Fresh process :=
  hschedule.2.trans_lt (add_lt_add_right (by decide) process.refreshedAt)

/-- Then the probe is right. -/
theorem Guarded.probeCorrect (hguarded : Guarded state) (hmirrors : Mirrors state) :
    state.ProbeCorrect where
  sound hzero := by
    obtain ⟨id, process, hprocess, hkind, hannounced⟩ :=
      hmirrors.check_worker_eq_zero_iff.mp hzero
    rcases List.mem_pair.mp hkind with hbot | hworker
    · exact hguarded.bots ⟨id, process, hprocess, List.mem_singleton.mpr hbot, hannounced⟩
    · exact ⟨id, process, hprocess, List.mem_singleton.mpr hworker, hannounced.1,
        hmirrors.notStopped_of_announced hprocess hannounced⟩
  complete := by
    rintro ⟨id, process, hprocess, hkind, hschedule⟩
    have hworker := List.mem_singleton.mp hkind
    exact hmirrors.check_worker_eq_zero_iff.mpr ⟨id, process, hprocess,
      List.mem_pair.mpr (.inr hworker), hschedule.fresh,
      hguarded.kept id process hprocess hworker hschedule⟩

section Steps

variable {id : ℕ} {process fresh : Process} {redis : Redis}

/-- A live worker stays beside a step of another process, and of its own if it leaves it
alive. -/
theorem State.Any.alive_put (halive : state.Any [.worker] state.Alive)
    (hself : ∀ old ∈ state.process id, old.kind = .worker → state.Alive old →
      fresh.kind = .worker ∧ state.Alive fresh) :
    (state.put id fresh redis).Any [.worker] (state.put id fresh redis).Alive := by
  obtain ⟨otherId, worker, hworker, hkind, halive⟩ := halive
  by_cases hne : otherId = id
  · subst hne
    obtain ⟨hfresh, hlives⟩ := hself worker hworker (List.mem_singleton.mp hkind) halive
    exact ⟨otherId, fresh, State.put_process_self, List.mem_singleton.mpr hfresh, hlives⟩
  · exact ⟨otherId, worker, (State.put_process_of_ne hne).trans hworker, hkind, halive⟩

theorem Guarded.refresh (hguarded : Guarded state) (hmirrors : Mirrors state)
    (hbefore : ∀ old ∈ state.process id, old = process) (hrunning : process.status = .running)
    (hclear : process.kind = .bot → state.Any [.worker] state.Alive) :
    Guarded (state.refresh id process) := by
  have hnot : (state.written process).NotStopped := Process.notStopped_of_running hrunning
  have hannounced := (hmirrors.refresh hbefore hrunning).announced_refresh
  refine ⟨?_, ?_⟩
  · rintro ⟨otherId, bot, hbot, hkind, hfresh, hstands⟩
    have halive : state.Any [.worker] state.Alive := by
      rcases State.put_process_cases hbot with ⟨-, rfl⟩ | ⟨-, hbot⟩
      · exact hclear (List.mem_singleton.mp hkind)
      · apply hguarded.bots
        refine ⟨otherId, bot, hbot, hkind, hfresh, fun herased => hstands ?_⟩
        refine herased.put fun old hold => ?_
        rw [hbefore old hold]
        exact Process.notStopped_of_running hrunning
    refine halive.alive_put fun old hold hworker _ => ?_
    rw [hbefore old hold] at hworker
    exact ⟨hworker, hannounced.1, hnot⟩
  · intro otherId other hother hworker hschedule
    rcases State.put_process_cases hother with ⟨-, rfl⟩ | ⟨-, hother⟩
    · exact hannounced.2
    · exact fun herased => hguarded.kept otherId other hother hworker hschedule
        (herased.of_put_notStopped hnot)

theorem Guarded.shutdown (hguarded : Guarded state) (hmirrors : Mirrors state)
    (hprocess : state.process id = some process) (hrunning : process.status = .running)
    (hnamesakes : ¬ state.AnyBut id [.worker] fun other =>
      other.key = process.key ∧ state.OnSchedule other)
    (hbots : (state.AnyBut id [.bot] fun bot =>
        bot.key ≠ process.key ∧ state.Announced bot) →
      state.AnyBut id [.worker] state.Alive) :
    Guarded (state.shutdown id process) := by
  have hdated := hmirrors.dated id process hprocess
  refine ⟨?_, ?_⟩
  · rintro ⟨otherId, bot, hbot, hkind, hfresh, hstands⟩
    -- The stop erases the sentinels under its key, its own first.
    have herases : bot.key ≠ process.key := by
      intro hkey
      apply hstands
      refine ⟨id, _, state.tick, State.put_process_self, hkey.symm, rfl, ?_⟩
      rcases State.put_process_cases hbot with ⟨-, rfl⟩ | ⟨-, hbot⟩
      · exact hdated.refreshedTick_lt
      · exact (hmirrors.dated otherId bot hbot).refreshedTick_lt
    rcases State.put_process_cases hbot with ⟨-, rfl⟩ | ⟨hne, hbot⟩
    · exact absurd rfl herases
    · have hbefore : state.Announced bot := by
        refine ⟨hfresh, fun herased => hstands (herased.put fun old hold => ?_)⟩
        obtain rfl := Option.some.inj (hprocess.symm.trans hold)
        exact Process.notStopped_of_running hrunning
      obtain ⟨workerId, worker, hother, hworker, hrest⟩ :=
        hbots ⟨otherId, bot, hne, hbot, hkind, herases, hbefore⟩
      exact ⟨workerId, worker, (State.put_process_of_ne hother).trans hworker, hrest⟩
  · intro otherId other hother hworker hschedule herased
    rcases State.put_process_cases hother with ⟨-, rfl⟩ | ⟨hne, hother⟩
    · cases hschedule.1
    · rcases herased.of_put with herased | ⟨_, hkey, -, -⟩
      · exact hguarded.kept otherId other hother hworker hschedule herased
      · exact hnamesakes ⟨otherId, other, hne, hother, List.mem_singleton.mpr hworker,
          hkey.symm, hschedule⟩

theorem Guarded.kill (hguarded : Guarded state) (hprocess : state.process id = some process)
    (hrunning : process.status = .running) : Guarded (state.kill id process) := by
  have hnot : ({ process with status := .killed } : Process).NotStopped :=
    fun tick hstatus => by cases hstatus
  have hnew {other : Process} (herased : state.Erased other) :
      (state.kill id process).Erased other := by
    refine herased.put fun old hold => ?_
    obtain rfl := Option.some.inj (hprocess.symm.trans hold)
    exact Process.notStopped_of_running hrunning
  refine ⟨?_, ?_⟩
  · rintro ⟨otherId, bot, hbot, hkind, hfresh, hstands⟩
    have halive : state.Any [.worker] state.Alive := by
      apply hguarded.bots
      rcases State.put_process_cases hbot with ⟨-, rfl⟩ | ⟨-, hbot⟩
      · exact ⟨id, process, hprocess, hkind, hfresh, fun herased => hstands (hnew herased)⟩
      · exact ⟨otherId, bot, hbot, hkind, hfresh, fun herased => hstands (hnew herased)⟩
    refine halive.alive_put fun old hold hworker halive => ?_
    obtain rfl := Option.some.inj (hprocess.symm.trans hold)
    exact ⟨hworker, halive.1, hnot⟩
  · intro otherId other hother hworker hschedule
    rcases State.put_process_cases hother with ⟨-, rfl⟩ | ⟨-, hother⟩
    · cases hschedule.1
    · exact fun herased => hguarded.kept otherId other hother hworker hschedule
        (herased.of_put_notStopped hnot)

theorem Guarded.step {next : State} {label : Label} (hguarded : Guarded state)
    (hmirrors : Mirrors state) (hclear : Clear state label)
    (hstep : step state label = some next) : Guarded next := by
  cases label with
  | start id kind pid =>
      simp only [Healthcheck.step] at hstep
      split at hstep
      case h_1 hnone =>
        obtain rfl := Option.some.inj hstep
        exact hguarded.refresh hmirrors (by simp [hnone]) rfl hclear
      case h_2 => cases hstep
  | refresh id =>
      obtain ⟨process, hruns, rfl⟩ := Option.map_eq_some_iff.mp hstep
      obtain ⟨hprocess, hrunning⟩ := State.running_eq_some.mp hruns
      refine hguarded.refresh hmirrors (fun old hold => ?_) hrunning (hclear process hruns)
      exact Option.some.inj (hold.symm.trans hprocess)
  | stop id =>
      obtain ⟨process, hruns, rfl⟩ := Option.map_eq_some_iff.mp hstep
      obtain ⟨hprocess, hrunning⟩ := State.running_eq_some.mp hruns
      obtain ⟨hnamesakes, hbots⟩ := hclear process hruns
      exact hguarded.shutdown hmirrors hprocess hrunning hnamesakes hbots
  | kill id =>
      obtain ⟨process, hruns, rfl⟩ := Option.map_eq_some_iff.mp hstep
      obtain ⟨hprocess, hrunning⟩ := State.running_eq_some.mp hruns
      exact hguarded.kill hprocess hrunning
  | elapse seconds =>
      obtain ⟨hseconds, hnext⟩ := Option.ite_none_right_eq_some.mp hstep
      obtain rfl := Option.some.inj hnext
      refine ⟨?_, fun id process hprocess hworker hschedule => ?_⟩
      · rintro ⟨id, bot, hbot, hkind, hfresh, hstands⟩
        obtain ⟨workerId, worker, hworker, hkind, hnot, hlate⟩ :=
          hclear id bot hbot (List.mem_singleton.mp hkind) hstands hfresh
        exact ⟨workerId, worker, hworker, hkind, hlate, hnot⟩
      have hpast : state.OnSchedule process :=
        ⟨hschedule.1, (le_add_of_nonneg_right hseconds).trans hschedule.2⟩
      exact hguarded.kept id process hprocess hworker hpast

end Steps

/-- Along every run of clear steps the worker probe is right. -/
theorem probeCorrect_of_clear (hrun : Reaches step Clear start state) : state.ProbeCorrect := by
  have hboth : Mirrors state ∧ Guarded state := by
    refine @Reaches.invariant _ _ _ _ _ _ (fun state => Mirrors state ∧ Guarded state)
      ⟨mirrors_start, guarded_start⟩ (fun state label next hinv hclear hstep => ?_) hrun
    exact ⟨hinv.1.step hstep, hinv.2.step hinv.1 hclear hstep⟩
  exact hboth.2.probeCorrect hboth.1

/-- A worker, a bot and a namesake of the worker on another host.  The namesake stops when
the worker is overdue, the worker refreshes, and the bot does so once its sentinel has run
out. -/
def namesakeStops : List Label :=
  [.start 0 .worker 7, .start 1 .bot 1, .start 2 .worker 7, .elapse 40, .stop 2, .refresh 0,
    .elapse 60, .refresh 1, .refresh 0]

/-- Where its first steps lead. -/
def stateAfter (count : ℕ) : State :=
  (replay step start (namesakeStops.take count)).getD start

/-- The first worker is alive when it must be. -/
theorem alive_stateAfter (count : ℕ) (hcount : count ∈ [1, 4, 7]) :
    (stateAfter count).AnyBut 2 [.worker] (stateAfter count).Alive := by
  have hfirst : ∀ count ∈ [1, 4, 7], ∃ process ∈ (stateAfter count).process 0,
      process.kind = .worker ∧ process.status = .running ∧
        (stateAfter count).now < process.refreshedAt + heartbeatTtlSeconds := by
    decide +kernel
  obtain ⟨process, hprocess, hkind, hrunning, hfresh⟩ := hfirst count hcount
  exact ⟨0, process, by decide, hprocess, List.mem_singleton.mpr hkind, hfresh,
    Process.notStopped_of_running hrunning⟩

theorem State.AnyBut.any {id : ℕ} {kinds : List Kind} {told : Process → Prop}
    (hany : state.AnyBut id kinds told) : state.Any kinds told := by
  obtain ⟨otherId, process, -, hrest⟩ := hany
  exact ⟨otherId, process, hrest⟩

/-- Time may pass as long as a worker is alive in the end. -/
theorem clear_elapse {seconds : ℚ} {later : State}
    (hlater : later = { state with now := state.now + seconds })
    (halive : later.Any [.worker] later.Alive) : Clear state (.elapse seconds) := by
  subst hlater
  obtain ⟨id, worker, hworker, hkind, hfresh, hnot⟩ := halive
  exact fun _ _ _ _ _ _ => ⟨id, worker, hworker, hkind, hnot, hfresh⟩

/-- The first worker is overdue when its namesake stops. -/
theorem clear_stop : Clear (stateAfter 4) (.stop 2) := by
  refine fun process _ => ⟨?_, fun _ => alive_stateAfter 4 (by decide)⟩
  rintro ⟨otherId, other, hne, hother, hkind, -, hschedule⟩
  have hoverdue : ∀ process ∈ (stateAfter 4).process 0,
      ¬ (stateAfter 4).now ≤ process.refreshedAt + heartbeatRefreshSeconds := by
    decide +kernel
  rcases otherId with _ | _ | _ | otherId
  · exact hoverdue other hother hschedule.2
  · cases hother
    cases List.mem_singleton.mp hkind
  · exact hne rfl
  · cases hother

theorem reaches_stateAfter : Reaches step Clear start (stateAfter 9) := by
  have hworker : ∀ state id, Clear state (.start id .worker 7) :=
    fun _ _ hbot => by cases hbot
  have hstarted : Reaches step Clear start (stateAfter 1) :=
    Reaches.refl.tail (.start 0 .worker 7) (hworker _ _) rfl
  have hbot : Reaches step Clear start (stateAfter 2) :=
    hstarted.tail (.start 1 .bot 1) (fun _ => (alive_stateAfter 1 (by decide)).any) rfl
  have hnamesake : Reaches step Clear start (stateAfter 3) :=
    hbot.tail (.start 2 .worker 7) (hworker _ _) rfl
  have hoverdue : Reaches step Clear start (stateAfter 4) :=
    hnamesake.tail (.elapse 40) (clear_elapse rfl (alive_stateAfter 4 (by decide)).any) rfl
  have hstopped : Reaches step Clear start (stateAfter 5) :=
    hoverdue.tail (.stop 2) clear_stop rfl
  have hrefreshed : Reaches step Clear start (stateAfter 6) :=
    hstopped.tail (.refresh 0) (by rintro process ⟨⟩ ⟨⟩) rfl
  have hlate : Reaches step Clear start (stateAfter 7) :=
    hrefreshed.tail (.elapse 60) (clear_elapse rfl (alive_stateAfter 7 (by decide)).any) rfl
  have hagain : Reaches step Clear start (stateAfter 8) :=
    hlate.tail (.refresh 1) (fun _ _ _ => (alive_stateAfter 7 (by decide)).any) rfl
  exact hagain.tail (.refresh 0) (by rintro process ⟨⟩ ⟨⟩) rfl

/-- In the end the probe finds the worker. -/
theorem probeCorrect_namesakeStops :
    Reaches step Clear start (stateAfter 9) ∧ check (stateAfter 9) "worker" = 0 ∧
      (stateAfter 9).Any [.worker] (stateAfter 9).Alive := by
  have hcorrect := probeCorrect_of_clear reaches_stateAfter
  have hfirst : ∃ process ∈ (stateAfter 9).process 0, process.kind = .worker ∧
      process.status = .running ∧
        (stateAfter 9).now ≤ process.refreshedAt + heartbeatRefreshSeconds := by
    decide +kernel
  obtain ⟨process, hprocess, hkind, hschedule⟩ := hfirst
  have hzero := hcorrect.complete
    ⟨0, process, hprocess, List.mem_singleton.mpr hkind, hschedule⟩
  exact ⟨reaches_stateAfter, hzero, hcorrect.sound hzero⟩

/-- The bot, as it starts the broker. -/
def firstBot : Process := ⟨.bot, 1, .running, 0, 0⟩

/-- With no worker at all, the sentinel of the bot satisfies the probe. -/
theorem probe_finds_bot :
    ∃ state, Reaches step unrestricted start state ∧ ¬ state.ProbeCorrect := by
  have hrun : Reaches step unrestricted start (start.refresh 0 firstBot) :=
    Reaches.refl.tail (.start 0 .bot 1) trivial rfl
  refine ⟨_, hrun, fun hcorrect => ?_⟩
  have hmirrors := mirrors_of_reaches hrun
  have hzero : check (start.refresh 0 firstBot) "worker" = 0 :=
    hmirrors.check_worker_eq_zero_iff.mpr
      ⟨0, _, State.put_process_self, .head _, hmirrors.announced_refresh⟩
  obtain ⟨id, process, hprocess, hkind, -⟩ := hcorrect.sound hzero
  rcases State.put_process_cases hprocess with ⟨-, rfl⟩ | ⟨-, hnone⟩
  · cases List.mem_singleton.mp hkind
  · cases hnone

end Probe

end DownloaderBot.Healthcheck
