import DownloaderBot.Cogs.SetupRuns
import DownloaderBot.Core.TransitionSystem

/-!
# Concurrent `/setup` commands

Any number of commands of one guild interleave, each query one step of the database.
-/

namespace DownloaderBot.SetupOverlap

open DownloaderBot.GuildTable
open DownloaderBot.Program
open DownloaderBot.SetupCog
open DownloaderBot.TransitionSystem

/-- `read`: what an invocation has been told by its `get`; `lastWrite`: which invocation
was the last to write, and what it had read. -/
structure State where
  table : Table
  running : ℕ → Option (Cog Unit)
  read : ℕ → Option Row
  lastWrite : Option (ℕ × Option Row)

/-- What an invocation has read after a call. -/
def readAfter (read : Option Row) : (request : Call) → Except DbError (Reply request) →
    Option Row
  | .get _, .ok row => some row
  | _, _ => read

/-- Whether the call has written. -/
def wrote : (request : Call) → Except DbError (Reply request) → Bool
  | .upsert _, .ok _ => true
  | _, _ => false

/-- The pending call of an invocation is served. -/
def step (state : State) (invocation : ℕ) : Option State :=
  match state.running invocation with
  | some (.call request next) =>
      let served := serve state.table request
      some
        { table := served.2
          running := Function.update state.running invocation (some (next served.1))
          read := Function.update state.read invocation
            (readAfter (state.read invocation) request served.1)
          lastWrite :=
            if wrote request served.1 then some (invocation, state.read invocation)
            else state.lastWrite }
  | _ => none

def start (guildId : ℕ) (commands : List Command) (table : Table) : State where
  table := table
  running invocation := commands[invocation]?.map (Command.run guildId)
  read _ := none
  lastWrite := none

def ended : Cog Unit → Bool
  | .call .. => false
  | .ret _ | .raise _ => true

/-- All of the `count` invocations have ended. -/
def Over (count : ℕ) (state : State) : Prop :=
  ∀ invocation < count, (state.running invocation).all ended = true

instance (count : ℕ) (state : State) : Decidable (Over count state) :=
  inferInstanceAs (Decidable (∀ _ < _, _ = true))

/-- The commands one after another. -/
def serial (guildId : ℕ) (table : Table) : List Command → Table
  | [] => table
  | command :: commands =>
      serial guildId ((command.run guildId).exec serve table).2 commands

/-- The row is what the commands make of it one after another, in some order. -/
def Serialisable (guildId : ℕ) (commands : List Command) (table : Table)
    (state : State) : Prop :=
  ∃ order : List Command, order.Perm commands ∧
    state.table.rows guildId = (serial guildId table order).rows guildId

/-- The columns that `clear` keeps. -/
def kept (row : Row) : ℤ × Option (List String) × Option ℤ :=
  (row.retentionHours, mediaPolicy row)

/-- If there are accepted `set`s, then a `clear` that writes last has read what one of
them stores in the columns it keeps. -/
def ReadsLate (guildId : ℕ) (commands : List Command) (state : State) : Prop :=
  ∀ invocation row, state.lastWrite = some (invocation, some row) →
    (∀ command ∈ commands, command.overwrites guildId = none) ∨
      ∃ command ∈ commands, ∃ stored ∈ command.overwrites guildId, kept row = kept stored

/-! ## One after another -/

section Serial

variable {guildId : ℕ} {table : Table} {commands : List Command} {command : Command}

theorem serial_append (table : Table) (commands later : List Command) :
    serial guildId table (commands ++ later) =
      serial guildId (serial guildId table commands) later := by
  induction commands generalizing table with
  | nil => rfl
  | cons command commands ih => exact ih _

theorem rows_exec_of_overwrites (table : Table) {stored : Row}
    (hstored : command.overwrites guildId = some stored) :
    ((command.run guildId).exec serve table).2.rows guildId = some stored := by
  rw [exec_run_of_overwrites hstored]
  dsimp only
  exact Table.rows_put (Command.of_overwrites hstored).2.2

theorem rows_exec_clear :
    ((Command.setupClear.run guildId).exec serve table).2.rows guildId =
      some (cleared (table.get guildId)) := by
  change ((SetupCog.setupClear guildId).exec serve table).2.rows guildId = _
  rw [exec_setupClear]
  dsimp only
  exact Table.rows_put Table.guildId_get

/-- The command stores a row. -/
def Writes (guildId : ℕ) (command : Command) : Prop :=
  command = .setupClear ∨ (command.overwrites guildId).isSome = true

theorem exec_of_not_writes (hnot : ¬ Writes guildId command) :
    ((command.run guildId).exec serve table).2 = table := by
  obtain ⟨hclear, hset⟩ := not_or.mp hnot
  cases command with
  | setupSet deliveryMode resultsChannel retentionHours =>
      obtain ⟨outcome, hexec, -⟩ := exec_set_of_not_overwrites table
        (Option.not_isSome_iff_eq_none.mp hset)
      rw [hexec]
  | setupShow => exact congrArg Prod.snd exec_setupShow
  | setupClear => exact absurd rfl hclear

theorem serial_of_not_writes (hnone : ∀ command ∈ commands, ¬ Writes guildId command) :
    serial guildId table commands = table := by
  induction commands generalizing table with
  | nil => rfl
  | cons command commands ih =>
      obtain ⟨hfirst, hrest⟩ := List.forall_mem_cons.mp hnone
      rw [serial, exec_of_not_writes hfirst]
      exact ih hrest

theorem kept_exec (hnone : command.overwrites guildId = none) :
    kept (((command.run guildId).exec serve table).2.get guildId) =
      kept (table.get guildId) := by
  by_cases hclear : command = .setupClear
  · subst hclear
    rw [Table.get_of_rows rows_exec_clear]
    rfl
  · rw [exec_of_not_writes]
    rintro (hsame | hset)
    · exact hclear hsame
    · rw [hnone] at hset
      cases hset

theorem kept_serial (hnone : ∀ command ∈ commands, command.overwrites guildId = none) :
    kept ((serial guildId table commands).get guildId) = kept (table.get guildId) := by
  induction commands generalizing table with
  | nil => rfl
  | cons command commands ih =>
      obtain ⟨hfirst, hrest⟩ := List.forall_mem_cons.mp hnone
      exact (ih hrest).trans (kept_exec hfirst)

/-- In the end the kept columns are those of some accepted `set`, if there is one. -/
theorem kept_serial_of_set (table : Table)
    (hset : ∃ command ∈ commands, command.overwrites guildId ≠ none) :
    ∃ command ∈ commands, ∃ stored ∈ command.overwrites guildId,
      kept ((serial guildId table commands).get guildId) = kept stored := by
  induction commands generalizing table with
  | nil => simp at hset
  | cons first commands ih =>
      by_cases hrest : ∃ command ∈ commands, command.overwrites guildId ≠ none
      · obtain ⟨command, hmem, stored, hstored, hkept⟩ :=
          ih ((first.run guildId).exec serve table).2 hrest
        exact ⟨command, .tail _ hmem, stored, hstored, hkept⟩
      · have hfirst : first.overwrites guildId ≠ none := by
          obtain ⟨command, hmem, hne⟩ := hset
          rcases List.mem_cons.mp hmem with rfl | hmem
          · exact hne
          · exact absurd ⟨command, hmem, hne⟩ hrest
        obtain ⟨stored, hstored⟩ := Option.ne_none_iff_exists'.mp hfirst
        refine ⟨first, List.mem_cons_self, stored, hstored, ?_⟩
        push Not at hrest
        rw [serial, kept_serial hrest, Table.get_of_rows (rows_exec_of_overwrites _ hstored)]
        rfl

theorem cleared_eq_of_kept {row other : Row} (hguild : row.guildId = other.guildId)
    (hkept : kept row = kept other) : cleared row = cleared other := by
  obtain ⟨_, _, _, _, _, _⟩ := row
  obtain ⟨_, _, _, _, _, _⟩ := other
  cases hguild
  cases hkept
  rfl

end Serial

/-! ## How far a command is -/

/-- How far an invocation is, by what it has read and whether anything has been
written. -/
inductive Stage (guildId : ℕ) (command : Command) (written : Bool) :
    Option Row → Cog Unit → Prop
  | begun : Stage guildId command written none (command.run guildId)
  | replacing (row : Row) (hclear : command = .setupClear) :
      Stage guildId command written (some row) (replaceCleared row)
  | replying (read : Option Row) (embed : Embeds.Embed)
      (hwritten : Writes guildId command → written = true) :
      Stage guildId command written read (await (.send embed))
  | concluded (read : Option Row) (program : Cog Unit)
      (hover : ended program = true)
      (hwritten : Writes guildId command → written = true) :
      Stage guildId command written read program

/-- What the next call of an invocation may be, and what comes after it. -/
inductive Turn (guildId : ℕ) (command : Command) (read : Option Row) (written : Bool) :
    (request : Call) → (Except DbError (Reply request) → Cog Unit) → Prop
  | view (next : Except DbError Row → Cog Unit) (hshow : command = .setupShow)
      (hnext : ∀ row, ∃ embed, next (.ok row) = await (.send embed)) :
      Turn guildId command read written (.get guildId) next
  | read (next : Except DbError Row → Cog Unit) (hclear : command = .setupClear)
      (hnext : ∀ row, next (.ok row) = replaceCleared row) :
      Turn guildId command read written (.get guildId) next
  | set (row : Row) (next : Except DbError Unit → Cog Unit)
      (hrow : command.overwrites guildId = some row) (hread : read = none)
      (hnext : ∃ embed, next (.ok ()) = await (.send embed)) :
      Turn guildId command read written (.upsert row) next
  | overflow (row : Row) (next : Except DbError Unit → Cog Unit) (hfits : ¬ row.Fits)
      (hnot : ¬ Writes guildId command)
      (hnext : ∀ refusal, next (.error refusal) = .raise refusal) :
      Turn guildId command read written (.upsert row) next
  | clear (row : Row) (next : Except DbError Unit → Cog Unit)
      (hclear : command = .setupClear) (hread : read = some row)
      (hnext : ∃ embed, next (.ok ()) = await (.send embed)) :
      Turn guildId command read written (.upsert (cleared row)) next
  | send (embed : Embeds.Embed) (next : Except DbError Unit → Cog Unit)
      (hwritten : Writes guildId command → written = true)
      (hnext : next (.ok ()) = .ret ()) :
      Turn guildId command read written (.send embed) next

section Stage

variable {guildId : ℕ} {command : Command} {written : Bool} {read : Option Row}

theorem not_writes_set {deliveryMode : String} {resultsChannel : Option ℕ}
    {retentionHours : ℤ}
    (hnot : ¬ ((setRow guildId deliveryMode resultsChannel retentionHours).Checked ∧
      (setRow guildId deliveryMode resultsChannel retentionHours).Fits)) :
    ¬ Writes guildId (.setupSet deliveryMode resultsChannel retentionHours) := by
  rintro (hclear | hset)
  · cases hclear
  · simp [Command.overwrites, hnot] at hset

/-- The first call of a command. -/
theorem turn_run {request : Call} {next : Except DbError (Reply request) → Cog Unit}
    (hrun : command.run guildId = .call request next) :
    Turn guildId command none written request next := by
  cases command with
  | setupShow =>
      cases hrun
      exact .view _ rfl fun row => ⟨_, rfl⟩
  | setupClear =>
      cases hrun
      exact .read _ rfl fun row => rfl
  | setupSet deliveryMode resultsChannel retentionHours =>
      simp only [Command.run, setupSet] at hrun
      split at hrun
      case isTrue hinvalid =>
        cases hrun
        refine .send _ _ (fun hwrites => absurd hwrites (not_writes_set fun hgood => ?_)) rfl
        exact hinvalid (checked_setRow.mp hgood.1).1
      case isFalse hvalid =>
        split at hrun
        case isTrue hmissing =>
          cases hrun
          refine .send _ _ (fun hwrites => absurd hwrites (not_writes_set fun hgood => ?_))
            rfl
          exact (checked_setRow.mp hgood.1).2 hmissing
        case isFalse hchannel =>
          cases hrun
          by_cases hfits :
              (setRow guildId deliveryMode resultsChannel retentionHours).Fits
          · exact .set _ _ (if_pos ⟨checked_setRow.mpr ⟨not_not.mp hvalid, hchannel⟩, hfits⟩)
              rfl ⟨_, rfl⟩
          · exact .overflow _ _ hfits (not_writes_set fun hgood => hfits hgood.2)
              fun _ => rfl

theorem Stage.turn {program : Cog Unit} (hstage : Stage guildId command written read program)
    {request : Call} {next : Except DbError (Reply request) → Cog Unit}
    (hcall : program = .call request next) :
    Turn guildId command read written request next := by
  cases hstage with
  | begun => exact turn_run hcall
  | replacing row hclear =>
      cases hcall
      exact .clear row _ hclear rfl ⟨_, rfl⟩
  | replying _ embed hwritten =>
      cases hcall
      exact .send embed _ hwritten rfl
  | concluded _ _ hover hwritten =>
      subst hcall
      cases hover

theorem Stage.mono {program : Cog Unit} (hstage : Stage guildId command written read program)
    {later : Bool} (hlater : written = true → later = true) :
    Stage guildId command later read program := by
  cases hstage with
  | begun => exact .begun
  | replacing row hclear => exact .replacing row hclear
  | replying _ embed hwritten => exact .replying _ embed fun h => hlater (hwritten h)
  | concluded _ _ hover hwritten =>
      exact .concluded _ _ hover fun h => hlater (hwritten h)

/-- Every command begins with a call. -/
theorem exists_call_run (guildId : ℕ) (command : Command) :
    ∃ request next, command.run guildId = .call request next := by
  cases command with
  | setupShow => exact ⟨_, _, rfl⟩
  | setupClear => exact ⟨_, _, rfl⟩
  | setupSet deliveryMode resultsChannel retentionHours =>
      simp only [Command.run, setupSet]
      split
      · exact ⟨_, _, rfl⟩
      · split <;> exact ⟨_, _, rfl⟩

/-- A command that has ended has written if it writes at all. -/
theorem Stage.written_of_ended {program : Cog Unit}
    (hstage : Stage guildId command written read program)
    (hover : ended program = true) (hwrites : Writes guildId command) :
    written = true := by
  cases hstage with
  | begun =>
      obtain ⟨request, next, hcall⟩ := exists_call_run guildId command
      rw [hcall] at hover
      cases hover
  | replacing row hclear => cases hover
  | replying _ embed hwritten => cases hover
  | concluded _ _ _ hwritten => exact hwritten hwrites

end Stage

/-! ## Runs -/

/-- The row comes from the guild, with the kept columns of the start or of an accepted
`set`. -/
structure Known (guildId : ℕ) (commands : List Command) (table : Table) (row : Row) :
    Prop where
  key : row.guildId = guildId
  fits : row.Fits
  kept : kept row = kept (table.get guildId) ∨ ∃ command ∈ commands,
    ∃ stored ∈ command.overwrites guildId, SetupOverlap.kept row = SetupOverlap.kept stored

/-- What the last write has left. -/
def Written (guildId : ℕ) (commands : List Command) (table after : Table) :
    Option (ℕ × Option Row) → Prop
  | none => after.rows guildId = table.rows guildId
  | some (_, none) => ∃ command ∈ commands, ∃ stored ∈ command.overwrites guildId,
      after.rows guildId = some stored
  | some (_, some row) => .setupClear ∈ commands ∧ Known guildId commands table row ∧
      after.rows guildId = some (cleared row)

structure Inv (guildId : ℕ) (commands : List Command) (table : Table) (state : State) :
    Prop where
  present : ∀ (invocation : ℕ) (command : Command), commands[invocation]? = some command →
    ∃ program, state.running invocation = some program
  stages : ∀ invocation program, state.running invocation = some program →
    ∃ command, commands[invocation]? = some command ∧
      Stage guildId command state.lastWrite.isSome (state.read invocation) program
  known : ∀ invocation row, state.read invocation = some row →
    Known guildId commands table row
  current : Known guildId commands table (state.table.get guildId)
  written : Written guildId commands table state.table state.lastWrite

section Runs

variable {guildId : ℕ} {commands : List Command} {table after : Table} {state next : State}
variable {invocation : ℕ} {command : Command} {row stored : Row}

theorem inv_start : Inv guildId commands table (start guildId commands table) where
  present invocation command hcommand :=
    ⟨command.run guildId, congrArg (Option.map (Command.run guildId)) hcommand⟩
  stages invocation program hrunning := by
    obtain ⟨command, hcommand, rfl⟩ := Option.map_eq_some_iff.mp hrunning
    exact ⟨command, hcommand, .begun⟩
  known := nofun
  current := ⟨Table.guildId_get, Table.fits_get, .inl rfl⟩
  written := rfl

/-- An invocation moves on. -/
theorem Inv.move (hinv : Inv guildId commands table state)
    (hcommand : commands[invocation]? = some command) {program : Cog Unit}
    {read : Option Row} {lastWrite : Option (ℕ × Option Row)}
    (hstage : Stage guildId command lastWrite.isSome read program)
    (hlater : state.lastWrite.isSome = true → lastWrite.isSome = true)
    (hread : ∀ row, read = some row → Known guildId commands table row)
    (hcurrent : Known guildId commands table (after.get guildId))
    (hwritten : Written guildId commands table after lastWrite) :
    Inv guildId commands table
      ⟨after, Function.update state.running invocation (some program),
        Function.update state.read invocation read, lastWrite⟩ := by
  refine ⟨?_, ?_, ?_, hcurrent, hwritten⟩
  · intro other asked hasked
    rcases eq_or_ne other invocation with rfl | hne
    · exact ⟨program, Function.update_self ..⟩
    · obtain ⟨found, hfound⟩ := hinv.present other asked hasked
      exact ⟨found, (Function.update_of_ne hne ..).trans hfound⟩
  · intro other found hfound
    dsimp only at hfound ⊢
    rcases eq_or_ne other invocation with rfl | hne
    · rw [Function.update_self] at hfound ⊢
      cases hfound
      exact ⟨command, hcommand, hstage⟩
    · rw [Function.update_of_ne hne] at hfound ⊢
      obtain ⟨asked, hasked, hold⟩ := hinv.stages other found hfound
      exact ⟨asked, hasked, hold.mono hlater⟩
  · intro other row hrow
    dsimp only at hrow
    rcases eq_or_ne other invocation with rfl | hne
    · rw [Function.update_self] at hrow
      exact hread row hrow
    · rw [Function.update_of_ne hne] at hrow
      exact hinv.known other row hrow

theorem known_of_overwrites (hcommand : commands[invocation]? = some command)
    (hstored : command.overwrites guildId = some stored) :
    Known guildId commands table stored := by
  obtain ⟨-, hfits, hkey⟩ := Command.of_overwrites hstored
  exact ⟨hkey, hfits,
    .inr ⟨command, List.mem_of_getElem? hcommand, stored, hstored, rfl⟩⟩

theorem Known.cleared (hknown : Known guildId commands table row) :
    Known guildId commands table (cleared row) :=
  ⟨hknown.key, hknown.fits, hknown.kept⟩

theorem inv_step (hinv : Inv guildId commands table state)
    (hstep : step state invocation = some next) : Inv guildId commands table next := by
  simp only [step] at hstep
  split at hstep
  case h_2 => cases hstep
  case h_1 request rest hrunning =>
    cases hstep
    obtain ⟨command, hcommand, hstage⟩ := hinv.stages invocation _ hrunning
    have hknown := hinv.known invocation
    cases hstage.turn rfl with
    | view _ hshow hnext =>
        obtain ⟨embed, hnext⟩ := hnext (state.table.get guildId)
        apply hinv.move hcommand _ id _ hinv.current hinv.written
        · dsimp only [serve]
          rw [hnext]
          refine .replying _ embed fun hwrites => ?_
          subst hshow
          rcases hwrites with hclear | hset
          · cases hclear
          · cases hset
        · rintro row hrow
          cases hrow
          exact hinv.current
    | read _ hclear hnext =>
        apply hinv.move hcommand _ id _ hinv.current hinv.written
        · dsimp only [serve]
          rw [hnext]
          exact .replacing _ hclear
        · rintro row hrow
          cases hrow
          exact hinv.current
    | set row _ hrow hread hnext =>
        obtain ⟨embed, hnext⟩ := hnext
        obtain ⟨hchecked, hfits, hkey⟩ := Command.of_overwrites hrow
        simp only [serve, Table.upsert_of_checked hchecked hfits, readAfter, wrote, if_true]
        apply hinv.move hcommand _ (fun _ => rfl) hknown
        · rw [get_put hkey]
          exact known_of_overwrites hcommand hrow
        · rw [hread]
          exact ⟨command, List.mem_of_getElem? hcommand, row, hrow, Table.rows_put hkey⟩
        · rw [hnext]
          exact .replying _ embed fun _ => rfl
    | overflow row _ hfits hnot hnext =>
        simp only [serve, Table.upsert_of_not_fits hfits, readAfter, wrote]
        apply hinv.move hcommand _ id hknown hinv.current hinv.written
        rw [hnext]
        exact .concluded _ _ rfl fun hwrites => absurd hwrites hnot
    | clear row _ hclear hread hnext =>
        obtain ⟨embed, hnext⟩ := hnext
        have hrow := hknown row hread
        have hfits : (cleared row).Fits := fits_cleared hrow.fits
        simp only [serve, Table.upsert_of_checked (checked_cleared row) hfits, readAfter,
          wrote, if_true]
        apply hinv.move hcommand _ (fun _ => rfl) hknown
        · rw [get_put hrow.cleared.key]
          exact hrow.cleared
        · rw [hread]
          exact ⟨hclear ▸ List.mem_of_getElem? hcommand, hrow,
            Table.rows_put hrow.cleared.key⟩
        · rw [hnext]
          exact .replying _ embed fun _ => rfl
    | send embed _ hwritten hnext =>
        apply hinv.move hcommand _ id hknown hinv.current hinv.written
        dsimp only [serve]
        rw [hnext]
        exact .concluded _ _ rfl hwritten

/-- What the commands make of the row when the last of them is an accepted `set`. -/
theorem serialisable_of_overwrites (hmem : command ∈ commands)
    (hstored : command.overwrites guildId = some stored)
    (hrows : state.table.rows guildId = some stored) :
    Serialisable guildId commands table state := by
  refine ⟨commands.erase command ++ [command], ?_, ?_⟩
  · exact (List.perm_append_singleton _ _).trans (List.perm_cons_erase hmem).symm
  · rw [hrows, serial_append]
    exact (rows_exec_of_overwrites _ hstored).symm

/-- What they make of it when the last of them is a `clear`. -/
theorem rows_serial_clear (order : List Command) :
    (serial guildId table (order ++ [.setupClear])).rows guildId =
      some (cleared ((serial guildId table order).get guildId)) := by
  rw [serial_append]
  exact rows_exec_clear

theorem serialisable_of_clear (hmem : .setupClear ∈ commands)
    (hknown : Known guildId commands table row)
    (hrows : state.table.rows guildId = some (cleared row))
    (hlate : (∀ command ∈ commands, command.overwrites guildId = none) ∨
      ∃ command ∈ commands, ∃ stored ∈ command.overwrites guildId,
        kept row = kept stored) :
    Serialisable guildId commands table state := by
  have hperm := (List.perm_cons_erase hmem).symm
  rcases hlate with hnone | ⟨command, hcommand, stored, hstored, hkept⟩
  · refine ⟨commands.erase .setupClear ++ [.setupClear],
      (List.perm_append_singleton _ _).trans hperm, ?_⟩
    rw [hrows, rows_serial_clear]
    refine congrArg some (cleared_eq_of_kept (hknown.key.trans Table.guildId_get.symm) ?_)
    rw [kept_serial fun other hother => hnone other (List.mem_of_mem_erase hother)]
    rcases hknown.kept with hkept | ⟨command, hcommand, stored, hstored, -⟩
    · exact hkept
    · cases (hnone command hcommand).symm.trans hstored
  · have hother : command ∈ commands.erase .setupClear := by
      apply (List.mem_erase_of_ne _).mpr hcommand
      rintro rfl
      cases hstored
    refine ⟨((commands.erase .setupClear).erase command ++ [command]) ++ [.setupClear],
      ?_, ?_⟩
    · have hrest : ((commands.erase .setupClear).erase command ++ [command]).Perm
          (commands.erase .setupClear) :=
        (List.perm_append_singleton _ _).trans (List.perm_cons_erase hother).symm
      calc List.Perm (((commands.erase .setupClear).erase command ++ [command]) ++
              [Command.setupClear])
            (.setupClear :: ((commands.erase .setupClear).erase command ++ [command])) :=
          List.perm_append_singleton _ _
        List.Perm _ (.setupClear :: commands.erase .setupClear) := hrest.cons _
        List.Perm _ commands := hperm
    · rw [hrows, rows_serial_clear, serial_append]
      have hrow := rows_exec_of_overwrites
        (serial guildId table ((commands.erase .setupClear).erase command)) hstored
      rw [serial, serial, Table.get_of_rows hrow]
      exact congrArg some (cleared_eq_of_kept
        (hknown.key.trans (Command.of_overwrites hstored).2.2.symm) hkept)

/-- Concurrent commands come to what they come to in some order exactly when a `clear`
that writes last has not read before all that the accepted `set`s stored. -/
theorem serialisable_iff_readsLate (guildId : ℕ) (commands : List Command) (table : Table)
    (state : State)
    (hrun : Reaches step unrestricted (start guildId commands table) state)
    (hover : Over commands.length state) :
    Serialisable guildId commands table state ↔ ReadsLate guildId commands state := by
  have hinv : Inv guildId commands table state :=
    hrun.invariant inv_start fun _ _ _ h _ hstep => inv_step h hstep
  have hwritten := hinv.written
  constructor
  · rintro ⟨order, hperm, hrows⟩ invocation row hlast
    rw [hlast] at hwritten
    obtain ⟨-, -, hcleared⟩ := hwritten
    by_cases hset : ∃ command ∈ order, command.overwrites guildId ≠ none
    · right
      obtain ⟨command, hmem, stored, hstored, hkept⟩ := kept_serial_of_set table hset
      rw [Table.get_of_rows (hrows.symm.trans hcleared)] at hkept
      exact ⟨command, hperm.subset hmem, stored, hstored, hkept⟩
    · left
      push Not at hset
      exact fun command hmem => hset command (hperm.symm.subset hmem)
  · intro hlate
    match hlast : state.lastWrite with
    | none =>
        rw [hlast] at hwritten
        refine ⟨commands, .refl _, ?_⟩
        rw [serial_of_not_writes]
        · exact hwritten
        · intro command hmem hwrites
          obtain ⟨invocation, hcommand⟩ := List.getElem?_of_mem hmem
          obtain ⟨program, hrunning⟩ := hinv.present invocation command hcommand
          obtain ⟨asked, hasked, hstage⟩ := hinv.stages invocation program hrunning
          cases hasked.symm.trans hcommand
          have hended := hover invocation (List.getElem?_eq_some_iff.mp hcommand).1
          rw [hrunning] at hended
          have hsome := hstage.written_of_ended hended hwrites
          rw [hlast] at hsome
          cases hsome
    | some (_, none) =>
        rw [hlast] at hwritten
        obtain ⟨command, hmem, stored, hstored, hrows⟩ := hwritten
        exact serialisable_of_overwrites hmem hstored hrows
    | some (invocation, some row) =>
        rw [hlast] at hwritten
        obtain ⟨hmem, hknown, hrows⟩ := hwritten
        exact serialisable_of_clear hmem hknown hrows (hlate invocation row hlast)

end Runs

/-- Two days of retention, and a `clear`. -/
def twoDaysAndClear : List Command := [.setupSet "dm" none 48, .setupClear]

/-- The `clear` comes after the `set`. -/
theorem serialisable_after :
    ∃ state, Reaches step unrestricted (start 1 twoDaysAndClear unconfigured) state ∧
      Over 2 state ∧ Serialisable 1 twoDaysAndClear unconfigured state := by
  obtain ⟨state, hrun, hcheck⟩ := exists_reaches_of_replay step
    (start 1 twoDaysAndClear unconfigured) [0, 0, 1, 1, 1]
    (fun state => decide (Over 2 state ∧
      state.lastWrite = some (1, some ⟨1, "dm", none, none, none, 48⟩)))
    (by decide +kernel)
  obtain ⟨hover, hlast⟩ := of_decide_eq_true hcheck
  refine ⟨state, hrun, hover,
    (serialisable_iff_readsLate 1 twoDaysAndClear unconfigured state hrun hover).mpr ?_⟩
  intro invocation row hwrote
  cases hlast.symm.trans hwrote
  exact .inr ⟨_, List.mem_cons_self, ⟨1, "dm", none, none, none, 48⟩, by decide, rfl⟩

/-- The `set` falls between the `get` and the `upsert` of the `clear`. -/
theorem not_serialisable_between :
    ∃ state, Reaches step unrestricted (start 1 twoDaysAndClear unconfigured) state ∧
      Over 2 state ∧ ¬ Serialisable 1 twoDaysAndClear unconfigured state := by
  obtain ⟨state, hrun, hcheck⟩ := exists_reaches_of_replay step
    (start 1 twoDaysAndClear unconfigured) [1, 0, 0, 1, 1]
    (fun state => decide (Over 2 state ∧
      state.table.rows 1 = some ⟨1, "dm", none, none, none, 24⟩)) (by decide +kernel)
  obtain ⟨hover, hrows⟩ := of_decide_eq_true hcheck
  refine ⟨state, hrun, hover, ?_⟩
  rintro ⟨order, hperm, hserial⟩
  obtain ⟨command, hmem, stored, hstored, hkept⟩ := kept_serial_of_set unconfigured
    ⟨.setupSet "dm" none 48, hperm.symm.subset List.mem_cons_self,
      (by decide : (Command.setupSet "dm" none 48).overwrites 1 ≠ none)⟩
  rw [Table.get_of_rows (hserial.symm.trans hrows)] at hkept
  rcases List.mem_pair.mp (hperm.subset hmem) with rfl | rfl
  · cases hstored
    cases hkept
  · cases hstored

end DownloaderBot.SetupOverlap
