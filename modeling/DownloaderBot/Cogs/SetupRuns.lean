import DownloaderBot.Cogs.Setup

/-!
# `/setup` commands one after another

What any sequence of invocations by anyone keeps of the table.
-/

namespace DownloaderBot.SetupCog

open DownloaderBot.GuildTable
open DownloaderBot.JobControl (Caller)
open DownloaderBot.Program

/-- The outcomes of the invocations, and the table they leave. -/
def execAll : Table → List (Caller × Command) → List (Except DbError Unit) × Table
  | table, [] => ([], table)
  | table, (caller, command) :: invocations =>
      let first := (invoke caller command).exec serve table
      let later := execAll first.2 invocations
      (first.1 :: later.1, later.2)

/-- The columns that no command configures. -/
def mediaPolicy (row : Row) : Option (List String) × Option ℤ :=
  (row.allowedMediaTypes, row.maxArchiveSizeBytes)

/-- Every row is as the schema wants it and no `upsert` was refused by a `CHECK`, the
guilds that nobody configures keep their rows, and all guilds their media policies. -/
structure Frames (table : Table) (invocations : List (Caller × Command)) : Prop where
  checked : ∀ guildId row, (execAll table invocations).2.rows guildId = some row →
    (row.deliveryMode = "dm" ∨ row.deliveryMode = "channel") ∧
      (row.deliveryMode = "channel" → row.resultsChannelId.isSome = true)
  unrefused : .error .checkViolation ∉ (execAll table invocations).1
  untouched : ∀ guildId,
    (∀ invocation ∈ invocations, isGuildOwner invocation.1 ≠ .ok guildId) →
    (execAll table invocations).2.rows guildId = table.rows guildId
  policy : ∀ guildId, mediaPolicy ((execAll table invocations).2.get guildId) =
    mediaPolicy (table.get guildId)

/-- The invocation is an accepted `set` on the guild. -/
def SetsOn (guildId : ℕ) (invocation : Caller × Command) : Prop :=
  isGuildOwner invocation.1 = .ok guildId ∧
    (invocation.2.overwrites guildId).isSome = true

section Invoke

variable {table : Table} {caller : Caller} {command : Command} {guildId : ℕ}

theorem get_congr {other : Table} (hrows : table.rows guildId = other.rows guildId) :
    table.get guildId = other.get guildId := by
  rw [Table.get, Table.get, hrows]

theorem get_put {row : Row} {hchecked : row.Checked} {hfits : row.Fits}
    (hkey : row.guildId = guildId) :
    (table.put row hchecked hfits).get guildId = row :=
  Table.get_of_rows (Table.rows_put hkey)

theorem mediaPolicy_of_overwrites {row : Row}
    (hrow : command.overwrites guildId = some row) : mediaPolicy row = (none, none) := by
  cases command with
  | setupSet deliveryMode resultsChannel retentionHours =>
      obtain ⟨-, hrow⟩ := Option.ite_none_right_eq_some.mp hrow
      cases hrow
      rfl
  | setupShow => cases hrow
  | setupClear => cases hrow

/-- A command of the owner: only the guild's row changes, and its media policy only by an
accepted `set`. -/
theorem run_spec (table : Table) (guildId : ℕ) (command : Command) :
    ∃ outcome after, (command.run guildId).exec serve table = (outcome, after) ∧
      outcome ≠ .error .checkViolation ∧
      (∀ other, other ≠ guildId → after.rows other = table.rows other) ∧
      mediaPolicy (after.get guildId) =
        if (command.overwrites guildId).isSome then (none, none)
        else mediaPolicy (table.get guildId) := by
  cases hoverwrites : command.overwrites guildId with
  | some row =>
      have hkey := (Command.of_overwrites hoverwrites).2.2
      refine ⟨_, _, exec_run_of_overwrites hoverwrites, nofun, ?_, ?_⟩
      · rintro other hne
        exact Table.rows_put_of_ne (hkey ▸ hne)
      · rw [get_put hkey]
        exact mediaPolicy_of_overwrites hoverwrites
  | none =>
      cases command with
      | setupSet deliveryMode resultsChannel retentionHours =>
          obtain ⟨outcome, hexec, hunrefused⟩ :=
            exec_set_of_not_overwrites table hoverwrites
          exact ⟨outcome, table, hexec, hunrefused, fun _ _ => rfl, rfl⟩
      | setupShow => exact ⟨_, _, exec_setupShow, nofun, fun _ _ => rfl, rfl⟩
      | setupClear =>
          have hkey : (cleared (table.get guildId)).guildId = guildId := Table.guildId_get
          refine ⟨_, _, exec_setupClear, nofun, ?_, ?_⟩
          · rintro other hne
            exact Table.rows_put_of_ne (hkey.symm ▸ hne)
          · rw [get_put hkey]
            rfl

theorem invoke_of_owner (howner : isGuildOwner caller = .ok guildId) :
    invoke caller command = command.run guildId := by
  rw [invoke, howner]

/-- Any invocation. -/
theorem invoke_spec (table : Table) (invocation : Caller × Command) :
    ∃ outcome after, (invoke invocation.1 invocation.2).exec serve table =
        (outcome, after) ∧
      outcome ≠ .error .checkViolation ∧
      (∀ guildId, isGuildOwner invocation.1 ≠ .ok guildId →
        after.rows guildId = table.rows guildId) ∧
      ∀ guildId, (SetsOn guildId invocation →
          mediaPolicy (after.get guildId) = (none, none)) ∧
        (¬ SetsOn guildId invocation →
          mediaPolicy (after.get guildId) = mediaPolicy (table.get guildId)) := by
  obtain ⟨caller, command⟩ := invocation
  cases howner : isGuildOwner caller with
  | error failure =>
      refine ⟨.ok (), table, ?_, nofun, fun _ _ => rfl, fun guildId => ⟨?_, fun _ => rfl⟩⟩
      · rw [invoke, howner]
        exact Prog.exec_perform _ _
      · rintro ⟨hother, -⟩
        cases howner.symm.trans hother
  | ok owned =>
      obtain ⟨outcome, after, hexec, hunrefused, hrows, hpolicy⟩ :=
        run_spec table owned command
      refine ⟨outcome, after, ?_, hunrefused, ?_, fun guildId => ⟨?_, ?_⟩⟩
      · rw [invoke_of_owner howner]
        exact hexec
      · intro guildId hne
        exact hrows guildId fun heq => hne (heq ▸ rfl)
      · rintro ⟨hother, hsome⟩
        cases howner.symm.trans hother
        rw [hpolicy, if_pos hsome]
      · intro hnot
        rcases eq_or_ne guildId owned with rfl | hne
        · rw [hpolicy, if_neg fun hsome => hnot ⟨howner, hsome⟩]
        · rw [get_congr (hrows guildId hne)]

end Invoke

section Sequence

variable {table : Table} {guildId : ℕ} {invocations : List (Caller × Command)}

theorem not_checkViolation_mem_execAll :
    .error .checkViolation ∉ (execAll table invocations).1 := by
  induction invocations generalizing table with
  | nil => exact List.not_mem_nil
  | cons invocation invocations ih =>
      obtain ⟨outcome, after, hexec, hunrefused, -⟩ := invoke_spec table invocation
      rw [execAll, hexec]
      exact List.not_mem_cons_of_ne_of_not_mem hunrefused.symm ih

theorem rows_execAll
    (huntouched : ∀ invocation ∈ invocations, isGuildOwner invocation.1 ≠ .ok guildId) :
    (execAll table invocations).2.rows guildId = table.rows guildId := by
  induction invocations generalizing table with
  | nil => rfl
  | cons invocation invocations ih =>
      obtain ⟨hfirst, hrest⟩ := List.forall_mem_cons.mp huntouched
      obtain ⟨outcome, after, hexec, -, hrows, -⟩ := invoke_spec table invocation
      rw [execAll, hexec]
      exact (ih hrest).trans (hrows guildId hfirst)

theorem policy_execAll_of_not_set
    (hnone : ∀ invocation ∈ invocations, ¬ SetsOn guildId invocation) :
    mediaPolicy ((execAll table invocations).2.get guildId) =
      mediaPolicy (table.get guildId) := by
  induction invocations generalizing table with
  | nil => rfl
  | cons invocation invocations ih =>
      obtain ⟨hfirst, hrest⟩ := List.forall_mem_cons.mp hnone
      obtain ⟨outcome, after, hexec, -, -, hpolicy⟩ := invoke_spec table invocation
      rw [execAll, hexec]
      exact (ih hrest).trans ((hpolicy guildId).2 hfirst)

/-- An accepted `set` wipes the media policy for good. -/
theorem policy_execAll_of_wiped (hwiped : mediaPolicy (table.get guildId) = (none, none)) :
    mediaPolicy ((execAll table invocations).2.get guildId) = (none, none) := by
  induction invocations generalizing table with
  | nil => exact hwiped
  | cons invocation invocations ih =>
      obtain ⟨outcome, after, hexec, -, -, hpolicy⟩ := invoke_spec table invocation
      rw [execAll, hexec]
      apply ih
      by_cases hsets : SetsOn guildId invocation
      · exact (hpolicy guildId).1 hsets
      · exact ((hpolicy guildId).2 hsets).trans hwiped

theorem policy_execAll_of_set {invocation : Caller × Command}
    (hmem : invocation ∈ invocations) (hsets : SetsOn guildId invocation) :
    mediaPolicy ((execAll table invocations).2.get guildId) = (none, none) := by
  induction invocations generalizing table with
  | nil => cases hmem
  | cons first invocations ih =>
      obtain ⟨outcome, after, hexec, -, -, hpolicy⟩ := invoke_spec table first
      rw [execAll, hexec]
      rcases List.mem_cons.mp hmem with rfl | hrest
      · exact policy_execAll_of_wiped ((hpolicy guildId).1 hsets)
      · exact ih hrest

end Sequence

/-- The frame holds exactly when the guilds with an accepted `set` had no media policy to
lose. -/
theorem frames_iff_policyless (table : Table) (invocations : List (Caller × Command)) :
    Frames table invocations ↔
      ∀ guildId, ∀ invocation ∈ invocations, SetsOn guildId invocation →
        mediaPolicy (table.get guildId) = (none, none) := by
  constructor
  · intro hframes guildId invocation hmem hsets
    rw [← hframes.policy guildId]
    exact policy_execAll_of_set hmem hsets
  · intro hpolicyless
    refine ⟨(execAll table invocations).2.checked, not_checkViolation_mem_execAll,
      fun _ => rows_execAll, fun guildId => ?_⟩
    by_cases hnone : ∀ invocation ∈ invocations, ¬ SetsOn guildId invocation
    · exact policy_execAll_of_not_set hnone
    · push Not at hnone
      obtain ⟨invocation, hmem, hsets⟩ := hnone
      rw [hpolicyless guildId invocation hmem hsets]
      exact policy_execAll_of_set hmem hsets

/-- No guild has been configured. -/
def unconfigured : Table := ⟨fun _ => none, nofun, nofun, nofun⟩

/-- The owner of the guild `1`. -/
def owner : Caller := ⟨7, false, some ⟨1, 7⟩⟩

/-- A guild that allows images only loses its policy to a `set` of the defaults. -/
theorem not_frames_set :
    ¬ Frames (unconfigured.put ⟨1, "dm", none, some ["image/png"], none, 24⟩ (by decide)
      (by decide)) [(owner, .setupSet "dm" none 24)] := by
  intro hframes
  exact absurd (hframes.policy 1) (by decide +kernel)

end DownloaderBot.SetupCog
