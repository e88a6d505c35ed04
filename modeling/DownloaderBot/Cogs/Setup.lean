import DownloaderBot.Cogs.JobControl
import DownloaderBot.Core.Program
import DownloaderBot.Db.GuildTable
import DownloaderBot.Embeds

/-!
# The `/setup` command

`set`, `show` and `clear` as programs over their calls, the table that serves them, and
what each command comes to.
-/

namespace DownloaderBot.SetupCog

open DownloaderBot.Embeds
open DownloaderBot.GuildTable
open DownloaderBot.JobControl (Caller)
open DownloaderBot.Program

inductive Call
  | get (guildId : ℕ)
  | upsert (row : Row)
  | send (embed : Embed)
  deriving DecidableEq, Repr

@[reducible]
def Reply : Call → Type
  | .get _ => Row
  | _ => Unit

abbrev Cog := Prog Reply DbError

/-- One call of the cog. -/
abbrev await (request : Call) : Cog (Reply request) := Prog.perform request

/-! ## Who may configure -/

inductive CheckFailure
  | noPrivateMessage
  | notGuildOwner
  deriving DecidableEq, Repr

/-- `_is_guild_owner`: the guild that the caller may configure. -/
def isGuildOwner (caller : Caller) : Except CheckFailure ℕ :=
  match caller.guild with
  | none => .error .noPrivateMessage
  | some guild =>
      if caller.authorId ≠ guild.ownerId then .error .notGuildOwner else .ok guild.id

/-- `cog_command_error`. -/
def cogCommandError : CheckFailure → Embed
  | .notGuildOwner =>
      error "Server owner only" (some "Only the server owner can configure this bot.")
  | .noPrivateMessage =>
      error "Server only" (some "This command can only be used in a server.")

/-! ## The commands -/

def validModes : List String := ["dm", "channel"]

def invalidMode : Embed :=
  error "Invalid delivery mode" (some ("`delivery_mode` must be one of: " ++
    ", ".intercalate (validModes.map fun mode => "`" ++ mode ++ "`") ++ "."))

def missingChannel : Embed :=
  error "Missing channel" (some "`channel` mode requires a `results_channel` argument.")

/-- The lines that `set` and `show` print. -/
def settingsLines (deliveryMode channelStr : String) (retentionHours : ℤ) : String :=
  "**Mode:** `" ++ deliveryMode ++ "`\n**Channel:** " ++ channelStr ++
    "\n**Retention:** `" ++ toString retentionHours ++ "h`"

def channelMention : Option ℕ → String
  | some channelId => "<#" ++ toString channelId ++ ">"
  | none => "_not set_"

/-- What `set` has stored: every other column gets its default. -/
def setRow (guildId : ℕ) (deliveryMode : String) (resultsChannel : Option ℕ)
    (retentionHours : ℤ) : Row :=
  { guildId := guildId
    deliveryMode := deliveryMode
    resultsChannelId := resultsChannel
    retentionHours := retentionHours }

def setupSet (guildId : ℕ) (deliveryMode : String) (resultsChannel : Option ℕ)
    (retentionHours : ℤ) : Cog Unit :=
  if deliveryMode ∉ validModes then await (.send invalidMode)
  else if deliveryMode = "channel" ∧ resultsChannel = none then
    await (.send missingChannel)
  else do
    await (.upsert (setRow guildId deliveryMode resultsChannel retentionHours))
    await (.send (success "Settings updated" (some
      (settingsLines deliveryMode (channelMention resultsChannel) retentionHours))))

def setupShow (guildId : ℕ) : Cog Unit := do
  let settings ← await (.get guildId)
  await (.send (info "Delivery settings" (some (settingsLines settings.deliveryMode
    (channelMention settings.resultsChannelId) settings.retentionHours))))

/-- What `clear` makes of the row it has read. -/
def cleared (existing : Row) : Row :=
  { existing with deliveryMode := "dm", resultsChannelId := none }

/-- What `clear` goes on with. -/
def replaceCleared (existing : Row) : Cog Unit := do
  await (.upsert (cleared existing))
  await (.send (success "Settings cleared"
    (some "Delivery mode reset to `dm` and results channel cleared.")))

def setupClear (guildId : ℕ) : Cog Unit := do
  let existing ← await (.get guildId)
  replaceCleared existing

inductive Command
  | setupSet (deliveryMode : String) (resultsChannel : Option ℕ) (retentionHours : ℤ)
  | setupShow
  | setupClear
  deriving DecidableEq, Repr

def Command.run (guildId : ℕ) : Command → Cog Unit
  | .setupSet deliveryMode resultsChannel retentionHours =>
      SetupCog.setupSet guildId deliveryMode resultsChannel retentionHours
  | .setupShow => SetupCog.setupShow guildId
  | .setupClear => SetupCog.setupClear guildId

/-- An invocation by anyone.  The checks stand at the group; `discord.py` runs them before
any of its subcommands. -/
def invoke (caller : Caller) (command : Command) : Cog Unit :=
  match isGuildOwner caller with
  | .error failure => await (.send (cogCommandError failure))
  | .ok guildId => command.run guildId

/-- The database serves a call. -/
def serve (table : Table) : (request : Call) → Except DbError (Reply request) × Table
  | .get guildId => (.ok (table.get guildId), table)
  | .upsert row =>
      match table.upsert row with
      | .ok after => (.ok (), after)
      | .error refusal => (.error refusal, table)
  | .send _ => (.ok (), table)

/-! ## What the commands come to -/

/-- The row that an accepted `set` stores. -/
def Command.overwrites (guildId : ℕ) : Command → Option Row
  | .setupSet deliveryMode resultsChannel retentionHours =>
      let row := setRow guildId deliveryMode resultsChannel retentionHours
      if row.Checked ∧ row.Fits then some row else none
  | .setupShow | .setupClear => none

theorem Command.of_overwrites {guildId : ℕ} {command : Command} {row : Row}
    (hrow : command.overwrites guildId = some row) :
    row.Checked ∧ row.Fits ∧ row.guildId = guildId := by
  cases command with
  | setupSet deliveryMode resultsChannel retentionHours =>
      obtain ⟨⟨hchecked, hfits⟩, hrow⟩ := Option.ite_none_right_eq_some.mp hrow
      cases hrow
      exact ⟨hchecked, hfits, rfl⟩
  | setupShow => cases hrow
  | setupClear => cases hrow

/-- The two validations of `set` are the `CHECK`s of the schema. -/
theorem checked_setRow {guildId : ℕ} {deliveryMode : String} {resultsChannel : Option ℕ}
    {retentionHours : ℤ} :
    (setRow guildId deliveryMode resultsChannel retentionHours).Checked ↔
      deliveryMode ∈ validModes ∧ ¬ (deliveryMode = "channel" ∧ resultsChannel = none) := by
  simp only [Row.Checked, setRow, validModes, List.mem_cons, List.not_mem_nil, or_false,
    not_and, Option.isSome_iff_ne_none]

theorem checked_cleared (existing : Row) : (cleared existing).Checked :=
  ⟨.inl rfl, fun hchannel => absurd (show "dm" = "channel" from hchannel) (by decide)⟩

theorem fits_cleared {existing : Row} (hfits : existing.Fits) : (cleared existing).Fits :=
  hfits

section Exec

variable {table : Table} {guildId : ℕ}

theorem exec_upsert_of_checked (table : Table) {row : Row} (hchecked : row.Checked)
    (hfits : row.Fits) :
    (await (.upsert row)).exec serve table =
      (.ok (), table.put row hchecked hfits) := by
  rw [Prog.exec_perform, serve, Table.upsert_of_checked hchecked hfits]

/-- An accepted `set` overwrites the row. -/
theorem exec_run_of_overwrites {command : Command} {row : Row}
    (hrow : command.overwrites guildId = some row) :
    (command.run guildId).exec serve table =
      (.ok (), table.put row (Command.of_overwrites hrow).1
        (Command.of_overwrites hrow).2.1) := by
  cases command with
  | setupSet deliveryMode resultsChannel retentionHours =>
      obtain ⟨⟨hchecked, hfits⟩, hrow⟩ := Option.ite_none_right_eq_some.mp hrow
      cases hrow
      obtain ⟨hvalid, hchannel⟩ := checked_setRow.mp hchecked
      simp only [Command.run, setupSet, not_not.mpr hvalid, hchannel, if_false]
      exact (Prog.exec_bind_of_ok (exec_upsert_of_checked table hchecked hfits)).trans
        (Prog.exec_perform _ _)
  | setupShow => cases hrow
  | setupClear => cases hrow

/-- A `set` that is not accepted does nothing, be it refused by the command or by the
driver; no refusal is left to the `CHECK`s. -/
theorem exec_set_of_not_overwrites (table : Table) {deliveryMode : String}
    {resultsChannel : Option ℕ} {retentionHours : ℤ}
    (hnone : (Command.setupSet deliveryMode resultsChannel retentionHours).overwrites
      guildId = none) :
    ∃ outcome, ((Command.setupSet deliveryMode resultsChannel retentionHours).run
      guildId).exec serve table = (outcome, table) ∧ outcome ≠ .error .checkViolation := by
  have hnot : ¬ ((setRow guildId deliveryMode resultsChannel retentionHours).Checked ∧
      (setRow guildId deliveryMode resultsChannel retentionHours).Fits) := by
    intro hgood
    simp [Command.overwrites, hgood] at hnone
  simp only [Command.run, setupSet]
  split
  · exact ⟨.ok (), Prog.exec_perform _ _, nofun⟩
  · split
    · exact ⟨.ok (), Prog.exec_perform _ _, nofun⟩
    case isFalse hvalid hchannel =>
      have hchecked : (setRow guildId deliveryMode resultsChannel retentionHours).Checked :=
        checked_setRow.mpr ⟨not_not.mp hvalid, hchannel⟩
      refine ⟨.error .dataError, Prog.exec_bind_of_error ?_, nofun⟩
      rw [Prog.exec_perform, serve, Table.upsert_of_not_fits fun hfits => ?_]
      exact hnot ⟨hchecked, hfits⟩

theorem exec_setupShow : (setupShow guildId).exec serve table = (.ok (), table) :=
  (Prog.exec_bind_of_ok (Prog.exec_perform _ _)).trans (Prog.exec_perform _ _)

/-- `clear` keeps what it does not mean to change. -/
theorem exec_setupClear :
    (setupClear guildId).exec serve table =
      (.ok (), table.put (cleared (table.get guildId)) (checked_cleared _)
        (fits_cleared Table.fits_get)) := by
  have hupsert := exec_upsert_of_checked table
    (checked_cleared (table.get guildId)) (fits_cleared Table.fits_get)
  have hreplace : (replaceCleared (table.get guildId)).exec serve table =
      (.ok (), table.put (cleared (table.get guildId)) (checked_cleared _)
        (fits_cleared Table.fits_get)) :=
    (Prog.exec_bind_of_ok hupsert).trans (Prog.exec_perform _ _)
  exact (Prog.exec_bind_of_ok (Prog.exec_perform _ _)).trans hreplace

end Exec

end DownloaderBot.SetupCog
