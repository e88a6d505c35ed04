import DownloaderBot.Db.GuildSettings
import Mathlib.Logic.Function.Basic

/-!
# The table of the guild settings

The rows as the schema stores them, with `delivery_mode` as text, and the two queries of
`GuildSettingsRepo`.  A table keeps what the schema demands of its rows.  The ids of
Discord fit their columns, and the time stamps are left out.
-/

namespace DownloaderBot.GuildTable

/-- The settings of a guild before the schema has seen them. -/
structure Row where
  guildId : ℕ
  deliveryMode : String := "dm"
  resultsChannelId : Option ℕ := none
  allowedMediaTypes : Option (List String) := none
  maxArchiveSizeBytes : Option ℤ := none
  retentionHours : ℤ := 24
  deriving DecidableEq, Repr

namespace Row

/-- The two `CHECK`s. -/
def Checked (row : Row) : Prop :=
  (row.deliveryMode = "dm" ∨ row.deliveryMode = "channel") ∧
    (row.deliveryMode = "channel" → row.resultsChannelId.isSome = true)

instance (row : Row) : Decidable row.Checked := inferInstanceAs (Decidable (_ ∧ _))

/-- `retention_hours` is an `INTEGER`. -/
def Fits (row : Row) : Prop :=
  -2147483648 ≤ row.retentionHours ∧ row.retentionHours ≤ 2147483647

instance (row : Row) : Decidable row.Fits := inferInstanceAs (Decidable (_ ∧ _))

/-- The settings as the bot and the worker read them. -/
def settings (row : Row) : GuildSettings where
  guildId := row.guildId
  deliveryMode := if row.deliveryMode = "channel" then .channel else .dm
  resultsChannelId := row.resultsChannelId
  allowedMediaTypes := row.allowedMediaTypes
  maxArchiveSizeBytes := row.maxArchiveSizeBytes
  retentionHours := row.retentionHours

end Row

/-- What holds of the rows and of a new one holds of the rows with the new one. -/
theorem forall_rows_update {rows : ℕ → Option Row} {holds : ℕ → Row → Prop} {row : Row}
    (hrow : holds row.guildId row)
    (hrows : ∀ guildId other, rows guildId = some other → holds guildId other) :
    ∀ guildId other, Function.update rows row.guildId (some row) guildId = some other →
      holds guildId other := by
  intro guildId other hother
  rcases eq_or_ne guildId row.guildId with rfl | hne
  · rw [Function.update_self] at hother
    cases hother
    exact hrow
  · rw [Function.update_of_ne hne] at hother
    exact hrows guildId other hother

/-- The rows by their guild. -/
structure Table where
  rows : ℕ → Option Row
  keyed : ∀ guildId row, rows guildId = some row → row.guildId = guildId
  checked : ∀ guildId row, rows guildId = some row → row.Checked
  fits : ∀ guildId row, rows guildId = some row → row.Fits

inductive DbError
  | dataError
  | checkViolation
  deriving DecidableEq, Repr

namespace Table

variable (table : Table)

/-- `GuildSettingsRepo.get`. -/
def get (guildId : ℕ) : Row := (table.rows guildId).getD { guildId := guildId }

/-- The row replaces that of its guild. -/
def put (row : Row) (hchecked : row.Checked) (hfits : row.Fits) : Table where
  rows := Function.update table.rows row.guildId (some row)
  keyed := forall_rows_update rfl table.keyed
  checked := forall_rows_update hchecked table.checked
  fits := forall_rows_update hfits table.fits

/-- `GuildSettingsRepo.upsert`: the driver encodes the values before the schema checks
the row. -/
def upsert (row : Row) : Except DbError Table :=
  if hfits : row.Fits then
    if hchecked : row.Checked then .ok (table.put row hchecked hfits)
    else .error .checkViolation
  else .error .dataError

variable {table} {row : Row} {guildId : ℕ}

theorem get_of_rows {stored : Option Row} (hrows : table.rows guildId = stored) :
    table.get guildId = stored.getD { guildId := guildId } := by
  rw [get, hrows]

theorem guildId_get : (table.get guildId).guildId = guildId := by
  cases hrows : table.rows guildId with
  | none => rw [get_of_rows hrows, Option.getD_none]
  | some row => rw [get_of_rows hrows, Option.getD_some, table.keyed guildId row hrows]

theorem fits_get : (table.get guildId).Fits := by
  cases hrows : table.rows guildId with
  | none =>
      rw [get_of_rows hrows]
      exact (by decide : ({ guildId := 0 } : Row).Fits)
  | some row =>
      rw [get_of_rows hrows]
      exact table.fits guildId row hrows

theorem rows_put {hchecked : row.Checked} {hfits : row.Fits}
    (hkey : row.guildId = guildId) :
    (table.put row hchecked hfits).rows guildId = some row := by
  subst hkey
  exact Function.update_self ..

theorem rows_put_of_ne {hchecked : row.Checked} {hfits : row.Fits}
    (hne : guildId ≠ row.guildId) :
    (table.put row hchecked hfits).rows guildId = table.rows guildId :=
  Function.update_of_ne hne ..

theorem upsert_of_checked (hchecked : row.Checked) (hfits : row.Fits) :
    table.upsert row = .ok (table.put row hchecked hfits) := by
  rw [upsert, dif_pos hfits, dif_pos hchecked]

theorem upsert_of_not_fits (hfits : ¬ row.Fits) : table.upsert row = .error .dataError := by
  rw [upsert, dif_neg hfits]

end Table

end DownloaderBot.GuildTable
