import Mathlib.Data.Nat.Notation
import Mathlib.Data.Int.Notation

/-!
# Per-guild settings
-/

namespace DownloaderBot

inductive DeliveryMode
  | dm
  | channel
  deriving DecidableEq, Repr

/-- The settings of a guild; the defaults are those of an unconfigured guild.
The two time stamps are left out: nothing reads them. -/
structure GuildSettings where
  guildId : ℕ
  deliveryMode : DeliveryMode := .dm
  resultsChannelId : Option ℕ := none
  allowedMediaTypes : Option (List String) := none
  maxArchiveSizeBytes : Option ℤ := none
  retentionHours : ℤ := 24
  deriving DecidableEq, Repr

/-- `GuildSettingsRepo.get`, on the guild's row. -/
def GuildSettings.ofRow (guildId : ℕ) (row : Option GuildSettings) :
    GuildSettings :=
  row.getD { guildId := guildId }

end DownloaderBot
