import DownloaderBot.Core.Calendar

/-!
# What the pipeline reads of Discord objects
-/

namespace DownloaderBot.Discord

/-- 2015-01-01, from which snowflakes count milliseconds. -/
def discordEpoch : Calendar.DateTime :=
  ⟨735598 * Calendar.microsPerDay, by decide⟩

structure Attachment where
  filename : String
  url : String
  size : Option ℕ
  contentType : Option String
  deriving DecidableEq, Repr

structure Message where
  id : ℕ
  authorId : ℕ
  createdAt : Calendar.DateTime
  attachments : List Attachment
  deriving DecidableEq, Repr

/-- `messageable`: the channel is a `discord.abc.Messageable`. -/
structure Channel where
  id : ℕ
  name : Option String
  messageable : Bool
  deriving DecidableEq, Repr

/-- The moment that the id of a message encodes, in microseconds. -/
def Message.timestamp (message : Message) : ℕ :=
  discordEpoch.micros + message.id / 2 ^ 22 * 1000

/-- The milliseconds since the epoch of snowflakes, as
`int(dt.timestamp() * 1000 - DISCORD_EPOCH)` converts a moment.  At whole seconds the
floats are exact. -/
structure SnowflakeClock where
  millis : Calendar.DateTime → ℤ
  exact : ∀ moment, moment.micros % 1000000 = 0 →
    millis moment * 1000 = (moment.micros : ℤ) - discordEpoch.micros

/-- `discord.utils.time_snowflake`. -/
def SnowflakeClock.timeSnowflake (clock : SnowflakeClock) (moment : Calendar.DateTime)
    (high : Bool) : ℤ :=
  clock.millis moment * 2 ^ 22 + if high then 2 ^ 22 - 1 else 0

/-- The conversion without rounding errors. -/
def flooringClock : SnowflakeClock where
  millis moment := ((moment.micros : ℤ) - discordEpoch.micros) / 1000
  exact moment hwhole := by
    have hepoch : discordEpoch.micros % 1000000 = 0 := rfl
    omega

/-- The message is strictly between the snowflakes of the bounds. -/
def Message.between (timeSnowflake : Calendar.DateTime → Bool → ℤ)
    (before after : Option Calendar.DateTime) (message : Message) : Bool :=
  (before.all fun moment => message.id < timeSnowflake moment false) &&
    after.all fun moment => timeSnowflake moment true < message.id

/-- `channel.history` over the messages of a channel, which are given oldest first: the
walk is newest first, or oldest first when `after` is given. -/
def channelHistory (timeSnowflake : Calendar.DateTime → Bool → ℤ)
    (messages : List Message) (before after : Option Calendar.DateTime) : List Message :=
  let visited := messages.filter (Message.between timeSnowflake before after)
  if after.isSome then visited else visited.reverse

section Between

variable {clock : SnowflakeClock} {message : Message} {after before : Calendar.DateTime}

theorem Message.between_iff :
    message.between clock.timeSnowflake (some before) (some after) = true ↔
      clock.millis after < (message.id / 2 ^ 22 : ℕ) ∧
        (message.id / 2 ^ 22 : ℕ) < clock.millis before := by
  simp only [Message.between, SnowflakeClock.timeSnowflake, Option.all_some,
    Bool.and_eq_true, decide_eq_true_eq, if_true, Bool.false_eq_true, if_false]
  omega

/-- At whole seconds the conversion keeps the order to a message. -/
theorem SnowflakeClock.lt_millis_iff (hwhole : before.micros % 1000000 = 0) :
    (message.id / 2 ^ 22 : ℕ) < clock.millis before ↔
      message.timestamp < before.micros := by
  have hexact := clock.exact before hwhole
  simp only [Message.timestamp]
  omega

theorem SnowflakeClock.millis_lt_iff (hwhole : after.micros % 1000000 = 0) :
    clock.millis after < (message.id / 2 ^ 22 : ℕ) ↔
      after.micros < message.timestamp := by
  have hexact := clock.exact after hwhole
  simp only [Message.timestamp]
  omega

theorem mem_channelHistory_iff {messages : List Message}
    {timeSnowflake : Calendar.DateTime → Bool → ℤ} {before after : Option Calendar.DateTime} :
    message ∈ channelHistory timeSnowflake messages before after ↔
      message ∈ messages ∧ message.between timeSnowflake before after = true := by
  simp only [channelHistory]
  split
  · exact List.mem_filter
  · rw [List.mem_reverse]
    exact List.mem_filter

end Between

end DownloaderBot.Discord
