import DownloaderBot.Download.Jobs

/-!
# The decisions of the job-control commands

Who may act on a job, and when `/cancel` refunds.  Both are functions of what
the commands have read.
-/

namespace DownloaderBot.JobControl

open DownloaderBot.Jobs

/-- The guild a command is invoked in. -/
structure GuildContext where
  id : ℕ
  ownerId : ℕ
  deriving DecidableEq, Repr

/-- Who invokes a command, and where. -/
structure Caller where
  authorId : ℕ
  isBotOwner : Bool
  guild : Option GuildContext
  deriving DecidableEq, Repr

/-- `_can_act_on`: the requester, the bot owner, the owner of the job's guild. -/
def canActOn (caller : Caller) (jobMeta : JobMeta) : Bool :=
  if jobMeta.ownerUserId = caller.authorId then true
  else if caller.isBotOwner then true
  else
    match caller.guild, jobMeta.guildId with
    | some guild, some guildId =>
        guildId = guild.id && caller.authorId = guild.ownerId
    | _, _ => false

/-- The token `/cancel` returns, as the guild it goes to: the enqueue consumed
one, no result is stored and no progress either. -/
def refundDue (jobMeta : JobMeta) (ready progress : Bool) : Option ℕ :=
  if jobMeta.enqueueConsumedToken && !ready && !progress then jobMeta.guildId
  else none

/-- The meta lets a `/cancel` refund at all. -/
def Refundable (jobMeta : JobMeta) : Prop :=
  jobMeta.enqueueConsumedToken = true ∧ jobMeta.guildId.isSome = true

instance (jobMeta : JobMeta) : Decidable (Refundable jobMeta) :=
  inferInstanceAs (Decidable (_ ∧ _))

theorem refundDue_eq_some {jobMeta : JobMeta} {ready progress : Bool}
    {guildId : ℕ} (hdue : refundDue jobMeta ready progress = some guildId) :
    Refundable jobMeta ∧ ready = false ∧ progress = false := by
  rw [refundDue] at hdue
  split at hdue
  case isTrue hcond =>
    simp only [Bool.and_eq_true, Bool.not_eq_true'] at hcond
    exact ⟨⟨hcond.1.1, by rw [hdue]; rfl⟩, hcond.1.2, hcond.2⟩
  case isFalse => cases hdue

end DownloaderBot.JobControl
