import DownloaderBot.Cogs.Download

/-!
# What a failing `/download` leaves behind

The command against a bucket store, a broker, the settings and the job index, each of
which does its part or raises without effect.
-/

namespace DownloaderBot.DownloadCog

open DownloaderBot.Embeds
open DownloaderBot.ExpiringStore (Cell fetch)
open DownloaderBot.JobControl
open DownloaderBot.Jobs (Index)
open DownloaderBot.Program
open DownloaderBot.Ratelimit

structure World where
  buckets : ℕ → Option (Cell Bucket ℚ)
  queue : List Tasks.Arguments
  index : Index
  replies : List (Embed × Bool)

/-- What becomes of the calls: `kiq` is the id of the published task, `settings` the
row that is read; `none` where the call raises.  `now` is the reading of `acquire`. -/
structure Services where
  limits : Limits
  now : ℚ
  acquireRaises : Bool
  kiq : Option String
  settings : Option (Option GuildSettings)
  recordRaises : Bool
  stamp : ℚ

/-- When the key that `acquire` writes expires. -/
def Services.expiry (services : Services) : ℚ :=
  services.now + ttlSeconds services.limits.capacity services.limits.refillPerHour

def Services.written (services : Services) (bucket : Bucket) : Cell Bucket ℚ :=
  ⟨bucket, some services.expiry⟩

/-- A transaction that Redis rejects raises. -/
def Services.serve (services : Services) (world : World) :
    (request : Call) → Except Exn (Reply request) × World
  | .defer _ => (.ok (), world)
  | .send embed ephemeral =>
      (.ok (), { world with replies := world.replies ++ [(embed, ephemeral)] })
  | .acquire guildId =>
      if services.acquireRaises then (.error .other, world)
      else
        match acquire services.limits.capacity services.limits.refillPerHour
            (fetch services.now (world.buckets guildId)) services.now with
        | .ok (bucket, verdict) =>
            (.ok verdict, { world with
              buckets := Function.update world.buckets guildId
                (some (services.written bucket)) })
        | .error _ => (.error .other, world)
  | .kiq request =>
      match services.kiq with
      | some taskId =>
          (.ok taskId, { world with queue := world.queue ++ [request.arguments taskId] })
      | none => (.error .other, world)
  | .getSettings guildId =>
      match services.settings with
      | some row => (.ok (.ofRow guildId row), world)
      | none => (.error .other, world)
  | .recordJob taskId jobMeta ttlSeconds =>
      if services.recordRaises then (.error .other, world)
      else
        let (index, outcome) := Jobs.recordJob world.index services.now services.stamp
          taskId jobMeta ttlSeconds
        (outcome.mapError fun _ => .other, { world with index := index })

/-- The invocation of the command. -/
def invoke (services : Services) (clock : Clock) (context : Context) (options : Options)
    (world : World) : World :=
  ((download clock context options).exec services.serve world).2

/-! ## All or nothing -/

/-- The guild whose bucket the caller has to pay from. -/
def payingGuild (caller : Caller) : Option ℕ :=
  match caller.guild with
  | none => none
  | some guild => if caller.authorId = guild.ownerId then none else some guild.id

/-- What `acquire` would compute. -/
def balanceAt (limits : Limits) (key : Option (Cell Bucket ℚ)) (now : ℚ) : ℚ :=
  limits.balance (fetch now key) now

/-- No job, and no balance other than it would be without the command. -/
structure Nothing (services : Services) (before after : World) : Prop where
  queue : after.queue = before.queue
  balance : ∀ guildId later, services.now ≤ later →
    balanceAt services.limits (after.buckets guildId) later =
      balanceAt services.limits (before.buckets guildId) later

/-- One job, paid with one token where one is due, and acknowledged. -/
structure All (services : Services) (context : Context) (options : Options)
    (before after : World) : Prop where
  queued : ∃ taskId, after.queue = before.queue ++
      [(enqueueOf context options).arguments taskId] ∧
    after.replies = before.replies ++ [(jobEnqueued taskId options.dmMe, options.dmMe)]
  charged : ∀ guildId, payingGuild context.caller = some guildId →
    balanceAt services.limits (after.buckets guildId) services.now =
      balanceAt services.limits (before.buckets guildId) services.now - 1
  spared : ∀ guildId, payingGuild context.caller ≠ some guildId →
    after.buckets guildId = before.buckets guildId

def AllOrNothing (services : Services) (context : Context) (options : Options)
    (before after : World) : Prop :=
  Nothing services before after ∨ All services context options before after

/-- How far a request gets before anything is published. -/
inductive Admission
  | turnedAway
  | denied (guildId : ℕ)
  | admitted (consumedToken : Bool)
  deriving DecidableEq, Repr

/-- Turned away: rejected, or the bucket cannot be asked. -/
def admission (services : Services) (context : Context) (options : Options)
    (world : World) : Admission :=
  if rejection context options ≠ .ok none then .turnedAway
  else
    match payingGuild context.caller with
    | none => .admitted false
    | some guildId =>
        if services.acquireRaises then .turnedAway
        else if 1 ≤ balanceAt services.limits (world.buckets guildId) services.now then
          .admitted true
        else .denied guildId

/-- When the first of the two keys expires, the stored one and the one that `acquire`
would write. -/
def Services.firstExpiry (services : Services) (cell : Cell Bucket ℚ) : ℚ :=
  cell.deadline.elim services.expiry (min services.expiry)

/-- Writing a bucket again is harmless: its clock has not stepped back, and it is full
when the first key expires, unless both expire together. -/
def Rewritable (services : Services) (cell : Cell Bucket ℚ) : Prop :=
  cell.value.lastRefill ≤ services.now ∧
    (cell.deadline = some services.expiry ∨
      services.limits.balance (some cell.value) (services.firstExpiry cell) =
        services.limits.capacity)

/-- A caller who is denied finds a bucket that can be written again; once a token is
taken the broker is there, and once the task is published in a guild its settings can
be read. -/
def Tolerated (services : Services) (context : Context) (options : Options)
    (world : World) : Prop :=
  match admission services context options world with
  | .turnedAway => True
  | .denied guildId =>
      ∀ cell ∈ world.buckets guildId, Rewritable services cell
  | .admitted consumedToken =>
      (consumedToken = true → services.kiq ≠ none) ∧
        (services.kiq ≠ none → context.caller.guild ≠ none → services.settings ≠ none)

/-! ## What a bucket is worth later -/

section Balances

variable {limits : Limits} {cell : Cell Bucket ℚ} {now : ℚ}

theorem balanceAt_of_live (hlive : cell.Live now) :
    balanceAt limits (some cell) now = limits.balance (some cell.value) now := by
  rw [balanceAt, fetch, if_pos hlive]

theorem balanceAt_of_not_live (hgone : ¬ cell.Live now) :
    balanceAt limits (some cell) now = limits.capacity := by
  rw [balanceAt, fetch, if_neg hgone, limits.balance_none]

theorem balanceAt_of_full
    (hfull : limits.balance (some cell.value) now = limits.capacity) :
    balanceAt limits (some cell) now = limits.capacity := by
  by_cases hlive : cell.Live now
  · exact (balanceAt_of_live hlive).trans hfull
  · exact balanceAt_of_not_live hlive

theorem balanceAt_le_capacity (limits : Limits) (key : Option (Cell Bucket ℚ))
    (now : ℚ) : balanceAt limits key now ≤ limits.capacity :=
  limits.balance_le_capacity _ _

theorem Services.now_lt_expiry (services : Services) : services.now < services.expiry := by
  have httl : 3600 ≤ ttlSeconds services.limits.capacity services.limits.refillPerHour :=
    le_max_left _ _
  have hcast : (3600 : ℚ) ≤
      ttlSeconds services.limits.capacity services.limits.refillPerHour := by
    exact_mod_cast httl
  rw [Services.expiry]
  linarith

theorem Services.live_written {services : Services} {bucket : Bucket} {later : ℚ} :
    (services.written bucket).Live later ↔ later < services.expiry := by
  simp [Services.written, Cell.Live]

end Balances

section Rewriting

variable {services : Services} {cell : Cell Bucket ℚ}

/-- The key that a denied `acquire` writes. -/
def Services.rewritten (services : Services) (cell : Cell Bucket ℚ) : Cell Bucket ℚ :=
  services.written
    ⟨services.limits.balance (some cell.value) services.now, services.now⟩

theorem live_rewritten {later : ℚ} :
    (services.rewritten cell).Live later ↔ later < services.expiry :=
  Services.live_written

theorem now_lt_firstExpiry (hlive : cell.Live services.now) :
    services.now < services.firstExpiry cell := by
  rw [Services.firstExpiry]
  cases hdeadline : cell.deadline with
  | none => exact services.now_lt_expiry
  | some deadline => exact lt_min services.now_lt_expiry (hlive deadline hdeadline)

/-- Until then both keys are there. -/
theorem live_of_lt_firstExpiry {later : ℚ} (hearly : later < services.firstExpiry cell) :
    cell.Live later ∧ later < services.expiry := by
  rw [Services.firstExpiry] at hearly
  rw [Cell.Live]
  cases hdeadline : cell.deadline with
  | none =>
      rw [hdeadline] at hearly
      exact ⟨nofun, hearly⟩
  | some deadline =>
      rw [hdeadline] at hearly
      obtain ⟨hexpiry, hlive⟩ := lt_min_iff.mp hearly
      exact ⟨fun _ hother => Option.some.inj hother ▸ hlive, hexpiry⟩

/-- When it comes one of the keys is left, unless both expire together. -/
theorem live_firstExpiry_iff (hdifferent : cell.deadline ≠ some services.expiry) :
    cell.Live (services.firstExpiry cell) ↔
      services.expiry ≤ services.firstExpiry cell := by
  rw [Services.firstExpiry, Cell.Live]
  cases hdeadline : cell.deadline with
  | none => simp
  | some deadline =>
      have hne : services.expiry ≠ deadline := by
        rintro rfl
        exact hdifferent hdeadline
      simpa using (le_iff_lt_or_eq.trans (or_iff_left hne)).symm

theorem balance_rewritten {later : ℚ} (hpast : cell.value.lastRefill ≤ services.now)
    (hlater : services.now ≤ later) :
    services.limits.balance (some (services.rewritten cell).value) later =
      services.limits.balance (some cell.value) later :=
  services.limits.balance_rewritten (fun _ hbucket => Option.some.inj hbucket ▸ hpast)
    hlater

variable (hlive : cell.Live services.now)
variable (hnone : services.limits.balance (some cell.value) services.now <
  services.limits.capacity)
variable (hsame : ∀ later, services.now ≤ later →
  balanceAt services.limits (some (services.rewritten cell)) later =
    balanceAt services.limits (some cell) later)

include hlive hnone hsame in
theorem past_of_same : cell.value.lastRefill ≤ services.now := by
  by_contra hback
  obtain ⟨later, hearly, hlate⟩ :=
    exists_between (lt_min (now_lt_firstExpiry hlive) (not_le.mp hback))
  obtain ⟨hlast, hrefill⟩ := lt_min_iff.mp hlate
  obtain ⟨hlive, hexpiry⟩ := live_of_lt_firstExpiry hlast
  have heq := hsame later hearly.le
  rw [balanceAt_of_live hlive, balanceAt_of_live (live_rewritten.mpr hexpiry)]
    at heq
  exact absurd heq
    (services.limits.balance_lt_balance_rewritten hearly hrefill.le hnone).ne'

include hlive hnone hsame in
theorem full_of_same (hdifferent : cell.deadline ≠ some services.expiry) :
    services.limits.balance (some cell.value) (services.firstExpiry cell) =
      services.limits.capacity := by
  have hnow := (now_lt_firstExpiry hlive).le
  have heq := hsame _ hnow
  have hother := live_firstExpiry_iff hdifferent
  by_cases hleft : cell.Live (services.firstExpiry cell)
  · rw [balanceAt_of_live hleft, balanceAt_of_not_live
      (mt live_rewritten.mp (not_lt.mpr (hother.mp hleft)))] at heq
    exact heq.symm
  · rw [balanceAt_of_not_live hleft, balanceAt_of_live
      (live_rewritten.mpr (not_le.mp (mt hother.mpr hleft)))] at heq
    exact (balance_rewritten (past_of_same hlive hnone hsame) hnow).symm.trans heq

theorem same_of_rewritable (hrewritable : Rewritable services cell) {later : ℚ}
    (hlater : services.now ≤ later) :
    balanceAt services.limits (some (services.rewritten cell)) later =
      balanceAt services.limits (some cell) later := by
  obtain ⟨hpast, hexpiry | hfull⟩ := hrewritable
  · have hlive : cell.Live later ↔ later < services.expiry := by
      simp [Cell.Live, hexpiry]
    by_cases hearly : later < services.expiry
    · rw [balanceAt_of_live (hlive.mpr hearly),
        balanceAt_of_live (live_rewritten.mpr hearly)]
      exact balance_rewritten hpast hlater
    · rw [balanceAt_of_not_live (mt hlive.mp hearly),
        balanceAt_of_not_live (mt live_rewritten.mp hearly)]
  · rcases lt_or_ge later (services.firstExpiry cell) with hearly | hlate
    · obtain ⟨hlive, hexpiry⟩ := live_of_lt_firstExpiry hearly
      rw [balanceAt_of_live hlive, balanceAt_of_live (live_rewritten.mpr hexpiry)]
      exact balance_rewritten hpast hlater
    · have hstays := services.limits.balance_eq_capacity_of_le _ hlate hfull
      calc balanceAt services.limits (some (services.rewritten cell)) later
          = services.limits.capacity :=
            balanceAt_of_full ((balance_rewritten hpast hlater).trans hstays)
        _ = balanceAt services.limits (some cell) later := (balanceAt_of_full hstays).symm

/-- The balance that a denied `acquire` finds, written back, is worth the same at every
later moment. -/
theorem same_iff_rewritable (hlive : cell.Live services.now)
    (hnone : services.limits.balance (some cell.value) services.now <
      services.limits.capacity) :
    (∀ later, services.now ≤ later →
      balanceAt services.limits (some (services.rewritten cell)) later =
        balanceAt services.limits (some cell) later) ↔ Rewritable services cell :=
  ⟨fun hsame => ⟨past_of_same hlive hnone hsame,
    or_iff_not_imp_left.mpr (full_of_same hlive hnone hsame)⟩,
    fun hrewritable _ hlater => same_of_rewritable hrewritable hlater⟩

/-- A key that was written under the same limits can be written again. -/
theorem rewritable_of_written {bucket : Bucket} (htokens : 0 ≤ bucket.tokens)
    (hpast : bucket.lastRefill ≤ services.now) :
    Rewritable services ⟨bucket, some (bucket.lastRefill +
      ttlSeconds services.limits.capacity services.limits.refillPerHour)⟩ := by
  refine ⟨hpast, .inr ?_⟩
  apply services.limits.balance_of_evictable htokens
  exact le_min (add_le_add_left hpast _) (le_refl _)

end Rewriting

/-! ## What each part does -/

section Parts

variable {services : Services} {clock : Clock} {context : Context} {options : Options}
variable {world : World} {caller : Caller} {guildId : ℕ}

/-- A bucket is written by the clock of the invocation. -/
def Services.write (services : Services) (world : World) (guildId : ℕ) (tokens : ℚ) :
    World :=
  { world with
    buckets := Function.update world.buckets guildId
      (some (services.written ⟨tokens, services.now⟩)) }

theorem serve_acquire_of_le (hraises : services.acquireRaises = false)
    (htoken : 1 ≤ balanceAt services.limits (world.buckets guildId) services.now) :
    services.serve world (.acquire guildId) =
      (.ok ⟨true, 0⟩, services.write world guildId
        (balanceAt services.limits (world.buckets guildId) services.now - 1)) := by
  rcases services.limits.acquire_cases (fetch services.now (world.buckets guildId))
      services.now with
    ⟨-, hacquire⟩ | ⟨hnone, -⟩
  · simp only [Services.serve, hraises, hacquire, Services.write, balanceAt,
      Bool.false_eq_true, if_false]
  · exact absurd htoken (not_le.mpr hnone)

theorem serve_acquire_of_lt (hraises : services.acquireRaises = false)
    (hnone : balanceAt services.limits (world.buckets guildId) services.now < 1) :
    ∃ retryAfter, services.serve world (.acquire guildId) =
      (.ok ⟨false, retryAfter⟩, services.write world guildId
        (balanceAt services.limits (world.buckets guildId) services.now)) := by
  rcases services.limits.acquire_cases (fetch services.now (world.buckets guildId))
      services.now with
    ⟨htoken, -⟩ | ⟨-, hacquire⟩
  · exact absurd hnone (not_lt.mpr htoken)
  · refine ⟨(1 - balanceAt services.limits (world.buckets guildId) services.now) /
      services.limits.rate, ?_⟩
    simp only [Services.serve, hraises, hacquire, Services.write, balanceAt,
      Bool.false_eq_true, if_false]

theorem takeToken_of_free (hfree : payingGuild caller = none) :
    takeToken clock caller = pure (some false) := by
  rw [payingGuild] at hfree
  rw [takeToken]
  split
  case h_1 => rfl
  case h_2 guild hguild =>
    rw [hguild] at hfree
    dsimp only at hfree
    split at hfree
    case isTrue howner => exact if_pos howner
    case isFalse => cases hfree

theorem takeToken_of_paying (hpaying : payingGuild caller = some guildId) :
    takeToken clock caller = (await (.acquire guildId)).bind fun verdict =>
      if verdict.allowed then pure (some true)
      else do
        let retryAt ← Prog.ofExcept (clock.retryAt verdict.retryAfter)
        await (.send (rateLimitReached retryAt) true)
        return none := by
  rw [payingGuild] at hpaying
  rw [takeToken]
  split
  case h_1 hguild =>
    rw [hguild] at hpaying
    cases hpaying
  case h_2 guild hguild =>
    rw [hguild] at hpaying
    dsimp only at hpaying
    split at hpaying
    case isTrue => cases hpaying
    case isFalse howner =>
      cases hpaying
      exact if_neg howner

/-- A caller who has to pay and can. -/
theorem exec_takeToken_of_le (hpaying : payingGuild caller = some guildId)
    (hraises : services.acquireRaises = false)
    (htoken : 1 ≤ balanceAt services.limits (world.buckets guildId) services.now) :
    (takeToken clock caller).exec services.serve world =
      (.ok (some true), services.write world guildId
        (balanceAt services.limits (world.buckets guildId) services.now - 1)) := by
  rw [takeToken_of_paying hpaying, Prog.exec_bind_of_ok
    ((Prog.exec_perform _ _).trans (serve_acquire_of_le hraises htoken))]
  rfl

/-- A caller who is denied gets a reply, unless the time of the next token cannot be
told. -/
theorem exec_takeToken_of_lt (clock : Clock) (hpaying : payingGuild caller = some guildId)
    (hraises : services.acquireRaises = false)
    (hnone : balanceAt services.limits (world.buckets guildId) services.now < 1) :
    ∃ outcome replies, (takeToken clock caller).exec services.serve world =
        (outcome, { services.write world guildId
          (balanceAt services.limits (world.buckets guildId) services.now) with
            replies := replies }) ∧
      ∀ consumedToken, outcome ≠ .ok (some consumedToken) := by
  obtain ⟨retryAfter, hserve⟩ := serve_acquire_of_lt hraises hnone
  rw [takeToken_of_paying hpaying, Prog.exec_bind_of_ok
    ((Prog.exec_perform _ _).trans hserve)]
  dsimp only [Bool.false_eq_true, if_false]
  cases clock.retryAt retryAfter with
  | error exception => exact ⟨.error exception, world.replies, rfl, nofun⟩
  | ok retryAt =>
      exact ⟨.ok none, world.replies ++ [(rateLimitReached retryAt, true)], rfl, nofun⟩

theorem exec_takeToken_of_raises (hpaying : payingGuild caller = some guildId)
    (hraises : services.acquireRaises = true) :
    (takeToken clock caller).exec services.serve world = (.error .other, world) := by
  have hserve : services.serve world (.acquire guildId) = (.error .other, world) := by
    simp only [Services.serve, hraises, if_true]
  rw [takeToken_of_paying hpaying, Prog.exec_bind_of_error
    ((Prog.exec_perform _ _).trans hserve)]

/-- Without a broker the caller is told so. -/
theorem exec_enqueue_of_kiq_eq_none (hkiq : services.kiq = none) (consumedToken : Bool) :
    ((enqueue clock context options consumedToken).exec services.serve world).2 =
      { world with
        replies := world.replies ++ [(serviceUnavailable, options.dmMe)] } := by
  have hserve : services.serve world (.kiq (enqueueOf context options)) =
      (.error .other, world) := by
    simp only [Services.serve, hkiq]
  have hpublish : (publish context options).exec services.serve world =
      (.ok none, { world with
        replies := world.replies ++ [(serviceUnavailable, options.dmMe)] }) := by
    apply (Prog.exec_tryExcept_of_error (Prog.exec_bind_of_error
      ((Prog.exec_perform _ _).trans hserve)) rfl).trans
    rfl
  exact congrArg Prod.snd (Prog.exec_bind_of_ok hpublish)

theorem exec_publish_of_kiq {taskId : String} (hkiq : services.kiq = some taskId) :
    (publish context options).exec services.serve world =
      (.ok (some taskId), { world with
        queue := world.queue ++ [(enqueueOf context options).arguments taskId] }) := by
  have hserve : services.serve world (.kiq (enqueueOf context options)) =
      (.ok taskId, { world with
        queue := world.queue ++ [(enqueueOf context options).arguments taskId] }) := by
    simp only [Services.serve, hkiq]
  apply Prog.exec_tryExcept_of_ok
  exact Prog.exec_bind_of_ok ((Prog.exec_perform _ _).trans hserve)

/-- The settings are read outside of any handler: the task stays published, and the
caller hears nothing. -/
theorem exec_enqueue_of_settings_eq_none {taskId : String}
    (hkiq : services.kiq = some taskId) (hguild : context.caller.guild ≠ none)
    (hsettings : services.settings = none) (consumedToken : Bool) :
    ((enqueue clock context options consumedToken).exec services.serve world).2 =
      { world with
        queue := world.queue ++ [(enqueueOf context options).arguments taskId] } := by
  obtain ⟨guild, hguild⟩ := Option.ne_none_iff_exists'.mp hguild
  have hread : ∀ world, (readSettings context.caller).exec services.serve world =
      (.error .other, world) := by
    intro world
    simp only [readSettings, hguild]
    apply (Prog.exec_perform _ _).trans
    simp only [Services.serve, hsettings]
  apply (congrArg Prod.snd (Prog.exec_bind_of_ok (exec_publish_of_kiq hkiq))).trans
  apply (congrArg Prod.snd (Prog.exec_bind_of_error (hread _))).trans
  rfl

theorem exec_readSettings (hsettings : context.caller.guild ≠ none →
    services.settings ≠ none) :
    ∃ guildSettings, ∀ world, (readSettings context.caller).exec services.serve world =
      (.ok guildSettings, world) := by
  rw [readSettings]
  split
  case h_1 guild hguild =>
    obtain ⟨row, hrow⟩ := Option.ne_none_iff_exists'.mp (hsettings (by simp [hguild]))
    refine ⟨.ofRow guild.id row, fun world => (Prog.exec_perform _ _).trans ?_⟩
    simp only [Services.serve, hrow]
  case h_2 => exact ⟨{ guildId := 0 }, fun world => rfl⟩

/-- Whatever becomes of the index, the command goes on. -/
theorem exec_recordBestEffort (services : Services) (world : World) (taskId : String)
    (jobMeta : Jobs.JobMeta) (ttlSeconds : ℤ) :
    ∃ index, (recordBestEffort taskId jobMeta ttlSeconds).exec services.serve world =
      (.ok (), { world with index := index }) := by
  obtain ⟨outcome, index, hserve⟩ : ∃ outcome index,
      services.serve world (.recordJob taskId jobMeta ttlSeconds) =
        (outcome, { world with index := index }) := by
    by_cases hraises : services.recordRaises
    · exact ⟨.error .other, world.index, if_pos hraises⟩
    · exact ⟨_, _, if_neg hraises⟩
  refine ⟨index, ?_⟩
  cases outcome with
  | ok value => exact Prog.exec_tryExcept_of_ok ((Prog.exec_perform _ _).trans hserve)
  | error exception =>
      exact Prog.exec_tryExcept_of_error ((Prog.exec_perform _ _).trans hserve) rfl

theorem exec_enqueue (clock : Clock) (options : Options) (world : World)
    {taskId : String} (hkiq : services.kiq = some taskId)
    (hsettings : context.caller.guild ≠ none → services.settings ≠ none)
    (consumedToken : Bool) :
    ∃ index, ((enqueue clock context options consumedToken).exec services.serve world).2 =
      { world with
        queue := world.queue ++ [(enqueueOf context options).arguments taskId]
        index := index
        replies := world.replies ++
          [(jobEnqueued taskId options.dmMe, options.dmMe)] } := by
  obtain ⟨guildSettings, hread⟩ := exec_readSettings hsettings
  obtain ⟨index, hrecord⟩ := exec_recordBestEffort services
    { world with
      queue := world.queue ++ [(enqueueOf context options).arguments taskId] }
    taskId (jobMetaOf clock context consumedToken) (guildSettings.retentionHours * 3600)
  refine ⟨index, ?_⟩
  apply (congrArg Prod.snd (Prog.exec_bind_of_ok (exec_publish_of_kiq hkiq))).trans
  apply (congrArg Prod.snd (Prog.exec_bind_of_ok (hread _))).trans
  apply (congrArg Prod.snd (Prog.exec_bind_of_ok hrecord)).trans
  rfl

end Parts

/-! ## The whole command -/

section Whole

variable {services : Services} {context : Context} {options : Options}
variable {world after : World} {guildId : ℕ} {consumedToken : Bool}

/-- Before anything is published the caller is turned away, denied, let through without
a token, or pays one. -/
theorem admission_cases (services : Services) (context : Context) (options : Options)
    (world : World) :
    (admission services context options world = .turnedAway ∧
      (rejection context options ≠ .ok none ∨ ∃ guildId,
        payingGuild context.caller = some guildId ∧ services.acquireRaises = true)) ∨
    (rejection context options = .ok none ∧
      ((payingGuild context.caller = none ∧
        admission services context options world = .admitted false) ∨
      ∃ guildId, payingGuild context.caller = some guildId ∧
        services.acquireRaises = false ∧
        ((balanceAt services.limits (world.buckets guildId) services.now < 1 ∧
          admission services context options world = .denied guildId) ∨
        (1 ≤ balanceAt services.limits (world.buckets guildId) services.now ∧
          admission services context options world = .admitted true)))) := by
  rw [admission]
  by_cases haccepted : rejection context options = .ok none
  · rw [if_neg (not_not.mpr haccepted)]
    cases hpaying : payingGuild context.caller with
    | none => exact .inr ⟨haccepted, .inl ⟨rfl, rfl⟩⟩
    | some guildId =>
        by_cases hraises : services.acquireRaises
        · exact .inl ⟨if_pos hraises, .inr ⟨guildId, rfl, hraises⟩⟩
        · refine .inr ⟨haccepted, .inr ⟨guildId, rfl, Bool.eq_false_of_not_eq_true hraises,
            ?_⟩⟩
          dsimp only
          rw [if_neg hraises]
          rcases lt_or_ge (balanceAt services.limits (world.buckets guildId) services.now) 1
            with hnone | htoken
          · exact .inl ⟨hnone, if_neg (not_le.mpr hnone)⟩
          · exact .inr ⟨htoken, if_pos htoken⟩
  · exact .inl ⟨if_pos haccepted, .inl haccepted⟩

theorem invoke_of_rejection (clock : Clock)
    (haccepted : rejection context options = .ok none) :
    invoke services clock context options world =
      (((takeToken clock context.caller).bind fun
        | none => pure ()
        | some consumedToken => enqueue clock context options consumedToken).exec
          services.serve world).2 := by
  rw [invoke, download]
  rw [haccepted]
  rfl

theorem invoke_of_not_rejection (clock : Clock)
    (hrejected : rejection context options ≠ .ok none) :
    (invoke services clock context options world).queue = world.queue ∧
      (invoke services clock context options world).buckets = world.buckets := by
  rw [invoke, download]
  cases hrejection : rejection context options with
  | error exception => exact ⟨rfl, rfl⟩
  | ok embed =>
      cases embed with
      | none => exact absurd hrejection hrejected
      | some embed => exact ⟨rfl, rfl⟩

theorem invoke_of_raises (clock : Clock) (haccepted : rejection context options = .ok none)
    (hpaying : payingGuild context.caller = some guildId)
    (hraises : services.acquireRaises = true) :
    invoke services clock context options world = world := by
  rw [invoke_of_rejection clock haccepted,
    Prog.exec_bind_of_error (exec_takeToken_of_raises hpaying hraises)]

theorem invoke_of_denied (clock : Clock) (haccepted : rejection context options = .ok none)
    (hpaying : payingGuild context.caller = some guildId)
    (hraises : services.acquireRaises = false)
    (hnone : balanceAt services.limits (world.buckets guildId) services.now < 1) :
    (invoke services clock context options world).queue = world.queue ∧
      (invoke services clock context options world).buckets =
        (services.write world guildId
          (balanceAt services.limits (world.buckets guildId) services.now)).buckets := by
  obtain ⟨outcome, replies, hexec, hdenied⟩ :=
    exec_takeToken_of_lt clock hpaying hraises hnone
  rw [invoke_of_rejection clock haccepted, Prog.exec_bind, hexec]
  cases outcome with
  | error exception => exact ⟨rfl, rfl⟩
  | ok token =>
      cases token with
      | none => exact ⟨rfl, rfl⟩
      | some consumedToken => exact absurd rfl (hdenied consumedToken)

theorem invoke_of_free (clock : Clock) (haccepted : rejection context options = .ok none)
    (hfree : payingGuild context.caller = none) :
    invoke services clock context options world =
      ((enqueue clock context options false).exec services.serve world).2 := by
  rw [invoke_of_rejection clock haccepted, takeToken_of_free hfree]
  rfl

theorem invoke_of_paying (clock : Clock) (haccepted : rejection context options = .ok none)
    (hpaying : payingGuild context.caller = some guildId)
    (hraises : services.acquireRaises = false)
    (htoken : 1 ≤ balanceAt services.limits (world.buckets guildId) services.now) :
    invoke services clock context options world =
      ((enqueue clock context options true).exec services.serve
        (services.write world guildId
          (balanceAt services.limits (world.buckets guildId) services.now - 1))).2 := by
  rw [invoke_of_rejection clock haccepted,
    Prog.exec_bind_of_ok (exec_takeToken_of_le hpaying hraises htoken)]

/-! ## What is left is all or nothing -/

theorem not_all_of_queue (hqueue : after.queue = world.queue) :
    ¬ All services context options world after := by
  rintro ⟨⟨taskId, hqueued, -⟩, -, -⟩
  simpa using hqueue.symm.trans hqueued

theorem not_all_of_replies (hreplies : after.replies = world.replies) :
    ¬ All services context options world after := by
  rintro ⟨⟨taskId, -, hacknowledged⟩, -, -⟩
  simpa using hreplies.symm.trans hacknowledged

theorem nothing_of_buckets (hqueue : after.queue = world.queue)
    (hbuckets : after.buckets = world.buckets) : Nothing services world after where
  queue := hqueue
  balance guildId later _ := by rw [hbuckets]

theorem exists_live_of_balanceAt_lt {limits : Limits} {key : Option (Cell Bucket ℚ)}
    {now : ℚ} (hnone : balanceAt limits key now < 1) :
    ∃ cell, key = some cell ∧ cell.Live now := by
  by_contra habsent
  have hfetch : fetch now key = none := by
    cases key with
    | none => rfl
    | some cell => exact if_neg fun hlive => habsent ⟨cell, rfl, hlive⟩
  rw [balanceAt, hfetch] at hnone
  exact absurd limits.one_le_capacity_cast (not_le.mpr hnone)

/-- A caller who is denied changes nothing where the bucket can be written again. -/
theorem allOrNothing_denied_iff
    (hnone : balanceAt services.limits (world.buckets guildId) services.now < 1)
    (hqueue : after.queue = world.queue)
    (hbuckets : after.buckets = (services.write world guildId
      (balanceAt services.limits (world.buckets guildId) services.now)).buckets) :
    AllOrNothing services context options world after ↔
      ∀ cell ∈ world.buckets guildId, Rewritable services cell := by
  obtain ⟨cell, hcell, hlive⟩ := exists_live_of_balanceAt_lt hnone
  have hwritten : after.buckets =
      Function.update world.buckets guildId (some (services.rewritten cell)) := by
    rw [hbuckets, hcell, balanceAt_of_live hlive]
    rfl
  rw [hcell, balanceAt_of_live hlive] at hnone
  calc
    AllOrNothing services context options world after ↔ Nothing services world after :=
      or_iff_left (not_all_of_queue hqueue)
    _ ↔ ∀ later, services.now ≤ later →
        balanceAt services.limits (some (services.rewritten cell)) later =
          balanceAt services.limits (some cell) later := by
      constructor
      · intro hnothing later hlater
        simpa [hwritten, hcell] using hnothing.balance guildId later hlater
      · refine fun hsame => ⟨hqueue, fun other later hlater => ?_⟩
        rw [hwritten]
        rcases eq_or_ne other guildId with rfl | hother
        · rw [Function.update_self, hcell]
          exact hsame later hlater
        · rw [Function.update_of_ne hother]
    _ ↔ Rewritable services cell :=
      same_iff_rewritable hlive (hnone.trans_le services.limits.one_le_capacity_cast)
    _ ↔ ∀ cell ∈ world.buckets guildId, Rewritable services cell := by
      simp [hcell]

/-- What letting the caller through does: a token where one is due. -/
structure Charged (services : Services) (caller : Caller) (before after : World) :
    Prop where
  queue : after.queue = before.queue
  replies : after.replies = before.replies
  charged : ∀ guildId, payingGuild caller = some guildId →
    balanceAt services.limits (after.buckets guildId) services.now =
      balanceAt services.limits (before.buckets guildId) services.now - 1
  spared : ∀ guildId, payingGuild caller ≠ some guildId →
    after.buckets guildId = before.buckets guildId

theorem charged_of_free {caller : Caller} (hfree : payingGuild caller = none) :
    Charged services caller world world where
  queue := rfl
  replies := rfl
  charged guildId hpaying := by cases hfree.symm.trans hpaying
  spared _ _ := rfl

theorem charged_of_paying {caller : Caller} (hpaying : payingGuild caller = some guildId) :
    Charged services caller world (services.write world guildId
      (balanceAt services.limits (world.buckets guildId) services.now - 1)) where
  queue := rfl
  replies := rfl
  charged other hother := by
    cases hpaying.symm.trans hother
    have hbalance := balanceAt_le_capacity services.limits (world.buckets guildId)
      services.now
    simp only [Services.write, Function.update_self]
    rw [balanceAt_of_live (Services.live_written.mpr services.now_lt_expiry)]
    exact services.limits.balance_written services.now (by linarith)
  spared other hother := by
    have hne : other ≠ guildId := by
      rintro rfl
      exact hother hpaying
    simp only [Services.write, Function.update_of_ne hne]

/-- Once the caller has been let through, the broker and then the settings decide. -/
theorem allOrNothing_enqueue_iff (services : Services) (clock : Clock)
    (context : Context) (options : Options) {world charged : World}
    (hcharged : Charged services context.caller world charged) :
    AllOrNothing services context options world
        ((enqueue clock context options (payingGuild context.caller).isSome).exec
          services.serve charged).2 ↔
      ((payingGuild context.caller).isSome = true → services.kiq ≠ none) ∧
        (services.kiq ≠ none → context.caller.guild ≠ none →
          services.settings ≠ none) := by
  cases hkiq : services.kiq with
  | none =>
      rw [exec_enqueue_of_kiq_eq_none hkiq, AllOrNothing,
        or_iff_left (not_all_of_queue (by exact hcharged.queue))]
      constructor
      · intro hnothing
        refine ⟨fun hpaying => ?_, fun hpublished => absurd rfl hpublished⟩
        obtain ⟨guildId, hpaying⟩ := Option.isSome_iff_exists.mp hpaying
        have hsame := hnothing.balance guildId services.now (le_refl _)
        have hless := hcharged.charged guildId hpaying
        exact absurd (hless.symm.trans hsame) (by linarith)
      · rintro ⟨hpaid, -⟩
        have hfree : ∀ guildId, payingGuild context.caller ≠ some guildId :=
          fun guildId hpaying => hpaid (by rw [hpaying]; rfl) rfl
        exact nothing_of_buckets hcharged.queue
          (funext fun guildId => hcharged.spared guildId (hfree guildId))
  | some taskId =>
      by_cases hsettings : context.caller.guild ≠ none → services.settings ≠ none
      · obtain ⟨index, hexec⟩ := exec_enqueue clock options charged hkiq hsettings
          (payingGuild context.caller).isSome
        rw [hexec]
        refine iff_of_true (.inr ⟨⟨taskId, ?_, ?_⟩, hcharged.charged, hcharged.spared⟩)
          ⟨fun _ => Option.some_ne_none _, fun _ => hsettings⟩
        · rw [hcharged.queue]
        · rw [hcharged.replies]
      · obtain ⟨hguild, hunread⟩ := Classical.not_imp.mp hsettings
        rw [exec_enqueue_of_settings_eq_none hkiq hguild (not_not.mp hunread)]
        refine iff_of_false ?_ fun htolerated =>
          hsettings (htolerated.2 (Option.some_ne_none _))
        rintro (hnothing | hall)
        · simpa [hcharged.queue] using hnothing.queue
        · exact not_all_of_replies (by exact hcharged.replies) hall

end Whole

/-- The command is all or nothing exactly where what goes wrong is tolerated. -/
theorem allOrNothing_iff_tolerated (services : Services) (clock : Clock)
    (context : Context) (options : Options) (world : World) :
    AllOrNothing services context options world
        (invoke services clock context options world) ↔
      Tolerated services context options world := by
  rw [Tolerated]
  obtain ⟨hadmission, haway⟩ | ⟨haccepted, ⟨hfree, hadmission⟩ |
    ⟨guildId, hpaying, hraises, ⟨hnone, hadmission⟩ | ⟨htoken, hadmission⟩⟩⟩ :=
    admission_cases services context options world
  all_goals rw [hadmission]
  · refine iff_of_true (.inl ?_) trivial
    rcases haway with hrejected | ⟨guildId, hpaying, hraises⟩
    · obtain ⟨hqueue, hbuckets⟩ := invoke_of_not_rejection clock hrejected
      exact nothing_of_buckets hqueue hbuckets
    · by_cases haccepted : rejection context options = .ok none
      · rw [invoke_of_raises clock haccepted hpaying hraises]
        exact nothing_of_buckets rfl rfl
      · obtain ⟨hqueue, hbuckets⟩ := invoke_of_not_rejection clock haccepted
        exact nothing_of_buckets hqueue hbuckets
  · rw [invoke_of_free clock haccepted hfree]
    have hiff := allOrNothing_enqueue_iff services clock context options
      (@charged_of_free services world context.caller hfree)
    rw [hfree] at hiff
    exact hiff
  · obtain ⟨hqueue, hbuckets⟩ := invoke_of_denied clock haccepted hpaying hraises hnone
    exact allOrNothing_denied_iff hnone hqueue hbuckets
  · rw [invoke_of_paying clock haccepted hpaying hraises htoken]
    have hiff := allOrNothing_enqueue_iff services clock context options
      (@charged_of_paying services world guildId context.caller hpaying)
    rw [hpaying] at hiff
    exact hiff

/-- The broker is down, all else is well. -/
def brokerDown : Services := ⟨Limits.default, 0, false, none, some none, false, 0⟩

/-- Nobody has used the command yet. -/
def untouched : World := ⟨fun _ => none, [], Index.empty, []⟩

/-- A member of a guild, who does not own it. -/
def byMember : Context := ⟨⟨7, false, some ⟨1, 2⟩⟩, 3, true⟩

/-- The token is spent although nothing was published. -/
theorem not_allOrNothing_brokerDown :
    ¬ AllOrNothing brokerDown byMember {} untouched
      (invoke brokerDown ⟨fun _ => .ok "", ""⟩ byMember {} untouched) := by
  rintro (hnothing | hall)
  · exact absurd (hnothing.balance 1 0 (le_refl _)) (by decide +kernel)
  · exact not_all_of_queue (by rfl) hall

end DownloaderBot.DownloadCog
