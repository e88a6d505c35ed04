import DownloaderBot.Core.TransitionSystem
import DownloaderBot.Download.Ratelimit

/-!
# Runs of the token bucket

One guild's key under committed `acquire` and `refund` calls and under Redis
dropping the key.  The clock readings of a run never step back; the key may be
dropped at any moment from the end of its TTL on.  The TTL is counted here from
the clock reading a write stores in `last_refill`: the `EXPIRE` that starts it is
never earlier, so every eviction Redis can make is among those of this file.
-/

namespace DownloaderBot.RatelimitRuns

open DownloaderBot.Ratelimit
open DownloaderBot.TransitionSystem

inductive Operation
  | acquire
  | refund
  deriving DecidableEq, Repr

/-- What a call returns; `refund` returns nothing. -/
inductive Reply
  | verdict (verdict : Verdict)
  | refunded
  deriving DecidableEq, Repr

/-- The committed effect of one call: the hash it leaves and what it returns. -/
def perform (limits : Limits) (operation : Operation) (raw : Option Bucket)
    (now : ℚ) : Except ArithmeticError (Option Bucket × Reply) :=
  match operation with
  | .acquire => do
      let (bucket, verdict) ←
        acquire limits.capacity limits.refillPerHour raw now
      return (some bucket, .verdict verdict)
  | .refund =>
      let written := refund limits.capacity limits.refillPerHour raw now
      return (written.or raw, .refunded)

/-- A call that has returned, with its clock reading. -/
structure Entry where
  time : ℚ
  reply : Reply
  deriving DecidableEq, Repr

structure State where
  bucket : Option Bucket
  clock : ℚ
  history : List Entry
  deriving DecidableEq, Repr

inductive Label
  | operate (operation : Operation) (now : ℚ)
  | evict (now : ℚ)
  deriving DecidableEq, Repr

def Label.isOperation : Label → Bool
  | .operate _ _ => true
  | .evict _ => false

/-- The key has outlived its TTL. -/
def expired (limits : Limits) (raw : Option Bucket) (now : ℚ) : Bool :=
  raw.any fun bucket =>
    bucket.lastRefill + ttlSeconds limits.capacity limits.refillPerHour ≤ now

/-- One committed call, or one eviction. -/
def step (limits : Limits) (state : State) : Label → Option State
  | .operate operation now =>
      if state.clock ≤ now then
        match perform limits operation state.bucket now with
        | .ok (bucket, reply) =>
            some ⟨bucket, now, state.history ++ [⟨now, reply⟩]⟩
        | .error _ => none
      else none
  | .evict now =>
      if state.clock ≤ now ∧ expired limits state.bucket now then
        some { state with bucket := none, clock := now }
      else none

/-- No key yet, and nothing done. -/
def start (clock : ℚ) : State := ⟨none, clock, []⟩

/-! ## What one call takes from the balance -/

/-- An allowed call takes a token, a refund credits one, a denied call neither. -/
def Reply.amount : Reply → ℚ
  | .verdict ⟨true, _⟩ => 1
  | .verdict ⟨false, _⟩ => 0
  | .refunded => -1

/-- The four outcomes of a call, by the balance it finds. -/
inductive Outcome (limits : Limits) (raw : Option Bucket) (now : ℚ) :
    Option Bucket → Reply → Prop
  | allowed (htoken : 1 ≤ limits.balance raw now) :
      Outcome limits raw now (some ⟨limits.balance raw now - 1, now⟩)
        (.verdict ⟨true, 0⟩)
  | denied (htoken : limits.balance raw now < 1) :
      Outcome limits raw now (some ⟨limits.balance raw now, now⟩)
        (.verdict ⟨false, (1 - limits.balance raw now) / limits.rate⟩)
  | credited (hroom : limits.balance raw now < limits.capacity) :
      Outcome limits raw now
        (some ⟨min limits.capacity (limits.balance raw now + 1), now⟩) .refunded
  | untouched (hfull : limits.balance raw now = limits.capacity) :
      Outcome limits raw now raw .refunded

/-- Every call returns, with one of the four outcomes. -/
theorem perform_outcome (limits : Limits) (operation : Operation)
    (raw : Option Bucket) (now : ℚ) :
    ∃ bucket reply, perform limits operation raw now = .ok (bucket, reply) ∧
      Outcome limits raw now bucket reply := by
  cases operation with
  | acquire =>
      rcases limits.acquire_cases raw now with ⟨htoken, hacquire⟩ | ⟨htoken, hacquire⟩
      · exact ⟨_, _, by simp only [perform, hacquire]; rfl, .allowed htoken⟩
      · exact ⟨_, _, by simp only [perform, hacquire]; rfl, .denied htoken⟩
  | refund =>
      rcases limits.refund_cases raw now with ⟨hfull, hrefund⟩ | ⟨hroom, hrefund⟩
      · exact ⟨_, _, by simp only [perform, hrefund]; rfl, .untouched hfull⟩
      · exact ⟨_, _, by simp only [perform, hrefund]; rfl, .credited hroom⟩

section Outcomes

variable {limits : Limits} {raw bucket : Option Bucket} {now : ℚ} {reply : Reply}

theorem Outcome.tokens_nonneg (houtcome : Outcome limits raw now bucket reply)
    (hraw : ∀ written ∈ raw, 0 ≤ written.tokens)
    (hbalance : 0 ≤ limits.balance raw now) :
    ∀ written ∈ bucket, 0 ≤ written.tokens := by
  have hcapacity := limits.one_le_capacity_cast
  cases houtcome with
  | allowed htoken => simpa using htoken
  | denied _ => simpa using hbalance
  | credited _ =>
      intro written hwritten
      obtain rfl := Option.mem_some_iff.mp hwritten
      exact le_min (zero_le_one.trans hcapacity)
        (add_nonneg hbalance zero_le_one)
  | untouched _ => exact hraw

/-- What a call takes and what it leaves come out of the balance it found. -/
theorem Outcome.paid (houtcome : Outcome limits raw now bucket reply) :
    reply.amount + limits.balance bucket now ≤ limits.balance raw now := by
  have hle := limits.balance_le_capacity raw now
  cases houtcome with
  | allowed _ =>
      rw [limits.balance_written now (by linarith)]
      simp [Reply.amount]
  | denied _ =>
      rw [limits.balance_written now hle]
      simp [Reply.amount]
  | credited _ =>
      rw [limits.balance_written now (min_le_left _ _)]
      have := min_le_right (limits.capacity : ℚ) (limits.balance raw now + 1)
      simp only [Reply.amount]
      linarith
  | untouched _ => simp [Reply.amount]

end Outcomes

/-! ## The cap on every window -/

/-- What a returned call charges to the bucket. -/
def Entry.charge (entry : Entry) : TokenBucket.Charge ℚ :=
  ⟨entry.time, entry.reply.amount⟩

/-- The bucket's balance covers the calls of the run so far. -/
structure Sound (limits : Limits) (state : State) : Prop where
  tokens_nonneg : ∀ bucket ∈ state.bucket, 0 ≤ bucket.tokens
  covers : TokenBucket.Covers (limits.capacity : ℚ) limits.rate
    (limits.balance state.bucket state.clock) state.clock
    (state.history.map Entry.charge)

theorem sound_start (limits : Limits) (clock : ℚ) :
    Sound limits (start clock) where
  tokens_nonneg := by simp [start]
  covers := TokenBucket.Covers.initial
    (zero_le_one.trans limits.one_le_capacity_cast) (le_refl _) limits.rate_pos.le

/-- As the clock moves on, the refilled balance still covers the run. -/
theorem Sound.pass {limits : Limits} {state : State}
    (hsound : Sound limits state) {now : ℚ} (htime : state.clock ≤ now) :
    TokenBucket.Covers (limits.capacity : ℚ) limits.rate
      (limits.balance state.bucket now) now
      (state.history.map Entry.charge) :=
  hsound.covers.pass limits.rate_pos.le htime
    (limits.balance_nonneg _ _ hsound.tokens_nonneg)
    (limits.balance_le_capacity _ _) (limits.balance_le_add _ htime)

/-- What a step can do. -/
theorem step_cases {limits : Limits} {state next : State} {label : Label}
    (hstep : step limits state label = some next) :
    (∃ operation now bucket reply, label = .operate operation now ∧
      state.clock ≤ now ∧
      perform limits operation state.bucket now = .ok (bucket, reply) ∧
      next = ⟨bucket, now, state.history ++ [⟨now, reply⟩]⟩) ∨
    (∃ now bucket, label = .evict now ∧ state.clock ≤ now ∧
      state.bucket = some bucket ∧
      bucket.lastRefill +
        ttlSeconds limits.capacity limits.refillPerHour ≤ now ∧
      next = ⟨none, now, state.history⟩) := by
  cases label with
  | operate operation now =>
      left
      simp only [step] at hstep
      split at hstep
      · next htime =>
          obtain ⟨bucket, reply, hperform, -⟩ :=
            perform_outcome limits operation state.bucket now
          rw [hperform] at hstep
          exact ⟨operation, now, bucket, reply, rfl, htime, hperform,
            (Option.some.inj hstep).symm⟩
      · contradiction
  | evict now =>
      right
      simp only [step] at hstep
      split at hstep
      · next hguard =>
          obtain ⟨bucket, hbucket, hidle⟩ :=
            (Option.any_eq_true _ _).mp hguard.2
          exact ⟨now, bucket, rfl, hguard.1, hbucket,
            of_decide_eq_true hidle, (Option.some.inj hstep).symm⟩
      · contradiction

theorem sound_step {limits : Limits} {state next : State} {label : Label}
    (hsound : Sound limits state) (hstep : step limits state label = some next) :
    Sound limits next := by
  rcases step_cases hstep with
    ⟨operation, now, bucket, reply, -, htime, hperform, rfl⟩ |
    ⟨now, bucket, -, htime, hbucket, hidle, rfl⟩
  · have hcovers := hsound.pass htime
    obtain ⟨_, _, hperform', houtcome⟩ :=
      perform_outcome limits operation state.bucket now
    rw [hperform] at hperform'
    cases hperform'
    have htokens :=
      houtcome.tokens_nonneg hsound.tokens_nonneg hcovers.nonneg
    refine ⟨htokens, ?_⟩
    rw [List.map_append]
    exact hcovers.pay limits.rate_pos.le (limits.balance_nonneg _ _ htokens)
      (limits.balance_le_capacity _ _) houtcome.paid
  · refine ⟨by simp, ?_⟩
    have hcovers := hsound.pass htime
    rw [hbucket] at hcovers
    have hfull := limits.balance_of_evictable
      (hsound.tokens_nonneg bucket hbucket) hidle
    rw [hfull] at hcovers
    exact hcovers

/-- Whether an acquire was allowed. -/
def Reply.isAllowed : Reply → Bool
  | .verdict answer => answer.allowed
  | .refunded => false

def Reply.isRefund : Reply → Bool
  | .verdict _ => false
  | .refunded => true

/-- The calls of a kind with a clock reading in `[first, last]`. -/
def countIn (kind : Reply → Bool) (history : List Entry) (first last : ℚ) : ℕ :=
  (history.filter fun entry =>
    first ≤ entry.time ∧ entry.time ≤ last ∧ kind entry.reply).length

theorem countIn_concat (kind : Reply → Bool) (history : List Entry)
    (entry : Entry) (first last : ℚ) :
    countIn kind (history ++ [entry]) first last =
      countIn kind history first last +
        if first ≤ entry.time ∧ entry.time ≤ last ∧ kind entry.reply
        then 1 else 0 := by
  by_cases hcounted :
      first ≤ entry.time ∧ entry.time ≤ last ∧ kind entry.reply <;>
    simp [countIn, List.filter_append, hcounted]

theorem Reply.amount_eq (reply : Reply) :
    reply.amount =
      (if reply.isAllowed then 1 else 0) - (if reply.isRefund then 1 else 0) := by
  rcases reply with ⟨allowed, retryAfter⟩ | _
  · cases allowed <;> simp [Reply.amount, Reply.isAllowed, Reply.isRefund]
  · simp [Reply.amount, Reply.isAllowed, Reply.isRefund]

/-- The charges of a window are its allowed acquires less its refund calls. -/
theorem spent_charges (history : List Entry) (first last : ℚ) :
    TokenBucket.spent (history.map Entry.charge) first last =
      countIn Reply.isAllowed history first last -
        countIn Reply.isRefund history first last := by
  induction history using List.reverseRecOn with
  | nil => simp [countIn]
  | append_singleton history entry ih =>
      rw [List.map_append, List.map_singleton, TokenBucket.spent_concat, ih,
        countIn_concat, countIn_concat]
      by_cases hwindow : first ≤ entry.time ∧ entry.time ≤ last
      · simp only [Entry.charge, hwindow, and_self, true_and, if_true,
          Reply.amount_eq]
        push_cast
        ring
      · have hallowed : ¬ (first ≤ entry.time ∧ entry.time ≤ last ∧
            entry.reply.isAllowed) := fun h => hwindow ⟨h.1, h.2.1⟩
        have hrefund : ¬ (first ≤ entry.time ∧ entry.time ≤ last ∧
            entry.reply.isRefund) := fun h => hwindow ⟨h.1, h.2.1⟩
        simp [Entry.charge, hwindow, hallowed, hrefund]

/-- The cap on every window: from an absent key, whatever is acquired, refunded
and evicted, the allowed acquires of `[first, last]` exceed its refund calls by at
most the burst and what refills meanwhile. -/
theorem net_allowed_le (limits : Limits) {clock : ℚ} {state : State}
    (hrun : Reaches (step limits) unrestricted (start clock) state)
    (first last : ℚ) (hwindow : first ≤ last) :
    (countIn Reply.isAllowed state.history first last : ℚ) -
        countIn Reply.isRefund state.history first last ≤
      limits.capacity + limits.refillPerHour * (last - first) / 3600 := by
  have hsound : Sound limits state :=
    hrun.invariant (sound_start limits clock)
      fun _ _ _ hsound _ hstep => sound_step hsound hstep
  calc
    (countIn Reply.isAllowed state.history first last : ℚ) -
          countIn Reply.isRefund state.history first last =
        TokenBucket.spent (state.history.map Entry.charge) first last :=
      (spent_charges _ _ _).symm
    _ ≤ limits.capacity + (last - first) * limits.rate :=
      hsound.covers.window first last hwindow
    _ = limits.capacity + limits.refillPerHour * (last - first) / 3600 := by
      simp only [Limits.rate, refillRate]
      ring

/-- Two bursts a TTL apart, with a denial, a refund and an eviction between
them: three acquires are allowed and one is credited back. -/
theorem net_allowed_le_two_bursts :
    ∃ state, Reaches (step .default) unrestricted (start 0) state ∧
      countIn Reply.isAllowed state.history 0 3603 = 3 ∧
      countIn Reply.isRefund state.history 0 3603 = 1 ∧
      (countIn Reply.isAllowed state.history 0 3603 : ℚ) -
          countIn Reply.isRefund state.history 0 3603 ≤
        2 + 5 * (3603 - 0) / 3600 := by
  have hreplay : replay (step .default) (start 0)
      [.operate .acquire 0, .operate .acquire 1, .operate .acquire 2,
        .operate .refund 3, .evict 3603, .operate .acquire 3603] =
      some ⟨some ⟨1, 3603⟩, 3603,
        [⟨0, .verdict ⟨true, 0⟩⟩, ⟨1, .verdict ⟨true, 0⟩⟩,
          ⟨2, .verdict ⟨false, 718⟩⟩, ⟨3, .refunded⟩,
          ⟨3603, .verdict ⟨true, 0⟩⟩]⟩ := by decide +kernel
  have hrun := reaches_of_replay (fun _ _ _ => trivial) hreplay
  exact ⟨_, hrun, by decide +kernel, by decide +kernel,
    net_allowed_le .default hrun 0 3603 (by norm_num)⟩

/-! ## Evicting an idle bucket changes no reply -/

/-- A store that evicts against one that keeps every key: same replies so far,
and a key that only the second still holds is worth a full bucket. -/
structure Matches (limits : Limits) (evicting keeping : State) : Prop where
  clock_le : keeping.clock ≤ evicting.clock
  history_eq : keeping.history = evicting.history
  tokens_nonneg : ∀ bucket ∈ keeping.bucket, 0 ≤ bucket.tokens
  bucket : evicting.bucket = keeping.bucket ∨
    (evicting.bucket = none ∧
      limits.balance keeping.bucket evicting.clock = limits.capacity)

theorem matches_start (limits : Limits) (clock : ℚ) :
    Matches limits (start clock) (start clock) where
  clock_le := le_refl clock
  history_eq := rfl
  tokens_nonneg := by simp [start]
  bucket := .inl rfl

/-- `acquire` sees the hash only through the balance it computes. -/
theorem acquire_congr (limits : Limits) {left right : Option Bucket} {now : ℚ}
    (hbalance : limits.balance left now = limits.balance right now) :
    acquire limits.capacity limits.refillPerHour left now =
      acquire limits.capacity limits.refillPerHour right now := by
  simp only [acquire]
  change available limits.capacity limits.refillPerHour left now =
    available limits.capacity limits.refillPerHour right now at hbalance
  rw [hbalance]

/-- One call from matching buckets: the same reply, and matching buckets again. -/
theorem perform_matches (limits : Limits) (operation : Operation)
    {keeping bucket : Option Bucket} {now : ℚ} {reply : Reply}
    (hfull : limits.balance keeping now = limits.capacity)
    (hperform : perform limits operation none now = .ok (bucket, reply)) :
    ∃ kept, perform limits operation keeping now = .ok (kept, reply) ∧
      (bucket = kept ∨
        (bucket = none ∧ limits.balance kept now = limits.capacity)) := by
  cases operation with
  | acquire =>
      have hsame := @acquire_congr limits none keeping now hfull.symm
      refine ⟨bucket, ?_, .inl rfl⟩
      simpa only [perform, ← hsame] using hperform
  | refund =>
      have hnone : refund limits.capacity limits.refillPerHour keeping now = none := by
        rcases limits.refund_cases keeping now with ⟨-, hrefund⟩ | ⟨hroom, -⟩
        · exact hrefund
        · exact absurd hfull hroom.ne
      obtain ⟨rfl, rfl⟩ : bucket = none ∧ reply = .refunded := by
        simpa [perform, refund, eq_comm, pure, Except.pure] using hperform
      exact ⟨keeping, by simp [perform, hnone, pure, Except.pure],
        .inr ⟨rfl, hfull⟩⟩

/-- An operation is answered alike by both stores. -/
theorem Matches.operate {limits : Limits} {evicting keeping next : State}
    {operation : Operation} {now : ℚ}
    (hmatches : Matches limits evicting keeping)
    (hstep : step limits evicting (.operate operation now) = some next) :
    ∃ kept, step limits keeping (.operate operation now) = some kept ∧
      Matches limits next kept := by
  rcases step_cases hstep with
    ⟨_, _, bucket, reply, hlabel, htime, hperform, rfl⟩ | ⟨_, _, hlabel, -⟩
  · cases hlabel
    have hagree : ∃ kept,
        perform limits operation keeping.bucket now = .ok (kept, reply) ∧
          (bucket = kept ∨
            (bucket = none ∧ limits.balance kept now = limits.capacity)) := by
      rcases hmatches.bucket with hsame | ⟨hnone, hfull⟩
      · exact ⟨bucket, hsame ▸ hperform, .inl rfl⟩
      · rw [hnone] at hperform
        exact perform_matches limits operation
          (limits.balance_eq_capacity_of_le _ htime hfull) hperform
    obtain ⟨kept, hkept, hbuckets⟩ := hagree
    have hclock := hmatches.clock_le.trans htime
    refine ⟨⟨kept, now, keeping.history ++ [⟨now, reply⟩]⟩, ?_, ?_⟩
    · simp only [step, if_pos hclock, hkept]
    · obtain ⟨_, _, hkept', houtcome⟩ :=
        perform_outcome limits operation keeping.bucket now
      rw [hkept] at hkept'
      cases hkept'
      refine ⟨le_refl now, by rw [hmatches.history_eq], ?_, hbuckets⟩
      exact houtcome.tokens_nonneg hmatches.tokens_nonneg
        (limits.balance_nonneg _ _ hmatches.tokens_nonneg)
  · cases hlabel

/-- An eviction is a step of the evicting store alone. -/
theorem Matches.evict {limits : Limits} {evicting keeping next : State} {now : ℚ}
    (hmatches : Matches limits evicting keeping)
    (hstep : step limits evicting (.evict now) = some next) :
    Matches limits next keeping := by
  rcases step_cases hstep with
    ⟨_, _, _, _, hlabel, -⟩ | ⟨_, bucket, hlabel, htime, hbucket, hidle, rfl⟩
  · cases hlabel
  · cases hlabel
    refine ⟨hmatches.clock_le.trans htime, hmatches.history_eq,
      hmatches.tokens_nonneg, .inr ⟨rfl, ?_⟩⟩
    rcases hmatches.bucket with hsame | ⟨hnone, -⟩
    · have hkeeping : keeping.bucket = some bucket := hsame ▸ hbucket
      rw [hkeeping]
      exact limits.balance_of_evictable
        (hmatches.tokens_nonneg bucket hkeeping) hidle
    · exact absurd (hbucket.symm.trans hnone) (by simp)

/-- Whole runs of matching stores: the keeping one replays the operations of the
evicting one's run. -/
theorem Matches.replay {limits : Limits} {evicting keeping final : State}
    {labels : List Label} (hmatches : Matches limits evicting keeping)
    (hreplay : replay (step limits) evicting labels = some final) :
    ∃ kept, TransitionSystem.replay (step limits) keeping
        (labels.filter Label.isOperation) = some kept ∧
      Matches limits final kept := by
  induction labels generalizing evicting keeping with
  | nil =>
      obtain rfl : evicting = final := by
        simpa [TransitionSystem.replay] using hreplay
      exact ⟨keeping, rfl, hmatches⟩
  | cons label labels ih =>
      simp only [TransitionSystem.replay, Option.bind_eq_some_iff] at hreplay
      obtain ⟨next, hstep, hrest⟩ := hreplay
      cases label with
      | operate operation now =>
          obtain ⟨kept, hkept, hnext⟩ := hmatches.operate hstep
          obtain ⟨last, hlast, hfinal⟩ := ih hnext hrest
          refine ⟨last, ?_, hfinal⟩
          rw [List.filter_cons_of_pos rfl, TransitionSystem.replay, hkept]
          exact hlast
      | evict now =>
          obtain ⟨last, hlast, hfinal⟩ := ih (hmatches.evict hstep) hrest
          exact ⟨last, hlast, hfinal⟩

/-- A store that drops the key once its TTL has passed gives every call of every
run the reply a store that never drops it gives. -/
theorem eviction_unobservable (limits : Limits) {clock : ℚ} {final : State}
    (labels : List Label)
    (hevicting : replay (step limits) (start clock) labels = some final) :
    ∃ kept, replay (step limits) (start clock)
        (labels.filter Label.isOperation) = some kept ∧
      kept.history = final.history := by
  obtain ⟨kept, hkept, hmatches⟩ :=
    (matches_start limits clock).replay hevicting
  exact ⟨kept, hkept, hmatches.history_eq⟩

/-- A denied call, then an eviction at the end of the TTL, then a refund that
finds no key and an acquire that finds a full bucket. -/
theorem eviction_unobservable_idle_hour :
    ∃ kept, replay (step .default) (start 0)
        [.operate .acquire 0, .operate .acquire 0, .operate .acquire 0,
          .operate .refund 3600, .operate .acquire 3600] = some kept ∧
      kept.history =
        [⟨0, .verdict ⟨true, 0⟩⟩, ⟨0, .verdict ⟨true, 0⟩⟩,
          ⟨0, .verdict ⟨false, 720⟩⟩, ⟨3600, .refunded⟩,
          ⟨3600, .verdict ⟨true, 0⟩⟩] :=
  @eviction_unobservable .default 0 ⟨some ⟨1, 3600⟩, 3600, _⟩
    [.operate .acquire 0, .operate .acquire 0, .operate .acquire 0,
      .evict 3600, .operate .refund 3600, .operate .acquire 3600]
    (by decide +kernel)

end DownloaderBot.RatelimitRuns
