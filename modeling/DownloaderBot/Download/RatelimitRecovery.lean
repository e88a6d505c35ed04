import DownloaderBot.Download.RatelimitRuns

/-!
# Recovery from a denial, and from a refunded acquire

Two laws of the balance that hold for every bucket the limiter can leave behind, whatever
the clocks that left it.  A denied `acquire` names the exact wait, which further attempts
neither lengthen nor shorten.  A `refund` undoes the `acquire` before it.  Redis may drop
the key at any moment from the end of its TTL on.
-/

namespace DownloaderBot.RatelimitRecovery

open DownloaderBot.Ratelimit
open DownloaderBot.RatelimitRuns
open DownloaderBot.TransitionSystem

/-- A committed call by any clock; Redis may drop the key at any moment. -/
def drift (limits : Limits) (raw : Option Bucket) : Label → Option (Option Bucket)
  | .operate operation now =>
      match perform limits operation raw now with
      | .ok (bucket, _) => some bucket
      | .error _ => none
  | .evict _ => some none

/-- The bucket is reached from an absent key. -/
def Reachable (limits : Limits) (raw : Option Bucket) : Prop :=
  Reaches (drift limits) unrestricted none raw

/-- `acquire` takes a token. -/
def Allows (limits : Limits) (raw : Option Bucket) (now : ℚ) : Prop :=
  ∃ bucket, acquire limits.capacity limits.refillPerHour raw now = .ok (bucket, ⟨true, 0⟩)

/-- `acquire` is denied, and leaves this bucket. -/
def Denies (limits : Limits) (raw : Option Bucket) (now : ℚ) (bucket : Bucket)
    (retryAfter : ℚ) : Prop :=
  acquire limits.capacity limits.refillPerHour raw now = .ok (bucket, ⟨false, retryAfter⟩)

instance (limits : Limits) (raw : Option Bucket) (now : ℚ) (bucket : Bucket)
    (retryAfter : ℚ) : Decidable (Denies limits raw now bucket retryAfter) :=
  inferInstanceAs (Decidable (_ = _))

/-- The step is a denied attempt, or an eviction. -/
def Polls (limits : Limits) (state : State) : Label → Prop
  | .operate .acquire now => ∃ bucket retryAfter,
      Denies limits state.bucket now bucket retryAfter
  | .operate .refund _ => False
  | .evict _ => True

/-- The step is no operation. -/
def Idle (_ : State) (label : Label) : Prop := label.isOperation = false

section Outcomes

variable {limits : Limits} {raw : Option Bucket} {now : ℚ}

theorem allows_iff : Allows limits raw now ↔ 1 ≤ limits.balance raw now := by
  rcases limits.acquire_cases raw now with ⟨htoken, hacquire⟩ | ⟨htoken, hacquire⟩
  · exact iff_of_true ⟨_, hacquire⟩ htoken
  · refine iff_of_false ?_ htoken.not_ge
    rintro ⟨bucket, hallowed⟩
    rw [hacquire] at hallowed
    cases hallowed

/-- A denied attempt leaves the balance it finds and names the time one token takes. -/
theorem Denies.elim {bucket : Bucket} {retryAfter : ℚ}
    (hdenied : Denies limits raw now bucket retryAfter) :
    limits.balance raw now < 1 ∧ bucket = ⟨limits.balance raw now, now⟩ ∧
      retryAfter = (1 - limits.balance raw now) / limits.rate := by
  rcases limits.acquire_cases raw now with ⟨htoken, hacquire⟩ | ⟨htoken, hacquire⟩
  · rw [Denies, hacquire] at hdenied
    cases hdenied
  · rw [Denies, hacquire] at hdenied
    cases hdenied
    exact ⟨htoken, rfl, rfl⟩

/-- No bucket is overdrawn. -/
theorem Reachable.tokens_nonneg (hreachable : Reachable limits raw) :
    ∀ bucket ∈ raw, 0 ≤ bucket.tokens := by
  induction hreachable with
  | refl =>
      rintro bucket ⟨⟩
  | @tail before after label _ _ hstep ih =>
      cases label with
      | operate operation now =>
          obtain ⟨bucket, reply, hperform, houtcome⟩ :=
            perform_outcome limits operation before now
          simp only [drift, hperform, Option.some.injEq] at hstep
          subst hstep
          exact houtcome.tokens_nonneg ih (limits.balance_nonneg before now ih)
      | evict now =>
          cases hstep
          rintro bucket ⟨⟩

end Outcomes

/-! ## What leaves the balance alone -/

/-- The bucket is not overdrawn, and of the past. -/
structure Settled (state : State) : Prop where
  tokens_nonneg : ∀ bucket ∈ state.bucket, 0 ≤ bucket.tokens
  past : ∀ bucket ∈ state.bucket, bucket.lastRefill ≤ state.clock

/-- A settled bucket of a later time that is worth the same from then on. -/
structure Preserved (limits : Limits) (before after : State) : Prop where
  settled : Settled after
  clock_le : before.clock ≤ after.clock
  balance : ∀ later ≥ after.clock,
    limits.balance after.bucket later = limits.balance before.bucket later

variable {limits : Limits}

theorem Preserved.trans {first middle last : State} (hleft : Preserved limits first middle)
    (hright : Preserved limits middle last) : Preserved limits first last where
  settled := hright.settled
  clock_le := hleft.clock_le.trans hright.clock_le
  balance later hlater := (hright.balance later hlater).trans
    (hleft.balance later (hright.clock_le.trans hlater))

/-- A bucket just written is settled. -/
theorem settled_written {tokens now : ℚ} {history : List Entry} (htokens : 0 ≤ tokens) :
    Settled ⟨some ⟨tokens, now⟩, now, history⟩ := by
  constructor
  · rintro written ⟨⟩
    exact htokens
  · rintro written ⟨⟩
    exact le_refl now

theorem settled_none {now : ℚ} {history : List Entry} : Settled ⟨none, now, history⟩ := by
  constructor <;> rintro written ⟨⟩

/-- A poll changes no later balance. -/
theorem preserved_step {state next : State} {label : Label} (hsettled : Settled state)
    (hpolls : Polls limits state label) (hstep : step limits state label = some next) :
    Preserved limits state next := by
  rcases step_cases hstep with
    ⟨operation, now, bucket, reply, rfl, htime, hperform, rfl⟩ |
    ⟨now, bucket, rfl, htime, hbucket, hidle, rfl⟩
  · cases operation with
    | refund => exact hpolls.elim
    | acquire =>
        obtain ⟨written, retryAfter, hdenied⟩ := hpolls
        obtain ⟨-, rfl, -⟩ := hdenied.elim
        rw [Denies] at hdenied
        simp only [perform, hdenied] at hperform
        cases hperform
        have hnonneg := limits.balance_nonneg state.bucket now hsettled.tokens_nonneg
        refine ⟨settled_written hnonneg, htime, fun later hlater => ?_⟩
        exact limits.balance_rewritten
          (fun written hwritten => (hsettled.past written hwritten).trans htime) hlater
  · refine ⟨settled_none, htime, fun later hlater => ?_⟩
    have hfull : limits.balance (some bucket) later = limits.capacity :=
      limits.balance_of_evictable (hsettled.tokens_nonneg bucket hbucket)
        (hidle.trans hlater)
    rw [hbucket, hfull, limits.balance_none]

/-- Nor does any number of polls. -/
theorem preserved_of_reaches {state last : State} (hsettled : Settled state)
    (hrun : Reaches (step limits) (Polls limits) state last) :
    Preserved limits state last := by
  refine hrun.invariant ⟨hsettled, le_refl _, fun _ _ => rfl⟩ ?_
  intro middle label next hpreserved hpolls hstep
  exact hpreserved.trans (preserved_step hpreserved.settled hpolls hstep)

/-- Nor does time alone. -/
theorem preserved_of_idle {state last : State} (hsettled : Settled state)
    (hrun : Reaches (step limits) Idle state last) : Preserved limits state last := by
  refine preserved_of_reaches hsettled (hrun.mono fun state label hidle => ?_)
  cases label with
  | operate _ _ => cases hidle
  | evict _ => trivial

/-! ## The advertised wait -/

/-- A denied `acquire` advertises a positive wait, and however often one polls meanwhile,
an `acquire` is allowed exactly from the end of that wait on. -/
theorem allows_iff_of_denies (limits : Limits) {raw : Option Bucket}
    (hreachable : Reachable limits raw) {now retryAfter : ℚ} {bucket : Bucket}
    (hdenied : Denies limits raw now bucket retryAfter) :
    0 < retryAfter ∧
      ∀ polled, Reaches (step limits) (Polls limits) ⟨some bucket, now, []⟩ polled →
        ∀ later ≥ polled.clock,
          Allows limits polled.bucket later ↔ now + retryAfter ≤ later := by
  obtain ⟨htoken, rfl, rfl⟩ := hdenied.elim
  have hnonneg : 0 ≤ limits.balance raw now :=
    limits.balance_nonneg raw now hreachable.tokens_nonneg
  refine ⟨div_pos (sub_pos.mpr htoken) limits.rate_pos, fun polled hrun later hlater => ?_⟩
  have hpreserved := preserved_of_reaches (settled_written hnonneg) hrun
  rw [allows_iff, hpreserved.balance later hlater]
  exact TokenBucket.le_level_iff limits.rate_pos limits.one_le_capacity_cast
    (hpreserved.clock_le.trans hlater)

/-- Two polls while the one token of a bucket comes back. -/
theorem allows_iff_of_denies_polled :
    let limits : Limits := ⟨1, 60, by decide, by decide⟩
    ∃ raw bucket polled, Reachable limits raw ∧ Denies limits raw 6 bucket 54 ∧
      Reaches (step limits) (Polls limits) ⟨some bucket, 6, []⟩ polled ∧
      polled.history = [⟨20, .verdict ⟨false, 40⟩⟩, ⟨59, .verdict ⟨false, 1⟩⟩] ∧
      (Allows limits polled.bucket 60 ↔ (6 : ℚ) + 54 ≤ 60) := by
  intro limits
  have hreachable : Reachable limits (some ⟨0, 0⟩) :=
    Reaches.refl.tail (.operate .acquire 0) trivial (by decide +kernel)
  have hdenied : Denies limits (some ⟨0, 0⟩) 6 ⟨1 / 10, 6⟩ 54 := by decide +kernel
  have hfirst : Polls limits ⟨some ⟨1 / 10, 6⟩, 6, []⟩ (.operate .acquire 20) :=
    ⟨⟨1 / 3, 20⟩, 40, by decide +kernel⟩
  have hsecond : Polls limits ⟨some ⟨1 / 3, 20⟩, 20, [⟨20, .verdict ⟨false, 40⟩⟩]⟩
      (.operate .acquire 59) :=
    ⟨⟨59 / 60, 59⟩, 1, by decide +kernel⟩
  have hpolled : Reaches (step limits) (Polls limits) ⟨some ⟨1 / 10, 6⟩, 6, []⟩
      ⟨some ⟨59 / 60, 59⟩, 59,
        [⟨20, .verdict ⟨false, 40⟩⟩, ⟨59, .verdict ⟨false, 1⟩⟩]⟩ :=
    (Reaches.refl.tail _ hfirst (by decide +kernel)).tail _ hsecond (by decide +kernel)
  exact ⟨_, _, _, hreachable, hdenied, hpolled, rfl,
    (allows_iff_of_denies limits hreachable hdenied).2 _ hpolled 60 (by decide +kernel)⟩

/-! ## What a refund gives back -/

/-- A full balance that a token has been taken from was full before. -/
theorem balance_eq_capacity_of_taken {raw : Option Bucket} {taken later : ℚ}
    (hpast : ∀ bucket ∈ raw, bucket.lastRefill ≤ taken) (htime : taken ≤ later)
    (hfull : limits.balance (some ⟨limits.balance raw taken - 1, taken⟩) later =
      limits.capacity) :
    limits.balance raw later = limits.capacity := by
  refine le_antisymm (limits.balance_le_capacity raw later) ?_
  rw [← hfull, ← limits.balance_rewritten hpast htime]
  exact TokenBucket.level_le_level (sub_le_self _ zero_le_one)

/-- The credit makes the balance what it would have been. -/
theorem balance_credited {raw : Option Bucket} {taken now later : ℚ}
    (hpast : ∀ bucket ∈ raw, bucket.lastRefill ≤ taken) (htaken : taken ≤ now)
    (htime : now ≤ later)
    (hroom : limits.balance (some ⟨limits.balance raw taken - 1, taken⟩) now <
      limits.capacity) :
    limits.balance (some ⟨min limits.capacity
      (limits.balance (some ⟨limits.balance raw taken - 1, taken⟩) now + 1), now⟩) later =
        limits.balance raw later := by
  have hcredit : min (limits.capacity : ℚ)
      (limits.balance (some ⟨limits.balance raw taken - 1, taken⟩) now + 1) =
        limits.balance raw now :=
    (TokenBucket.min_level_sub_add hroom).trans (limits.balance_rewritten hpast htaken)
  rw [hcredit]
  exact limits.balance_rewritten
    (fun bucket hbucket => (hpast bucket hbucket).trans htaken) htime

/-- What an allowed `acquire` leaves. -/
theorem step_acquire_of_allows {state next : State} {now : ℚ}
    (hallows : Allows limits state.bucket now)
    (hstep : step limits state (.operate .acquire now) = some next) :
    state.clock ≤ now ∧ 1 ≤ limits.balance state.bucket now ∧
      ∃ history, next = ⟨some ⟨limits.balance state.bucket now - 1, now⟩, now, history⟩ := by
  rcases step_cases hstep with
    ⟨_, _, bucket, reply, hlabel, htime, hperform, rfl⟩ | ⟨_, _, hlabel, -⟩
  · cases hlabel
    have htoken := allows_iff.mp hallows
    rcases limits.acquire_cases state.bucket now with ⟨-, hacquire⟩ | ⟨hshort, -⟩
    · simp only [perform, hacquire] at hperform
      cases hperform
      exact ⟨htime, htoken, _, rfl⟩
    · exact absurd htoken hshort.not_ge
  · cases hlabel

/-- What a `refund` leaves: a full bucket as it is. -/
theorem step_refund {state next : State} {now : ℚ}
    (hstep : step limits state (.operate .refund now) = some next) :
    state.clock ≤ now ∧ ∃ history,
      (limits.balance state.bucket now = limits.capacity ∧
        next = ⟨state.bucket, now, history⟩) ∨
      (limits.balance state.bucket now < limits.capacity ∧
        next = ⟨some ⟨min limits.capacity (limits.balance state.bucket now + 1), now⟩, now,
          history⟩) := by
  rcases step_cases hstep with
    ⟨_, _, bucket, reply, hlabel, htime, hperform, rfl⟩ | ⟨_, _, hlabel, -⟩
  · cases hlabel
    rcases limits.refund_cases state.bucket now with ⟨hfull, hrefund⟩ | ⟨hroom, hrefund⟩
    · simp only [perform, hrefund] at hperform
      cases hperform
      exact ⟨htime, _, .inl ⟨hfull, rfl⟩⟩
    · simp only [perform, hrefund] at hperform
      cases hperform
      exact ⟨htime, _, .inr ⟨hroom, rfl⟩⟩
  · cases hlabel

/-- A `refund` undoes the `acquire` before it: whether or not Redis drops the key, at any
later time the balance is what it would have been without the two. -/
theorem balance_refund_acquire (limits : Limits) {raw : Option Bucket}
    (hreachable : Reachable limits raw) {clock : ℚ}
    (hpast : ∀ bucket ∈ raw, bucket.lastRefill ≤ clock)
    {found taken held returned left kept : State} {acquiredAt refundedAt later : ℚ}
    (hfound : Reaches (step limits) Idle ⟨raw, clock, []⟩ found)
    (hallows : Allows limits found.bucket acquiredAt)
    (hacquire : step limits found (.operate .acquire acquiredAt) = some taken)
    (hheld : Reaches (step limits) Idle taken held)
    (hrefund : step limits held (.operate .refund refundedAt) = some returned)
    (hleft : Reaches (step limits) Idle returned left) (hlater : left.clock ≤ later)
    (hkept : Reaches (step limits) Idle ⟨raw, clock, []⟩ kept) (hsame : kept.clock ≤ later) :
    limits.balance left.bucket later = limits.balance kept.bucket later := by
  have hstart : Settled ⟨raw, clock, []⟩ := ⟨hreachable.tokens_nonneg, hpast⟩
  have hbefore := preserved_of_idle hstart hfound
  obtain ⟨hclock, htoken, _, rfl⟩ := step_acquire_of_allows hallows hacquire
  have hpastTaken : ∀ bucket ∈ raw, bucket.lastRefill ≤ acquiredAt :=
    fun bucket hbucket => (hpast bucket hbucket).trans (hbefore.clock_le.trans hclock)
  -- The acquire finds what the key is worth, also when Redis has dropped it before.
  have hworth : limits.balance found.bucket acquiredAt = limits.balance raw acquiredAt :=
    hbefore.balance acquiredAt hclock
  rw [hworth] at htoken hheld
  have hbetween := preserved_of_idle (settled_written (sub_nonneg.mpr htoken)) hheld
  obtain ⟨hheldClock, history, hreturned⟩ := step_refund hrefund
  have htaken : acquiredAt ≤ refundedAt := hbetween.clock_le.trans hheldClock
  have hnonneg := limits.balance_nonneg held.bucket refundedAt hbetween.settled.tokens_nonneg
  rw [hbetween.balance refundedAt hheldClock] at hreturned hnonneg
  rw [(preserved_of_idle hstart hkept).balance later hsame]
  rcases hreturned with ⟨hfull, rfl⟩ | ⟨hroom, rfl⟩
  · have hsettled : Settled ⟨held.bucket, refundedAt, history⟩ :=
      ⟨hbetween.settled.tokens_nonneg,
        fun bucket hbucket => (hbetween.settled.past bucket hbucket).trans hheldClock⟩
    have hafter := preserved_of_idle hsettled hleft
    have hlate : refundedAt ≤ later := hafter.clock_le.trans hlater
    calc
      limits.balance left.bucket later = limits.balance held.bucket later :=
        hafter.balance later hlater
      _ = limits.balance (some ⟨limits.balance raw acquiredAt - 1, acquiredAt⟩) later :=
        hbetween.balance later (hheldClock.trans hlate)
      _ = limits.capacity := limits.balance_eq_capacity_of_le _ hlate hfull
      _ = limits.balance raw later :=
        (limits.balance_eq_capacity_of_le raw hlate
          (balance_eq_capacity_of_taken hpastTaken htaken hfull)).symm
  · have hcredit := le_min (zero_le_one.trans limits.one_le_capacity_cast)
      (add_nonneg hnonneg zero_le_one)
    have hafter := preserved_of_idle (settled_written hcredit) hleft
    have hlate : refundedAt ≤ later := hafter.clock_le.trans hlater
    calc
      limits.balance left.bucket later = _ := hafter.balance later hlater
      _ = limits.balance raw later :=
        balance_credited hpastTaken htaken hlate hroom

/-- The second token of a burst of two, taken and given back six minutes later. -/
theorem balance_refund_acquire_six_minutes :
    ∃ raw taken returned, Reachable .default raw ∧ raw = some ⟨1, 0⟩ ∧
      step .default ⟨raw, 0, []⟩ (.operate .acquire 0) = some taken ∧
      step .default taken (.operate .refund 360) = some returned ∧
      Limits.default.balance returned.bucket 400 = Limits.default.balance raw 400 := by
  have hreachable : Reachable .default (some ⟨1, 0⟩) :=
    Reaches.refl.tail (.operate .acquire 0) trivial (by decide +kernel)
  have hpast : ∀ bucket ∈ some (⟨1, 0⟩ : Bucket), bucket.lastRefill ≤ 0 := by
    rintro bucket ⟨⟩
    exact le_refl 0
  have hallows : Allows .default (some ⟨1, 0⟩) 0 := allows_iff.mpr (by decide +kernel)
  have hacquire : step .default ⟨some ⟨1, 0⟩, 0, []⟩ (.operate .acquire 0) =
      some ⟨some ⟨0, 0⟩, 0, [⟨0, .verdict ⟨true, 0⟩⟩]⟩ := by decide +kernel
  have hrefund : step .default ⟨some ⟨0, 0⟩, 0, [⟨0, .verdict ⟨true, 0⟩⟩]⟩
      (.operate .refund 360) =
        some ⟨some ⟨3 / 2, 360⟩, 360, [⟨0, .verdict ⟨true, 0⟩⟩, ⟨360, .refunded⟩]⟩ := by
    decide +kernel
  exact ⟨_, _, _, hreachable, rfl, hacquire, hrefund,
    balance_refund_acquire .default hreachable hpast .refl hallows hacquire .refl hrefund
      .refl (by decide +kernel) .refl (by decide +kernel)⟩

end DownloaderBot.RatelimitRecovery
