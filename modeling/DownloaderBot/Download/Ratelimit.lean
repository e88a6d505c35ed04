import DownloaderBot.Core.TokenBucket
import Mathlib.Algebra.Order.Field.Rat
import Mathlib.Data.Rat.Floor
import Mathlib.Tactic.Positivity
import Mathlib.Tactic.FieldSimp

/-!
# The per-guild token bucket

`acquire` and `refund` as they compute on the two fields they read, in exact
rational arithmetic.  Reading the hash, reading the clock and committing under
`WATCH` are left to the users of this file: here a call is a function of the raw
hash (`none` when the key is absent) and of the clock reading.
-/

namespace DownloaderBot.Ratelimit

/-- The hash at `ratelimit:guild:{guild_id}`. -/
structure Bucket where
  tokens : ℚ
  lastRefill : ℚ
  deriving DecidableEq, Repr

/-- What `acquire` returns: `(allowed, retry_after)`. -/
structure Verdict where
  allowed : Bool
  retryAfter : ℚ
  deriving DecidableEq, Repr

inductive ArithmeticError
  | zeroDivision
  deriving DecidableEq, Repr

/-- Twice the worst-case full refill (floor division), at least one hour.  The
runs of buckets take it for a time that Redis can count, in milliseconds within 64 bits. -/
def ttlSeconds (capacity refillPerHour : ℤ) : ℤ :=
  let fullRefill := capacity * 3600 / max refillPerHour 1
  max 3600 (fullRefill * 2)

def refillRate (refillPerHour : ℤ) : ℚ := refillPerHour / 3600

/-- The refilled balance both operations start from when the key is there. -/
def effective (capacity refillPerHour : ℤ) (bucket : Bucket) (now : ℚ) : ℚ :=
  let elapsed := max 0 (now - bucket.lastRefill)
  min capacity (bucket.tokens + elapsed * refillRate refillPerHour)

/-- The balance `acquire` computes from the raw hash. -/
def available (capacity refillPerHour : ℤ) : Option Bucket → ℚ → ℚ
  | none, _ => capacity
  | some bucket, now => effective capacity refillPerHour bucket now

/-- Python's `/`. -/
def trueDiv (dividend divisor : ℚ) : Except ArithmeticError ℚ :=
  if divisor = 0 then .error .zeroDivision else .ok (dividend / divisor)

/-- The hash `acquire` writes (also when it denies) and what it returns. -/
def acquire (capacity refillPerHour : ℤ) (raw : Option Bucket) (now : ℚ) :
    Except ArithmeticError (Bucket × Verdict) := do
  let tokens := available capacity refillPerHour raw now
  if 1 ≤ tokens then
    return (⟨tokens - 1, now⟩, ⟨true, 0⟩)
  else
    let retryAfter ← trueDiv (1 - tokens) (refillRate refillPerHour)
    return (⟨tokens, now⟩, ⟨false, retryAfter⟩)

/-- The hash `refund` writes, or `none` on its two `UNWATCH` exits. -/
def refund (capacity refillPerHour : ℤ) (raw : Option Bucket) (now : ℚ) :
    Option Bucket :=
  match raw with
  | none => none
  | some bucket =>
      let balance := effective capacity refillPerHour bucket now
      if capacity ≤ balance then none
      else some ⟨min capacity (balance + 1), now⟩

/-- The settings under which the limiter limits: both are at least one. -/
structure Limits where
  capacity : ℤ
  refillPerHour : ℤ
  one_le_capacity : 1 ≤ capacity
  one_le_refillPerHour : 1 ≤ refillPerHour

/-- `GUILD_RATE_LIMIT_BURST` and `GUILD_RATE_LIMIT_PER_HOUR` by default. -/
def Limits.default : Limits := ⟨2, 5, by decide, by decide⟩

namespace Limits

variable (limits : Limits)

/-- The balance under these settings. -/
def balance : Option Bucket → ℚ → ℚ :=
  available limits.capacity limits.refillPerHour

def rate : ℚ := refillRate limits.refillPerHour

theorem rate_pos : 0 < limits.rate := by
  have hrefill : (1 : ℚ) ≤ limits.refillPerHour := by
    exact_mod_cast limits.one_le_refillPerHour
  rw [rate, refillRate]
  positivity

theorem one_le_capacity_cast : (1 : ℚ) ≤ limits.capacity := by
  exact_mod_cast limits.one_le_capacity

@[simp]
theorem balance_none (now : ℚ) : limits.balance none now = limits.capacity :=
  rfl

theorem balance_le_capacity (raw : Option Bucket) (now : ℚ) :
    limits.balance raw now ≤ limits.capacity := by
  cases raw with
  | none => exact le_refl _
  | some bucket => exact TokenBucket.level_le_capacity

theorem balance_nonneg (raw : Option Bucket) (now : ℚ)
    (htokens : ∀ bucket ∈ raw, 0 ≤ bucket.tokens) :
    0 ≤ limits.balance raw now := by
  have hcapacity : (0 : ℚ) ≤ limits.capacity :=
    zero_le_one.trans limits.one_le_capacity_cast
  cases raw with
  | none => exact hcapacity
  | some bucket =>
      exact TokenBucket.level_nonneg hcapacity limits.rate_pos.le
        (htokens bucket rfl)

/-- Between two readings the balance grows by at most what refills. -/
theorem balance_le_add (raw : Option Bucket) {now later : ℚ}
    (htime : now ≤ later) :
    limits.balance raw later ≤
      limits.balance raw now + (later - now) * limits.rate := by
  cases raw with
  | none =>
      have := mul_nonneg (sub_nonneg.mpr htime) limits.rate_pos.le
      simpa using this
  | some bucket => exact TokenBucket.level_le_add limits.rate_pos.le htime

/-- A hash just written is worth the tokens in it. -/
theorem balance_written {tokens : ℚ} (now : ℚ)
    (htokens : tokens ≤ limits.capacity) :
    limits.balance (some ⟨tokens, now⟩) now = tokens :=
  TokenBucket.level_self htokens

/-- Once full, the balance stays full. -/
theorem balance_eq_capacity_of_le (raw : Option Bucket) {now later : ℚ}
    (htime : now ≤ later) (hfull : limits.balance raw now = limits.capacity) :
    limits.balance raw later = limits.capacity := by
  cases raw with
  | none => rfl
  | some bucket =>
      exact TokenBucket.level_eq_capacity_of_le limits.rate_pos.le htime hfull

/-- A denied `acquire` writes the balance it finds, which changes no later balance of
a bucket of the past. -/
theorem balance_rewritten {raw : Option Bucket} {now later : ℚ}
    (hpast : ∀ bucket ∈ raw, bucket.lastRefill ≤ now) (htime : now ≤ later) :
    limits.balance (some ⟨limits.balance raw now, now⟩) later =
      limits.balance raw later := by
  cases raw with
  | none =>
      have hfull : limits.balance (some ⟨limits.capacity, now⟩) now = limits.capacity :=
        limits.balance_written now (le_refl _)
      exact limits.balance_eq_capacity_of_le _ htime hfull
  | some bucket =>
      exact TokenBucket.level_level limits.rate_pos.le (hpast bucket rfl) htime

/-- By a clock that has stepped back, it does. -/
theorem balance_lt_balance_rewritten {bucket : Bucket} {now later : ℚ}
    (hearly : now < later) (hlate : later ≤ bucket.lastRefill)
    (hnone : limits.balance (some bucket) now < limits.capacity) :
    limits.balance (some bucket) later <
      limits.balance (some ⟨limits.balance (some bucket) now, now⟩) later :=
  TokenBucket.level_lt_level_of_lt limits.rate_pos hearly hlate hnone

/-- The floor division in `ttlSeconds` never undercuts the time an empty bucket
needs to refill. -/
theorem capacity_le_ttlSeconds_mul_rate :
    (limits.capacity : ℚ) ≤
      ttlSeconds limits.capacity limits.refillPerHour * limits.rate := by
  obtain ⟨capacity, refill, hcapacity, hrefill⟩ := limits
  have hmax : max refill 1 = refill := max_eq_left hrefill
  have httl : capacity * 3600 ≤ ttlSeconds capacity refill * refill := by
    simp only [ttlSeconds, hmax]
    set full := capacity * 3600 / refill with hfull
    have hfloor : capacity * 3600 < (full + 1) * refill := by
      have := Int.lt_ediv_add_one_mul_self (capacity * 3600)
        (by omega : 0 < refill)
      simpa [hfull] using this
    have hnonneg : 0 ≤ full := Int.ediv_nonneg (by omega) (by omega)
    -- `full + 1 ≤ max 3600 (full * 2)`, whether `full` is zero or not.
    have hcovers : full + 1 ≤ max 3600 (full * 2) := by omega
    nlinarith
  have hcast : ((capacity * 3600 : ℤ) : ℚ) ≤
      ((ttlSeconds capacity refill * refill : ℤ) : ℚ) := by exact_mod_cast httl
  push_cast at hcast
  have hrate : (ttlSeconds capacity refill : ℚ) *
      Limits.rate ⟨capacity, refill, hcapacity, hrefill⟩ =
        ttlSeconds capacity refill * refill / 3600 := by
    simp only [rate, refillRate]
    ring
  rw [hrate, le_div_iff₀ (by norm_num)]
  exact hcast

/-- A hash untouched for the whole TTL is worth a full bucket: evicting it
changes no balance. -/
theorem balance_of_evictable {bucket : Bucket} {now : ℚ}
    (htokens : 0 ≤ bucket.tokens)
    (hidle : bucket.lastRefill +
      ttlSeconds limits.capacity limits.refillPerHour ≤ now) :
    limits.balance (some bucket) now = limits.capacity := by
  apply TokenBucket.level_eq_capacity limits.rate_pos.le htokens
  calc
    (limits.capacity : ℚ) ≤
        ttlSeconds limits.capacity limits.refillPerHour * limits.rate :=
      limits.capacity_le_ttlSeconds_mul_rate
    _ ≤ (now - bucket.lastRefill) * limits.rate :=
      mul_le_mul_of_nonneg_right (by linarith) limits.rate_pos.le

/-- What `acquire` does, by the balance it finds. -/
theorem acquire_cases (raw : Option Bucket) (now : ℚ) :
    (1 ≤ limits.balance raw now ∧
      acquire limits.capacity limits.refillPerHour raw now =
        .ok (⟨limits.balance raw now - 1, now⟩, ⟨true, 0⟩)) ∨
    (limits.balance raw now < 1 ∧
      acquire limits.capacity limits.refillPerHour raw now =
        .ok (⟨limits.balance raw now, now⟩,
          ⟨false, (1 - limits.balance raw now) / limits.rate⟩)) := by
  by_cases htoken : 1 ≤ limits.balance raw now
  · left
    refine ⟨htoken, ?_⟩
    exact if_pos htoken
  · right
    refine ⟨not_le.mp htoken, ?_⟩
    refine (if_neg htoken).trans ?_
    have hdiv : trueDiv (1 - limits.balance raw now) limits.rate =
        .ok ((1 - limits.balance raw now) / limits.rate) :=
      if_neg limits.rate_pos.ne'
    change (trueDiv (1 - limits.balance raw now) limits.rate >>= _) = _
    rw [hdiv]
    rfl

/-- What `refund` does, by the hash and the balance it finds: its two exits
leave a full balance, the credit is capped. -/
theorem refund_cases (raw : Option Bucket) (now : ℚ) :
    (limits.balance raw now = limits.capacity ∧
      refund limits.capacity limits.refillPerHour raw now = none) ∨
    (limits.balance raw now < limits.capacity ∧
      refund limits.capacity limits.refillPerHour raw now =
        some ⟨min limits.capacity (limits.balance raw now + 1), now⟩) := by
  cases raw with
  | none => exact .inl ⟨rfl, rfl⟩
  | some bucket =>
      by_cases hfull : (limits.capacity : ℚ) ≤ limits.balance (some bucket) now
      · left
        exact ⟨le_antisymm (limits.balance_le_capacity _ _) hfull,
          if_pos hfull⟩
      · right
        exact ⟨not_le.mp hfull, if_neg hfull⟩

end Limits

end DownloaderBot.Ratelimit
