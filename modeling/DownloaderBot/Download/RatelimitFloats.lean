import DownloaderBot.Core.Floats
import DownloaderBot.Download.RatelimitRuns

/-!
# The bucket in floats

`acquire` and `refund` in the arithmetic of Python: an integer may be too large for a float,
a division by zero raises, and every result is rounded.  What a product or a sum may overflow
to is cut off at the capacity, so it needs no infinity here.
-/

namespace DownloaderBot.RatelimitFloats

open DownloaderBot.Floats
open DownloaderBot.Ratelimit (Bucket Verdict)
open DownloaderBot.RatelimitRuns (Operation Reply)
open DownloaderBot.TransitionSystem

inductive ArithmeticError
  | overflow
  | zeroDivision
  deriving DecidableEq, Repr

/-- The integer does not round to more than the largest float. -/
def Convertible (number : ℤ) : Prop := |number| < 2 ^ 1024 - 2 ^ 970

instance (number : ℤ) : Decidable (Convertible number) := inferInstanceAs (Decidable (_ < _))

/-- Python's `float` of an integer. -/
def toFloat (number : ℤ) : Except ArithmeticError ℚ :=
  if Convertible number then .ok (double.round number) else .error .overflow

/-- Python's `/` of two floats. -/
def trueDiv (dividend divisor : ℚ) : Except ArithmeticError ℚ :=
  if divisor = 0 then .error .zeroDivision else .ok (double.round (dividend / divisor))

/-- The refilled balance both operations start from when the key is there. -/
def effective (capacity refillRate : ℚ) (bucket : Bucket) (now : ℚ) : ℚ :=
  let elapsed := max 0 (double.round (now - bucket.lastRefill))
  min capacity (double.round (bucket.tokens + double.round (elapsed * refillRate)))

/-- `refill_per_hour / 3600.0`, which converts the integer first. -/
def refillRate (refillPerHour : ℤ) : Except ArithmeticError ℚ := do
  trueDiv (← toFloat refillPerHour) 3600

/-- The hash `acquire` writes (also when it denies) and what it returns. -/
def acquire (capacity refillPerHour : ℤ) (raw : Option Bucket) (now : ℚ) :
    Except ArithmeticError (Bucket × Verdict) := do
  let rate ← refillRate refillPerHour
  let full ← toFloat capacity
  let tokens := raw.elim full fun bucket => effective full rate bucket now
  if 1 ≤ tokens then
    return (⟨double.round (tokens - 1), now⟩, ⟨true, 0⟩)
  else
    let retryAfter ← trueDiv (double.round (1 - tokens)) rate
    return (⟨tokens, now⟩, ⟨false, retryAfter⟩)

/-- The hash `refund` writes, or `none` on its two `UNWATCH` exits. -/
def refund (capacity refillPerHour : ℤ) (raw : Option Bucket) (now : ℚ) :
    Except ArithmeticError (Option Bucket) := do
  let rate ← refillRate refillPerHour
  match raw with
  | none => return none
  | some bucket =>
      let full ← toFloat capacity
      let balance := effective full rate bucket now
      if full ≤ balance then return none
      else return some ⟨min full (double.round (balance + 1)), now⟩

/-! ## Runs -/

section Runs

variable (capacity refillPerHour : ℤ)

/-- The committed effect of one call: the hash it leaves and what it returns. -/
def perform (operation : Operation) (raw : Option Bucket) (now : ℚ) :
    Except ArithmeticError (Option Bucket × Reply) :=
  match operation with
  | .acquire => do
      let (bucket, verdict) ← acquire capacity refillPerHour raw now
      return (some bucket, .verdict verdict)
  | .refund => do
      let written ← refund capacity refillPerHour raw now
      return (written.or raw, .refunded)

/-- A call that has ended, and the hash after it. -/
structure Entry where
  outcome : Except ArithmeticError Reply
  bucket : Option Bucket

structure State where
  bucket : Option Bucket
  history : List Entry

/-- Any call with any clock reading, or Redis dropping the key. -/
inductive Label
  | operate (operation : Operation) (now : ℚ)
  | evict
  deriving DecidableEq, Repr

/-- A call that raises writes nothing. -/
def call (operation : Operation) (raw : Option Bucket) (now : ℚ) : Entry :=
  match perform capacity refillPerHour operation raw now with
  | .ok (bucket, reply) => ⟨.ok reply, bucket⟩
  | .error raised => ⟨.error raised, raw⟩

def step (state : State) : Label → Option State
  | .operate operation now =>
      let entry := call capacity refillPerHour operation state.bucket now
      some ⟨entry.bucket, state.history ++ [entry]⟩
  | .evict => some { state with bucket := none }

/-- No key yet, and nothing done. -/
def start : State := ⟨none, []⟩

/-- `(True, 0)`, or `(False, retry_after)` with a wait; `refund` returns nothing. -/
def Proper : Reply → Prop
  | .verdict verdict =>
      verdict.allowed = true ∧ verdict.retryAfter = 0 ∨
        verdict.allowed = false ∧ 0 < verdict.retryAfter
  | .refunded => True

/-- `returned`: no error was raised.  `tokens`: the stored balance is in bounds. -/
structure Fine (entry : Entry) : Prop where
  returned : ∃ reply, entry.outcome = .ok reply ∧ Proper reply
  tokens : ∀ bucket ∈ entry.bucket, 0 ≤ bucket.tokens ∧ bucket.tokens ≤ capacity

/-- The settings that the operation converts are not too large, nor is the capacity rounded
up; and the bucket refills, or the acquire finds a token. -/
def SafeCall (operation : Operation) (raw : Option Bucket) : Prop :=
  match operation with
  | .acquire =>
      Convertible refillPerHour ∧ (Convertible capacity ∧ double.round capacity ≤ capacity) ∧
        (0 < refillPerHour ∨ ∀ bucket ∈ raw, 1 ≤ bucket.tokens)
  | .refund => Convertible refillPerHour

def Safe (state : State) : Label → Prop
  | .operate operation _ => SafeCall capacity refillPerHour operation state.bucket
  | .evict => True

instance (state : State) :
    (label : Label) → Decidable (Safe capacity refillPerHour state label)
  | .operate .acquire _ => inferInstanceAs (Decidable (_ ∧ (_ ∧ _) ∧ (_ ∨ ∀ bucket ∈ _, _)))
  | .operate .refund _ => inferInstanceAs (Decidable (Convertible _))
  | .evict => .isTrue trivial

/-- No call of the run raised, every reply was proper, and the balance stayed in bounds. -/
def AllFine (state : State) : Prop := ∀ entry ∈ state.history, Fine capacity entry

end Runs

/-! ## One call -/

section Calls

variable {capacity refillPerHour : ℤ} {bucket : Bucket} {raw : Option Bucket} {now : ℚ}

theorem isFloat_one : double.IsFloat 1 := by
  have hfloat := @Format.isFloat_natCast double 1 (by decide) (by decide)
  rwa [Nat.cast_one] at hfloat

/-- The rate that a convertible setting comes to. -/
def rateOf (refillPerHour : ℤ) : ℚ := double.round (double.round refillPerHour / 3600)

theorem refillRate_of_convertible (hconvertible : Convertible refillPerHour) :
    refillRate refillPerHour = .ok (rateOf refillPerHour) := by
  have hdivisor : (3600 : ℚ) ≠ 0 := by norm_num
  rw [refillRate, toFloat, if_pos hconvertible]
  change trueDiv (double.round refillPerHour) 3600 = _
  rw [trueDiv, if_neg hdivisor]
  rfl

theorem refillRate_of_not (hnot : ¬ Convertible refillPerHour) :
    refillRate refillPerHour = .error .overflow := by
  rw [refillRate, toFloat, if_neg hnot]
  rfl

theorem rateOf_zero : rateOf 0 = 0 := by
  simp [rateOf]

theorem rateOf_pos (hrefill : 0 < refillPerHour) : 0 < rateOf refillPerHour := by
  have hone : (1 : ℚ) ≤ double.round refillPerHour :=
    isFloat_one.le_round zero_le_one (by exact_mod_cast hrefill)
  have hfloat : double.IsFloat (2 ^ (-12 : ℤ)) := Format.isFloat_zpow (by decide)
  have hle : (2 : ℚ) ^ (-12 : ℤ) ≤ double.round refillPerHour / 3600 := by
    norm_num
    linarith
  exact (zpow_pos two_pos (-12)).trans_le (hfloat.le_round (zpow_pos two_pos _).le hle)

theorem rateOf_nonneg (hrefill : 0 ≤ refillPerHour) : 0 ≤ rateOf refillPerHour := by
  rcases hrefill.eq_or_lt with rfl | hpos
  · exact rateOf_zero.ge
  · exact (rateOf_pos hpos).le

theorem cast_le_zpow {number : ℤ} {exponent : ℕ} (hle : number ≤ 2 ^ exponent) :
    (number : ℚ) ≤ 2 ^ (exponent : ℤ) := by
  rw [zpow_natCast]
  exact_mod_cast hle

theorem Convertible.round_le {number : ℤ} (hconvertible : Convertible number)
    (hnumber : 0 ≤ number) : double.round number ≤ 2 ^ (1024 : ℤ) := by
  have hlimit : |number| ≤ 2 ^ 1024 :=
    hconvertible.le.trans (sub_le_self _ (pow_nonneg (by decide) 970))
  exact (Format.isFloat_zpow (by decide)).round_le (by exact_mod_cast hnumber)
    (cast_le_zpow ((le_abs_self number).trans hlimit))

theorem rateOf_le (hrefill : 0 ≤ refillPerHour) (hconvertible : Convertible refillPerHour) :
    rateOf refillPerHour ≤ 2 ^ (1013 : ℤ) := by
  have hnonneg : (0 : ℚ) ≤ refillPerHour := by exact_mod_cast hrefill
  have hquotient : double.round refillPerHour / 3600 ≤ 2 ^ (1013 : ℤ) := by
    rw [div_le_iff₀ (by norm_num)]
    calc
      double.round refillPerHour ≤ 2 ^ (1013 + 11 : ℤ) := hconvertible.round_le hrefill
      _ = 2 ^ (1013 : ℤ) * 2 ^ (11 : ℤ) := zpow_add₀ two_ne_zero _ _
      _ ≤ 2 ^ (1013 : ℤ) * 3600 :=
        mul_le_mul_of_nonneg_left (by norm_num) (zpow_pos two_pos _).le
  exact (Format.isFloat_zpow (by decide)).round_le
    (div_nonneg (Format.round_nonneg hnonneg) (by norm_num)) hquotient

/-- The wait for a token does not round to zero. -/
theorem retryAfter_pos {tokens : ℚ} (hrefill : 0 < refillPerHour)
    (hconvertible : Convertible refillPerHour) (htokens : double.IsFloat tokens)
    (hlt : tokens < 1) :
    0 < double.round (double.round (1 - tokens) / rateOf refillPerHour) := by
  have hgap : (2 : ℚ) ^ (-53 : ℤ) ≤ 1 - tokens := by
    have hle := htokens.le_one_sub hlt
    change tokens ≤ 1 - 2 ^ (-53 : ℤ) at hle
    linarith
  have hmissing : (2 : ℚ) ^ (-53 : ℤ) ≤ double.round (1 - tokens) :=
    (Format.isFloat_zpow (by decide)).le_round (zpow_pos two_pos _).le hgap
  have hquotient : (2 : ℚ) ^ (-1066 : ℤ) ≤
      double.round (1 - tokens) / rateOf refillPerHour := by
    rw [le_div_iff₀ (rateOf_pos hrefill)]
    calc
      (2 : ℚ) ^ (-1066 : ℤ) * rateOf refillPerHour ≤ 2 ^ (-1066 : ℤ) * 2 ^ (1013 : ℤ) :=
        mul_le_mul_of_nonneg_left (rateOf_le hrefill.le hconvertible) (zpow_pos two_pos _).le
      _ = 2 ^ (-53 : ℤ) := (zpow_add₀ two_ne_zero _ _).symm
      _ ≤ double.round (1 - tokens) := hmissing
  have hfloat : double.IsFloat (2 ^ (-1066 : ℤ)) := Format.isFloat_zpow (by decide)
  exact (zpow_pos two_pos _).trans_le (hfloat.le_round (zpow_pos two_pos _).le hquotient)

/-- The balance an operation computes from the raw hash. -/
def balance (capacity refillPerHour : ℤ) (raw : Option Bucket) (now : ℚ) : ℚ :=
  raw.elim (double.round capacity) fun bucket =>
    effective (double.round capacity) (rateOf refillPerHour) bucket now

/-- What `acquire` does, by the balance it finds. -/
theorem acquire_eq (hcapacity : Convertible capacity) (hrefill : Convertible refillPerHour) :
    acquire capacity refillPerHour raw now =
      if 1 ≤ balance capacity refillPerHour raw now then
        .ok (⟨double.round (balance capacity refillPerHour raw now - 1), now⟩, ⟨true, 0⟩)
      else if rateOf refillPerHour = 0 then .error .zeroDivision
      else .ok (⟨balance capacity refillPerHour raw now, now⟩, ⟨false, double.round
        (double.round (1 - balance capacity refillPerHour raw now) / rateOf refillPerHour)⟩) := by
  rw [acquire, refillRate_of_convertible hrefill, toFloat, if_pos hcapacity]
  change (if 1 ≤ balance capacity refillPerHour raw now then _ else _) = _
  split
  case isTrue => rfl
  case isFalse =>
    rw [trueDiv]
    split <;> rfl

theorem acquire_of_not (hnot : ¬ (Convertible refillPerHour ∧ Convertible capacity)) :
    acquire capacity refillPerHour raw now = .error .overflow := by
  by_cases hrefill : Convertible refillPerHour
  · have hcapacity : ¬ Convertible capacity := fun h => hnot ⟨hrefill, h⟩
    rw [acquire, refillRate_of_convertible hrefill, toFloat, if_neg hcapacity]
    rfl
  · rw [acquire, refillRate_of_not hrefill]
    rfl

theorem refund_none (hrefill : Convertible refillPerHour) :
    refund capacity refillPerHour none now = .ok none := by
  rw [refund, refillRate_of_convertible hrefill]
  rfl

theorem refund_some (hcapacity : Convertible capacity) (hrefill : Convertible refillPerHour) :
    refund capacity refillPerHour (some bucket) now =
      .ok (if double.round capacity ≤ balance capacity refillPerHour (some bucket) now then none
        else some ⟨min (double.round capacity)
          (double.round (balance capacity refillPerHour (some bucket) now + 1)), now⟩) := by
  rw [refund, refillRate_of_convertible hrefill]
  simp only [toFloat, if_pos hcapacity]
  change (if double.round capacity ≤ balance capacity refillPerHour (some bucket) now then _
    else _) = _
  split <;> rfl

theorem refund_of_not (hnot : ¬ Convertible refillPerHour) :
    refund capacity refillPerHour raw now = .error .overflow := by
  rw [refund, refillRate_of_not hnot]
  rfl

/-- What the operations leave of the key: a float in bounds, under settings that convert. -/
structure Held (capacity : ℤ) (bucket : Bucket) : Prop where
  convertible : Convertible capacity
  full_le : double.round capacity ≤ capacity
  isFloat : double.IsFloat bucket.tokens
  nonneg : 0 ≤ bucket.tokens
  le_full : bucket.tokens ≤ double.round capacity

theorem one_le_full (hcapacity : 1 ≤ capacity) : 1 ≤ double.round capacity :=
  isFloat_one.le_round zero_le_one (by exact_mod_cast hcapacity)

theorem isFloat_full (hcapacity : 1 ≤ capacity) : double.IsFloat (double.round capacity) :=
  Format.isFloat_round (by exact_mod_cast zero_le_one.trans hcapacity)

theorem balance_le_full : balance capacity refillPerHour raw now ≤ double.round capacity := by
  cases raw with
  | none => exact le_rfl
  | some bucket => exact min_le_left _ _

/-- The balance is a float from zero on. -/
theorem balance_spec (hcapacity : 1 ≤ capacity) (hrefill : 0 ≤ refillPerHour)
    (hheld : ∀ bucket ∈ raw, Held capacity bucket) :
    double.IsFloat (balance capacity refillPerHour raw now) ∧
      0 ≤ balance capacity refillPerHour raw now := by
  have hfull : (0 : ℚ) ≤ double.round capacity := zero_le_one.trans (one_le_full hcapacity)
  cases raw with
  | none => exact ⟨isFloat_full hcapacity, hfull⟩
  | some bucket =>
      have hrefilled : 0 ≤ bucket.tokens + double.round
          (max 0 (double.round (now - bucket.lastRefill)) * rateOf refillPerHour) :=
        add_nonneg (hheld bucket rfl).nonneg (Format.round_nonneg
          (mul_nonneg (le_max_left _ _) (rateOf_nonneg hrefill)))
      exact ⟨(isFloat_full hcapacity).min (Format.isFloat_round hrefilled),
        le_min hfull (Format.round_nonneg hrefilled)⟩

/-- A bucket that does not refill is worth the tokens in it. -/
theorem one_le_balance_zero (hcapacity : 1 ≤ capacity)
    (hheld : ∀ bucket ∈ raw, Held capacity bucket) :
    1 ≤ balance capacity 0 raw now ↔ ∀ bucket ∈ raw, 1 ≤ bucket.tokens := by
  cases raw with
  | none => exact iff_of_true (one_le_full hcapacity) nofun
  | some bucket =>
      have hbucket := hheld bucket rfl
      have hsame : balance capacity 0 (some bucket) now = bucket.tokens := by
        change min _ (double.round (bucket.tokens + double.round (_ * rateOf 0))) = _
        rw [rateOf_zero, mul_zero, Format.round_zero, add_zero, hbucket.isFloat.round_eq]
        exact min_eq_right hbucket.le_full
      rw [hsame]
      simp

/-- A full balance less a token is in bounds if the capacity is not rounded up. -/
theorem round_full_sub_one_le_iff (hcapacity : 1 ≤ capacity) :
    double.round (double.round capacity - 1) ≤ capacity ↔ double.round capacity ≤ capacity := by
  have hone := one_le_full hcapacity
  constructor
  · intro hle
    by_contra hgt
    obtain ⟨number, rfl⟩ := Int.eq_ofNat_of_zero_le (zero_le_one.trans hcapacity)
    obtain ⟨whole, hwhole⟩ := @Format.exists_round_natCast double (by decide) number
    rw [Int.cast_natCast] at hle hgt
    have hnext : (number : ℚ) + 1 ≤ double.round number := by
      rw [hwhole] at hgt ⊢
      exact_mod_cast not_le.mp hgt
    have hround : double.round number ≤ double.round (double.round number - 1) :=
      Format.round_mono (Nat.cast_nonneg number) (by linarith)
    exact hgt (hround.trans hle)
  · intro hle
    have hround : double.round (double.round capacity - 1) ≤ double.round capacity :=
      (isFloat_full hcapacity).round_le (by linarith) (by linarith)
    exact hround.trans hle

end Calls

/-! ## Every run -/

section Steps

variable {capacity refillPerHour : ℤ} {raw : Option Bucket} {now : ℚ}

theorem call_acquire (hcapacity : Convertible capacity) (hrefill : Convertible refillPerHour) :
    call capacity refillPerHour .acquire raw now =
      if 1 ≤ balance capacity refillPerHour raw now then
        ⟨.ok (.verdict ⟨true, 0⟩),
          some ⟨double.round (balance capacity refillPerHour raw now - 1), now⟩⟩
      else if rateOf refillPerHour = 0 then ⟨.error .zeroDivision, raw⟩
      else ⟨.ok (.verdict ⟨false, double.round
          (double.round (1 - balance capacity refillPerHour raw now) / rateOf refillPerHour)⟩),
        some ⟨balance capacity refillPerHour raw now, now⟩⟩ := by
  simp only [call, perform, acquire_eq hcapacity hrefill]
  split_ifs <;> rfl

theorem not_fine_of_error {raised : ArithmeticError} {bucket : Option Bucket} :
    ¬ Fine capacity ⟨.error raised, bucket⟩ := by
  rintro ⟨⟨reply, hreply, -⟩, -⟩
  cases hreply

/-- The key, if it is there, is as the operations leave it. -/
def Kept (capacity : ℤ) (state : State) : Prop := ∀ bucket ∈ state.bucket, Held capacity bucket

/-- A call is fine exactly where it is safe, and then leaves the key in bounds. -/
def Decides (capacity refillPerHour : ℤ) (operation : Operation) (raw : Option Bucket)
    (now : ℚ) : Prop :=
  let entry := call capacity refillPerHour operation raw now
  (Fine capacity entry ↔ SafeCall capacity refillPerHour operation raw) ∧
    (Fine capacity entry → ∀ bucket ∈ entry.bucket, Held capacity bucket)

/-- An acquire that finds a token stores too much where the capacity is rounded up. -/
theorem decides_allowed (hcapacity : 1 ≤ capacity) (hrefill : 0 ≤ refillPerHour)
    (hheld : ∀ bucket ∈ raw, Held capacity bucket)
    (hconvertible : Convertible refillPerHour ∧ Convertible capacity)
    (htoken : 1 ≤ balance capacity refillPerHour raw now) :
    Decides capacity refillPerHour .acquire raw now := by
  rw [Decides, call_acquire hconvertible.2 hconvertible.1, if_pos htoken]
  have hle := @balance_le_full capacity refillPerHour raw now
  have hless : 0 ≤ balance capacity refillPerHour raw now - 1 := by linarith
  have hstored : double.round (balance capacity refillPerHour raw now - 1) ≤
      double.round capacity :=
    (isFloat_full hcapacity).round_le hless (by linarith)
  have hbounded : double.round (balance capacity refillPerHour raw now - 1) ≤ capacity ↔
      double.round capacity ≤ capacity := by
    cases raw with
    | none => exact round_full_sub_one_le_iff hcapacity
    | some bucket =>
        have hfull := (hheld bucket rfl).full_le
        exact iff_of_true (hstored.trans hfull) hfull
  have htokens : 0 < refillPerHour ∨ ∀ bucket ∈ raw, 1 ≤ bucket.tokens := by
    rcases hrefill.eq_or_lt with rfl | hpos
    · exact .inr ((one_le_balance_zero hcapacity hheld).mp htoken)
    · exact .inl hpos
  refine ⟨⟨fun hfine => ?_, fun hsafe => ?_⟩, fun hfine bucket hbucket => ?_⟩
  · exact ⟨hconvertible.1, ⟨hconvertible.2, hbounded.mp (hfine.tokens _ rfl).2⟩, htokens⟩
  · refine ⟨⟨_, rfl, .inl ⟨rfl, rfl⟩⟩, fun bucket hbucket => ?_⟩
    obtain rfl := Option.mem_some_iff.mp hbucket
    exact ⟨Format.round_nonneg hless, hbounded.mpr hsafe.2.1.2⟩
  · obtain rfl := Option.mem_some_iff.mp hbucket
    exact ⟨hconvertible.2, hbounded.mp (hfine.tokens _ rfl).2, Format.isFloat_round hless,
      Format.round_nonneg hless, hstored⟩

/-- An acquire that finds no token divides by the refill rate. -/
theorem decides_denied (hcapacity : 1 ≤ capacity) (hrefill : 0 ≤ refillPerHour)
    (hheld : ∀ bucket ∈ raw, Held capacity bucket)
    (hconvertible : Convertible refillPerHour ∧ Convertible capacity)
    (htoken : ¬ 1 ≤ balance capacity refillPerHour raw now) :
    Decides capacity refillPerHour .acquire raw now := by
  rw [Decides, call_acquire hconvertible.2 hconvertible.1, if_neg htoken]
  have hle := @balance_le_full capacity refillPerHour raw now
  obtain ⟨hfloat, hnonneg⟩ := @balance_spec capacity refillPerHour raw now hcapacity hrefill
    hheld
  have hfull : double.round capacity ≤ capacity := by
    cases raw with
    | none => exact absurd (one_le_full hcapacity) htoken
    | some bucket => exact (hheld bucket rfl).full_le
  rcases hrefill.eq_or_lt with rfl | hpos
  · rw [if_pos rateOf_zero]
    refine ⟨iff_of_false not_fine_of_error ?_, fun hfine => absurd hfine not_fine_of_error⟩
    rintro ⟨-, -, hrefills | htokens⟩
    · exact lt_irrefl 0 hrefills
    · exact htoken ((one_le_balance_zero hcapacity hheld).mpr htokens)
  · rw [if_neg (rateOf_pos hpos).ne']
    have hwait := retryAfter_pos hpos hconvertible.1 hfloat (not_le.mp htoken)
    refine ⟨iff_of_true ⟨⟨_, rfl, .inr ⟨rfl, hwait⟩⟩, fun bucket hbucket => ?_⟩
      ⟨hconvertible.1, ⟨hconvertible.2, hfull⟩, .inl hpos⟩, fun _ bucket hbucket => ?_⟩
    · obtain rfl := Option.mem_some_iff.mp hbucket
      exact ⟨hnonneg, hle.trans hfull⟩
    · obtain rfl := Option.mem_some_iff.mp hbucket
      exact ⟨hconvertible.2, hfull, hfloat, hnonneg, hle⟩

theorem decides_acquire (hcapacity : 1 ≤ capacity) (hrefill : 0 ≤ refillPerHour)
    (hheld : ∀ bucket ∈ raw, Held capacity bucket) :
    Decides capacity refillPerHour .acquire raw now := by
  by_cases hconvertible : Convertible refillPerHour ∧ Convertible capacity
  · by_cases htoken : 1 ≤ balance capacity refillPerHour raw now
    · exact decides_allowed hcapacity hrefill hheld hconvertible htoken
    · exact decides_denied hcapacity hrefill hheld hconvertible htoken
  · have hcall : call capacity refillPerHour .acquire raw now = ⟨.error .overflow, raw⟩ := by
      simp only [call, perform, acquire_of_not hconvertible]
      rfl
    rw [Decides, hcall]
    exact ⟨iff_of_false not_fine_of_error fun hsafe => hconvertible ⟨hsafe.1, hsafe.2.1.1⟩,
      fun hfine => absurd hfine not_fine_of_error⟩

/-- The credited balance is capped. -/
theorem Held.credit {bucket : Bucket} (hbucket : Held capacity bucket) (hcapacity : 1 ≤ capacity)
    (hrefill : 0 ≤ refillPerHour) :
    Held capacity ⟨min (double.round capacity)
      (double.round (balance capacity refillPerHour (some bucket) now + 1)), now⟩ := by
  have hheld : ∀ found ∈ some bucket, Held capacity found := by
    intro found hfound
    obtain rfl := Option.mem_some_iff.mp hfound
    exact hbucket
  obtain ⟨-, hnonneg⟩ := @balance_spec capacity refillPerHour (some bucket) now hcapacity
    hrefill hheld
  have hmore : 0 ≤ balance capacity refillPerHour (some bucket) now + 1 := by linarith
  refine ⟨hbucket.convertible, hbucket.full_le, ?_, ?_, min_le_left _ _⟩
  · exact (isFloat_full hcapacity).min (Format.isFloat_round hmore)
  · exact le_min (zero_le_one.trans (one_le_full hcapacity)) (Format.round_nonneg hmore)

/-- A refund finds a bucket only under settings that convert. -/
theorem decides_refund (hcapacity : 1 ≤ capacity) (hrefill : 0 ≤ refillPerHour)
    (hheld : ∀ bucket ∈ raw, Held capacity bucket) :
    Decides capacity refillPerHour .refund raw now := by
  by_cases hconvertible : Convertible refillPerHour
  · cases raw with
    | none =>
        have hcall : call capacity refillPerHour .refund none now = ⟨.ok .refunded, none⟩ := by
          simp only [call, perform, refund_none hconvertible]
          rfl
        rw [Decides, hcall]
        exact ⟨iff_of_true ⟨⟨_, rfl, trivial⟩, nofun⟩ hconvertible, fun _ => nofun⟩
    | some bucket =>
        have hbucket := hheld bucket rfl
        have hcall : ∃ left, call capacity refillPerHour .refund (some bucket) now =
            ⟨.ok .refunded, some left⟩ ∧ Held capacity left := by
          simp only [call, perform, refund_some hbucket.convertible hconvertible]
          split_ifs with hroom
          · exact ⟨bucket, rfl, hbucket⟩
          · exact ⟨_, rfl, hbucket.credit hcapacity hrefill⟩
        obtain ⟨left, hcall, hleft⟩ := hcall
        rw [Decides, hcall]
        refine ⟨iff_of_true ⟨⟨_, rfl, trivial⟩, fun found hfound => ?_⟩ hconvertible,
          fun _ found hfound => ?_⟩
        · obtain rfl := Option.mem_some_iff.mp hfound
          exact ⟨hleft.nonneg, hleft.le_full.trans hleft.full_le⟩
        · obtain rfl := Option.mem_some_iff.mp hfound
          exact hleft
  · have hcall : call capacity refillPerHour .refund raw now = ⟨.error .overflow, raw⟩ := by
      simp only [call, perform, refund_of_not hconvertible]
      rfl
    rw [Decides, hcall]
    exact ⟨iff_of_false not_fine_of_error hconvertible,
      fun hfine => absurd hfine not_fine_of_error⟩

theorem decides (operation : Operation) (hcapacity : 1 ≤ capacity) (hrefill : 0 ≤ refillPerHour)
    (hheld : ∀ bucket ∈ raw, Held capacity bucket) :
    Decides capacity refillPerHour operation raw now := by
  cases operation with
  | acquire => exact decides_acquire hcapacity hrefill hheld
  | refund => exact decides_refund hcapacity hrefill hheld

end Steps

/-- In a run, whatever the clock reads and whenever the key is dropped, all calls are fine
exactly if they are safe. -/
theorem allFine_iff_safe {capacity refillPerHour : ℤ} (hcapacity : 1 ≤ capacity)
    (hrefill : 0 ≤ refillPerHour) {state : State}
    (hrun : Reaches (step capacity refillPerHour) unrestricted start state) :
    AllFine capacity state ↔
      Reaches (step capacity refillPerHour) (Safe capacity refillPerHour) start state := by
  have hfirst : Kept capacity start ∧ AllFine capacity start := ⟨nofun, nofun⟩
  refine hrun.iff_allowed hfirst ?_ ?_
  · intro before label next hstep hfine
    cases label with
    | evict =>
        cases hstep
        exact hfine
    | operate operation now =>
        cases hstep
        exact fun entry hentry => hfine entry (List.mem_append_left _ hentry)
  · intro before label next hkept hfine hstep
    cases label with
    | evict =>
        cases hstep
        exact ⟨iff_of_true hfine trivial, fun _ => nofun⟩
    | operate operation now =>
        cases hstep
        obtain ⟨hiff, hheld⟩ := @decides capacity refillPerHour before.bucket now operation
          hcapacity hrefill hkept
        refine ⟨?_, fun hsafe => hheld (hiff.mpr hsafe)⟩
        rw [AllFine, List.forall_mem_append, List.forall_mem_singleton]
        exact (and_iff_right hfine).trans hiff

/-- A burst of two without a refill: both tokens go, one comes back and goes again. -/
theorem allFine_iff_safe_refunded :
    ∃ state, Reaches (step 2 0) (Safe 2 0) start state ∧ state.history.length = 4 ∧
      AllFine 2 state := by
  obtain ⟨state, hrun, hcheck⟩ := exists_reaches_of_replay (guarded (step 2 0) (Safe 2 0)) start
    [.operate .acquire 0, .operate .acquire 1, .operate .refund 2, .operate .acquire 1]
    (fun state => decide (state.history.length = 4)) (by decide +kernel)
  have hsafe := hrun.of_guarded
  exact ⟨state, hsafe, of_decide_eq_true hcheck,
    (allFine_iff_safe (by decide) (by decide) hsafe.forget).mpr hsafe⟩

/-- The third acquire without a refill divides by zero. -/
theorem not_allFine_without_refill :
    ∃ state, Reaches (step 2 0) unrestricted start state ∧ ¬ AllFine 2 state := by
  obtain ⟨state, hrun, hcheck⟩ := exists_reaches_of_replay (step 2 0) start
    [.operate .acquire 0, .operate .acquire 1, .operate .acquire 2]
    (fun state => decide (∃ entry ∈ state.history, entry.outcome = .error .zeroDivision))
    (by decide +kernel)
  obtain ⟨⟨outcome, bucket⟩, hentry, rfl⟩ := of_decide_eq_true hcheck
  exact ⟨state, hrun, fun hfine => not_fine_of_error (hfine _ hentry)⟩

end DownloaderBot.RatelimitFloats
