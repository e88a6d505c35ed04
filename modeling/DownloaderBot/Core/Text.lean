import Mathlib.Data.List.Basic

/-!
# White space, digits, separators and replacement

The characters Python 3.12 takes for white space (`str.isspace`, `\s`) and for
decimal digits (`\d`), after Unicode 15.0; hexadecimal digits in either case; what a
separator tells apart; and `str.replace`.
-/

namespace DownloaderBot.Text

def isSpaceCode (code : ℕ) : Bool :=
  (0x09 ≤ code && code ≤ 0x0d) || (0x1c ≤ code && code ≤ 0x20) ||
    code = 0x85 || code = 0xa0 || code = 0x1680 ||
    (0x2000 ≤ code && code ≤ 0x200a) || code = 0x2028 || code = 0x2029 ||
    code = 0x202f || code = 0x205f || code = 0x3000

def isSpace (char : Char) : Bool := isSpaceCode char.toNat

/-- The digits of value zero; each begins a block of ten digits. -/
def decimalZeros : List ℕ :=
  [0x30, 0x660, 0x6f0, 0x7c0, 0x966, 0x9e6, 0xa66, 0xae6, 0xb66, 0xbe6, 0xc66,
    0xce6, 0xd66, 0xde6, 0xe50, 0xed0, 0xf20, 0x1040, 0x1090, 0x17e0, 0x1810,
    0x1946, 0x19d0, 0x1a80, 0x1a90, 0x1b50, 0x1bb0, 0x1c40, 0x1c50, 0xa620,
    0xa8d0, 0xa900, 0xa9d0, 0xa9f0, 0xaa50, 0xabf0, 0xff10, 0x104a0, 0x10d30,
    0x11066, 0x110f0, 0x11136, 0x111d0, 0x112f0, 0x11450, 0x114d0, 0x11650,
    0x116c0, 0x11730, 0x118e0, 0x11950, 0x11c50, 0x11d50, 0x11da0, 0x11f50,
    0x16a60, 0x16ac0, 0x16b50, 0x1d7ce, 0x1d7d8, 0x1d7e2, 0x1d7ec, 0x1d7f6,
    0x1e140, 0x1e2f0, 0x1e4f0, 0x1e950, 0x1fbf0]

/-- The value of a decimal digit, `none` for any other character. -/
def decimalValue (char : Char) : Option ℕ :=
  let code := char.toNat
  (decimalZeros.find? fun first => first ≤ code && code < first + 10).map (code - ·)

def isDecimal (char : Char) : Bool := (decimalValue char).isSome

/-- The number a run of decimal digits denotes. -/
def ofDecimals (digits : List Char) : ℕ :=
  digits.foldl (fun number digit => number * 10 + (decimalValue digit).getD 0) 0

/-- `str.strip()`. -/
def strip (text : List Char) : List Char :=
  ((text.dropWhile isSpace).reverse.dropWhile isSpace).reverse

/-! ## Hexadecimal digits -/

inductive LetterCase
  | lower
  | upper

def LetterCase.hexDigits : LetterCase → List Char
  | .lower =>
      ['0', '1', '2', '3', '4', '5', '6', '7', '8', '9', 'a', 'b', 'c', 'd', 'e', 'f']
  | .upper =>
      ['0', '1', '2', '3', '4', '5', '6', '7', '8', '9', 'A', 'B', 'C', 'D', 'E', 'F']

/-- The digit of a number below sixteen. -/
def hexDigit (letterCase : LetterCase) (number : ℕ) : Char :=
  letterCase.hexDigits.getD number '0'

/-- The value of a digit, in either case. -/
def hexValue (char : Char) : Option ℕ := LetterCase.lower.hexDigits.idxOf? char.toLower

theorem hexValue_hexDigit (letterCase : LetterCase) :
    ∀ number < 16, hexValue (hexDigit letterCase number) = some number := by
  cases letterCase <;> decide

/-! ## Separators -/

/-- A text that does not contain the separator ends where the first one stands. -/
theorem append_separator_inj {Symbol : Type*} {separator : Symbol}
    {left right rest other : List Symbol} (hleft : separator ∉ left)
    (hright : separator ∉ right) :
    left ++ separator :: rest = right ++ separator :: other ↔
      left = right ∧ rest = other := by
  constructor
  · intro heq
    induction left generalizing right with
    | nil =>
        cases right with
        | nil => exact ⟨rfl, (List.cons.inj heq).2⟩
        | cons symbol right =>
            exact absurd ((List.cons.inj heq).1 ▸ List.mem_cons_self) hright
    | cons symbol left ih =>
        cases right with
        | nil => exact absurd ((List.cons.inj heq).1 ▸ List.mem_cons_self) hleft
        | cons found right =>
            obtain ⟨rfl, htail⟩ := List.cons.inj heq
            obtain ⟨rfl, hrest⟩ := ih (fun h => hleft (.tail _ h))
              (fun h => hright (.tail _ h)) htail
            exact ⟨rfl, hrest⟩
  · rintro ⟨rfl, rfl⟩
    rfl

/-- What has no separator in it begins a text where it begins the part before the first
one. -/
theorem prefix_append_separator {Symbol : Type*} {separator : Symbol}
    {old left rest : List Symbol} (hold : separator ∉ old) :
    old <+: left ++ separator :: rest ↔ old <+: left := by
  constructor
  · intro hbegins
    rcases Nat.le_total old.length left.length with hle | hle
    · exact List.prefix_of_prefix_length_le hbegins (List.prefix_append _ _) hle
    · have hleft : left <+: old :=
        List.prefix_of_prefix_length_le (List.prefix_append _ _) hbegins hle
      obtain ⟨tail, rfl⟩ := hleft
      rw [List.prefix_append_right_inj] at hbegins
      cases tail with
      | nil => simp
      | cons first tail =>
          obtain ⟨rfl, -⟩ := List.cons_prefix_cons.mp hbegins
          exact absurd (List.mem_append_right _ (List.mem_cons_self)) hold
  · exact fun hbegins => List.prefix_append_of_prefix hbegins

/-- A number has no underscore in it. -/
theorem underscore_notMem_toString (number : ℕ) : '_' ∉ (toString number).toList := by
  simp

/-- The digits denote the number. -/
theorem toString_injective : Function.Injective (toString : ℕ → String) := by
  intro number other heq
  have hdigits : Nat.toDigits 10 number = Nat.toDigits 10 other := by
    simpa using congrArg String.toList heq
  calc
    number = Nat.ofDigitChars 10 (Nat.toDigits 10 number) 0 :=
      (Nat.ofDigitChars_toDigits (by decide) (by decide)).symm
    _ = Nat.ofDigitChars 10 (Nat.toDigits 10 other) 0 := by rw [hdigits]
    _ = other := Nat.ofDigitChars_toDigits (by decide) (by decide)

/-! ## Replacement -/

section Replacement

variable {Symbol : Type*} [DecidableEq Symbol]

/-- `str.replace(old, new)` where `old` is not empty, from left to right; `skip` symbols of
the last occurrence are still to come. -/
def replaceFrom (old new : List Symbol) : ℕ → List Symbol → List Symbol
  | _, [] => []
  | skip + 1, _ :: rest => replaceFrom old new skip rest
  | 0, symbol :: rest =>
      if old <+: symbol :: rest then new ++ replaceFrom old new (old.length - 1) rest
      else symbol :: replaceFrom old new 0 rest

/-- `str.replace(old, new)` where `old` is not empty. -/
def replaceAll (old new text : List Symbol) : List Symbol := replaceFrom old new 0 text

variable {old new : List Symbol}

/-- An occurrence brings all of its symbols. -/
theorem replaceFrom_of_notMem {mark : Symbol} {text : List Symbol} (hmark : mark ∈ old)
    (hnot : mark ∉ text) : replaceFrom old new 0 text = text := by
  induction text with
  | nil => rfl
  | cons symbol rest ih =>
      rw [replaceFrom, if_neg fun hbegins => hnot (hbegins.subset hmark),
        ih (List.not_mem_of_not_mem_cons hnot)]

theorem mem_replaceFrom {symbol : Symbol} {skip : ℕ} {text : List Symbol}
    (hmem : symbol ∈ replaceFrom old new skip text) : symbol ∈ new ∨ symbol ∈ text := by
  induction text generalizing skip with
  | nil => exact .inr hmem
  | cons first rest ih =>
      cases skip with
      | succ skip => exact (ih hmem).imp_right (.tail _)
      | zero =>
          rw [replaceFrom] at hmem
          split at hmem
          · rcases List.mem_append.mp hmem with hnew | hrest
            · exact .inl hnew
            · exact (ih hrest).imp_right (.tail _)
          · rcases List.mem_cons.mp hmem with rfl | hrest
            · exact .inr (.head _)
            · exact (ih hrest).imp_right (.tail _)

/-- What is replaced does not reach over a separator, and is not found behind it. -/
theorem replaceFrom_append_separator {separator mark : Symbol} {left rest : List Symbol}
    {skip : ℕ} (hold : separator ∉ old) (hmark : mark ∈ old) (hnot : mark ∉ rest)
    (hskip : skip ≤ left.length) :
    replaceFrom old new skip (left ++ separator :: rest) =
      replaceFrom old new skip left ++ separator :: rest := by
  induction left generalizing skip with
  | nil =>
      obtain rfl : skip = 0 := Nat.le_zero.mp hskip
      have hnone : ¬old <+: separator :: rest := by
        intro hbegins
        have hempty : old <+: [] := (prefix_append_separator hold).mp hbegins
        exact absurd (List.prefix_nil.mp hempty ▸ hmark) List.not_mem_nil
      have hrest : replaceFrom old new 0 (separator :: rest) = separator :: rest := by
        rw [replaceFrom, if_neg hnone, replaceFrom_of_notMem hmark hnot]
      exact hrest
  | cons symbol left ih =>
      cases skip with
      | succ skip => exact ih (Nat.le_of_succ_le_succ hskip)
      | zero =>
          rw [List.cons_append, replaceFrom, replaceFrom, ← List.cons_append]
          by_cases hbegins : old <+: symbol :: left
          · have hlength := hbegins.length_le
            rw [List.length_cons] at hlength
            rw [if_pos hbegins, if_pos ((prefix_append_separator hold).mpr hbegins),
              ih (by omega), List.append_assoc]
          · rw [if_neg hbegins, if_neg ((prefix_append_separator hold).not.mpr hbegins),
              ih (Nat.zero_le _), List.cons_append]

theorem replaceAll_append_separator {separator mark : Symbol} {left rest : List Symbol}
    (hold : separator ∉ old) (hmark : mark ∈ old) (hnot : mark ∉ rest) :
    replaceAll old new (left ++ separator :: rest) =
      replaceAll old new left ++ separator :: rest :=
  replaceFrom_append_separator hold hmark hnot (Nat.zero_le _)

end Replacement

end DownloaderBot.Text
