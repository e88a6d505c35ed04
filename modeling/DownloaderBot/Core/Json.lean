import DownloaderBot.Core.Text
import Mathlib.Data.List.TakeWhile

/-!
# JSON objects of scalars

Objects whose members are null, truth values, integers and texts.  They are written in
ASCII: every other character goes as its UTF-16 code units.  Reading skips white space and
takes every escape; arrays, nested objects and fractions are not read.
-/

namespace DownloaderBot.Json

open DownloaderBot.Text (hexDigit hexValue hexValue_hexDigit)

inductive Scalar
  | null
  | bool (value : Bool)
  | int (value : ℤ)
  | text (value : String)
  deriving DecidableEq, Repr

/-- The members in the order in which they are written. -/
abbrev Object := List (String × Scalar)

/-- A later member of the same name counts. -/
def Object.get (object : Object) (name : String) : Option Scalar :=
  object.reverse.lookup name

/-! ## UTF-16 -/

/-- The code units of a character. -/
def utf16 (char : Char) : List ℕ :=
  let code := char.toNat
  if code < 0x10000 then [code]
  else [0xd800 + (code - 0x10000) / 0x400, 0xdc00 + (code - 0x10000) % 0x400]

def isHighSurrogate (unit : ℕ) : Bool := 0xd800 ≤ unit && unit < 0xdc00

def isLowSurrogate (unit : ℕ) : Bool := 0xdc00 ≤ unit && unit < 0xe000

/-- The characters that code units stand for, after a high surrogate if there is one; none
where a surrogate stands alone. -/
def ofUtf16 : Option ℕ → List ℕ → Option (List Char)
  | none, [] => some []
  | some _, [] => none
  | none, unit :: rest =>
      if isLowSurrogate unit then none
      else if isHighSurrogate unit then ofUtf16 (some unit) rest
      else (ofUtf16 none rest).map (Char.ofNat unit :: ·)
  | some high, unit :: rest =>
      if isLowSurrogate unit then
        (ofUtf16 none rest).map
          (Char.ofNat (0x10000 + (high - 0xd800) * 0x400 + (unit - 0xdc00)) :: ·)
      else none

/-- A character is read back first. -/
theorem ofUtf16_utf16 (char : Char) (rest : List ℕ) :
    ofUtf16 none (utf16 char ++ rest) = (ofUtf16 none rest).map (char :: ·) := by
  have hvalid : char.toNat < 0xd800 ∨ 0xdfff < char.toNat ∧ char.toNat < 0x110000 := char.valid
  by_cases hbasic : char.toNat < 0x10000
  · have hlow : isLowSurrogate char.toNat = false := by
      simp only [isLowSurrogate, Bool.and_eq_false_iff, decide_eq_false_iff_not]
      omega
    have hhigh : isHighSurrogate char.toNat = false := by
      simp only [isHighSurrogate, Bool.and_eq_false_iff, decide_eq_false_iff_not]
      omega
    simp [utf16, hbasic, ofUtf16, hlow, hhigh, Char.ofNat_toNat]
  · obtain ⟨offset, hoffset⟩ : ∃ offset, char.toNat = 0x10000 + offset :=
      Nat.exists_eq_add_of_le (not_lt.mp hbasic)
    have hhigh : isHighSurrogate (0xd800 + offset / 0x400) = true := by
      simp only [isHighSurrogate, Bool.and_eq_true, decide_eq_true_eq]
      omega
    have hnotLow : isLowSurrogate (0xd800 + offset / 0x400) = false := by
      simp only [isLowSurrogate, Bool.and_eq_false_iff, decide_eq_false_iff_not]
      omega
    have hlow : isLowSurrogate (0xdc00 + offset % 0x400) = true := by
      simp only [isLowSurrogate, Bool.and_eq_true, decide_eq_true_eq]
      omega
    have hcode : 0x10000 + offset / 0x400 * 0x400 + offset % 0x400 = char.toNat := by omega
    have hunits : utf16 char = [0xd800 + offset / 0x400, 0xdc00 + offset % 0x400] := by
      rw [utf16, hoffset]
      simp
    rw [hunits]
    simp only [List.cons_append, List.nil_append, ofUtf16, hnotLow, hhigh, hlow,
      Bool.false_eq_true, if_false, if_true, Nat.add_sub_cancel_left, hcode, Char.ofNat_toNat]

theorem ofUtf16_flatMap_utf16 (text : List Char) :
    ofUtf16 none (text.flatMap utf16) = some text := by
  induction text with
  | nil => rfl
  | cons char text ih => rw [List.flatMap_cons, ofUtf16_utf16, ih, Option.map_some]

theorem lt_of_mem_utf16 {char : Char} {unit : ℕ} (hunit : unit ∈ utf16 char) :
    unit < 0x10000 := by
  have hvalid : char.toNat < 0xd800 ∨ 0xdfff < char.toNat ∧ char.toNat < 0x110000 := char.valid
  rw [utf16] at hunit
  split at hunit
  case isTrue hbasic =>
    obtain rfl := List.mem_singleton.mp hunit
    exact hbasic
  case isFalse =>
    simp only [List.mem_cons, List.not_mem_nil, or_false] at hunit
    omega

/-! ## Texts -/

/-- The code units that are escaped by a letter. -/
def letterEscapes : List (ℕ × Char) :=
  [(0x22, '"'), (0x5c, '\\'), (0x08, 'b'), (0x0c, 'f'), (0x0a, 'n'), (0x0d, 'r'), (0x09, 't')]

def quoteUnit (unit : ℕ) : List Char :=
  match letterEscapes.find? (·.1 = unit) with
  | some (_, letter) => ['\\', letter]
  | none =>
      if 0x20 ≤ unit && unit ≤ 0x7e then [Char.ofNat unit]
      else
        ['\\', 'u', hexDigit .lower (unit / 0x1000), hexDigit .lower (unit / 0x100 % 0x10),
          hexDigit .lower (unit / 0x10 % 0x10), hexDigit .lower (unit % 0x10)]

def dumpsText (text : String) : List Char :=
  '"' :: ((text.toList.flatMap utf16).flatMap quoteUnit ++ ['"'])

/-- Where a reader of a text is.  `hex missing value`: so many digits of a code unit are
still to come, those so far are worth `value`. -/
inductive Reading
  | plain
  | escape
  | hex (missing value : ℕ)

/-- What a letter after a backslash stands for; a slash may be escaped too. -/
def unescape (letter : Char) : Option ℕ :=
  ((0x2f, '/') :: letterEscapes).find? (·.2 = letter) |>.map Prod.fst

/-- The code units up to the closing quote, and what comes after it. -/
def readUnits : Reading → List Char → Option (List ℕ × List Char)
  | _, [] => none
  | .plain, char :: rest =>
      if char = '"' then some ([], rest)
      else if char = '\\' then readUnits .escape rest
      else if char.toNat < 0x20 then none
      else (readUnits .plain rest).map fun (units, after) => (utf16 char ++ units, after)
  | .escape, char :: rest =>
      if char = 'u' then readUnits (.hex 4 0) rest
      else do
        let unit ← unescape char
        (readUnits .plain rest).map fun (units, after) => (unit :: units, after)
  | .hex missing value, char :: rest => do
      let digit ← hexValue char
      let unit := value * 0x10 + digit
      if missing ≤ 1 then
        (readUnits .plain rest).map fun (units, after) => (unit :: units, after)
      else readUnits (.hex (missing - 1) unit) rest

/-- The rest of a text whose opening quote has been read. -/
def readText (input : List Char) : Option (String × List Char) := do
  let (units, rest) ← readUnits .plain input
  let text ← ofUtf16 none units
  return (String.ofList text, rest)

/-- Below the surrogates every code is that of a character. -/
theorem toNat_ofNat {code : ℕ} (hcode : code < 0xd800) : (Char.ofNat code).toNat = code := by
  rw [Char.ofNat, dif_pos (.inl hcode)]
  rfl

theorem unescape_of_mem : ∀ pair ∈ letterEscapes, unescape pair.2 = some pair.1 ∧ pair.2 ≠ 'u' := by
  decide

/-- A code unit is read back first. -/
theorem readUnits_quoteUnit {unit : ℕ} (hunit : unit < 0x10000) (rest : List Char) :
    readUnits .plain (quoteUnit unit ++ rest) =
      (readUnits .plain rest).map fun (units, after) => (unit :: units, after) := by
  rw [quoteUnit]
  split
  case h_1 code letter hfind =>
    obtain rfl : code = unit := by simpa using List.find?_some hfind
    obtain ⟨hletter, hplain⟩ := unescape_of_mem _ (List.mem_of_find?_eq_some hfind)
    simp only [List.cons_append, List.nil_append, readUnits, if_neg hplain, hletter]
    simp
  case h_2 hnone =>
    have hspecial : unit ≠ 0x22 ∧ unit ≠ 0x5c := by
      constructor
      · rintro rfl
        exact absurd hnone (by decide)
      · rintro rfl
        exact absurd hnone (by decide)
    split
    case isTrue hprintable =>
      simp only [Bool.and_eq_true, decide_eq_true_eq] at hprintable
      have hcode := toNat_ofNat (show unit < 0xd800 by omega)
      have hquote : Char.ofNat unit ≠ '"' := fun heq => hspecial.1 (by rw [← hcode, heq]; rfl)
      have hbackslash : Char.ofNat unit ≠ '\\' :=
        fun heq => hspecial.2 (by rw [← hcode, heq]; rfl)
      have hutf16 : utf16 (Char.ofNat unit) = [unit] := by
        rw [utf16, hcode]
        exact if_pos hunit
      rw [List.singleton_append, readUnits, if_neg hquote, if_neg hbackslash, hcode,
        if_neg (by omega), hutf16]
      rfl
    case isFalse =>
      have hvalue : ((unit / 0x1000 * 0x10 + unit / 0x100 % 0x10) * 0x10 +
          unit / 0x10 % 0x10) * 0x10 + unit % 0x10 = unit := by omega
      simp only [List.cons_append, List.nil_append, readUnits,
        hexValue_hexDigit .lower (unit / 0x1000) (by omega),
        hexValue_hexDigit .lower (unit / 0x100 % 0x10) (by omega),
        hexValue_hexDigit .lower (unit / 0x10 % 0x10) (by omega),
        hexValue_hexDigit .lower (unit % 0x10) (by omega)]
      simp [hvalue]

theorem readUnits_flatMap_quoteUnit {units : List ℕ} (hunits : ∀ unit ∈ units, unit < 0x10000)
    (rest : List Char) :
    readUnits .plain (units.flatMap quoteUnit ++ '"' :: rest) = some (units, rest) := by
  induction units with
  | nil => rfl
  | cons unit units ih =>
      rw [List.flatMap_cons, List.append_assoc, readUnits_quoteUnit (hunits _ List.mem_cons_self),
        ih fun other hother => hunits other (.tail _ hother)]
      rfl

/-- A text is read back. -/
theorem readText_dumpsText (text : String) (rest : List Char) :
    readText ((text.toList.flatMap utf16).flatMap quoteUnit ++ '"' :: rest) =
      some (text, rest) := by
  have hunits : ∀ unit ∈ text.toList.flatMap utf16, unit < 0x10000 := by
    intro unit hunit
    obtain ⟨char, -, hmem⟩ := List.mem_flatMap.mp hunit
    exact lt_of_mem_utf16 hmem
  rw [readText, readUnits_flatMap_quoteUnit hunits]
  simp [ofUtf16_flatMap_utf16]

/-! ## Scalars -/

def dumpsInt (value : ℤ) : List Char :=
  if 0 ≤ value then Nat.toDigits 10 value.toNat else '-' :: Nat.toDigits 10 (-value).toNat

def dumpsScalar : Scalar → List Char
  | .null => "null".toList
  | .bool true => "true".toList
  | .bool false => "false".toList
  | .int value => dumpsInt value
  | .text value => dumpsText value

def isSpace (char : Char) : Bool :=
  char = ' ' || char = '\t' || char = '\n' || char = '\r'

def skipSpace (input : List Char) : List Char := input.dropWhile isSpace

/-- A number without a sign: a zero, or digits that do not begin with one. -/
def readNat (input : List Char) : Option (ℕ × List Char) :=
  match input with
  | '0' :: rest => some (0, rest)
  | _ =>
      let digits := input.takeWhile Char.isDigit
      if digits = [] then none
      else some (Nat.ofDigitChars 10 digits 0, input.dropWhile Char.isDigit)

def readInt (input : List Char) : Option (ℤ × List Char) :=
  match input with
  | '-' :: rest => (readNat rest).map fun (value, rest) => (-value, rest)
  | _ => (readNat input).map fun (value, rest) => (value, rest)

/-- What comes after the given word. -/
def readWord (word input : List Char) : Option (List Char) :=
  if word <+: input then some (input.drop word.length) else none

def readScalar (input : List Char) : Option (Scalar × List Char) :=
  match input with
  | 'n' :: _ => (readWord "null".toList input).map fun rest => (.null, rest)
  | 't' :: _ => (readWord "true".toList input).map fun rest => (.bool true, rest)
  | 'f' :: _ => (readWord "false".toList input).map fun rest => (.bool false, rest)
  | '"' :: rest => (readText rest).map fun (value, rest) => (.text value, rest)
  | _ => (readInt input).map fun (value, rest) => (.int value, rest)

/-- A digit here would belong to the number before it. -/
def NoDigitFirst (rest : List Char) : Prop := ∀ char ∈ rest.head?, char.isDigit = false

theorem toDigits_ne_zero_cons {number : ℕ} (hpos : 0 < number) {rest : List Char} :
    Nat.toDigits 10 number ≠ '0' :: rest := by
  induction number using Nat.strong_induction_on generalizing rest with
  | _ number ih =>
      by_cases hsmall : number < 10
      · rw [Nat.toDigits_of_lt_base hsmall]
        intro heq
        have hzero := Nat.digitChar_eq_zero.mp (List.cons.inj heq).1
        omega
      · rw [Nat.toDigits_of_base_le (by decide) (not_lt.mp hsmall)]
        intro heq
        rcases List.append_eq_cons_iff.mp heq with ⟨hnil, -⟩ | ⟨before, hbefore, -⟩
        · exact Nat.toDigits_ne_nil hnil
        · exact ih (number / 10) (by omega) (by omega) hbefore

theorem readNat_toDigits (number : ℕ) {rest : List Char} (hrest : NoDigitFirst rest) :
    readNat (Nat.toDigits 10 number ++ rest) = some (number, rest) := by
  rcases Nat.eq_zero_or_pos number with rfl | hpos
  · rfl
  · have hdigits : ∀ char ∈ Nat.toDigits 10 number, char.isDigit = true :=
      fun char hchar => Nat.isDigit_of_mem_toDigits (by decide) (by decide) hchar
    have hstop : rest.takeWhile Char.isDigit = [] ∧ rest.dropWhile Char.isDigit = rest := by
      cases rest with
      | nil => exact ⟨rfl, rfl⟩
      | cons char rest => simp [hrest char rfl]
    rw [readNat]
    · rw [List.takeWhile_append_of_pos hdigits, List.dropWhile_append_of_pos hdigits, hstop.1,
        hstop.2, List.append_nil, if_neg Nat.toDigits_ne_nil,
        Nat.ofDigitChars_toDigits (by decide) (by decide)]
    · intro tail heq
      cases hnumber : Nat.toDigits 10 number with
      | nil => exact Nat.toDigits_ne_nil hnumber
      | cons digit digits =>
          rw [hnumber] at heq
          obtain rfl := (List.cons.inj heq).1
          exact toDigits_ne_zero_cons hpos hnumber

theorem exists_toDigits (number : ℕ) : ∃ digit digits,
    Nat.toDigits 10 number = digit :: digits ∧ digit.isDigit = true := by
  cases hdigits : Nat.toDigits 10 number with
  | nil => exact absurd hdigits Nat.toDigits_ne_nil
  | cons digit digits =>
      refine ⟨digit, digits, rfl, ?_⟩
      apply Nat.isDigit_of_mem_toDigits (b := 10) (n := number) (by decide) (by decide)
      rw [hdigits]
      exact List.mem_cons_self

/-- What begins with a digit begins with no other character. -/
theorem toDigits_append_ne {number : ℕ} {char : Char} (hchar : char.isDigit = false)
    (rest tail : List Char) : Nat.toDigits 10 number ++ rest ≠ char :: tail := by
  intro heq
  obtain ⟨digit, digits, hdigits, hdigit⟩ := exists_toDigits number
  rw [hdigits, List.cons_append] at heq
  rw [(List.cons.inj heq).1] at hdigit
  cases hchar.symm.trans hdigit

theorem readInt_dumpsInt (value : ℤ) {rest : List Char} (hrest : NoDigitFirst rest) :
    readInt (dumpsInt value ++ rest) = some (value, rest) := by
  rw [dumpsInt]
  split
  case isTrue hnonneg =>
    rw [readInt]
    · rw [readNat_toDigits _ hrest, Option.map_some]
      dsimp only
      rw [Int.toNat_of_nonneg hnonneg]
    · exact fun tail => toDigits_append_ne (by decide) rest tail
  case isFalse hneg =>
    rw [List.cons_append, readInt, readNat_toDigits _ hrest, Option.map_some]
    dsimp only
    rw [Int.toNat_of_nonneg (by omega), Int.neg_neg]

theorem readScalar_dumpsInt (value : ℤ) (rest : List Char) :
    readScalar (dumpsInt value ++ rest) =
      (readInt (dumpsInt value ++ rest)).map fun (value, rest) => (.int value, rest) := by
  have hother {char : Char} (hdigit : char.isDigit = false) (hsign : '-' ≠ char) :
      ∀ tail, dumpsInt value ++ rest ≠ char :: tail := by
    intro tail
    rw [dumpsInt]
    split
    case isTrue => exact toDigits_append_ne hdigit rest tail
    case isFalse => exact fun heq => hsign (List.cons.inj heq).1
  rw [readScalar]
  all_goals exact hother (by decide) (by decide)

/-- A scalar is read back. -/
theorem readScalar_dumpsScalar (value : Scalar) {rest : List Char} (hrest : NoDigitFirst rest) :
    readScalar (dumpsScalar value ++ rest) = some (value, rest) := by
  match value with
  | .null => simp [dumpsScalar, readScalar, readWord]
  | .bool true => simp [dumpsScalar, readScalar, readWord]
  | .bool false => simp [dumpsScalar, readScalar, readWord]
  | .int value => rw [dumpsScalar, readScalar_dumpsInt, readInt_dumpsInt value hrest]; rfl
  | .text value =>
      rw [dumpsScalar, dumpsText, List.cons_append, List.append_assoc, List.singleton_append,
        readScalar, readText_dumpsText]
      rfl

/-! ## Objects -/

def dumpsMember (member : String × Scalar) : List Char :=
  dumpsText member.1 ++ (": ".toList ++ dumpsScalar member.2)

/-- The members, separated by commas, and the closing brace. -/
def dumpsMembers : Object → List Char
  | [] => ['}']
  | [member] => dumpsMember member ++ ['}']
  | member :: object => dumpsMember member ++ (", ".toList ++ dumpsMembers object)

/-- `json.dumps`, with its default separators. -/
def dumps (object : Object) : String := String.ofList ('{' :: dumpsMembers object)

/-- A member; white space may stand around the colon. -/
def readMember (input : List Char) : Option ((String × Scalar) × List Char) :=
  match input with
  | '"' :: rest => do
      let (name, rest) ← readText rest
      match skipSpace rest with
      | ':' :: rest =>
          let (value, rest) ← readScalar (skipSpace rest)
          return ((name, value), rest)
      | _ => none
  | _ => none

/-- The members up to the closing brace, no more than `fuel`. -/
def readMembers : ℕ → List Char → Option (Object × List Char)
  | 0, _ => none
  | fuel + 1, input => do
      let (member, rest) ← readMember input
      match skipSpace rest with
      | '}' :: rest => return ([member], rest)
      | ',' :: rest =>
          let (members, rest) ← readMembers fuel (skipSpace rest)
          return (member :: members, rest)
      | _ => none

/-- An object whose opening brace has been read.  Every member takes a character. -/
def readObject (input : List Char) : Option (Object × List Char) :=
  match skipSpace input with
  | '}' :: rest => some ([], rest)
  | _ => readMembers input.length (skipSpace input)

/-- `json.loads`: nothing but white space may follow the object. -/
def loads (text : String) : Option Object :=
  match skipSpace text.toList with
  | '{' :: rest =>
      (readObject rest).bind fun (object, rest) =>
        if skipSpace rest = [] then some object else none
  | _ => none

theorem skipSpace_cons {char : Char} (hchar : isSpace char = false) (rest : List Char) :
    skipSpace (char :: rest) = char :: rest := by
  rw [skipSpace, List.dropWhile_cons_of_neg (by simp [hchar])]

theorem dumpsMember_eq (member : String × Scalar) (rest : List Char) :
    dumpsMember member ++ rest =
      '"' :: ((member.1.toList.flatMap utf16).flatMap quoteUnit ++
        '"' :: ':' :: ' ' :: (dumpsScalar member.2 ++ rest)) := by
  simp [dumpsMember, dumpsText]

theorem isSpace_of_isDigit {char : Char} (hdigit : char.isDigit = true) :
    isSpace char = false := by
  simp only [isSpace, Bool.or_eq_false_iff, decide_eq_false_iff_not]
  refine ⟨⟨⟨?_, ?_⟩, ?_⟩, ?_⟩
  all_goals
    rintro rfl
    exact absurd hdigit (by decide)

/-- No scalar begins with white space. -/
theorem skipSpace_dumpsScalar (value : Scalar) (rest : List Char) :
    skipSpace (dumpsScalar value ++ rest) = dumpsScalar value ++ rest := by
  match value with
  | .null => rfl
  | .bool true => rfl
  | .bool false => rfl
  | .text _ => rfl
  | .int value =>
      rw [dumpsScalar, dumpsInt]
      split
      case isTrue =>
        obtain ⟨digit, digits, hdigits, hdigit⟩ := exists_toDigits value.toNat
        rw [hdigits]
        apply skipSpace_cons
        exact isSpace_of_isDigit hdigit
      case isFalse => rfl

/-- A member is read back. -/
theorem readMember_dumpsMember (member : String × Scalar) {rest : List Char}
    (hrest : NoDigitFirst rest) :
    readMember (dumpsMember member ++ rest) = some (member, rest) := by
  rw [dumpsMember_eq, readMember, readText_dumpsText]
  have hspace : skipSpace (' ' :: (dumpsScalar member.2 ++ rest)) =
      dumpsScalar member.2 ++ rest := skipSpace_dumpsScalar member.2 rest
  have hcolon : skipSpace (':' :: ' ' :: (dumpsScalar member.2 ++ rest)) =
      ':' :: ' ' :: (dumpsScalar member.2 ++ rest) := skipSpace_cons (by decide) _
  simp [hcolon, hspace, readScalar_dumpsScalar member.2 hrest]

/-- The first member begins with the quote of its name. -/
theorem exists_dumpsMembers (member : String × Scalar) (object : Object) (rest : List Char) :
    ∃ tail, dumpsMembers (member :: object) ++ rest = '"' :: tail := by
  cases object with
  | nil => exact ⟨_, by rw [dumpsMembers, List.append_assoc, dumpsMember_eq]⟩
  | cons other object =>
      have hmore : dumpsMembers (member :: other :: object) =
          dumpsMember member ++ (", ".toList ++ dumpsMembers (other :: object)) := by
        rw [dumpsMembers]
        exact List.cons_ne_nil other object
      exact ⟨_, by rw [hmore, List.append_assoc, dumpsMember_eq]⟩

theorem skipSpace_dumpsMembers (object : Object) (rest : List Char) :
    skipSpace (dumpsMembers object ++ rest) = dumpsMembers object ++ rest := by
  cases object with
  | nil => rfl
  | cons member object =>
      obtain ⟨tail, htail⟩ := exists_dumpsMembers member object rest
      rw [htail, skipSpace_cons (by decide)]

theorem length_le_dumpsMembers (object : Object) :
    object.length ≤ (dumpsMembers object).length := by
  induction object with
  | nil => exact Nat.zero_le _
  | cons member object ih =>
      cases object with
      | nil => simp [dumpsMembers]
      | cons other object =>
          rw [dumpsMembers]
          · simp only [List.length_cons, List.length_append] at ih ⊢
            have hsep : ", ".toList.length = 2 := rfl
            omega
          · simp

theorem readMembers_dumpsMembers {object : Object} (hmembers : object ≠ []) {fuel : ℕ}
    (hfuel : object.length ≤ fuel) (rest : List Char) :
    readMembers fuel (dumpsMembers object ++ rest) = some (object, rest) := by
  induction object generalizing fuel with
  | nil => exact absurd rfl hmembers
  | cons member object ih =>
      obtain ⟨fuel, rfl⟩ : ∃ smaller, fuel = smaller + 1 :=
        Nat.exists_eq_succ_of_ne_zero (by simp at hfuel; omega)
      cases object with
      | nil =>
          rw [dumpsMembers, List.append_assoc, List.singleton_append, readMembers,
            readMember_dumpsMember member (by rintro char ⟨rfl⟩; rfl)]
          rfl
      | cons other object =>
          have hmore := ih (by simp) (Nat.le_of_succ_le_succ hfuel)
          have hspace : skipSpace (' ' :: (dumpsMembers (other :: object) ++ rest)) =
              dumpsMembers (other :: object) ++ rest := skipSpace_dumpsMembers _ rest
          have hrest : (", ".toList ++ dumpsMembers (other :: object)) ++ rest =
              ',' :: ' ' :: (dumpsMembers (other :: object) ++ rest) := rfl
          rw [dumpsMembers, List.append_assoc, hrest, readMembers,
            readMember_dumpsMember member (by rintro char ⟨rfl⟩; rfl)]
          · rw [Option.bind_eq_bind, Option.bind_some]
            dsimp only
            rw [skipSpace_cons (by decide)]
            simp [hspace, hmore]
          · simp

theorem readObject_dumpsMembers (object : Object) (rest : List Char) :
    readObject (dumpsMembers object ++ rest) = some (object, rest) := by
  cases object with
  | nil => rfl
  | cons member object =>
      have hlength : (member :: object).length ≤
          (dumpsMembers (member :: object) ++ rest).length := by
        have := length_le_dumpsMembers (member :: object)
        rw [List.length_append]
        omega
      obtain ⟨tail, htail⟩ := exists_dumpsMembers member object rest
      have hread := readMembers_dumpsMembers (List.cons_ne_nil member object) hlength rest
      rw [readObject, skipSpace_dumpsMembers, hread, htail]
      simp

/-- Reading undoes writing, whatever the members. -/
theorem loads_dumps (object : Object) : loads (dumps object) = some object := by
  have hread := readObject_dumpsMembers object []
  rw [List.append_nil] at hread
  have hbrace : skipSpace (dumps object).toList = '{' :: dumpsMembers object := by
    rw [dumps, String.toList_ofList, skipSpace_cons (by decide)]
  have hloads : loads (dumps object) = (readObject (dumpsMembers object)).bind
      fun (object, rest) => if skipSpace rest = [] then some object else none := by
    rw [loads, hbrace]
    rfl
  rw [hloads, hread]
  rfl

/-! ## ASCII -/

/-- Space to tilde. -/
def isPrintable (char : Char) : Bool := 0x20 ≤ char.toNat && char.toNat ≤ 0x7e

theorem isPrintable_hexDigit : ∀ number < 16, isPrintable (hexDigit .lower number) = true := by
  decide

theorem isPrintable_of_mem : ∀ pair ∈ letterEscapes, isPrintable pair.2 = true := by
  decide

theorem isPrintable_quoteUnit {unit : ℕ} (hunit : unit < 0x10000) :
    (quoteUnit unit).all isPrintable = true := by
  rw [quoteUnit]
  split
  case h_1 code letter hfind =>
    have hletter := isPrintable_of_mem _ (List.mem_of_find?_eq_some hfind)
    simp only [List.all_cons, List.all_nil, hletter]
    decide
  case h_2 =>
    split
    case isTrue hprintable =>
      simp only [Bool.and_eq_true, decide_eq_true_eq] at hprintable
      have hcode := toNat_ofNat (show unit < 0xd800 by omega)
      simp [isPrintable, hcode, hprintable]
    case isFalse =>
      simp only [List.all_cons, List.all_nil,
        isPrintable_hexDigit (unit / 0x1000) (by omega),
        isPrintable_hexDigit (unit / 0x100 % 0x10) (by omega),
        isPrintable_hexDigit (unit / 0x10 % 0x10) (by omega),
        isPrintable_hexDigit (unit % 0x10) (by omega)]
      decide

theorem isPrintable_dumpsText (text : String) : (dumpsText text).all isPrintable = true := by
  have hquoted : ((text.toList.flatMap utf16).flatMap quoteUnit).all isPrintable = true := by
    rw [List.all_flatMap, List.all_eq_true]
    intro unit hunit
    obtain ⟨char, -, hmem⟩ := List.mem_flatMap.mp hunit
    exact isPrintable_quoteUnit (lt_of_mem_utf16 hmem)
  rw [dumpsText, List.all_cons, List.all_append, hquoted]
  decide

theorem isPrintable_dumpsScalar (value : Scalar) : (dumpsScalar value).all isPrintable = true := by
  have hdigits (number : ℕ) : (Nat.toDigits 10 number).all isPrintable = true := by
    rw [List.all_eq_true]
    intro digit hdigit
    have hrange := Nat.isDigit_of_mem_toDigits (by decide) (by decide) hdigit
    simp only [Char.isDigit, Bool.and_eq_true, decide_eq_true_eq, ge_iff_le] at hrange
    have hlow : 48 ≤ digit.toNat := hrange.1
    have hhigh : digit.toNat ≤ 57 := hrange.2
    simp only [isPrintable, Bool.and_eq_true, decide_eq_true_eq]
    omega
  match value with
  | .null => decide
  | .bool true => decide
  | .bool false => decide
  | .text value => exact isPrintable_dumpsText value
  | .int value =>
      rw [dumpsScalar, dumpsInt]
      split
      case isTrue => exact hdigits _
      case isFalse =>
        rw [List.all_cons, hdigits]
        decide

/-- What is written is ASCII. -/
theorem isPrintable_dumps (object : Object) : (dumps object).toList.all isPrintable = true := by
  have hmember (member : String × Scalar) : (dumpsMember member).all isPrintable = true := by
    rw [dumpsMember, List.all_append, List.all_append, isPrintable_dumpsText,
      isPrintable_dumpsScalar]
    decide
  have hmembers : (dumpsMembers object).all isPrintable = true := by
    induction object with
    | nil => decide
    | cons member object ih =>
        cases object with
        | nil =>
            rw [dumpsMembers, List.all_append, hmember]
            decide
        | cons other object =>
            rw [dumpsMembers, List.all_append, List.all_append, hmember, ih]
            · decide
            · simp
  rw [dumps, String.toList_ofList, List.all_cons, hmembers]
  decide

end DownloaderBot.Json
