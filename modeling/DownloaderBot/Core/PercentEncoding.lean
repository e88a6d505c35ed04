import DownloaderBot.Core.Text

/-!
# Percent encoding

A text as the bytes of its UTF-8 encoding, where every byte that is not an unreserved ASCII
character is written as a percent sign and two hexadecimal digits.  Decoding is strict: a
percent sign that begins no such triplet, a character that is not ASCII and bytes that are
not UTF-8 have no meaning.
-/

namespace DownloaderBot.PercentEncoding

open DownloaderBot.Text

/-- The characters that stand for themselves. -/
def isUnreserved (char : Char) : Bool :=
  char.isAlphanum || char ∈ ['_', '.', '-', '~']

def quoteByte (byte : UInt8) : List Char :=
  if isUnreserved (Char.ofUInt8 byte) then [Char.ofUInt8 byte]
  else ['%', hexDigit .upper (byte.toNat / 16), hexDigit .upper (byte.toNat % 16)]

def quote (text : String) : String :=
  String.ofList (text.toUTF8.data.toList.flatMap quoteByte)

/-- The bytes that a percent-encoded text denotes. -/
def unquoteBytes : List Char → Option (List UInt8)
  | [] => some []
  | '%' :: high :: low :: rest => do
      let high ← hexValue high
      let low ← hexValue low
      return UInt8.ofNat (high * 16 + low) :: (← unquoteBytes rest)
  | char :: rest =>
      if char = '%' ∨ 128 ≤ char.toNat then none
      else do return char.toUInt8 :: (← unquoteBytes rest)

def unquote (text : String) : Option String :=
  (unquoteBytes text.toList).bind fun bytes => String.fromUTF8? ⟨bytes.toArray⟩

/-! ## The round trip -/

/-- An unreserved byte is an ASCII character, and no percent sign. -/
theorem of_isUnreserved : ∀ byte : UInt8, isUnreserved (Char.ofUInt8 byte) = true →
    Char.ofUInt8 byte ≠ '%' ∧ (Char.ofUInt8 byte).toNat < 128 ∧
      (Char.ofUInt8 byte).toUInt8 = byte := by
  suffices hall : ∀ byte : Fin 256, isUnreserved (Char.ofUInt8 ⟨⟨byte⟩⟩) = true →
      Char.ofUInt8 ⟨⟨byte⟩⟩ ≠ '%' ∧ (Char.ofUInt8 ⟨⟨byte⟩⟩).toNat < 128 ∧
        (Char.ofUInt8 ⟨⟨byte⟩⟩).toUInt8 = ⟨⟨byte⟩⟩ from
    fun byte => hall byte.toBitVec.toFin
  decide +kernel

/-- A byte is read back first. -/
theorem unquoteBytes_quoteByte (byte : UInt8) (rest : List Char) :
    unquoteBytes (quoteByte byte ++ rest) = (unquoteBytes rest).map (byte :: ·) := by
  by_cases hunreserved : isUnreserved (Char.ofUInt8 byte) = true
  · obtain ⟨hpercent, hascii, hbyte⟩ := of_isUnreserved byte hunreserved
    have hplain : ¬ (Char.ofUInt8 byte = '%' ∨ 128 ≤ (Char.ofUInt8 byte).toNat) := by
      simp [hpercent, hascii]
    rw [quoteByte, if_pos hunreserved, List.singleton_append, unquoteBytes.eq_3,
      if_neg hplain, hbyte]
    · cases unquoteBytes rest <;> rfl
    · intro high low tail hchar
      exact absurd hchar hpercent
  · have hlt : byte.toNat < 256 := byte.toNat_lt
    have hbyte : UInt8.ofNat (byte.toNat / 16 * 16 + byte.toNat % 16) = byte := by
      rw [show byte.toNat / 16 * 16 + byte.toNat % 16 = byte.toNat by omega,
        UInt8.ofNat_toNat]
    rw [quoteByte, if_neg hunreserved]
    simp only [List.cons_append, List.nil_append, unquoteBytes,
      hexValue_hexDigit .upper (byte.toNat / 16) (by omega),
      hexValue_hexDigit .upper (byte.toNat % 16) (by omega)]
    cases unquoteBytes rest with
    | none => rfl
    | some bytes => exact congrArg (fun first => some (first :: bytes)) hbyte

theorem unquoteBytes_flatMap_quoteByte (bytes : List UInt8) :
    unquoteBytes (bytes.flatMap quoteByte) = some bytes := by
  induction bytes with
  | nil => rfl
  | cons byte bytes ih => rw [List.flatMap_cons, unquoteBytes_quoteByte, ih, Option.map_some]

/-- Decoding undoes encoding, for every text. -/
theorem unquote_quote (text : String) : unquote (quote text) = some text := by
  have hbytes : (⟨text.toUTF8.data.toList.toArray⟩ : ByteArray) = text.toByteArray := by
    simp
  rw [unquote, quote, String.toList_ofList, unquoteBytes_flatMap_quoteByte, Option.bind_some,
    hbytes, String.fromUTF8?, dif_pos text.isValidUTF8]
  rfl

/-- The characters of an encoded text are unreserved ones and percent signs. -/
theorem of_mem_quote {text : String} {char : Char} (hchar : char ∈ (quote text).toList) :
    isUnreserved char = true ∨ char = '%' := by
  rw [quote, String.toList_ofList, List.mem_flatMap] at hchar
  obtain ⟨byte, -, hmem⟩ := hchar
  have hdigit : ∀ number < 16, isUnreserved (hexDigit .upper number) = true := by decide
  have hlt : byte.toNat < 256 := byte.toNat_lt
  rw [quoteByte] at hmem
  split at hmem
  case isTrue hunreserved =>
    obtain rfl := List.mem_singleton.mp hmem
    exact .inl hunreserved
  case isFalse =>
    simp only [List.mem_cons, List.not_mem_nil, or_false] at hmem
    rcases hmem with rfl | rfl | rfl
    · exact .inr rfl
    · exact .inl (hdigit _ (by omega))
    · exact .inl (hdigit _ (by omega))

end DownloaderBot.PercentEncoding
