import DownloaderBot.Core.PercentEncoding
import DownloaderBot.Tasks.Download

/-!
# The Content-Disposition of an archive

The header that names the download, for the names that `_display_filename` makes of the
channels.  The name stands in the quoted string as it is, and what keeps the string from
ending early is that such a name has no quote in it.
-/

namespace DownloaderBot.ContentDisposition

open DownloaderBot.Calendar
open DownloaderBot.Discord
open DownloaderBot.PercentEncoding
open DownloaderBot.Tasks

/-- `encode("ascii")` succeeds. -/
def isAscii (text : String) : Bool := text.toList.all fun char => char.toNat < 128

/-- `encode("ascii", "replace")`. -/
def asciiFallback (text : String) : String :=
  String.ofList (text.toList.map fun char => if char.toNat < 128 then char else '?')

/-- `_format_content_disposition`. -/
def formatContentDisposition (filename : String) : String :=
  if isAscii filename then "attachment; filename=\"" ++ filename ++ "\""
  else
    "attachment; filename=\"" ++ asciiFallback filename ++ "\"; filename*=UTF-8''" ++
      quote filename

/-- Between quotes the text ends at the closing one, and stands for itself. -/
def Quotable (text : String) : Prop :=
  ∀ char ∈ text.toList, char ≠ '"' ∧ char ≠ '\\'

/-- The header gives a download its name: in the quoted string alone, or in one starred
parameter after it. -/
inductive Names (filename : String) : String → Prop
  | plain (hascii : isAscii filename = true) (hquotable : Quotable filename) :
      Names filename ("attachment; filename=\"" ++ filename ++ "\"")
  | starred {fallback value : String} (hascii : isAscii fallback = true)
      (hquotable : Quotable fallback)
      (hvalue : ∀ char ∈ value.toList, isUnreserved char = true ∨ char = '%')
      (hdecoded : unquote value = some filename) :
      Names filename
        ("attachment; filename=\"" ++ fallback ++ "\"; filename*=UTF-8''" ++ value)

/-! ## The names -/

theorem isUnsafe_of_mem_dashRuns {text : List Char} {inRun : Bool} {char : Char}
    (hchar : char ∈ dashRuns inRun text) : isUnsafe char = false := by
  induction text generalizing inRun with
  | nil => cases hchar
  | cons first rest ih =>
      rw [dashRuns] at hchar
      split at hchar
      · split at hchar
        · exact ih hchar
        · rcases List.mem_cons.mp hchar with rfl | hrest
          · decide
          · exact ih hrest
      case isFalse hsafe =>
        rcases List.mem_cons.mp hchar with rfl | hrest
        · exact Bool.eq_false_iff.mpr hsafe
        · exact ih hrest

theorem mem_of_mem_stripDashes {text : List Char} {char : Char}
    (hchar : char ∈ stripDashes text) : char ∈ text := by
  have hinner := (List.dropWhile_sublist _).mem (List.mem_reverse.mp hchar)
  exact (List.dropWhile_sublist _).mem (List.mem_reverse.mp hinner)

theorem isUnsafe_of_isDigit {char : Char} (hdigit : char.isDigit = true) :
    isUnsafe char = false := by
  have hrange : 48 ≤ char.toNat ∧ char.toNat ≤ 57 := by
    simp only [Char.isDigit, Bool.and_eq_true, decide_eq_true_eq, ge_iff_le,
      UInt32.le_iff_toNat_le] at hdigit
    exact hdigit
  have hspace : Text.isSpace char = false := by
    simp only [Text.isSpace, Text.isSpaceCode, Bool.or_eq_false_iff, Bool.and_eq_false_iff,
      decide_eq_false_iff_not]
    omega
  have hlisted : char ∉ ['\\', '/', ':', '*', '?', '"', '<', '>', '|'] := by
    intro hmem
    simp only [List.mem_cons, List.not_mem_nil, or_false] at hmem
    rcases hmem with rfl | rfl | rfl | rfl | rfl | rfl | rfl | rfl | rfl <;>
      exact absurd hrange (by decide)
  rw [isUnsafe, hspace, Bool.or_false, decide_eq_false hlisted]

/-- All characters of the text are safe. -/
def Safe (text : String) : Prop := ∀ char ∈ text.toList, isUnsafe char = false

instance (text : String) : Decidable (Safe text) :=
  List.decidableBAll (fun char => isUnsafe char = false) text.toList

theorem Safe.append {left right : String} (hleft : Safe left) (hright : Safe right) :
    Safe (left ++ right) := by
  intro char hchar
  rw [String.toList_append, List.mem_append] at hchar
  exact hchar.elim (hleft char) (hright char)

theorem safe_toString (number : ℕ) : Safe (toString number) := by
  intro char hchar
  apply isUnsafe_of_isDigit
  rw [Nat.toString_eq_ofList_toDigits, String.toList_ofList] at hchar
  exact Nat.isDigit_of_mem_toDigits (by decide) (by decide) hchar

theorem safe_padded (width number : ℕ) : Safe (padded width number) := by
  refine Safe.append (fun char hchar => ?_) (safe_toString number)
  rw [String.toList_ofList] at hchar
  obtain ⟨-, rfl⟩ := List.mem_replicate.mp hchar
  decide

theorem safe_isoDate (date : Civil) : Safe (isoDate date) := by
  have hdash : Safe "-" := by decide
  exact (((((safe_padded 4 date.year).append hdash).append (safe_padded 2 date.month)).append
    hdash).append (safe_padded 2 date.day))

/-- No channel and no date bring an unsafe character into the name. -/
theorem safe_displayFilename (channel : Channel) (today : Civil) :
    Safe (displayFilename channel today) := by
  have hzip : Safe ".zip" := by decide
  have hchannel : Safe "channel-" := by decide
  have hdash : Safe "-" := by decide
  have hname : ∀ rawName : String, Safe
      (if String.ofList (stripDashes (dashRuns false rawName.toList)) = "" then "unnamed"
        else String.ofList (stripDashes (dashRuns false rawName.toList))) := by
    intro rawName
    split
    · decide
    · intro char hchar
      rw [String.toList_ofList] at hchar
      exact isUnsafe_of_mem_dashRuns (mem_of_mem_stripDashes hchar)
  exact ((((hchannel.append (hname _)).append hdash).append (safe_isoDate today)).append hzip)

theorem quotable_of_safe {text : String} (hsafe : Safe text) : Quotable text := by
  intro char hchar
  have hchar := hsafe char hchar
  constructor
  · rintro rfl
    exact absurd hchar (by decide)
  · rintro rfl
    exact absurd hchar (by decide)

/-! ## The header -/

theorem isAscii_asciiFallback (text : String) : isAscii (asciiFallback text) = true := by
  rw [isAscii, asciiFallback, String.toList_ofList, List.all_eq_true]
  intro char hchar
  obtain ⟨original, -, rfl⟩ := List.mem_map.mp hchar
  split
  case isTrue hascii => exact decide_eq_true hascii
  case isFalse => decide

/-- The fallback brings in question marks, which need no quoting either. -/
theorem quotable_asciiFallback {text : String} (hquotable : Quotable text) :
    Quotable (asciiFallback text) := by
  intro char hchar
  rw [asciiFallback, String.toList_ofList] at hchar
  obtain ⟨original, horiginal, rfl⟩ := List.mem_map.mp hchar
  split
  · exact hquotable original horiginal
  · decide

theorem names_formatContentDisposition {filename : String} (hquotable : Quotable filename) :
    Names filename (formatContentDisposition filename) := by
  rw [formatContentDisposition]
  split
  case isTrue hascii => exact .plain hascii hquotable
  case isFalse =>
    exact .starred (isAscii_asciiFallback filename) (quotable_asciiFallback hquotable)
      (fun _ => of_mem_quote) (unquote_quote filename)

/-- The text is one line. -/
def OneLine (text : String) : Prop := ∀ char ∈ text.toList, char ≠ '\r' ∧ char ≠ '\n'

instance (text : String) : Decidable (OneLine text) :=
  List.decidableBAll (fun char => char ≠ '\r' ∧ char ≠ '\n') text.toList

theorem OneLine.append {left right : String} (hleft : OneLine left) (hright : OneLine right) :
    OneLine (left ++ right) := by
  intro char hchar
  rw [String.toList_append, List.mem_append] at hchar
  exact hchar.elim (hleft char) (hright char)

/-- Line ends are white space, which is unsafe. -/
theorem oneLine_of_safe {text : String} (hsafe : Safe text) : OneLine text := by
  intro char hchar
  have hchar := hsafe char hchar
  constructor
  · rintro rfl
    exact absurd hchar (by decide)
  · rintro rfl
    exact absurd hchar (by decide)

theorem oneLine_asciiFallback {text : String} (honeLine : OneLine text) :
    OneLine (asciiFallback text) := by
  intro char hchar
  rw [asciiFallback, String.toList_ofList] at hchar
  obtain ⟨original, horiginal, rfl⟩ := List.mem_map.mp hchar
  split
  · exact honeLine original horiginal
  · decide

theorem oneLine_quote (text : String) : OneLine (quote text) := by
  intro char hchar
  rcases of_mem_quote hchar with hunreserved | rfl
  · constructor
    · rintro rfl
      exact absurd hunreserved (by decide)
    · rintro rfl
      exact absurd hunreserved (by decide)
  · decide

theorem oneLine_formatContentDisposition {filename : String} (honeLine : OneLine filename) :
    OneLine (formatContentDisposition filename) := by
  have hopening : OneLine "attachment; filename=\"" := by decide
  rw [formatContentDisposition]
  split
  · exact (hopening.append honeLine).append (by decide)
  · exact ((hopening.append (oneLine_asciiFallback honeLine)).append (by decide)).append
      (oneLine_quote filename)

/-- For every channel and date, the header is one line that gives the download its display
name, whatever characters the channel's name is made of. -/
theorem contentDisposition_displayFilename (channel : Channel) (today : Civil) :
    Names (displayFilename channel today)
        (formatContentDisposition (displayFilename channel today)) ∧
      OneLine (formatContentDisposition (displayFilename channel today)) := by
  have hsafe := safe_displayFilename channel today
  exact ⟨names_formatContentDisposition (quotable_of_safe hsafe),
    oneLine_formatContentDisposition (oneLine_of_safe hsafe)⟩

example : formatContentDisposition
      (displayFilename ⟨1, some "héllo \"x\"\n", true⟩ ⟨2026, 5, 9⟩) =
    "attachment; filename=\"channel-h?llo-x-2026-05-09.zip\"; " ++
      "filename*=UTF-8''channel-h%C3%A9llo-x-2026-05-09.zip" := by
  decide +kernel

end DownloaderBot.ContentDisposition
