import DownloaderBot.Download.Discord
import Mathlib.Data.List.Sublists
import Mathlib.Data.String.Basic

/-!
# The zip stream

The walk that feeds the archive: every attachment that matches is pre-flighted, and
if that yields a response, becomes a member whose body is read to its end before
the walk goes on.  An exception ends the walk and leaves no archive.
-/

namespace DownloaderBot.ZipStream

open DownloaderBot.Discord

/-- What becomes of an attachment.  `skipped`: a `ClientError` or another status
than 200; `raised`: any other exception of the pre-flight; `broken`: the body fails
in mid-stream. -/
inductive Fetch
  | streamed
  | skipped
  | raised
  | broken
  deriving DecidableEq, Repr

/-- What ends a walk early. -/
inductive Failure
  | preflight
  | attachmentStreamError
  deriving DecidableEq, Repr

/-- A member tuple; mode and method are the same for all. -/
structure Member where
  name : String
  modifiedAt : Calendar.DateTime
  attachment : Attachment
  deriving DecidableEq, Repr

structure Walk where
  members : List Member
  failure : Option Failure
  deriving DecidableEq, Repr

/-- An attachment and the message it is found on. -/
abbrev Visit := Message × Attachment

/-- The attachments in the order of the two loops. -/
def visits (history : List Message) : List Visit :=
  history.flatMap fun message => message.attachments.map (message, ·)

def Visit.member (visit : Visit) : Member :=
  ⟨toString visit.1.id ++ "_" ++ visit.2.filename, visit.1.createdAt, visit.2⟩

section Walk

variable (selects : Visit → Bool) (fetch : Visit → Fetch)

/-- `_members`. -/
def members : List Visit → Walk
  | [] => ⟨[], none⟩
  | visit :: rest =>
      if selects visit then
        match fetch visit with
        | .streamed =>
            { members rest with members := visit.member :: (members rest).members }
        | .skipped => members rest
        | .raised => ⟨[], some .preflight⟩
        | .broken => ⟨[visit.member], some .attachmentStreamError⟩
      else members rest

/-- The members of the archive: none if the walk fails. -/
def Walk.archive (walk : Walk) : List Member :=
  match walk.failure with
  | none => walk.members
  | some _ => []

def Fetch.aborts : Fetch → Bool
  | .raised | .broken => true
  | .streamed | .skipped => false

/-- The attachments of the archive. -/
def archived (list : List Visit) : List Visit :=
  list.filter fun visit => selects visit && fetch visit = .streamed

variable {selects fetch} {list : List Visit}

/-- A selected attachment aborts the walk. -/
def Aborts (selects : Visit → Bool) (fetch : Visit → Fetch) (list : List Visit) :
    Prop :=
  ∃ visit ∈ list, selects visit = true ∧ (fetch visit).aborts = true

theorem aborts_cons {visit : Visit} :
    Aborts selects fetch (visit :: list) ↔
      (selects visit = true ∧ (fetch visit).aborts = true) ∨
        Aborts selects fetch list := by
  simp [Aborts]

theorem failure_of_aborts (haborts : Aborts selects fetch list) :
    (members selects fetch list).failure ≠ none := by
  induction list with
  | nil => simp [Aborts] at haborts
  | cons visit rest ih =>
      rcases aborts_cons.mp haborts with ⟨hselects, habort⟩ | hrest
      · cases hfetch : fetch visit with
        | streamed | skipped => simp [hfetch, Fetch.aborts] at habort
        | raised | broken => simp [members, hselects, hfetch]
      · have hfailure := ih hrest
        cases hselects : selects visit with
        | false => simpa [members, hselects] using hfailure
        | true =>
            cases hfetch : fetch visit with
            | streamed | skipped => simpa [members, hselects, hfetch] using hfailure
            | raised | broken => simp [members, hselects, hfetch]

/-- A walk that nothing aborts ends normally, with what streams. -/
theorem members_of_not_aborts (hnot : ¬ Aborts selects fetch list) :
    members selects fetch list =
      ⟨(archived selects fetch list).map Visit.member, none⟩ := by
  induction list with
  | nil => rfl
  | cons visit rest ih =>
      rw [aborts_cons, not_or] at hnot
      have hrest := ih hnot.2
      cases hselects : selects visit with
      | false => simpa [members, archived, hselects] using hrest
      | true =>
          cases hfetch : fetch visit with
          | streamed | skipped => simp [members, archived, hselects, hfetch, hrest]
          | raised | broken => exact absurd ⟨hselects, by rw [hfetch]; rfl⟩ hnot.1

theorem archive_of_aborts (haborts : Aborts selects fetch list) :
    (members selects fetch list).archive = [] := by
  rw [Walk.archive]
  split
  case h_1 hnone => exact absurd hnone (failure_of_aborts haborts)
  case h_2 => rfl

theorem archive_of_not_aborts (hnot : ¬ Aborts selects fetch list) :
    (members selects fetch list).archive =
      (archived selects fetch list).map Visit.member := by
  rw [members_of_not_aborts hnot]
  rfl

/-- What is archived was selected. -/
theorem exists_selected_of_mem_archive {member : Member}
    (hmember : member ∈ (members selects fetch list).archive) :
    ∃ visit, selects visit = true ∧ visit.member = member := by
  by_cases haborts : Aborts selects fetch list
  · rw [archive_of_aborts haborts] at hmember
    cases hmember
  · rw [archive_of_not_aborts haborts] at hmember
    obtain ⟨visit, harchived, rfl⟩ := List.mem_map.mp hmember
    exact ⟨visit, (Bool.and_eq_true_iff.mp (List.mem_filter.mp harchived).2).1, rfl⟩

section Fewer

variable {fewer : Visit → Bool}

/-- Without an abort, what is selected and not archived was skipped. -/
theorem skipped_of_archived_eq_nil (hnot : ¬ Aborts selects fetch list)
    (hnil : archived selects fetch list = []) {visit : Visit} (hmem : visit ∈ list)
    (hselects : selects visit = true) : fetch visit = .skipped := by
  cases hfetch : fetch visit with
  | skipped => rfl
  | streamed =>
      have hin : visit ∈ archived selects fetch list := by
        simp [archived, hmem, hselects, hfetch]
      rw [hnil] at hin
      cases hin
  | raised | broken =>
      exact absurd ⟨visit, hmem, hselects, by rw [hfetch]; rfl⟩ hnot

/-- Of two walks that nothing aborts, the one that selects less archives the same
exactly if what it leaves out is skipped. -/
theorem archived_eq_iff (hfewer : ∀ visit, fewer visit = true → selects visit = true)
    (hnot : ¬ Aborts selects fetch list) :
    (archived selects fetch list).map Visit.member =
        (archived fewer fetch list).map Visit.member ↔
      ∀ visit ∈ list, selects visit = true → fewer visit = false →
        fetch visit = .skipped := by
  constructor
  · intro heq visit hmem hselects hleft
    -- One list of archived attachments is part of the other, and as long.
    have hsub : (archived fewer fetch list).Sublist (archived selects fetch list) := by
      apply List.monotone_filter_right list
      intro visit harchived
      simp only [Bool.and_eq_true, decide_eq_true_eq] at harchived ⊢
      exact ⟨hfewer visit harchived.1, harchived.2⟩
    have hsame := hsub.eq_of_length (by simpa using congrArg List.length heq.symm)
    cases hfetch : fetch visit with
    | skipped => rfl
    | streamed =>
        have hin : visit ∈ archived selects fetch list := by
          simp [archived, hmem, hselects, hfetch]
        rw [← hsame] at hin
        simp [archived, hleft] at hin
    | raised | broken =>
        exact absurd ⟨visit, hmem, hselects, by rw [hfetch]; rfl⟩ hnot
  · intro hskipped
    congr 1
    apply List.filter_congr
    intro visit hmem
    cases hnow : fewer visit with
    | true => rw [hfewer visit hnow]
    | false =>
        cases hselects : selects visit with
        | false => rfl
        | true => simp [hskipped visit hmem hselects hnow]

/-- Selecting less is immaterial to the archive: an attachment that stays selected
aborts the walk, or all that are left out are skipped, or one of these aborts the
walk and all that stay selected are skipped. -/
def Immaterial (selects fewer : Visit → Bool) (fetch : Visit → Fetch)
    (list : List Visit) : Prop :=
  Aborts fewer fetch list ∨
    (∀ visit ∈ list, selects visit = true → fewer visit = false →
      fetch visit = .skipped) ∨
    (Aborts selects fetch list ∧
      ∀ visit ∈ list, fewer visit = true → fetch visit = .skipped)

theorem archive_eq_iff (hfewer : ∀ visit, fewer visit = true → selects visit = true) :
    (members selects fetch list).archive = (members fewer fetch list).archive ↔
      Immaterial selects fewer fetch list := by
  rw [Immaterial]
  by_cases hless : Aborts fewer fetch list
  · have hmore : Aborts selects fetch list := by
      obtain ⟨visit, hmem, hselects, haborts⟩ := hless
      exact ⟨visit, hmem, hfewer visit hselects, haborts⟩
    simp [archive_of_aborts hless, archive_of_aborts hmore, hless]
  · rw [archive_of_not_aborts hless, or_iff_right hless]
    by_cases hmore : Aborts selects fetch list
    · rw [archive_of_aborts hmore]
      constructor
      · intro hnil
        refine .inr ⟨hmore, fun visit hmem hselects => ?_⟩
        exact skipped_of_archived_eq_nil hless (List.map_eq_nil_iff.mp hnil.symm) hmem
          hselects
      · rintro (hskipped | ⟨-, hskipped⟩)
        · -- What aborts the walk is neither selected by both nor skipped.
          obtain ⟨visit, hmem, hselects, haborts⟩ := hmore
          cases hnow : fewer visit with
          | true => exact absurd ⟨visit, hmem, hnow, haborts⟩ hless
          | false =>
              rw [hskipped visit hmem hselects hnow] at haborts
              cases haborts
        · refine (List.map_eq_nil_iff.mpr (List.filter_eq_nil_iff.mpr ?_)).symm
          intro visit hmem harchived
          simp only [Bool.and_eq_true, decide_eq_true_eq] at harchived
          cases (hskipped visit hmem harchived.1).symm.trans harchived.2
    · rw [archive_of_not_aborts hmore, archived_eq_iff hfewer hmore]
      exact ⟨.inl, fun h => h.resolve_right fun habort => hmore habort.1⟩

end Fewer

end Walk

end DownloaderBot.ZipStream
