import DownloaderBot.Core.Text
import DownloaderBot.Download.ZipStream
import Mathlib.Data.Finset.Card

/-!
# The names of the members

The walk again, with its two counters and with the outcome of every single
pre-flight, so that equal attachments may fare differently.  A member is named after
its message and its file; an extraction leaves one file for each name.
-/

namespace DownloaderBot.ZipStream

open DownloaderBot.Discord
open DownloaderBot.Text

/-- An attachment and what becomes of it. -/
abbrev Outcome := Visit × Fetch

/-- What `_members` has yielded and counted. -/
structure Progress where
  yielded : List Member := []
  attachmentsDone : ℕ := 0
  bytesStreamed : ℕ := 0
  deriving DecidableEq, Repr

def Progress.commit (progress : Progress) (visit : Visit) : Progress where
  yielded := progress.yielded ++ [visit.member]
  attachmentsDone := progress.attachmentsDone + 1
  bytesStreamed := progress.bytesStreamed + visit.2.size.getD 0

/-- `Visit.member` names a member so. -/
def memberName (messageId : ℕ) (filename : String) : String :=
  toString messageId ++ "_" ++ filename

section Loop

variable (selects : Visit → Bool)

/-- The two loops of `_members`. -/
def walkFrom : Progress → List Outcome → Progress
  | progress, [] => progress
  | progress, (visit, fetch) :: rest =>
      if selects visit then
        match fetch with
        | .streamed => walkFrom (progress.commit visit) rest
        | .skipped => walkFrom progress rest
        | .raised => progress
        | .broken => progress.commit visit
      else walkFrom progress rest

/-- The walk over a history; `fetch` tells what becomes of each attachment in turn. -/
def outcomes (history : List Message) (fetch : ℕ → Fetch) : List Outcome :=
  (visits history).zipIdx.map fun visit => (visit.1, fetch visit.2)

def walkHistory (history : List Message) (fetch : ℕ → Fetch) : Progress :=
  walkFrom selects {} (outcomes history fetch)

/-- The files an extraction leaves. -/
def extracted (progress : Progress) : Finset String :=
  (progress.yielded.map Member.name).toFinset

/-- No attachment overwrites another. -/
structure Distinct (progress : Progress) : Prop where
  names : (progress.yielded.map Member.name).Nodup
  files : (extracted progress).card = progress.attachmentsDone

/-! ## What the walk commits -/

def Fetch.answers : Fetch → Bool
  | .streamed | .broken => true
  | .skipped | .raised => false

/-- The attachment matches, and its pre-flight gets a response. -/
def commits (outcome : Outcome) : Bool :=
  selects outcome.1 && outcome.2.answers

/-- The attachment ends the walk. -/
def ends (outcome : Outcome) : Bool :=
  selects outcome.1 && outcome.2.aborts

/-- The attachments up to the first that ends the walk. -/
def reached (list : List Outcome) : List Outcome :=
  list.take (list.findIdx (ends selects) + 1)

variable {selects} {progress : Progress} {list : List Outcome}

theorem reached_cons (outcome : Outcome) (rest : List Outcome) :
    reached selects (outcome :: rest) =
      outcome :: if ends selects outcome then [] else reached selects rest := by
  cases hends : ends selects outcome <;>
    simp [reached, List.findIdx_cons, hends]

/-- The attachments committed on top of those before. -/
theorem yielded_walkFrom :
    (walkFrom selects progress list).yielded = progress.yielded ++
      ((reached selects list).filter (commits selects)).map
        fun outcome => outcome.1.member := by
  induction list generalizing progress with
  | nil => simp [walkFrom, reached]
  | cons outcome rest ih =>
      obtain ⟨visit, fetch⟩ := outcome
      rw [reached_cons]
      cases hselects : selects visit with
      | false => simpa [walkFrom, ends, commits, hselects] using ih
      | true =>
          cases fetch with
          | streamed =>
              simp [walkFrom, ends, commits, hselects, Fetch.aborts, Fetch.answers, ih,
                Progress.commit]
          | skipped =>
              simpa [walkFrom, ends, commits, hselects, Fetch.aborts, Fetch.answers]
                using ih
          | raised =>
              simp [walkFrom, ends, commits, hselects, Fetch.aborts, Fetch.answers]
          | broken =>
              simp [walkFrom, ends, commits, hselects, Fetch.aborts, Fetch.answers,
                Progress.commit]

/-- The counter counts what is yielded. -/
theorem attachmentsDone_walkFrom
    (hcount : progress.attachmentsDone = progress.yielded.length) :
    (walkFrom selects progress list).attachmentsDone =
      (walkFrom selects progress list).yielded.length := by
  have hcommit : ∀ visit, (progress.commit visit).attachmentsDone =
      (progress.commit visit).yielded.length := by
    intro visit
    simp [Progress.commit, hcount]
  induction list generalizing progress with
  | nil => exact hcount
  | cons outcome rest ih =>
      obtain ⟨visit, fetch⟩ := outcome
      simp only [walkFrom]
      split
      · cases fetch with
        | streamed =>
            apply ih (hcommit visit)
            intro other
            simp [Progress.commit, hcount]
        | skipped => exact ih hcount hcommit
        | raised => exact hcount
        | broken => exact hcommit visit
      · exact ih hcount hcommit

/-- Where the outcome of a pre-flight depends on the attachment alone, the walk is
the one of `members`. -/
theorem yielded_eq_members (fetch : Visit → Fetch) (visited : List Visit) :
    (walkFrom selects {} (visited.map fun visit => (visit, fetch visit))).yielded =
      (members selects fetch visited).members := by
  rw [yielded_walkFrom, List.nil_append]
  induction visited with
  | nil => rfl
  | cons visit rest ih =>
      rw [List.map_cons, reached_cons]
      cases hselects : selects visit with
      | false => simpa [ends, commits, hselects, members] using ih
      | true =>
          cases hfetch : fetch visit with
          | streamed | skipped =>
              simpa [ends, commits, hselects, members, hfetch, Fetch.aborts,
                Fetch.answers] using ih
          | raised | broken =>
              simp [ends, commits, hselects, members, hfetch, Fetch.aborts,
                Fetch.answers]

end Loop

/-! ## When the names are distinct -/

/-- The name tells the message and the file apart. -/
theorem memberName_inj {messageId other : ℕ} {filename name : String} :
    memberName messageId filename = memberName other name ↔
      messageId = other ∧ filename = name := by
  constructor
  · intro heq
    have hlists : (toString messageId).toList ++ '_' :: filename.toList =
        (toString other).toList ++ '_' :: name.toList := by
      simpa [memberName] using congrArg String.toList heq
    obtain ⟨hid, hname⟩ := (append_separator_inj (underscore_notMem_toString messageId)
      (underscore_notMem_toString other)).mp hlists
    exact ⟨toString_injective (String.toList_injective hid),
      String.toList_injective hname⟩
  · rintro ⟨rfl, rfl⟩
    rfl

/-- No message has two files of the same name that both match and get a response
before the walk ends. -/
def NoFileTwice (selects : Visit → Bool) (list : List Outcome) : Prop :=
  ((reached selects list).filter (commits selects)).Pairwise fun first second =>
    first.1.1 = second.1.1 → first.1.2.filename ≠ second.1.2.filename

instance (selects : Visit → Bool) (list : List Outcome) :
    Decidable (NoFileTwice selects list) :=
  inferInstanceAs (Decidable (List.Pairwise _ _))

section Names

variable {selects : Visit → Bool} {history : List Message} {fetch : ℕ → Fetch}

/-- The walk visits the messages of the history. -/
theorem message_mem_of_reached {outcome : Outcome}
    (hmem : outcome ∈ reached selects (outcomes history fetch)) :
    outcome.1.1 ∈ history := by
  have houtcome := List.mem_of_mem_take hmem
  obtain ⟨⟨visit, place⟩, hvisit, rfl⟩ := List.mem_map.mp houtcome
  have hvisited : visit ∈ visits history := (List.mem_zipIdx hvisit).2.2 ▸ by simp
  obtain ⟨message, hmessage, hattachment⟩ := List.mem_flatMap.mp hvisited
  obtain ⟨attachment, -, rfl⟩ := List.mem_map.mp hattachment
  exact hmessage

theorem names_nodup_iff (hids : (history.map Message.id).Nodup) :
    ((walkHistory selects history fetch).yielded.map Member.name).Nodup ↔
      NoFileTwice selects (outcomes history fetch) := by
  rw [walkHistory, yielded_walkFrom, List.nil_append, List.map_map, List.Nodup,
    List.pairwise_map]
  apply List.Pairwise.iff_of_mem
  intro first second hfirst hsecond
  have hmessage : first.1.1.id = second.1.1.id ↔ first.1.1 = second.1.1 := by
    constructor
    · exact List.inj_on_of_nodup_map hids
        (message_mem_of_reached (List.mem_filter.mp hfirst).1)
        (message_mem_of_reached (List.mem_filter.mp hsecond).1)
    · exact congrArg Message.id
  rw [← hmessage, ← not_and]
  exact not_congr memberName_inj

/-- The members have distinct names, and no attachment overwrites another, if and
only if no message has two files of the same name among those committed. -/
theorem distinct_iff_noFileTwice (selects : Visit → Bool) (history : List Message)
    (fetch : ℕ → Fetch) (hids : (history.map Message.id).Nodup) :
    Distinct (walkHistory selects history fetch) ↔
      NoFileTwice selects (outcomes history fetch) := by
  rw [← names_nodup_iff hids]
  constructor
  · exact Distinct.names
  · intro hnodup
    refine ⟨hnodup, ?_⟩
    calc
      (extracted (walkHistory selects history fetch)).card
          = ((walkHistory selects history fetch).yielded.map Member.name).length :=
        List.toFinset_card_of_nodup hnodup
      _ = (walkHistory selects history fetch).yielded.length := List.length_map _
      _ = (walkHistory selects history fetch).attachmentsDone :=
        (attachmentsDone_walkFrom rfl).symm

/-- Two messages with a file of the same name, and a message with two files of
different names of which one is skipped. -/
theorem distinct_namesakes :
    Distinct (walkHistory (fun _ => true)
      [⟨5, 7, ⟨0, by decide⟩, [⟨"a.png", "u", none, none⟩, ⟨"a.png", "v", none, none⟩]⟩,
        ⟨6, 7, ⟨0, by decide⟩, [⟨"a.png", "w", none, none⟩, ⟨"b.png", "x", none, none⟩]⟩]
      fun place => if place = 1 then .skipped else .streamed) :=
  (distinct_iff_noFileTwice _ _ _ (by decide)).mpr (by decide)

/-- Two images pasted into one message carry the same name: one of them is lost. -/
theorem not_distinct_pasted :
    ¬ Distinct (walkHistory (fun _ => true)
      [⟨5, 7, ⟨0, by decide⟩,
        [⟨"image.png", "u", none, none⟩, ⟨"image.png", "v", none, none⟩]⟩]
      fun _ => .streamed) := by
  intro hdistinct
  exact absurd hdistinct.names (by decide)

end Names

end DownloaderBot.ZipStream
