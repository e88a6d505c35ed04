import Mathlib.Data.List.AList
import Mathlib.Data.List.MinMax
import Mathlib.Data.Prod.Lex
import Mathlib.Data.Set.Function

/-!
# Keys that expire, and sets ordered by score

A key holds a value and, if a time to live was set, the moment from which it
reads as absent.  A scored set yields its member of highest score.  The last
section compares the newest elements of two sets.
-/

namespace DownloaderBot.ExpiringStore

section Cells

variable {Value Time : Type*}

/-- A key that is present.  `deadline` is `none` when it never expires. -/
structure Cell (Value Time : Type*) where
  value : Value
  deadline : Option Time

variable [LinearOrder Time]

/-- The cell has not expired. -/
def Cell.Live (cell : Cell Value Time) (now : Time) : Prop :=
  ∀ deadline ∈ cell.deadline, now < deadline

instance (cell : Cell Value Time) (now : Time) : Decidable (cell.Live now) :=
  match h : cell.deadline with
  | none => isTrue (by simp [Cell.Live, h])
  | some deadline => decidable_of_iff (now < deadline) (by simp [Cell.Live, h])

/-- What a read finds: nothing when the key is absent or has expired. -/
def fetch (now : Time) (key : Option (Cell Value Time)) : Option Value :=
  match key with
  | none => none
  | some cell => if cell.Live now then some cell.value else none

@[simp]
theorem fetch_none (now : Time) :
    fetch now (none : Option (Cell Value Time)) = none := rfl

theorem fetch_eq_some {now : Time} {key : Option (Cell Value Time)}
    {value : Value} :
    fetch now key = some value ↔
      ∃ cell, key = some cell ∧ cell.Live now ∧ cell.value = value := by
  cases key with
  | none => simp
  | some cell => by_cases hlive : cell.Live now <;> simp [fetch, hlive]

theorem Cell.Live.of_le {cell : Cell Value Time} {now later : Time}
    (hlive : cell.Live later) (htime : now ≤ later) : cell.Live now :=
  fun deadline hdeadline => htime.trans_lt (hlive deadline hdeadline)

/-- What has expired stays so. -/
theorem fetch_eq_none_of_le {now later : Time} {key : Option (Cell Value Time)}
    (htime : now ≤ later) (hnone : fetch now key = none) : fetch later key = none := by
  apply Option.eq_none_iff_forall_ne_some.mpr
  intro value hvalue
  obtain ⟨cell, rfl, hlive, rfl⟩ := fetch_eq_some.mp hvalue
  rw [fetch, if_pos (hlive.of_le htime)] at hnone
  cases hnone

end Cells

section ScoredSets

variable {Member Score : Type*} [LinearOrder Member] [LinearOrder Score]

/-- Distinct members, each with its score. -/
abbrev ScoredSet (Member Score : Type*) := AList fun _ : Member => Score

/-- The member of highest score; among equal scores the greatest member. -/
def highest (set : ScoredSet Member Score) : Option Member :=
  (set.entries.argmax fun entry => toLex (entry.2, entry.1)).map Sigma.fst

theorem highest_eq_none {set : ScoredSet Member Score} :
    highest set = none ↔ ∀ member, set.lookup member = none := by
  simp only [highest, Option.map_eq_none_iff, List.argmax_eq_none]
  constructor
  · intro hentries member
    obtain rfl : set = ∅ := AList.ext hentries
    exact AList.lookup_empty member
  · intro hlookup
    apply List.eq_nil_iff_forall_not_mem.mpr
    intro entry hentry
    have hsome : set.lookup entry.1 = some entry.2 :=
      AList.mem_lookup_iff.mpr hentry
    rw [hlookup] at hsome
    cases hsome

theorem highest_eq_some {set : ScoredSet Member Score} {member : Member}
    (hhighest : highest set = some member) :
    ∃ score, set.lookup member = some score ∧
      ∀ other otherScore, set.lookup other = some otherScore →
        otherScore ≤ score := by
  simp only [highest, Option.map_eq_some_iff] at hhighest
  obtain ⟨⟨_, score⟩, hargmax, rfl⟩ := hhighest
  refine ⟨score, AList.mem_lookup_iff.mpr (List.argmax_mem hargmax), ?_⟩
  intro other otherScore hother
  have hle := List.le_of_mem_argmax (AList.mem_lookup_iff.mp hother) hargmax
  exact Prod.Lex.monotone_fst _ _ hle

end ScoredSets

section Newest

variable {Job Time : Type*} [LinearOrder Time]

/-- `answer` is the element of `jobs` of the latest time, `none` when there is
no element. -/
def IsNewest (time : Job → Time) (jobs : Set Job) : Option Job → Prop
  | none => jobs = ∅
  | some job => job ∈ jobs ∧ ∀ other ∈ jobs, time other ≤ time job

/-- The newest element of one set is the newest of the other exactly when every
element that only one of them has is older than one that both have. -/
theorem isNewest_iff {time : Job → Time} {jobs others : Set Job}
    {answer : Option Job} (hinj : Set.InjOn time (jobs ∪ others))
    (hnewest : IsNewest time others answer) :
    IsNewest time jobs answer ↔
      ∀ job ∈ (jobs \ others) ∪ (others \ jobs), ∃ newer ∈ jobs ∩ others,
        time job < time newer := by
  cases answer with
  | none =>
      obtain rfl : others = ∅ := hnewest
      constructor
      · rintro (rfl : jobs = ∅) job hjob
        simp at hjob
      · intro hcovered
        apply Set.eq_empty_iff_forall_notMem.mpr
        intro job hjob
        obtain ⟨newer, hnewer, -⟩ := hcovered job (.inl ⟨hjob, not_false⟩)
        exact hnewer.2
  | some newest =>
      obtain ⟨hmem, hothers⟩ := hnewest
      constructor
      · rintro ⟨hjobs, hle⟩ job hjob
        refine ⟨newest, ⟨hjobs, hmem⟩, ?_⟩
        rcases hjob with ⟨hin, hout⟩ | ⟨hin, hout⟩
        · refine lt_of_le_of_ne (hle job hin) fun heq => hout ?_
          rwa [hinj (.inl hin) (.inl hjobs) heq]
        · refine lt_of_le_of_ne (hothers job hin) fun heq => hout ?_
          rwa [hinj (.inr hin) (.inl hjobs) heq]
      · intro hcovered
        have hjobs : newest ∈ jobs := by
          by_contra hout
          obtain ⟨newer, hnewer, hlt⟩ := hcovered newest (.inr ⟨hmem, hout⟩)
          exact absurd (hothers newer hnewer.2) (not_le.mpr hlt)
        refine ⟨hjobs, fun job hjob => ?_⟩
        by_cases hboth : job ∈ others
        · exact hothers job hboth
        · obtain ⟨newer, hnewer, hlt⟩ := hcovered job (.inl ⟨hjob, hboth⟩)
          exact hlt.le.trans (hothers newer hnewer.2)

end Newest

end DownloaderBot.ExpiringStore
