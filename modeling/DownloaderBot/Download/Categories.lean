import DownloaderBot.Download.Filters
import DownloaderBot.Download.ZipStream

/-!
# The categories

Every MIME type is of exactly one category.  So the archives of the categories are a
partition of the archive without one.
-/

namespace DownloaderBot.Filters

open DownloaderBot.Calendar
open DownloaderBot.Discord
open DownloaderBot.ZipStream

/-! ## Partitions of a list -/

section Partition

variable {Class Item : Type} [DecidableEq Item]
variable {accepts : Item → Bool} {acceptsIn : Class → Item → Bool} {classes : List Class}

theorem count_filter_eq (item : Item) (list : List Item) :
    (list.filter accepts).count item = if accepts item then list.count item else 0 := by
  cases haccepts : accepts item with
  | true => exact List.count_filter haccepts
  | false =>
      refine List.count_eq_zero_of_not_mem fun hmem => ?_
      cases haccepts.symm.trans (List.mem_filter.mp hmem).2

theorem count_flatMap_filter (item : Item) (list : List Item) :
    (classes.flatMap fun one => list.filter (acceptsIn one)).count item =
      classes.countP (fun one => acceptsIn one item) * list.count item := by
  induction classes with
  | nil => simp
  | cons one rest ih =>
      rw [List.flatMap_cons, List.count_append, ih, count_filter_eq, List.countP_cons]
      cases acceptsIn one item <;> simp [Nat.add_mul, Nat.add_comm]

/-- What is accepted is accepted in exactly one class, and nothing else is. -/
theorem filter_perm_flatMap
    (hclasses : ∀ item, classes.countP (fun one => acceptsIn one item) =
      if accepts item then 1 else 0) (list : List Item) :
    (list.filter accepts).Perm (classes.flatMap fun one => list.filter (acceptsIn one)) := by
  refine List.perm_iff_count.mpr fun item => ?_
  rw [count_flatMap_filter, count_filter_eq, hclasses]
  cases accepts item <;> simp

end Partition

/-! ## MIME types -/

/-- `CATEGORY_NAMES`. -/
def categoryNames : List String := ["image", "video", "audio", "gif", "other"]

section Mime

variable {mime : String}

/-- Of different prefixes of one length a string has one at most. -/
theorem eq_of_startsWith {first second : String} (hfirst : mime.startsWith first = true)
    (hsecond : mime.startsWith second = true)
    (hlength : first.toList.length = second.toList.length) : first = second := by
  have hinitial : first.toList <+: second.toList :=
    List.prefix_of_prefix_length_le (String.startsWith_string_iff.mp hfirst)
      (String.startsWith_string_iff.mp hsecond) hlength.le
  exact String.toList_inj.mp (hinitial.eq_of_length hlength)

theorem startsWith_eq_false {first second : String} (hfirst : mime.startsWith first = true)
    (hlength : first.toList.length = second.toList.length) (hne : first ≠ second) :
    mime.startsWith second = false :=
  Bool.eq_false_iff.mpr fun hsecond => hne (eq_of_startsWith hfirst hsecond hlength)

theorem startsWith_image_of_isGif (hgif : isGif mime = true) :
    mime.startsWith "image/" = true := by
  rw [beq_iff_eq.mp hgif]
  exact String.startsWith_string_iff.mpr (by decide)

theorem countP_categoryPredicate (mime : String) :
    categoryNames.countP (fun category => (categoryPredicate category).any (· mime)) = 1 := by
  have hcount : categoryNames.countP
      (fun category => (categoryPredicate category).any (· mime)) =
      [isImage mime, isVideo mime, isAudio mime, isGif mime, isOther mime].countP id := rfl
  rw [hcount, isOther]
  by_cases himage : mime.startsWith "image/" = true
  · have hvideo : isVideo mime = false := startsWith_eq_false himage (by decide) (by decide)
    have haudio : isAudio mime = false := startsWith_eq_false himage (by decide) (by decide)
    have hrest : isImage mime = !isGif mime := by
      rw [isImage, himage]
      rfl
    rw [hvideo, haudio, hrest]
    cases isGif mime <;> rfl
  · have hgif : isGif mime = false :=
      Bool.eq_false_iff.mpr fun hgif => himage (startsWith_image_of_isGif hgif)
    have hnot : isImage mime = false := by
      rw [isImage, Bool.eq_false_iff.mpr himage]
      rfl
    rw [hnot, hgif]
    by_cases hvideo : isVideo mime = true
    · have haudio : isAudio mime = false :=
        startsWith_eq_false hvideo (by decide) (by decide)
      rw [hvideo, haudio]
      rfl
    · rw [Bool.eq_false_iff.mpr hvideo]
      cases isAudio mime <;> rfl

end Mime

/-! ## The archives of the categories -/

/-- The filters narrowed to a category. -/
def DownloadFilters.only (payload : DownloadFilters) (category : String) : DownloadFilters :=
  { payload with category := some category }

def ResolvedFilters.only (resolved : ResolvedFilters) (category : String) : ResolvedFilters :=
  { resolved with matcher := { resolved.matcher with category := some category } }

/-- The walk of a download with these filters, where `fetch` says what becomes of an
attachment. -/
def ResolvedFilters.walk (lower : String → String) (timeSnowflake : DateTime → Bool → ℤ)
    (messages : List Message) (fetch : Visit → Fetch) (resolved : ResolvedFilters) : Walk :=
  members (fun visit => resolved.matcher.accepts lower visit.2 visit.1) fetch
    (visits (channelHistory timeSnowflake messages resolved.before resolved.after))

/-- The five categories share out what the filters accept, and the archive if there is
one. -/
structure Partitioned (lower : String → String) (resolved : ResolvedFilters) : Prop where
  accepted : ∀ attachment message, resolved.matcher.accepts lower attachment message = true →
    categoryNames.countP (fun category =>
      (resolved.only category).matcher.accepts lower attachment message) = 1
  rejected : ∀ attachment message, resolved.matcher.accepts lower attachment message = false →
    ∀ category ∈ categoryNames,
      (resolved.only category).matcher.accepts lower attachment message = false
  archives : ∀ timeSnowflake messages fetch,
    (resolved.walk lower timeSnowflake messages fetch).failure = none →
      (resolved.walk lower timeSnowflake messages fetch).archive.Perm
        (categoryNames.flatMap fun category =>
          ((resolved.only category).walk lower timeSnowflake messages fetch).archive)

section Categories

variable {lower : String → String} {resolved : ResolvedFilters}
variable {attachment : Attachment} {message : Message} {category : String}

/-- A category narrows what is accepted without one by its predicate. -/
theorem accepts_only (hnone : resolved.matcher.category = none)
    (hcategory : category ∈ categoryNames) :
    (resolved.only category).matcher.accepts lower attachment message =
      (resolved.matcher.accepts lower attachment message &&
        (categoryPredicate category).any (· (contentType lower attachment))) := by
  by_cases hauthor : resolved.matcher.fromUserId.any (· ≠ message.authorId) = true
  · have honly : (resolved.only category).matcher.accepts lower attachment message = false :=
      if_pos hauthor
    have hall : resolved.matcher.accepts lower attachment message = false := if_pos hauthor
    rw [honly, hall, Bool.false_and]
  by_cases hpolicy : (resolved.matcher.guildAllowedTypes.any fun allowed =>
      contentType lower attachment ∉ allowed) = true
  · have honly : (resolved.only category).matcher.accepts lower attachment message = false :=
      (if_neg hauthor).trans (if_pos hpolicy)
    have hall : resolved.matcher.accepts lower attachment message = false :=
      (if_neg hauthor).trans (if_pos hpolicy)
    rw [honly, hall, Bool.false_and]
  · have hall : resolved.matcher.accepts lower attachment message = true := by
      refine ((if_neg hauthor).trans (if_neg hpolicy)).trans ?_
      rw [hnone]
      rfl
    rw [hall, Bool.true_and]
    refine ((if_neg hauthor).trans (if_neg hpolicy)).trans ?_
    simp only [categoryNames, List.mem_cons, List.not_mem_nil, or_false] at hcategory
    rcases hcategory with rfl | rfl | rfl | rfl | rfl <;> rfl

theorem countP_accepts_only (hnone : resolved.matcher.category = none) :
    categoryNames.countP (fun category =>
        (resolved.only category).matcher.accepts lower attachment message) =
      if resolved.matcher.accepts lower attachment message then 1 else 0 := by
  have hcount : categoryNames.countP (fun category =>
        (resolved.only category).matcher.accepts lower attachment message) =
      categoryNames.countP fun category =>
        resolved.matcher.accepts lower attachment message &&
          (categoryPredicate category).any (· (contentType lower attachment)) :=
    List.countP_congr fun category hcategory => by rw [accepts_only hnone hcategory]
  rw [hcount]
  cases resolved.matcher.accepts lower attachment message with
  | true => exact countP_categoryPredicate (contentType lower attachment)
  | false => simp

/-- Fewer attachments abort nothing that more do not. -/
theorem not_aborts_only (hnone : resolved.matcher.category = none)
    (hcategory : category ∈ categoryNames) {fetch : Visit → Fetch} {list : List Visit}
    (hnot : ¬ Aborts (fun visit => resolved.matcher.accepts lower visit.2 visit.1) fetch list) :
    ¬ Aborts (fun visit => (resolved.only category).matcher.accepts lower visit.2 visit.1)
      fetch list := by
  rintro ⟨visit, hmem, hselects, haborts⟩
  obtain ⟨haccepts, -⟩ :=
    Bool.and_eq_true_iff.mp ((accepts_only hnone hcategory).symm.trans hselects)
  exact hnot ⟨visit, hmem, haccepts, haborts⟩

/-- What is archived without a category is archived with exactly one. -/
theorem archived_perm (hnone : resolved.matcher.category = none) (fetch : Visit → Fetch)
    (list : List Visit) :
    (archived (fun visit => resolved.matcher.accepts lower visit.2 visit.1) fetch list).Perm
      (categoryNames.flatMap fun category =>
        archived (fun visit => (resolved.only category).matcher.accepts lower visit.2 visit.1)
          fetch list) := by
  refine filter_perm_flatMap (fun visit => ?_) list
  cases hfetch : decide (fetch visit = .streamed) with
  | true =>
      simp only [Bool.and_true]
      exact countP_accepts_only hnone
  | false => simp

theorem partitioned_of_category_eq_none (hnone : resolved.matcher.category = none) :
    Partitioned lower resolved := by
  refine ⟨fun attachment message haccepts => ?_, fun attachment message hrejects category
    hcategory => ?_, fun timeSnowflake messages fetch hfailure => ?_⟩
  · rw [countP_accepts_only hnone, if_pos haccepts]
  · rw [accepts_only hnone hcategory, hrejects, Bool.false_and]
  · have hnot := fun haborts => failure_of_aborts haborts hfailure
    have hcategories : (categoryNames.flatMap fun category =>
          ((resolved.only category).walk lower timeSnowflake messages fetch).archive) =
        categoryNames.flatMap fun category =>
          (archived
            (fun visit => (resolved.only category).matcher.accepts lower visit.2 visit.1) fetch
            (visits (channelHistory timeSnowflake messages resolved.before
              resolved.after))).map Visit.member :=
      List.flatMap_congr fun category hcategory =>
        archive_of_not_aborts (not_aborts_only hnone hcategory hnot)
    rw [hcategories, ResolvedFilters.walk, archive_of_not_aborts hnot, ← List.map_flatMap]
    exact (archived_perm hnone fetch _).map Visit.member

/-- With a category a payload resolves as it does without, to the same bounds. -/
theorem resolve_only (filters : Option DownloadFilters) (guildSettings : GuildSettings)
    (now : DateTime) (category : String) :
    resolve (some ((filters.getD {}).only category)) guildSettings now =
      (resolve filters guildSettings now).map (ResolvedFilters.only · category) := by
  have hbounds : resolveBounds ((filters.getD {}).only category) now =
      resolveBounds (filters.getD {}) now := rfl
  rw [resolve_eq, resolve_eq, Option.getD_some, hbounds]
  cases resolveBounds (filters.getD {}) now <;> rfl

/-- A payload without a category is shared out by the same payload with each of the five. -/
theorem resolve_partitioned (lower : String → String) {filters : Option DownloadFilters}
    (hcategory : (filters.getD {}).category = none) (guildSettings : GuildSettings)
    {now : DateTime} (hresolve : resolve filters guildSettings now = .ok resolved) :
    (∀ category, resolve (some ((filters.getD {}).only category)) guildSettings now =
        .ok (resolved.only category)) ∧
      Partitioned lower resolved := by
  refine ⟨fun category => ?_, partitioned_of_category_eq_none ?_⟩
  · rw [resolve_only, hresolve]
    rfl
  · rw [matcher_of_resolve hresolve, hcategory]

/-- The files of member 7 of the last half hour. -/
def ownFiles : DownloadFilters := { fromUserId := some 7, after := some "30m" }

def pngAndVideo : GuildSettings :=
  { guildId := 3, allowedMediaTypes := some ["image/png", "video/mp4"] }

def atNoon : DateTime := ⟨739006 * microsPerDay + microsPerDay / 2, by decide⟩

def halfPastEleven : DateTime := ⟨atNoon.micros - 1800 * 1000000, by decide⟩

def ownResolved : ResolvedFilters :=
  ⟨⟨none, some 7, some ["image/png", "video/mp4"]⟩, none, some halfPastEleven⟩

/-- Their picture is accepted, and as an image alone; their text file is not, and neither
is the picture of another member. -/
theorem resolve_partitioned_ownFiles :
    let accepts := fun (resolved : ResolvedFilters) contentType authorId =>
      resolved.matcher.accepts id ⟨"a", "url", none, some contentType⟩
        ⟨0, authorId, atNoon, []⟩
    (accepts ownResolved "image/png ; q=1" 7 = true ∧
        accepts ownResolved "text/plain" 7 = false ∧
        accepts ownResolved "image/png" 8 = false ∧
        categoryNames.filter (fun category =>
          accepts (ownResolved.only category) "image/png ; q=1" 7) = ["image"]) ∧
      (∀ category, resolve (some (ownFiles.only category)) pngAndVideo atNoon =
        .ok (ownResolved.only category)) ∧
      Partitioned id ownResolved := by
  have hresolve : resolve (some ownFiles) pngAndVideo atNoon = .ok ownResolved := by
    decide +kernel
  exact ⟨by decide +kernel, resolve_partitioned id rfl pngAndVideo hresolve⟩

end Categories

end DownloaderBot.Filters
