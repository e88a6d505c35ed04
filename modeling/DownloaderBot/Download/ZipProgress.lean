import DownloaderBot.Download.ZipFailures
import Mathlib.Algebra.Order.Field.Basic
import Mathlib.Data.List.Pairwise
import Mathlib.Data.List.ReduceOption

/-!
# Progress reports

Reports are not noticed in what a walk hands on.  The fractions they carry rise from
the newest message to the oldest, so along a walk that is newest first; a walk that is
oldest first lets them fall.
-/

namespace DownloaderBot.ZipPipeline

open DownloaderBot.Calendar
open DownloaderBot.Discord
open DownloaderBot.Floats
open DownloaderBot.Generator
open DownloaderBot.Program
open DownloaderBot.ZipStream (Visit visits)

/-! ## Reports are not noticed -/

section Observational

variable {verdict : MemberTuple → Except Exn Unit}
variable {use other : MemberTuple → Log → Except Exn Unit × Log}

/-- What a walk receives is a matter of the network. -/
theorem received_congr {first second : Environment} (hnetwork : first.network = second.network)
    (count : ℕ) (list : List Visit) :
    first.received verdict count list = second.received verdict count list := by
  induction list generalizing count with
  | nil => rfl
  | cons visit rest ih => simp only [Environment.received, Environment.fetched, hnetwork, ih]

/-- With reports and without, under any clock, callback and lookup, a walk hands on the
same tuples and ends in the same way. -/
theorem members_unwatched (environment : Environment) (arguments : Arguments)
    (rounding : Rounding) (timeSnowflake : DateTime → Bool → ℤ)
    (oldest : Except Exn (Option ℕ)) (clock : ℕ → ℚ) (callback : ℕ → Except Exn Unit)
    (hcontained : arguments.onProgress = true → environment.ProgressContained)
    (htakes : Takes use verdict) (hother : Takes other verdict) :
    let unwatched : Environment :=
      { environment with oldest := oldest, clock := clock, callback := callback }
    let reported := consume environment.serve use
      (members rounding timeSnowflake arguments) []
    let silent := consume unwatched.serve other
      (members rounding timeSnowflake { arguments with onProgress := false }) []
    reported.1 = silent.1 ∧ reported.2.1 = silent.2.1 := by
  intro unwatched reported silent
  have hreceived : ∀ count list, unwatched.received verdict count list =
      environment.received verdict count list := received_congr rfl
  obtain ⟨hitems, houtcome, -⟩ := consume_members htakes hcontained rounding timeSnowflake []
  obtain ⟨hsilent, hended, -⟩ := @consume_members unwatched verdict other
    { arguments with onProgress := false } hother nofun rounding timeSnowflake []
  rw [hreceived] at hsilent hended
  exact ⟨hitems.trans hsilent.symm, houtcome.trans hended.symm⟩

/-- The callback of the environment always fails, and the lookup finds nothing. -/
theorem members_unwatched_secondFound :
    (consume secondFound.serve keep (members exactRounding (fun _ _ => 0) wantImages) []).1.map
      (fun member => member.name) = ["5_a.png"] := by
  have hitems := (members_unwatched secondFound wantImages exactRounding (fun _ _ => 0)
    (.error (.other "forbidden")) (fun _ => 0) (fun _ => .ok ()) (fun _ =>
      secondFound_contained) takes_keep takes_keep).1
  rw [hitems]
  rfl

end Observational

/-! ## The reports of a walk -/

section Reports

variable (environment : Environment)

/-- An exception that no `except Exception` catches. -/
def fatal {α : Type} : Except Exn α → Bool
  | .ok _ => false
  | .error exception => !exception.isException

/-- A pre-flight of these attachments, the first of them the `count`-th GET, ends the
walk. -/
def Environment.cuts (count : ℕ) (picked : List Visit) : Bool :=
  (picked.zipIdx count).any fun entry =>
    match environment.network entry.2 with
    | .ok _ => false
    | .error exception => !exception.isClientError

variable (rounding : Rounding) (arguments : Arguments)

/-- The messages at which the throttle lets a report through, as far as the walk gets:
before them there were so many GETs, readings of the clock and calls of the callback,
and the last report was at `lastEmit`. -/
def Environment.due (count reading call : ℕ) (lastEmit : ℚ) :
    List Message → List Message
  | [] => []
  | message :: rest =>
      let picked := arguments.pick (message.attachments.map (message, ·))
      let now := environment.clock reading
      if arguments.progressThrottleSeconds ≤ rounding.round (now - lastEmit) then
        message :: if fatal (environment.callback call) || environment.cuts count picked then []
          else due (count + picked.length) (reading + 1) (call + 1) now rest
      else if environment.cuts count picked then []
      else due (count + picked.length) (reading + 1) call lastEmit rest

/-- The messages of a walk at which a report is made. -/
def Environment.reported : List Message :=
  if arguments.after.isNone && fatal environment.oldest then []
  else environment.due rounding arguments 0 1 0 (environment.clock 0)
    (environment.walked arguments).messages

variable {environment rounding arguments}

theorem received_keep_ok_iff {count : ℕ} {picked : List Visit} :
    (environment.received (fun _ => .ok ()) count picked).2 = .ok () ↔
      environment.cuts count picked = false := by
  constructor
  · intro hok
    refine List.any_eq_false.mpr fun entry hentry => ?_
    have hclient := clientError_of_received_ok picked count hok entry hentry
    cases hanswer : environment.network entry.2 with
    | ok reception => simp
    | error exception => simp [hclient exception hanswer]
  · intro hcuts
    rw [received_of_clientError picked count (fun entry hentry exception hanswer => ?_)
      fun _ _ => rfl]
    simpa [hanswer] using List.any_eq_false.mp hcuts entry hentry

/-- A report that is due leaves a snapshot, and one that is not leaves the tally. -/
theorem exec_report_eq (hprogress : arguments.onProgress = true)
    (bounds : Option ℤ × Option ℤ) (message : Message) (tally : Tally) (log : Log) :
    (report rounding arguments bounds message tally).exec environment.serve log =
      if arguments.progressThrottleSeconds ≤
          rounding.round (environment.clock (readings log) - tally.lastEmit) then
        (match environment.callback (snapshots log).length with
          | .ok _ => .ok { tally with lastEmit := environment.clock (readings log) }
          | .error exception =>
              if exception.isException then
                .ok { tally with lastEmit := environment.clock (readings log) }
              else .error exception,
          log ++ [.monotonic] ++ [.onProgress
            { attachmentsDone := tally.attachmentsDone
              bytesStreamed := tally.bytesStreamed
              historyFraction := historyFraction rounding bounds message }])
      else (.ok tally, log ++ [.monotonic]) := by
  rw [report, if_pos hprogress, Prog.exec_bind_of_ok (exec_ask environment log .monotonic)]
  split
  case isFalse => rfl
  case isTrue =>
    have hask := exec_ask environment (log ++ [.monotonic]) (.onProgress
      { attachmentsDone := tally.attachmentsDone
        bytesStreamed := tally.bytesStreamed
        historyFraction := historyFraction rounding bounds message })
    have hcalls : (snapshots (log ++ [.monotonic])).length = (snapshots log).length := by
      simp
    rw [Environment.answer, hcalls] at hask
    cases hcallback : environment.callback (snapshots log).length with
    | ok _ =>
        rw [hcallback] at hask
        rw [Prog.exec_bind_of_ok (Prog.exec_tryExcept_of_ok hask)]
        rfl
    | error exception =>
        rw [hcallback] at hask
        cases hexception : exception.isException with
        | true =>
            rw [Prog.exec_bind_of_ok (Prog.exec_tryExcept_of_error hask hexception)]
            simp [hexception, Prog.exec]
        | false =>
            rw [Prog.exec_bind_of_error (Prog.exec_tryExcept_of_uncaught hask hexception)]
            simp [hexception]

/-- The fractions that the callback was passed so far. -/
def fractions (log : Log) : List (Option ℚ) := (snapshots log).map (·.historyFraction)

/-- After a report, the walk goes on unless a pre-flight of the message ends it. -/
theorem fractions_attachments (bounds : Option ℤ × Option ℤ) (message : Message)
    (rest : List Message) (tally : Tally) (log : Log)
    (hrest : ∀ next later, fractions (consume environment.serve keep
        (messageLoop rounding arguments bounds rest next) later).2.2 =
      fractions later ++ (environment.due rounding arguments (urls later).length
        (readings later) (snapshots later).length next.lastEmit rest).map
          (historyFraction rounding bounds)) :
    let picked := arguments.pick (message.attachments.map (message, ·))
    fractions (consume environment.serve keep
        ((attachmentLoop arguments message message.attachments tally).bind
          (messageLoop rounding arguments bounds rest)) log).2.2 =
      fractions log ++ (if environment.cuts (urls log).length picked then []
        else environment.due rounding arguments ((urls log).length + picked.length)
          (readings log) (snapshots log).length tally.lastEmit rest).map
            (historyFraction rounding bounds) := by
  intro picked
  obtain ⟨⟨-, houtcome, hgets⟩, hsame, hlast⟩ := @consume_attachmentLoop environment _ _
    arguments takes_keep message message.attachments tally log
  rw [consume_bind]
  cases hloop : consume environment.serve keep
    (attachmentLoop arguments message message.attachments tally) log with
  | mk items result =>
  obtain ⟨outcome, later⟩ := result
  rw [hloop] at houtcome hgets hsame hlast
  cases outcome with
  | error exception =>
      have hcuts : environment.cuts (urls log).length picked = true := by
        rw [← Bool.not_eq_false, ← received_keep_ok_iff, ← houtcome]
        nofun
      rw [if_pos hcuts]
      simp [fractions, hsame.2]
  | ok next =>
      have hok := received_keep_ok_iff.mp houtcome.symm
      have hurls := congrArg List.length (hgets houtcome.symm)
      rw [List.length_append, List.length_map] at hurls
      obtain ⟨hreadings, hsnapshots⟩ := hsame
      dsimp only at hurls hreadings hsnapshots ⊢
      rw [hrest, hurls, hreadings, hsnapshots, hlast next rfl, fractions, hsnapshots]
      rw [if_neg (by rw [hok]; decide)]
      rfl

theorem fractions_messageLoop (hprogress : arguments.onProgress = true)
    (bounds : Option ℤ × Option ℤ) (messages : List Message) (tally : Tally) (log : Log) :
    fractions (consume environment.serve keep
        (messageLoop rounding arguments bounds messages tally) log).2.2 =
      fractions log ++ (environment.due rounding arguments (urls log).length (readings log)
        (snapshots log).length tally.lastEmit messages).map
          (historyFraction rounding bounds) := by
  induction messages generalizing tally log with
  | nil => simp [messageLoop, consume, Environment.due]
  | cons message rest ih =>
      have hrest (tally : Tally) (log : Log) :=
        fractions_attachments bounds message rest tally log ih
      rw [messageLoop, consume_lift_bind, exec_report_eq hprogress, Environment.due]
      by_cases hdue : arguments.progressThrottleSeconds ≤
          rounding.round (environment.clock (readings log) - tally.lastEmit)
      · rw [if_pos hdue, if_pos hdue]
        cases hcallback : environment.callback (snapshots log).length with
        | ok _ =>
            dsimp only
            rw [hrest]
            simp [fractions, fatal]
        | error exception =>
            cases hexception : exception.isException with
            | true =>
                simp only [hexception, if_true]
                rw [hrest]
                simp [fractions, fatal, hexception]
            | false => simp [fractions, fatal, hexception]
      · rw [if_neg hdue, if_neg hdue]
        dsimp only
        rw [hrest]
        simp [fractions]

/-- The callback is passed the fractions of the messages with a report. -/
theorem fractions_members (hprogress : arguments.onProgress = true)
    (timeSnowflake : DateTime → Bool → ℤ) :
    fractions (consume environment.serve keep
        (members rounding timeSnowflake arguments) []).2.2 =
      (environment.reported rounding arguments).map
        (historyFraction rounding (environment.bounds timeSnowflake arguments)) := by
  rw [members, if_pos hprogress, consume_lift_bind, Environment.reported]
  cases hlookup : arguments.after.isNone && fatal environment.oldest with
  | true =>
      obtain ⟨hafter, hfatal⟩ := Bool.and_eq_true_iff.mp hlookup
      have hraised : ∃ exception, (resolveSnowflakeBounds timeSnowflake arguments).exec
          environment.serve [] = (.error exception, [.oldest]) := by
        cases holdest : environment.oldest with
        | ok found => simp [holdest, fatal] at hfatal
        | error exception =>
            have hask := exec_ask environment [] .oldest
            rw [Environment.answer, holdest] at hask
            rw [resolveSnowflakeBounds, Option.isNone_iff_eq_none.mp hafter]
            exact ⟨exception, Prog.exec_bind_of_error (Prog.exec_tryExcept_of_uncaught hask
              (by simpa [holdest, fatal] using hfatal))⟩
      obtain ⟨exception, hraised⟩ := hraised
      rw [hraised]
      simp [fractions]
  | false =>
      have hcontained : arguments.after = none → ∀ exception,
          environment.oldest = .error exception → exception.isException = true := by
        intro hafter exception holdest
        simpa [hafter, holdest, fatal] using hlookup
      rw [exec_resolveSnowflakeBounds timeSnowflake [] hcontained]
      dsimp only
      generalize hprelude : (if arguments.after.isSome = true then ([] : Log)
        else [] ++ [.oldest]) = prelude
      have hquiet : urls prelude = [] ∧ readings prelude = 0 ∧ snapshots prelude = [] := by
        rw [← hprelude]
        split <;> simp
      rw [consume_lift_bind, exec_ask]
      simp only [Environment.answer]
      rw [consume_lift_bind, exec_ask]
      simp only [Environment.answer]
      rw [consume_bind_state, fractions_messageLoop hprogress]
      · simp [fractions, hquiet, Environment.walked]
      · intro _ after
        split <;> rfl

end Reports

/-! ## The fractions along a walk -/

section Fractions

variable {environment : Environment} {rounding : Rounding} {arguments : Arguments}
variable {timeSnowflake : DateTime → Bool → ℤ}

theorem computeHistoryFraction_mem_unit (current low high : ℤ) :
    0 ≤ computeHistoryFraction rounding current low high ∧
      computeHistoryFraction rounding current low high ≤ 1 := by
  rw [computeHistoryFraction]
  split
  · exact ⟨zero_le_one, le_rfl⟩
  · exact ⟨le_max_left _ _, max_le zero_le_one (min_le_left _ _)⟩

/-- The older the message, the larger its fraction. -/
theorem computeHistoryFraction_le (low high : ℤ) {older newer : ℤ} (hle : older ≤ newer) :
    computeHistoryFraction rounding newer low high ≤
      computeHistoryFraction rounding older low high := by
  rw [computeHistoryFraction, computeHistoryFraction]
  split
  case isTrue => exact le_rfl
  case isFalse hlt =>
    have hwidth : (0 : ℚ) ≤ (high - low : ℤ) :=
      Int.cast_nonneg (Int.sub_nonneg_of_le (not_le.mp hlt).le)
    have hdistance : ((high - newer : ℤ) : ℚ) ≤ (high - older : ℤ) :=
      Int.cast_mono (Int.sub_le_sub_left hle high)
    exact max_le_max le_rfl (min_le_min le_rfl
      (rounding.monotone (div_le_div_of_nonneg_right hdistance hwidth)))

theorem historyFraction_le {bounds : Option ℤ × Option ℤ} {older newer : Message}
    {first second : ℚ} (hle : older.id ≤ newer.id)
    (hfirst : historyFraction rounding bounds newer = some first)
    (hsecond : historyFraction rounding bounds older = some second) : first ≤ second := by
  obtain ⟨low, high⟩ := bounds
  cases low with
  | none => cases hfirst
  | some low =>
      cases high with
      | none => cases hfirst
      | some high =>
          obtain rfl := Option.some.inj hfirst
          obtain rfl := Option.some.inj hsecond
          exact computeHistoryFraction_le low high (by exact_mod_cast hle)

theorem historyFraction_mem_unit {bounds : Option ℤ × Option ℤ} {message : Message}
    {fraction : ℚ} (hfraction : historyFraction rounding bounds message = some fraction) :
    0 ≤ fraction ∧ fraction ≤ 1 := by
  obtain ⟨_ | low, _ | high⟩ := bounds
  · cases hfraction
  · cases hfraction
  · cases hfraction
  · obtain rfl := Option.some.inj hfraction
    exact computeHistoryFraction_mem_unit _ low high

/-- Whether a fraction is known is a matter of the bounds. -/
theorem historyFraction_eq_none {bounds : Option ℤ × Option ℤ} {first second : Message}
    (hnone : historyFraction rounding bounds first = none) :
    historyFraction rounding bounds second = none := by
  obtain ⟨_ | low, _ | high⟩ := bounds
  · rfl
  · rfl
  · rfl
  · cases hnone

/-- An id, cut to the bounds of the walk. -/
def cut (low high id : ℤ) : ℤ := max low (min high id)

/-- The division by the width rounds two distances to one number. -/
def Rounding.Merges (rounding : Rounding) (width first second : ℤ) : Prop :=
  rounding.round ((first : ℚ) / width) = rounding.round ((second : ℚ) / width)

/-- A fraction is a matter of the id as the bounds cut it. -/
theorem computeHistoryFraction_eq_round {low high : ℤ} (hwidth : low < high) (current : ℤ) :
    computeHistoryFraction rounding current low high =
      rounding.round ((high - cut low high current : ℤ) / (high - low : ℤ)) := by
  have hpos : (0 : ℚ) < (high - low : ℤ) := Int.cast_pos.mpr (Int.sub_pos_of_lt hwidth)
  rw [computeHistoryFraction, if_neg (not_le.mpr hwidth), cut]
  rcases le_or_gt current low with hold | hyoung
  · -- As old as the lower bound, or older.
    have hone : (1 : ℚ) ≤ (high - current : ℤ) / (high - low : ℤ) :=
      (one_le_div hpos).mpr (Int.cast_mono (Int.sub_le_sub_left hold high))
    have hround := rounding.monotone hone
    rw [rounding.round_one] at hround
    rw [min_eq_right (hold.trans hwidth.le), max_eq_left hold, div_self hpos.ne',
      rounding.round_one, min_eq_left hround, max_eq_right zero_le_one]
  rcases le_or_gt high current with hnew | hinside
  · -- As new as the upper bound, or newer.
    have hzero : ((high - current : ℤ) : ℚ) / (high - low : ℤ) ≤ 0 :=
      div_nonpos_of_nonpos_of_nonneg (Int.cast_nonpos.mpr (Int.sub_nonpos_of_le hnew)) hpos.le
    have hround := rounding.monotone hzero
    rw [rounding.round_zero] at hround
    rw [min_eq_left hnew, max_eq_right hwidth.le, sub_self, Int.cast_zero, zero_div,
      rounding.round_zero, min_eq_right (hround.trans zero_le_one), max_eq_left hround]
  · have hzero : (0 : ℚ) ≤ (high - current : ℤ) / (high - low : ℤ) :=
      div_nonneg (Int.cast_nonneg (Int.sub_nonneg_of_le hinside.le)) hpos.le
    have hone : ((high - current : ℤ) : ℚ) / (high - low : ℤ) ≤ 1 :=
      (div_le_one hpos).mpr (Int.cast_mono (Int.sub_le_sub_left hyoung.le high))
    have hlower := rounding.monotone hzero
    have hupper := rounding.monotone hone
    rw [rounding.round_zero] at hlower
    rw [rounding.round_one] at hupper
    rw [min_eq_right hinside.le, max_eq_right hyoung.le, min_eq_right hupper,
      max_eq_right hlower]

/-- A newer message whose fraction is no smaller has the same one. -/
theorem historyFraction_eq_of_le {bounds : Option ℤ × Option ℤ} {older newer : Message}
    (hage : older.id ≤ newer.id)
    (hle : ∀ first, historyFraction rounding bounds older = some first →
      ∀ second, historyFraction rounding bounds newer = some second → first ≤ second) :
    historyFraction rounding bounds older = historyFraction rounding bounds newer := by
  cases hfirst : historyFraction rounding bounds older with
  | none => exact (historyFraction_eq_none hfirst).symm
  | some value =>
      cases hsecond : historyFraction rounding bounds newer with
      | none => cases (historyFraction_eq_none hsecond).symm.trans hfirst
      | some other =>
          have hge : other ≤ value := historyFraction_le hage hsecond hfirst
          exact congrArg some (le_antisymm (hle _ hfirst _ hsecond) hge)

/-- Fractions that never fall from the oldest message on are all the same. -/
theorem historyFraction_congr_of_rising {bounds : Option ℤ × Option ℤ}
    {messages : List Message}
    (hsorted : messages.Pairwise fun older newer => older.id < newer.id)
    (hrising : (messages.filterMap (historyFraction rounding bounds)).Pairwise (· ≤ ·)) :
    ∀ first ∈ messages, ∀ second ∈ messages,
      historyFraction rounding bounds first = historyFraction rounding bounds second := by
  have hpairwise : messages.Pairwise fun first second =>
      historyFraction rounding bounds first = historyFraction rounding bounds second :=
    (hsorted.and (List.pairwise_filterMap.mp hrising)).imp fun hboth =>
      historyFraction_eq_of_le hboth.1.le hboth.2
  have : Std.Symm fun first second : Message =>
      historyFraction rounding bounds first = historyFraction rounding bounds second :=
    ⟨fun _ _ heq => heq.symm⟩
  intro first hfirst second hsecond
  refine List.Pairwise.forall_of_forall ?_ hpairwise hfirst hsecond
  exact fun _ _ => rfl

/-- The reports come in the order of the walk. -/
theorem due_sublist (count reading call : ℕ) (lastEmit : ℚ) (messages : List Message) :
    (environment.due rounding arguments count reading call lastEmit messages).Sublist
      messages := by
  induction messages generalizing count reading call lastEmit with
  | nil => exact .slnil
  | cons message rest ih =>
      rw [Environment.due]
      split
      · apply List.Sublist.cons_cons
        split
        · exact List.nil_sublist _
        · exact ih _ _ _ _
      · apply List.Sublist.cons
        split
        · exact List.nil_sublist _
        · exact ih _ _ _ _

theorem reported_sublist :
    (environment.reported rounding arguments).Sublist
      (environment.walked arguments).messages := by
  rw [Environment.reported]
  split
  · exact List.nil_sublist _
  · exact due_sublist _ _ _ _ _

/-- The fractions that are known lie between 0 and 1 and never fall. -/
structure FractionsRise (environment : Environment) (rounding : Rounding)
    (timeSnowflake : DateTime → Bool → ℤ) (arguments : Arguments) : Prop where
  mem_unit : ∀ fraction ∈ (fractions (consume environment.serve keep
      (members rounding timeSnowflake arguments) []).2.2).reduceOption,
    0 ≤ fraction ∧ fraction ≤ 1
  rising : (fractions (consume environment.serve keep
    (members rounding timeSnowflake arguments) []).2.2).reduceOption.Pairwise (· ≤ ·)

/-- The walk is newest first, or its bounds span nothing, or the ids of the messages with
a report are one within the bounds, up to what the division tells apart. -/
def Level (environment : Environment) (rounding : Rounding)
    (timeSnowflake : DateTime → Bool → ℤ) (arguments : Arguments) : Prop :=
  arguments.after = none ∨ ∀ low high,
    environment.bounds timeSnowflake arguments = (some low, some high) → low < high →
      ∀ older ∈ environment.reported rounding arguments,
        ∀ newer ∈ environment.reported rounding arguments,
          cut low high older.id < cut low high newer.id →
            rounding.Merges (high - low) (high - cut low high older.id)
              (high - cut low high newer.id)

/-- Then the reports carry the same fraction. -/
theorem level_iff_historyFraction_eq :
    Level environment rounding timeSnowflake arguments ↔
      arguments.after = none ∨ ∀ first ∈ environment.reported rounding arguments,
        ∀ second ∈ environment.reported rounding arguments,
          historyFraction rounding (environment.bounds timeSnowflake arguments) first =
            historyFraction rounding (environment.bounds timeSnowflake arguments) second := by
  refine or_congr_right ⟨fun hmerges first hfirst second hsecond => ?_,
    fun hsame low high hbounds hwidth older holder newer hnewer _ => ?_⟩
  · generalize hbounds : environment.bounds timeSnowflake arguments = bounds
    obtain ⟨_ | low, _ | high⟩ := bounds
    · rfl
    · rfl
    · rfl
    · rcases le_or_gt high low with hflat | hwidth
      · exact congrArg some ((if_pos hflat).trans (if_pos hflat).symm)
      · have hround := @computeHistoryFraction_eq_round rounding low high hwidth
        apply congrArg some
        rw [hround, hround]
        rcases lt_trichotomy (cut low high first.id) (cut low high second.id) with
          hlt | heq | hgt
        · exact hmerges low high hbounds hwidth first hfirst second hsecond hlt
        · rw [heq]
        · exact (hmerges low high hbounds hwidth second hsecond first hfirst hgt).symm
  · have heq := hsame older holder newer hnewer
    rw [hbounds] at heq
    have hfractions := Option.some.inj heq
    rwa [computeHistoryFraction_eq_round hwidth, computeHistoryFraction_eq_round hwidth]
      at hfractions

/-- The double of a quotient tells distances apart that differ by more than the width over
`2 ^ 53`. -/
theorem doubleRounding_not_merges {width first second : ℤ} (hfirst : 0 ≤ first)
    (hsecond : second ≤ width) (hapart : width < 2 ^ 53 * (second - first)) :
    ¬ doubleRounding.Merges width first second := by
  have hlt : first < second := by omega
  have hpos : (0 : ℚ) < width := Int.cast_pos.mpr (hfirst.trans_lt (hlt.trans_le hsecond))
  have hgap : (2 : ℚ) ^ (-53 : ℤ) < second / width - first / width := by
    rw [← sub_div, lt_div_iff₀ hpos, zpow_neg, inv_mul_lt_iff₀ (zpow_pos two_pos _)]
    exact_mod_cast hapart
  have hround : double.round (first / width) < double.round (second / width) :=
    Format.round_lt_round (by decide) (div_nonneg (Int.cast_nonneg hfirst) hpos.le)
      ((div_le_one hpos).mpr (Int.cast_mono hsecond)) hgap
  exact hround.ne

theorem low_le_cut {low high : ℤ} (id : ℤ) : low ≤ cut low high id :=
  le_max_left _ _

theorem cut_le_high {low high : ℤ} (hwidth : low ≤ high) (id : ℤ) : cut low high id ≤ high :=
  max_le hwidth (min_le_left _ _)

/-- In double precision the division tells all ids apart within bounds of some 24 days. -/
theorem level_doubleRounding_iff
    (hnarrow : ∀ low high, environment.bounds timeSnowflake arguments = (some low, some high) →
      high - low < 2 ^ 53) :
    Level environment doubleRounding timeSnowflake arguments ↔
      arguments.after = none ∨ ∀ low high,
        environment.bounds timeSnowflake arguments = (some low, some high) → low < high →
          ∀ first ∈ environment.reported doubleRounding arguments,
            ∀ second ∈ environment.reported doubleRounding arguments,
              cut low high first.id = cut low high second.id := by
  refine or_congr_right ⟨fun hmerges low high hbounds hwidth first hfirst second hsecond => ?_,
    fun hsame low high hbounds hwidth older holder newer hnewer hlt => ?_⟩
  · have happart : ∀ older newer : ℤ, cut low high older < cut low high newer →
        ¬ doubleRounding.Merges (high - low) (high - cut low high older)
          (high - cut low high newer) := by
      intro older newer hlt hmerges
      refine doubleRounding_not_merges ?_ ?_ ?_ hmerges.symm
      · exact Int.sub_nonneg_of_le (cut_le_high hwidth.le newer)
      · exact Int.sub_le_sub_left (low_le_cut older) high
      · have := hnarrow low high hbounds
        omega
    rcases lt_trichotomy (cut low high first.id) (cut low high second.id) with hlt | heq | hgt
    · exact absurd (hmerges low high hbounds hwidth first hfirst second hsecond hlt)
        (happart _ _ hlt)
    · exact heq
    · exact absurd (hmerges low high hbounds hwidth second hsecond first hfirst hgt)
        (happart _ _ hgt)
  · exact absurd (hsame low high hbounds hwidth older holder newer hnewer) hlt.ne

variable {messages : List Message}

/-- discord.py walks newest first by default, and oldest first when `after` is given. -/
theorem pairwise_reported (hsorted : messages.Pairwise fun older newer => older.id < newer.id)
    (hwalk : (environment.walked arguments).messages =
      channelHistory timeSnowflake messages arguments.before arguments.after) :
    (environment.reported rounding arguments).Pairwise fun first second =>
      if arguments.after.isSome then first.id < second.id else second.id < first.id := by
  refine List.Pairwise.sublist reported_sublist ?_
  have hvisited := hsorted.sublist (List.filter_sublist
    (p := Message.between timeSnowflake arguments.before arguments.after))
  rw [hwalk, channelHistory]
  split
  case isTrue => exact hvisited
  case isFalse => exact List.pairwise_reverse.mpr hvisited

/-- The known fractions are those of the messages at which a report is made. -/
theorem knownFractions_members (hprogress : arguments.onProgress = true) :
    (fractions (consume environment.serve keep
      (members rounding timeSnowflake arguments) []).2.2).reduceOption =
      (environment.reported rounding arguments).filterMap
        (historyFraction rounding (environment.bounds timeSnowflake arguments)) := by
  rw [fractions_members hprogress, List.reduceOption, List.filterMap_map]
  rfl

/-- The fractions rise exactly along the walks that are newest first, and where every
report carries the same fraction. -/
theorem fractionsRise_iff_level (hprogress : arguments.onProgress = true)
    (hsorted : messages.Pairwise fun older newer => older.id < newer.id)
    (hwalk : (environment.walked arguments).messages =
      channelHistory timeSnowflake messages arguments.before arguments.after) :
    FractionsRise environment rounding timeSnowflake arguments ↔
      Level environment rounding timeSnowflake arguments := by
  have horder : (environment.reported rounding arguments).Pairwise fun first second =>
      if arguments.after.isSome then first.id < second.id else second.id < first.id :=
    pairwise_reported hsorted hwalk
  rw [level_iff_historyFraction_eq]
  constructor
  · rintro ⟨-, hrising⟩
    rw [knownFractions_members hprogress] at hrising
    cases hafter : arguments.after with
    | none => exact .inl rfl
    | some after =>
        -- The walk is oldest first, along which the fractions fall.
        rw [hafter] at horder
        exact .inr (historyFraction_congr_of_rising horder hrising)
  · intro hlevel
    refine ⟨?_, ?_⟩ <;> rw [knownFractions_members hprogress]
    · intro fraction hfraction
      obtain ⟨message, -, hsome⟩ := List.mem_filterMap.mp hfraction
      exact historyFraction_mem_unit hsome
    · rw [List.pairwise_filterMap]
      refine horder.imp_of_mem fun {first second} hfirst hsecond hlt value hvalue other
        hother => ?_
      rcases hlevel with hafter | hsame
      · rw [hafter, if_neg (by decide)] at hlt
        exact historyFraction_le hlt.le hvalue hother
      · have heq := (hvalue.symm.trans (hsame first hfirst second hsecond)).trans hother
        exact (Option.some.inj heq).le

/-- Two messages of the years after the epoch, without attachments. -/
def twoMessages : List Message :=
  [⟨2 ^ 56, 1, discordEpoch, []⟩, ⟨2 ^ 57, 1, discordEpoch, []⟩]

/-- The whole channel, as of its newer message. -/
def wholeChannel : Arguments where
  lastMessageId := some (2 ^ 57)
  accepts := none
  before := none
  after := none
  onProgress := true
  progressThrottleSeconds := 0

/-- The lookup of the oldest message finds it. -/
def bothMessages : Environment :=
  { environmentOf (channelHistory flooringClock.timeSnowflake twoMessages none none) [] with
    oldest := .ok (some (2 ^ 56)) }

/-- Everything since the epoch. -/
def sinceEpoch : Arguments where
  lastMessageId := some (2 ^ 57)
  accepts := none
  before := none
  after := some discordEpoch
  onProgress := true
  progressThrottleSeconds := 0

/-- The messages since the epoch, both newer than the one that the channel has as its last. -/
def staleSinceEpoch : Arguments := { sinceEpoch with lastMessageId := some (2 ^ 55) }

/-- Known bounds both times: newest first from 0 to 1, and oldest first past the upper bound. -/
theorem fractionsRise_bothMessages :
    fractions (consume bothMessages.serve keep
        (members doubleRounding flooringClock.timeSnowflake wholeChannel) []).2.2 =
      [some 0, some 1] ∧
    FractionsRise bothMessages doubleRounding flooringClock.timeSnowflake wholeChannel ∧
    FractionsRise (environmentOf twoMessages []) doubleRounding flooringClock.timeSnowflake
      staleSinceEpoch := by
  have hsorted : twoMessages.Pairwise fun older newer => older.id < newer.id := by
    decide
  have hwalk : (bothMessages.walked wholeChannel).messages = channelHistory
      flooringClock.timeSnowflake twoMessages wholeChannel.before wholeChannel.after :=
    rfl
  have hstale : ((environmentOf twoMessages []).walked staleSinceEpoch).messages =
      channelHistory flooringClock.timeSnowflake twoMessages staleSinceEpoch.before
        staleSinceEpoch.after := by
    decide +kernel
  refine ⟨?_, (fractionsRise_iff_level rfl hsorted hwalk).mpr (.inl rfl),
    (fractionsRise_iff_level rfl hsorted hstale).mpr (.inr ?_)⟩
  · rw [fractions_members rfl]
    decide +kernel
  · intro low high hbounds hwidth older holder newer hnewer hlt
    have hhigh : high = 2 ^ 55 := (Option.some.inj (congrArg Prod.snd hbounds)).symm
    have hpast : ∀ message ∈ twoMessages, high ≤ message.id := by
      rw [hhigh]
      decide
    have holder := hpast older (reported_sublist.mem holder)
    have hnewer := hpast newer (reported_sublist.mem hnewer)
    rw [cut, cut, min_eq_left holder, min_eq_left hnewer] at hlt
    exact absurd hlt (lt_irrefl _)

/-- With `after`, the oldest message is reported first, and then the newest. -/
theorem not_fractionsRise_sinceEpoch :
    ¬ FractionsRise (environmentOf (channelHistory flooringClock.timeSnowflake twoMessages none
      (some discordEpoch)) []) doubleRounding flooringClock.timeSnowflake sinceEpoch := by
  intro hrise
  have hfalls : fractions (consume (environmentOf (channelHistory flooringClock.timeSnowflake
      twoMessages none (some discordEpoch)) []).serve keep
      (members doubleRounding flooringClock.timeSnowflake sinceEpoch) []).2.2 =
      [some (1 / 2), some 0] := by
    rw [fractions_members rfl]
    decide +kernel
  have hrising := hrise.rising
  rw [hfalls] at hrising
  exact absurd hrising (by decide +kernel)

end Fractions

end DownloaderBot.ZipPipeline
