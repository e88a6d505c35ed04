import DownloaderBot.Download.ZipMembers

/-!
# Network failures

What becomes of a walk when the network fails.  The pipeline is compared with the
walk over fetched attachments, and the failures of single attachments are isolated
exactly when none of them is a plain timeout.
-/

namespace DownloaderBot.ZipPipeline

open DownloaderBot.Calendar
open DownloaderBot.Generator
open DownloaderBot.ZipStream (Fetch Visit visits)

/-! ## The walk over fetched attachments -/

section Refinement

variable {environment : Environment} {arguments : Arguments}

/-- What becomes of the attachment of a GET. -/
def Environment.fate (environment : Environment) (count : ℕ) : Fetch :=
  match environment.network count with
  | .ok reception =>
      if reception.status = 200 then
        if reception.failure = none then .streamed else .broken
      else .skipped
  | .error exception => if exception.isClientError then .skipped else .raised

/-- What a tuple and a member of the abstract walk have in common. -/
def MemberTuple.label (member : MemberTuple) : String × DateTime :=
  (member.name, member.modifiedAt)

def label (member : ZipStream.Member) : String × DateTime :=
  (member.name, member.modifiedAt)

/-- Read member by member, the tuples are the members of the walk over the attachments,
each fetched as its GET is answered. -/
theorem received_refines {fetch : Visit → Fetch} (list : List Visit) (count : ℕ)
    (hfetch : ∀ entry ∈ (arguments.pick list).zipIdx count,
      fetch entry.1 = environment.fate entry.2) :
    let walk := ZipStream.members (fun visit => arguments.selects visit.1 visit.2) fetch list
    let received := environment.received (fun member => member.chunks.ended) count
      (arguments.pick list)
    received.1.map MemberTuple.label = walk.members.map label ∧
      (received.2 = .ok () ↔ walk.failure = none) := by
  induction list generalizing count with
  | nil => exact ⟨rfl, iff_of_true rfl rfl⟩
  | cons visit rest ih =>
      cases hselects : arguments.selects visit.1 visit.2 with
      | false =>
          have hpick : arguments.pick (visit :: rest) = arguments.pick rest := by
            simp [Arguments.pick, hselects]
          rw [hpick] at hfetch ⊢
          simpa [ZipStream.members, hselects] using ih count hfetch
      | true =>
          have hpick : arguments.pick (visit :: rest) = visit :: arguments.pick rest := by
            simp [Arguments.pick, hselects]
          rw [hpick, List.zipIdx_cons] at hfetch
          have hvisit : fetch visit = environment.fate count := hfetch _ (.head _)
          obtain ⟨hitems, hended⟩ := ih (count + 1) fun entry hentry =>
            hfetch entry (.tail _ hentry)
          rw [hpick]
          simp only [ZipStream.members, hselects, if_true, hvisit, Environment.received,
            Environment.fetched, Environment.fate]
          cases environment.network count with
          | error exception =>
              cases hclient : exception.isClientError with
              | true => simpa [hclient] using ⟨hitems, hended⟩
              | false => simp [hclient]
          | ok reception =>
              by_cases hstatus : reception.status = 200
              · cases hfailure : reception.failure with
                | none =>
                    simpa [hstatus, hfailure, Chunks.ended, memberTuple, MemberTuple.label,
                      label, ZipStream.Visit.member] using ⟨hitems, hended⟩
                | some exception =>
                    simp [hstatus, hfailure, Chunks.ended, memberTuple, MemberTuple.label,
                      label, ZipStream.Visit.member]
              · simpa [hstatus] using ⟨hitems, hended⟩

end Refinement

/-! ## Isolation -/

/-- What the HTTP client raises when the network fails. -/
def Exn.isNetworkFailure : Exn → Bool
  | .clientError _ | .timeoutError _ => true
  | _ => false

/-- Nothing but network failures comes out of the network. -/
structure Environment.NetworkOnly (environment : Environment) : Prop where
  preflights : ∀ count exception, environment.network count = .error exception →
    exception.isNetworkFailure = true
  bodies : ∀ count reception exception, environment.network count = .ok reception →
    reception.failure = some exception → exception.isNetworkFailure = true

section Isolation

variable (environment : Environment) (rounding : Rounding)
variable (timeSnowflake : DateTime → Bool → ℤ) (arguments : Arguments)

/-- The tuples of the matching attachments whose outcome is 200. -/
def Environment.tuples : List MemberTuple :=
  (environment.selected arguments).zipIdx.filterMap environment.tupleOf

/-- A pre-flight that fails removes its attachment and no other, and a body that fails
while it is read raises `AttachmentStreamError`. -/
structure Environment.Isolates : Prop where
  items : (consume environment.serve keep (members rounding timeSnowflake arguments) []).1 =
    environment.tuples arguments
  outcome :
    (consume environment.serve keep (members rounding timeSnowflake arguments) []).2.1 = .ok ()
  bodies : ∀ member ∈ environment.tuples arguments,
    member.chunks.response.reception.failure ≠ none → ∀ log, ∃ text,
      (consume environment.serve keep (streamResponse member.chunks) log).2.1 =
        .error (.attachmentStreamError text)

/-- No matching attachment meets the plain `asyncio.TimeoutError`, neither in its
pre-flight nor in the body of its response. -/
structure Environment.NoPlainTimeout : Prop where
  preflights : ∀ entry ∈ (environment.selected arguments).zipIdx, ∀ text,
    environment.network entry.2 ≠ .error (.timeoutError text)
  bodies : ∀ entry ∈ (environment.selected arguments).zipIdx, ∀ reception text,
    environment.network entry.2 = .ok reception → reception.status = 200 →
      reception.failure ≠ some (.timeoutError text)

variable {environment rounding timeSnowflake arguments}

/-- A walk that ends normally has met no other exception than `ClientError`. -/
theorem clientError_of_received_ok {verdict : MemberTuple → Except Exn Unit}
    (list : List Visit) (count : ℕ)
    (hok : (environment.received verdict count list).2 = .ok ()) :
    ∀ entry ∈ list.zipIdx count, ∀ exception,
      environment.network entry.2 = .error exception → exception.isClientError = true := by
  induction list generalizing count with
  | nil => simp
  | cons visit rest ih =>
      rw [List.zipIdx_cons]
      intro entry hentry exception hnetwork
      cases hanswer : environment.network count with
      | error raised =>
          cases hclient : raised.isClientError with
          | false => simp [Environment.received, Environment.fetched, hanswer, hclient] at hok
          | true =>
              rcases List.mem_cons.mp hentry with rfl | hentry
              · obtain rfl := Except.error.inj (hanswer.symm.trans hnetwork)
                exact hclient
              · refine ih (count + 1) ?_ entry hentry exception hnetwork
                simpa [Environment.received, Environment.fetched, hanswer, hclient] using hok
      | ok reception =>
          rcases List.mem_cons.mp hentry with rfl | hentry
          · cases hanswer.symm.trans hnetwork
          · refine ih (count + 1) ?_ entry hentry exception hnetwork
            by_cases hstatus : reception.status = 200
            · simp only [Environment.received, Environment.fetched, hanswer, hstatus,
                if_true] at hok
              cases hverdict : verdict (memberTuple visit.1 visit.2 ⟨count, reception⟩) with
              | error raised => simp [hverdict] at hok
              | ok _ => simpa [hverdict] using hok
            · simpa [Environment.received, Environment.fetched, hanswer, hstatus] using hok

theorem Exn.isClientError_of_not_timeout {exception : Exn}
    (hfailure : exception.isNetworkFailure = true)
    (hnot : ∀ text, exception ≠ .timeoutError text) : exception.isClientError = true := by
  cases exception with
  | clientError text => rfl
  | timeoutError text => exact absurd rfl (hnot text)
  | _ => cases hfailure

/-- A `ClientError` in a body is wrapped. -/
theorem Chunks.ended_of_clientError {chunks : Chunks} {exception : Exn}
    (hfailure : chunks.response.reception.failure = some exception)
    (hclient : exception.isClientError = true) :
    ∃ text, chunks.ended = .error (.attachmentStreamError text) := by
  refine ⟨"Stream of '" ++ chunks.filename ++ "' failed mid-flight: " ++ exception.text, ?_⟩
  rw [Chunks.ended, hfailure]
  exact congrArg Except.error (if_pos hclient)

theorem Environment.NoPlainTimeout.clientError (hplain : environment.NoPlainTimeout arguments)
    (hnetwork : environment.NetworkOnly) :
    ∀ entry ∈ (environment.selected arguments).zipIdx, ∀ exception,
      environment.network entry.2 = .error exception → exception.isClientError = true := by
  intro entry hentry exception hanswer
  refine Exn.isClientError_of_not_timeout (hnetwork.preflights _ _ hanswer) ?_
  rintro text rfl
  exact hplain.preflights entry hentry text hanswer

/-- Without a plain timeout, a body that fails raises `AttachmentStreamError`. -/
theorem Environment.NoPlainTimeout.surfaces (hplain : environment.NoPlainTimeout arguments)
    (hnetwork : environment.NetworkOnly) {member : MemberTuple}
    (hmember : member ∈ environment.tuples arguments)
    (hfailure : member.chunks.response.reception.failure ≠ none) (log : Log) :
    ∃ text, (consume environment.serve keep (streamResponse member.chunks) log).2.1 =
      .error (.attachmentStreamError text) := by
  obtain ⟨entry, hentry, htuple⟩ := List.mem_filterMap.mp hmember
  obtain ⟨reception, hanswer, hstatus, rfl⟩ := tupleOf_eq_some.mp htuple
  obtain ⟨exception, hfailure⟩ := Option.ne_none_iff_exists'.mp hfailure
  have hclient : exception.isClientError = true := by
    refine Exn.isClientError_of_not_timeout (hnetwork.bodies _ _ _ hanswer hfailure) ?_
    rintro text rfl
    exact hplain.bodies entry hentry reception text hanswer hstatus hfailure
  obtain ⟨text, hended⟩ := Chunks.ended_of_clientError hfailure hclient
  exact ⟨text, by rw [consume_streamResponse, hended]⟩

/-- The failures of the network are isolated exactly when none is a plain timeout. -/
theorem isolates_iff_noPlainTimeout (hnetwork : environment.NetworkOnly)
    (hcontained : arguments.onProgress = true → environment.ProgressContained)
    (hhistory : (environment.walked arguments).failure = none) :
    environment.Isolates rounding timeSnowflake arguments ↔
      environment.NoPlainTimeout arguments := by
  obtain ⟨hitems, houtcome, -⟩ :=
    consume_members takes_keep hcontained rounding timeSnowflake []
  rw [show (urls []).length = 0 from rfl] at hitems houtcome
  rw [History.ended, hhistory] at houtcome
  constructor
  · rintro ⟨-, hok, hbodies⟩
    have hreceived : (environment.received (fun _ => .ok ()) 0
        (environment.selected arguments)).2 = .ok () := by
      cases hended : (environment.received (fun _ => .ok ()) 0
        (environment.selected arguments)).2 with
      | ok _ => rfl
      | error exception =>
          rw [hok, hended] at houtcome
          cases houtcome
    refine ⟨fun entry hentry text hanswer => ?_,
      fun entry hentry reception text hanswer hstatus hfailure => ?_⟩
    · cases clientError_of_received_ok _ _ hreceived entry hentry _ hanswer
    · have hmember : memberTuple entry.1.1 entry.1.2 ⟨entry.2, reception⟩ ∈
          environment.tuples arguments :=
        List.mem_filterMap.mpr ⟨entry, hentry, tupleOf_eq_some.mpr
          ⟨reception, hanswer, hstatus, rfl⟩⟩
      obtain ⟨text', hraised⟩ := hbodies _ hmember (by simp [memberTuple, hfailure]) []
      rw [consume_streamResponse] at hraised
      simp [Chunks.ended, memberTuple, hfailure, Exn.isClientError] at hraised
  · intro hplain
    have hclient := hplain.clientError hnetwork
    rw [received_of_clientError _ _ hclient fun _ _ => rfl] at hitems houtcome
    exact ⟨hitems, houtcome, fun _ => hplain.surfaces hnetwork⟩

/-- A GET that is answered with 404 does not keep the other image from its place. -/
theorem isolates_secondFound :
    secondFound.Isolates exactRounding (fun _ _ => 0) quietImages := by
  have hnetwork : secondFound.NetworkOnly := by
    constructor
    · rintro (_ | _ | count) exception herror <;> cases herror
      rfl
    · rintro (_ | _ | count) reception exception hok hfailure <;> cases hok <;> cases hfailure
  refine (isolates_iff_noPlainTimeout hnetwork (fun hprogress => by cases hprogress) rfl).mpr
    ⟨?_, ?_⟩
  · rintro ⟨visit, _ | _ | count⟩ - text herror <;> cases herror
  · rintro ⟨visit, _ | _ | count⟩ - reception text hok - hfailure <;> cases hok <;>
      cases hfailure

/-- The first GET times out, the second would be answered with 200. -/
def firstTimesOut : Environment :=
  environmentOf fourAttachments [.error (.timeoutError ""), .ok ⟨200, [[1]], none⟩]

/-- The walk ends with the timeout and hands nothing on. -/
theorem not_isolates_firstTimesOut :
    ¬ firstTimesOut.Isolates exactRounding (fun _ _ => 0) quietImages := by
  intro hisolates
  have hraised : (consume firstTimesOut.serve keep
      (members exactRounding (fun _ _ => 0) quietImages) []).2.1 = .error (.timeoutError "") :=
    rfl
  cases hraised.symm.trans hisolates.outcome

end Isolation

end DownloaderBot.ZipPipeline
