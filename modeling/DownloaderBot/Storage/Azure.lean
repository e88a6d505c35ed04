import DownloaderBot.Storage.ContentDisposition
import DownloaderBot.Tasks.Service

/-!
# The Azure backend

`AzureBlobBackend` over the calls of the SDK, and what the attempts take storage to be.
An upload and a deletion of the backend, whatever the SDK makes of its calls, is a step of
the service: it takes effect on the one blob or does not, its URL is signed for the
lifetime asked for, and no error of the SDK gets out.
-/

namespace DownloaderBot.AzureBlob

open DownloaderBot.Calendar
open DownloaderBot.ContentDisposition
open DownloaderBot.PercentEncoding
open DownloaderBot.Program
open DownloaderBot.Tasks (emptySentinel)
open DownloaderBot.Text
open DownloaderBot.TransitionSystem

inductive Environment
  | dev
  | prod
  deriving DecidableEq, Repr

/-- What the backend reads of the settings and of its client. -/
structure Config where
  accountName : String
  containerName : String
  accountKey : Option String
  environment : Environment
  intUrl : Option String
  extUrl : Option String

/-- `str` of an error, and whether it is a `ResourceNotFoundError`. -/
structure AzureError where
  notFound : Bool
  text : String
  deriving DecidableEq, Repr

/-- `raised`: by the data as it is read, or into the call. -/
inductive Exn
  | azure (error : AzureError)
  | uploadError (message : String)
  | signedUrlError (message : String)
  | time (error : TimeError)
  | raised (exception : Tasks.Exn)
  deriving DecidableEq, Repr

def Exn.isAzure : Exn → Bool
  | .azure _ => true
  | _ => false

structure BlobClient where
  blobName : String
  url : String
  deriving DecidableEq, Repr

/-- The keywords of `generate_blob_sas`; the permission is to read. -/
structure SasRequest where
  accountName : String
  containerName : String
  blobName : String
  accountKey : String
  start : DateTime
  expiry : DateTime
  contentDisposition : Option String
  deriving DecidableEq

inductive Call
  | uploadBlob (name : String) (overwrite : Bool) (contentType : String)
  | now
  | generateBlobSas (request : SasRequest)
  | fromBlobUrl (blobUrl credential : String)
  | deleteBlob (name : String)
  deriving DecidableEq

def Reply : Call → Type
  | .uploadBlob .. => BlobClient
  | .now => DateTime
  | .generateBlobSas _ => String
  | .fromBlobUrl .. => String
  | .deleteBlob _ => Unit

abbrev Backend (α : Type) := Prog Reply Exn α

def await (request : Call) : Backend (Reply request) := Prog.perform request

/-- `except AzureError as e: raise .. from e`. -/
def translating {α : Type} (body : Backend α) (translate : AzureError → Exn) : Backend α :=
  body.tryExcept Exn.isAzure fun
    | .azure error => Prog.raise (translate error)
    | other => Prog.raise other

/-- The parameters of `upload_and_sign`, but for the data. -/
structure Upload where
  name : String
  ttl : TimeDelta := 86400000000
  overwrite : Bool := true
  contentType : Option String := none
  downloadFilename : Option String := none

/-- A setting that is set and not empty. -/
def truthy (setting : Option String) : Option String := setting.filter (· ≠ "")

def noAccountKey : String :=
  "SAS URL generation requires an account key credential. " ++
    "Ensure AZURE_CONN_STR contains an AccountKey, or pass a " ++
    "client configured with account key auth."

def failedUpload (config : Config) (name : String) (error : AzureError) : String :=
  "Failed to upload blob '" ++ name ++ "' to container '" ++ config.containerName ++ "': " ++
    error.text

def failedToken (blobName : String) (error : AzureError) : String :=
  "Failed to generate SAS token for blob '" ++ blobName ++ "': " ++ error.text

def failedDelete (config : Config) (name : String) (error : AzureError) : String :=
  "Failed to delete blob '" ++ name ++ "' from container '" ++ config.containerName ++
    "': " ++ error.text

/-- The rewrite of the URL that Azurite is reached under. -/
def Config.reachable (config : Config) (url : String) : String :=
  match config.environment, truthy config.intUrl, truthy config.extUrl with
  | .dev, some intUrl, some extUrl =>
      String.ofList (replaceAll intUrl.toList extUrl.toList url.toList)
  | _, _, _ => url

/-- The part of `upload_and_sign` after the upload. -/
def sign (config : Config) (upload : Upload) (accountKey : String) (blobClient : BlobClient) :
    Backend String := do
  let now : DateTime ← await .now
  let expiry ← Prog.ofExcept ((now.add upload.ttl).mapError Exn.time)
  let sasToken : String ← translating
    (await (Call.generateBlobSas
      ⟨config.accountName, config.containerName, blobClient.blobName, accountKey, now, expiry,
        upload.downloadFilename.map formatContentDisposition⟩))
    fun error => .signedUrlError (failedToken blobClient.blobName error)
  let url : String ← await (Call.fromBlobUrl blobClient.url sasToken)
  return config.reachable url

/-- `upload_and_sign`. -/
def uploadAndSign (config : Config) (upload : Upload) : Backend String :=
  match truthy config.accountKey with
  | none => Prog.raise (.signedUrlError noAccountKey)
  | some accountKey => do
      let blobClient : BlobClient ← translating
        (await (Call.uploadBlob upload.name upload.overwrite
          ((truthy upload.contentType).getD "application/zip")))
        fun error => .uploadError (failedUpload config upload.name error)
      sign config upload accountKey blobClient

/-- `delete_blob`. -/
def deleteBlob (config : Config) (name : String) : Backend Unit :=
  (await (.deleteBlob name)).tryExcept Exn.isAzure fun
    | .azure error =>
        if error.notFound then pure ()
        else Prog.raise (.uploadError (failedDelete config name error))
    | other => Prog.raise other

/-! ## The SDK -/

/-- The blob of one name, which nobody else touches meanwhile, and the moment. -/
structure World where
  blob : Bool
  now : DateTime

/-- The moment in seconds. -/
def seconds (moment : DateTime) : ℚ := (moment.micros : ℚ) / 1000000

/-- What a call that takes effect does to the blob of this name. -/
def touch (name : String) (blob : Bool) : Call → Bool
  | .uploadBlob other _ _ => if other = name then true else blob
  | .deleteBlob other => if other = name then false else blob
  | _ => blob

/-- No character of a token ends a path or starts a port. -/
def IsToken (token : String) : Prop := ∀ char ∈ token.toList, char ≠ '?' ∧ char ≠ ':'

/-- `AzureError`, or what the data or the event loop raised. -/
def Exn.FromSdk : Exn → Prop
  | .azure _ | .raised _ => True
  | .uploadError _ | .signedUrlError _ | .time _ => False

/-- What the SDK may make of a call; `validUntil` says how long the service honours a
token.  The clock and the composition of a URL raise no `AzureError`. -/
def Replies (name : String) (validUntil : String → ℚ) (after : World) :
    (request : Call) → Except Exn (Reply request) → Prop
  | .uploadBlob _ _ _, .ok client => '?' ∉ client.url.toList
  | .now, .ok moment => moment = after.now
  | .generateBlobSas request, .ok token =>
      validUntil token ≤ seconds request.expiry ∧ IsToken token
  | .fromBlobUrl blobUrl credential, .ok url => url = blobUrl ++ "?" ++ credential
  | .deleteBlob _, .ok _ => True
  | .deleteBlob other, .error (.azure error) =>
      error.notFound = true → other = name → after.blob = false
  | .uploadBlob _ _ _, .error exception | .generateBlobSas _, .error exception
  | .deleteBlob _, .error exception => exception.FromSdk
  | .now, .error exception | .fromBlobUrl _ _, .error exception =>
      exception.FromSdk ∧ exception.isAzure = false

/-- A call that raises has taken effect or has not. -/
def Serves (name : String) (validUntil : String → ℚ) (world : World) (request : Call)
    (outcome : Except Exn (Reply request)) (after : World) : Prop :=
  world.now ≤ after.now ∧ Replies name validUntil after request outcome ∧
    match outcome with
    | .ok _ => after.blob = touch name world.blob request
    | .error _ => after.blob = world.blob ∨ after.blob = touch name world.blob request

/-- Where a signature stands in a URL. -/
def tokenOf (url : String) : String :=
  String.ofList ((url.toList.dropWhile (· ≠ '?')).drop 1)

theorem tokenOf_append {base token : String} (hbase : '?' ∉ base.toList) :
    tokenOf (base ++ "?" ++ token) = token := by
  have hkept : ∀ char ∈ base.toList, decide (char ≠ '?') = true :=
    fun char hchar => decide_eq_true fun heq => hbase (heq ▸ hchar)
  have hlist : (base ++ "?" ++ token).toList = base.toList ++ '?' :: token.toList := by
    simp
  rw [tokenOf, hlist, List.dropWhile_append_of_pos hkept]
  simp

/-- The setting for the inner URL names a port or a scheme, and neither has a query. -/
def Config.Locates (config : Config) : Prop :=
  ∀ intUrl ∈ truthy config.intUrl, ∀ extUrl ∈ truthy config.extUrl,
    ':' ∈ intUrl.toList ∧ '?' ∉ intUrl.toList ∧ '?' ∉ extUrl.toList

/-- The rewrite leaves the signature alone. -/
theorem exists_reachable {config : Config} (hlocates : config.Locates) {blobUrl token : String}
    (hurl : '?' ∉ blobUrl.toList) (htoken : IsToken token) :
    ∃ base : String, '?' ∉ base.toList ∧
      config.reachable (blobUrl ++ "?" ++ token) = base ++ "?" ++ token := by
  rw [Config.reachable]
  split
  case h_2 => exact ⟨blobUrl, hurl, rfl⟩
  case h_1 intUrl extUrl _ hint hext =>
    obtain ⟨hcolon, hquery, hextQuery⟩ := hlocates intUrl hint extUrl hext
    refine ⟨String.ofList (replaceAll intUrl.toList extUrl.toList blobUrl.toList), ?_, ?_⟩
    · intro hmem
      rw [String.toList_ofList] at hmem
      exact (mem_replaceFrom hmem).elim hextQuery hurl
    · have hlist : (blobUrl ++ "?" ++ token).toList =
          blobUrl.toList ++ '?' :: token.toList := by
        simp
      have hnot : ':' ∉ token.toList := fun hmem => (htoken ':' hmem).2 rfl
      rw [hlist, replaceAll_append_separator hquery hcolon hnot]
      apply String.toList_injective
      simp

/-! ## What a storage call of the backend comes to -/

section Contract

variable {name : String} {validUntil : String → ℚ} {world : World}

theorem holds_translating {α : Type} {inv : World → Prop} {body : Backend α}
    {translate : AzureError → Exn} {post : World → Except Exn α → Prop}
    (hbody : body.Holds (Serves name validUntil) inv (fun after outcome =>
      match outcome with
      | .error (.azure error) => post after (.error (translate error))
      | other => post after other) world) :
    (translating body translate).Holds (Serves name validUntil) inv post world := by
  apply Prog.holds_tryExcept
  apply hbody.mono
  intro after outcome hpost
  cases outcome with
  | ok value => exact hpost
  | error exception => cases exception <;> exact hpost

/-- The upload takes effect or raises, and no error of the SDK gets out; the URL is signed
for the lifetime asked for. -/
structure Uploaded (validUntil : String → ℚ) (ttl : TimeDelta) (world : World)
    (after : World) (outcome : Except Exn String) : Prop where
  later : world.now ≤ after.now
  wrapped : ∀ error, outcome ≠ .error (.azure error)
  blob : after.blob = true ∨ after.blob = world.blob ∧ ∃ exception, outcome = .error exception
  signed : ∀ url, outcome = .ok url → url ≠ emptySentinel ∧
    validUntil (tokenOf url) ≤ seconds after.now + (ttl : ℚ) / 1000000

theorem Uploaded.of_error {ttl : TimeDelta} {after : World} {exception : Exn}
    (hlater : world.now ≤ after.now) (hblob : after.blob = true ∨ after.blob = world.blob)
    (hwrapped : exception.isAzure = false) :
    Uploaded validUntil ttl world after (.error exception) where
  later := hlater
  wrapped := by
    rintro error ⟨⟩
    cases hwrapped
  blob := hblob.imp_right fun hkept => ⟨hkept, exception, rfl⟩
  signed := nofun

theorem seconds_mono {left right : DateTime} (hle : left ≤ right) :
    seconds left ≤ seconds right := by
  have hmicros : left.micros ≤ right.micros := hle
  rw [seconds, seconds]
  gcongr

theorem seconds_add {moment expiry : DateTime} {ttl : TimeDelta}
    (hadd : moment.add ttl = .ok expiry) :
    seconds expiry = seconds moment + (ttl : ℚ) / 1000000 := by
  have hmicros : (expiry.micros : ℚ) = moment.micros + ttl := by
    exact_mod_cast DateTime.micros_of_add hadd
  rw [seconds, seconds, hmicros, add_div]

/-- A call about no blob. -/
theorem Serves.blob_eq {request : Call} {outcome : Except Exn (Reply request)} {after : World}
    (hserves : Serves name validUntil world request outcome after)
    (htouch : touch name world.blob request = world.blob) : after.blob = world.blob := by
  obtain ⟨-, -, hblob⟩ := hserves
  rw [htouch] at hblob
  cases outcome with
  | ok _ => exact hblob
  | error _ => exact hblob.elim id id

/-- The URL that is handed out carries the token. -/
theorem Uploaded.of_signed {config : Config} (hlocates : config.Locates)
    {blobUrl token : String} (hurl : '?' ∉ blobUrl.toList) (htoken : IsToken token)
    {ttl : TimeDelta} {after : World} (hlater : world.now ≤ after.now)
    (hblob : after.blob = true)
    (hvalid : validUntil token ≤ seconds after.now + (ttl : ℚ) / 1000000) :
    Uploaded validUntil ttl world after
      (.ok (config.reachable (blobUrl ++ "?" ++ token))) := by
  obtain ⟨base, hbase, hreachable⟩ := exists_reachable hlocates hurl htoken
  rw [hreachable]
  refine ⟨hlater, nofun, .inl hblob, ?_⟩
  rintro url ⟨⟩
  refine ⟨fun hempty => ?_, (tokenOf_append hbase).symm ▸ hvalid⟩
  have hlist := congrArg String.toList hempty
  simp [emptySentinel] at hlist

theorem holds_sign {config : Config} (hlocates : config.Locates) (upload : Upload)
    (accountKey : String) {client : BlobClient} (hurl : '?' ∉ client.url.toList)
    {uploaded : World} (hlater : world.now ≤ uploaded.now) (hblob : uploaded.blob = true) :
    (sign config upload accountKey client).Holds (Serves upload.name validUntil)
      (fun _ => True) (Uploaded validUntil upload.ttl world) uploaded := by
  apply Prog.holds_bind.mpr
  apply Prog.holds_perform.mpr
  refine ⟨trivial, fun outcome read hserves => ?_⟩
  have hread := hlater.trans hserves.1
  have hkept := (hserves.blob_eq rfl).trans hblob
  cases outcome with
  | error exception => exact .of_error hread (.inl hkept) hserves.2.1.2
  | ok moment =>
      obtain rfl : moment = read.now := hserves.2.1
      apply Prog.holds_bind.mpr
      apply Prog.holds_ofExcept.mpr
      cases hadd : read.now.add upload.ttl with
      | error error => exact .of_error hread (.inl hkept) rfl
      | ok expiry =>
          apply Prog.holds_bind.mpr
          apply holds_translating
          apply Prog.holds_perform.mpr
          refine ⟨trivial, fun outcome signed hserves => ?_⟩
          have hlate := hserves.1
          have hsigned := hread.trans hlate
          have hkept := (hserves.blob_eq rfl).trans hkept
          cases outcome with
          | error exception =>
              cases exception <;> exact .of_error hsigned (.inl hkept) rfl
          | ok token =>
              obtain ⟨hvalid, htoken⟩ : validUntil token ≤ seconds expiry ∧ IsToken token :=
                hserves.2.1
              apply Prog.holds_bind.mpr
              apply Prog.holds_perform.mpr
              refine ⟨trivial, fun outcome formed hserves => ?_⟩
              have hlate := hlate.trans hserves.1
              have hformed := hread.trans hlate
              have hkept := (hserves.blob_eq rfl).trans hkept
              cases outcome with
              | error exception => exact .of_error hformed (.inl hkept) hserves.2.1.2
              | ok url =>
                  have hcomposed := hserves.2.1
                  simp only [Replies] at hcomposed
                  subst hcomposed
                  apply Uploaded.of_signed hlocates hurl htoken hformed hkept
                  calc
                    validUntil token ≤ seconds expiry := hvalid
                    _ = seconds read.now + (upload.ttl : ℚ) / 1000000 := seconds_add hadd
                    _ ≤ seconds formed.now + (upload.ttl : ℚ) / 1000000 :=
                        add_le_add_left (seconds_mono hlate) _

/-- `upload_and_sign`, whatever the SDK makes of its calls. -/
theorem holds_uploadAndSign {config : Config} (hlocates : config.Locates) (upload : Upload) :
    (uploadAndSign config upload).Holds (Serves upload.name validUntil) (fun _ => True)
      (Uploaded validUntil upload.ttl world) world := by
  rw [uploadAndSign]
  split
  case h_1 => exact .of_error (le_refl _) (.inr rfl) rfl
  case h_2 accountKey _ =>
    apply Prog.holds_bind.mpr
    apply holds_translating
    apply Prog.holds_perform.mpr
    refine ⟨trivial, fun outcome uploaded ⟨hlater, hreply, hblob⟩ => ?_⟩
    rw [touch, if_pos rfl] at hblob
    cases outcome with
    | ok client => exact holds_sign hlocates upload accountKey hreply hlater hblob
    | error exception =>
        cases exception <;> exact .of_error hlater hblob.symm rfl

/-- The deletion takes effect or raises, and no error of the SDK gets out. -/
structure Deleted (world after : World) (outcome : Except Exn Unit) : Prop where
  later : world.now ≤ after.now
  wrapped : ∀ error, outcome ≠ .error (.azure error)
  blob : after.blob = false ∨ after.blob = world.blob ∧ ∃ exception, outcome = .error exception

theorem Deleted.of_error {after : World} {exception : Exn} (hlater : world.now ≤ after.now)
    (hblob : after.blob = world.blob ∨ after.blob = false)
    (hwrapped : exception.isAzure = false) : Deleted world after (.error exception) where
  later := hlater
  wrapped := by
    rintro error ⟨⟩
    cases hwrapped
  blob := hblob.symm.imp_right fun hkept => ⟨hkept, exception, rfl⟩

/-- `delete_blob`: a blob that is missing has been deleted. -/
theorem holds_deleteBlob (config : Config) :
    (deleteBlob config name).Holds (Serves name validUntil) (fun _ => True) (Deleted world)
      world := by
  apply Prog.holds_tryExcept
  apply Prog.holds_perform.mpr
  refine ⟨trivial, fun outcome after ⟨hlater, hreply, hblob⟩ => ?_⟩
  rw [touch, if_pos rfl] at hblob
  cases outcome with
  | ok _ => exact ⟨hlater, nofun, .inl hblob⟩
  | error exception =>
      cases exception with
      | azure error =>
          have hcaught : (Exn.azure error).isAzure = true := rfl
          dsimp only
          rw [if_pos hcaught]
          split
          case isTrue hnotFound => exact ⟨hlater, nofun, .inl (hreply hnotFound rfl)⟩
          case isFalse => exact .of_error hlater hblob rfl
      | _ => exact .of_error hlater hblob rfl

end Contract

/-! ## The backend behind the attempts -/

/-- The call is about no blob but the one of this name. -/
def OnBlob (name : String) : Call → Prop
  | .uploadBlob other _ _ => other = name
  | .deleteBlob other => other = name
  | .now | .generateBlobSas _ | .fromBlobUrl _ _ => True

/-- The upload of an attempt. -/
def Upload.ofRequest (asked : Tasks.UploadRequest) : Upload :=
  { name := asked.name, ttl := asked.ttl, downloadFilename := some asked.downloadFilename }

/-- The storage calls of an attempt. -/
def serve (config : Config) : (request : Tasks.Call) → Option (Backend (Tasks.Reply request))
  | .uploadAndSign asked => some (uploadAndSign config (.ofRequest asked))
  | .deleteBlob name => some (deleteBlob config name)
  | _ => none

/-- What an attempt tells apart. -/
def Exn.toTask : Exn → Tasks.Exn
  | .azure _ => .other
  | .uploadError _ => .uploadError
  | .signedUrlError _ => .signedUrlError
  | .time error => .time error
  | .raised exception => exception

/-- How long the service honours a URL. -/
def validity (validUntil : String → ℚ) (url : String) : ℚ := validUntil (tokenOf url)

/-- The state of the task is about that blob and that moment. -/
structure Sees (state : Overlap.State) (world : World) : Prop where
  blob : state.store.blob = world.blob
  now : state.now = seconds world.now

/-- The time passes and the pending call comes to its outcome, as steps of the task. -/
def Steps (validUntil : String → ℚ) (arguments : Tasks.Arguments) (state : Overlap.State)
    (number : ℕ) (request : Tasks.Call) (after : World)
    (outcome : Except Exn (Tasks.Reply request)) : Prop :=
  ∃ outcomes effect middle next, outcomes request = outcome.mapError Exn.toTask ∧
    Overlap.step (validity validUntil) arguments state
      (.elapse (seconds after.now - state.now)) = some middle ∧
    Overlap.step (validity validUntil) arguments middle (.answer number outcomes effect) =
      some next ∧ Sees next after

section Simulation

variable {config : Config} {name : String} {validUntil : String → ℚ}
variable {arguments : Tasks.Arguments} {state : Overlap.State} {world after : World}
variable {number : ℕ} {attempt : Overlap.Attempt}

/-- What a storage call does to the store of its task, and what it may answer, is all that
a step of the task asks for. -/
theorem steps_of_outcome {request : Tasks.Call} {outcome : Except Exn (Tasks.Reply request)}
    (hsees : Sees state world) (hattempt : state.attempts number = some attempt)
    (hpending : attempt.session.pending = some request) (hlater : world.now ≤ after.now)
    (hanswers : ∀ reply, outcome = .ok reply →
      state.store.Answers (validity validUntil) (seconds after.now) request reply)
    (hblob : after.blob = (state.store.effect (seconds after.now) request).blob ∨
      after.blob = world.blob ∧ ∃ exception, outcome = .error exception) :
    Steps validUntil arguments state number request after outcome := by
  let outcomes : (request : Tasks.Call) → Except Tasks.Exn (Tasks.Reply request) :=
    Function.update (fun _ => .error .other) request (outcome.mapError Exn.toTask)
  have houtcome : outcomes request = outcome.mapError Exn.toTask :=
    Function.update_self _ _ _
  have helapse : 0 ≤ seconds after.now - state.now := by
    rw [hsees.now]
    exact sub_nonneg.mpr (seconds_mono hlater)
  have hnow : state.now + (seconds after.now - state.now) = seconds after.now :=
    add_sub_cancel _ _
  have hmiddle : Overlap.step (validity validUntil) arguments state
      (.elapse (seconds after.now - state.now)) =
      some { state with now := seconds after.now } := by
    rw [Overlap.step, if_pos helapse, hnow]
  have hreplies : ∀ reply, outcomes request = .ok reply →
      state.store.Answers (validity validUntil) (seconds after.now) request reply := by
    intro reply hreply
    rw [houtcome] at hreply
    cases outcome with
    | ok value =>
        cases hreply
        exact hanswers _ rfl
    | error exception => cases hreply
  rcases hblob with heffect | ⟨hkept, exception, hraised⟩
  · refine ⟨outcomes, true, _, _, houtcome, hmiddle,
      Service.overlap_step_answer hattempt hpending hreplies, ?_, rfl⟩
    have htakes : Overlap.takesEffect (outcomes request) true = true := by
      cases outcomes request <;> rfl
    rw [if_pos htakes]
    exact heffect.symm
  · refine ⟨outcomes, false, _, _, houtcome, hmiddle,
      Service.overlap_step_answer hattempt hpending hreplies, ?_, rfl⟩
    have hraises : Overlap.takesEffect (outcomes request) false = false := by
      rw [houtcome, hraised]
      rfl
    rw [if_neg (Bool.eq_false_iff.mp hraises)]
    exact hsees.blob.trans hkept.symm

theorem onBlob_await {request : Call} (honBlob : OnBlob name request) :
    (await request).Only (OnBlob name) :=
  Prog.only_perform honBlob

theorem onBlob_translating {α : Type} {body : Backend α} {translate : AzureError → Exn}
    (hbody : body.Only (OnBlob name)) : (translating body translate).Only (OnBlob name) := by
  apply hbody.tryExcept
  intro exception
  cases exception <;> trivial

theorem onBlob_uploadAndSign (config : Config) (upload : Upload) :
    (uploadAndSign config upload).Only (OnBlob upload.name) := by
  rw [uploadAndSign]
  split
  · trivial
  · apply Prog.Only.bind
    · exact onBlob_translating (onBlob_await rfl)
    · intro client
      apply Prog.Only.bind
      · exact onBlob_await trivial
      · intro moment
        refine Prog.only_ofExcept_bind fun expiry _ => Prog.Only.bind ?_ fun token => ?_
        · exact onBlob_translating (onBlob_await trivial)
        · refine Prog.Only.bind ?_ fun _ => trivial
          exact onBlob_await trivial

theorem onBlob_deleteBlob (config : Config) (name : String) :
    (deleteBlob config name).Only (OnBlob name) := by
  apply Prog.Only.tryExcept
  · exact onBlob_await rfl
  · intro exception
    cases exception with
    | azure error =>
        dsimp only
        split <;> trivial
    | _ => trivial

/-- Behind the storage calls of an attempt, the backend is what the attempts take storage
to be: it is about the blob of the call alone, no error of the SDK gets out of it, and
however the SDK answers, the call is a step of the task. -/
theorem serve_simulates (hlocates : config.Locates) {request : Tasks.Call}
    {program : Backend (Tasks.Reply request)} (hserve : serve config request = some program)
    (htouches : Service.Touches name request) (hsees : Sees state world)
    (hattempt : state.attempts number = some attempt)
    (hpending : attempt.session.pending = some request) (validUntil : String → ℚ)
    (arguments : Tasks.Arguments) :
    program.Only (OnBlob name) ∧
      program.Holds (Serves name validUntil) (fun _ => True) (fun after outcome =>
        (∀ error, outcome ≠ .error (.azure error)) ∧
          Steps validUntil arguments state number request after outcome) world := by
  cases request with
  | uploadAndSign asked =>
      cases hserve
      obtain rfl : asked.name = name := htouches
      refine ⟨onBlob_uploadAndSign config (.ofRequest asked),
        (holds_uploadAndSign hlocates (.ofRequest asked)).mono ?_⟩
      rintro after outcome ⟨hlater, hwrapped, hblob, hsigned⟩
      exact ⟨hwrapped, steps_of_outcome hsees hattempt hpending hlater hsigned hblob⟩
  | deleteBlob deleted =>
      cases hserve
      obtain rfl : deleted = name := htouches
      refine ⟨onBlob_deleteBlob config _, (holds_deleteBlob config).mono ?_⟩
      rintro after outcome ⟨hlater, hwrapped, hblob⟩
      exact ⟨hwrapped, steps_of_outcome hsees hattempt hpending hlater (fun _ _ => trivial)
        hblob⟩
  | _ => cases hserve

/-- Azurite in the compose network, published on a port of the host. -/
def azurite : Config where
  accountName := "devstoreaccount1"
  containerName := "media"
  accountKey := some "Eby8"
  environment := .dev
  intUrl := some "http://azurite:10000/devstoreaccount1"
  extUrl := some "http://localhost:10000/devstoreaccount1"

theorem locates_azurite : azurite.Locates := by
  intro intUrl hint extUrl hext
  obtain rfl : "http://azurite:10000/devstoreaccount1" = intUrl := Option.some.inj hint
  obtain rfl : "http://localhost:10000/devstoreaccount1" = extUrl := Option.some.inj hext
  decide

def archiveRequest : Tasks.UploadRequest :=
  ⟨"channel-3-a.zip", 3, ⟨⟨none, none, none⟩, none, none⟩, 86400000000,
    "channel-general-2024-05-01.zip"⟩

/-- The first attempt is at its upload. -/
def atUpload : Overlap.State :=
  ⟨⟨false, none, []⟩, seconds Tasks.inMay.now, 1, Function.update (fun _ => none) 0
    (some ⟨⟨.call (.uploadAndSign archiveRequest) fun _ => .raise .other, some .walking⟩,
      false⟩)⟩

/-- The end of a token's validity as its field `se` names it, in whole seconds of UTC, as in
`2024-05-02T00:00:00Z`; a token without that field is never valid. -/
def signedExpiry (token : String) : ℚ :=
  match (token.toList.splitOn '&').find? (['s', 'e', '='] <+: ·) with
  | none => 0
  | some field =>
      let digits := ((unquote (String.ofList field)).getD "").toList.filter isDecimal
      let number := fun start length => ofDecimals ((digits.drop start).take length)
      let date : Civil := ⟨number 0 4, number 4 2, number 6 2⟩
      ((date.toOrdinal - 1) * 86400 + number 8 2 * 3600 + number 10 2 * 60 + number 12 2 : ℕ)

theorem serve_simulates_upload :
    (uploadAndSign azurite (.ofRequest archiveRequest)).Only (OnBlob "channel-3-a.zip") ∧
      (uploadAndSign azurite (.ofRequest archiveRequest)).Holds
        (Serves "channel-3-a.zip" signedExpiry) (fun _ => True) (fun after outcome =>
          (∀ error, outcome ≠ .error (.azure error)) ∧
            Steps signedExpiry ⟨"a", 3, 7, none, false, none⟩ atUpload 0
              (.uploadAndSign archiveRequest) after outcome) ⟨false, Tasks.inMay.now⟩ :=
  @serve_simulates azurite "channel-3-a.zip" atUpload ⟨false, Tasks.inMay.now⟩ 0 _ locates_azurite
    (.uploadAndSign archiveRequest) _ rfl rfl ⟨rfl, rfl⟩ rfl rfl
    signedExpiry ⟨"a", 3, 7, none, false, none⟩

/-- The SDK answers. -/
def succeed : (request : Call) → Except Exn (Reply request)
  | .uploadBlob name _ _ =>
      .ok (⟨name, "http://azurite:10000/devstoreaccount1/media/" ++ name⟩ : BlobClient)
  | .now => .ok Tasks.inMay.now
  | .generateBlobSas _ => .ok "se=2024-05-02T00%3A00%3A00Z&sp=r"
  | .fromBlobUrl blobUrl credential => .ok (blobUrl ++ "?" ++ credential)
  | .deleteBlob _ => .ok ()

/-- The link opens in a browser on the host, for the day that was asked for. -/
example : ((uploadAndSign azurite (.ofRequest archiveRequest)).run succeed).2 =
      .ok ("http://localhost:10000/devstoreaccount1/media/channel-3-a.zip" ++
        "?se=2024-05-02T00%3A00%3A00Z&sp=r") ∧
    signedExpiry "se=2024-05-02T00%3A00%3A00Z&sp=r" =
      seconds Tasks.inMay.now + (archiveRequest.ttl : ℚ) / 1000000 := by
  decide +kernel

end Simulation

end DownloaderBot.AzureBlob
