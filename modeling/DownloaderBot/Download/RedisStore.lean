import DownloaderBot.Core.Json
import DownloaderBot.Core.KeyValue
import DownloaderBot.Download.Jobs
import DownloaderBot.Download.Keys
import DownloaderBot.Download.Ratelimit

/-!
# What Redis holds

The clients of Redis as they send their requests: under key strings, the job meta as JSON,
the bucket as a hash.  Over it the typed stores that the rest of the development reasons
about, each request a function on the store that it is for.  The flat keyspace represents
the stores: in every run it answers every request as they do.
-/

namespace DownloaderBot.RedisStore

open DownloaderBot.ExpiringStore (Cell ScoredSet fetch highest)
open DownloaderBot.Healthcheck (sentinelKey)
open DownloaderBot.Jobs (Index JobMeta ResponseError)
open DownloaderBot.KeyValue
open DownloaderBot.Keys
open DownloaderBot.Ratelimit (Bucket)

/-! ## The meta as JSON -/

def metaObject (jobMeta : JobMeta) : Json.Object :=
  [("owner_user_id", .int jobMeta.ownerUserId),
    ("guild_id", jobMeta.guildId.elim .null fun guildId => .int guildId),
    ("channel_id", .int jobMeta.channelId),
    ("enqueued_at_iso", .text jobMeta.enqueuedAtIso),
    ("enqueue_consumed_token", .bool jobMeta.enqueueConsumedToken)]

def asId : Json.Scalar → Option ℕ
  | .int value => if 0 ≤ value then some value.toNat else none
  | _ => none

def asGuildId : Json.Scalar → Option (Option ℕ)
  | .null => some none
  | value => (asId value).map some

def asText : Json.Scalar → Option String
  | .text value => some value
  | _ => none

def asBool : Json.Scalar → Option Bool
  | .bool value => some value
  | _ => none

/-- The fields of a `JobMeta`, looked up by name. -/
def metaOf (object : Json.Object) : Option JobMeta := do
  return {
    ownerUserId := ← asId (← object.get "owner_user_id")
    guildId := ← asGuildId (← object.get "guild_id")
    channelId := ← asId (← object.get "channel_id")
    enqueuedAtIso := ← asText (← object.get "enqueued_at_iso")
    enqueueConsumedToken := ← asBool (← object.get "enqueue_consumed_token") }

/-- The text under `task:{task_id}:meta`. -/
def dumpsMeta (jobMeta : JobMeta) : String := Json.dumps (metaObject jobMeta)

def loadsMeta (text : String) : Option JobMeta := (Json.loads text).bind metaOf

theorem asId_natCast (number : ℕ) : asId (.int number) = some number := by
  rw [asId, if_pos (Int.natCast_nonneg number), Int.toNat_natCast]

theorem asGuildId_elim (guildId : Option ℕ) :
    asGuildId (guildId.elim .null fun guildId => .int guildId) = some guildId := by
  cases guildId with
  | none => rfl
  | some guildId => exact congrArg (Option.map some) (asId_natCast guildId)

theorem metaOf_metaObject (jobMeta : JobMeta) : metaOf (metaObject jobMeta) = some jobMeta := by
  have howner : (metaObject jobMeta).get "owner_user_id" = some (.int jobMeta.ownerUserId) := rfl
  have hguild : (metaObject jobMeta).get "guild_id" =
      some (jobMeta.guildId.elim .null fun guildId => .int guildId) := rfl
  have hchannel : (metaObject jobMeta).get "channel_id" = some (.int jobMeta.channelId) := rfl
  have hiso : (metaObject jobMeta).get "enqueued_at_iso" =
      some (.text jobMeta.enqueuedAtIso) := rfl
  have hconsumed : (metaObject jobMeta).get "enqueue_consumed_token" =
      some (.bool jobMeta.enqueueConsumedToken) := rfl
  simp only [metaOf, howner, hguild, hchannel, hiso, hconsumed, Option.bind_eq_bind,
    Option.bind_some, asId_natCast, asGuildId_elim, asText, asBool]
  rfl

theorem loadsMeta_dumpsMeta (jobMeta : JobMeta) :
    loadsMeta (dumpsMeta jobMeta) = some jobMeta := by
  rw [loadsMeta, dumpsMeta, Json.loads_dumps, Option.bind_some, metaOf_metaObject]

/-- Whatever the ids and the texts in a meta, what is stored is printable ASCII, and it is
read back as the meta. -/
theorem meta_roundTrip (jobMeta : JobMeta) :
    loadsMeta (dumpsMeta jobMeta) = some jobMeta ∧
      (dumpsMeta jobMeta).toList.all Json.isPrintable = true :=
  ⟨loadsMeta_dumpsMeta jobMeta, Json.isPrintable_dumps (metaObject jobMeta)⟩

/-! ## Requests -/

/-- What the clients send; each is one command or one transaction.  `stamp` is what
`time.time()` reads in the client. -/
inductive Request
  | recordJob (taskId : String) (jobMeta : JobMeta) (ttlSeconds : ℤ) (stamp : ℚ)
  | getJobMeta (taskId : String)
  | latestJobForUser (userId : ℕ)
  | forgetJob (taskId : String) (ownerUserId : ℕ)
  | getCachedArchiveUrl (taskId : String)
  | cacheArchiveUrl (taskId url : String) (ttlSeconds : ℤ)
  | isDelivered (taskId : String)
  | markDelivered (taskId : String) (ttlSeconds : ℤ)
  | readBucket (guildId : ℕ)
  | writeBucket (guildId : ℕ) (bucket : Bucket) (ttlSeconds : ℤ)
  | refreshSentinel (role : String) (pid : ℕ)
  | deleteSentinel (role : String) (pid : ℕ)

@[reducible]
def Reply : Request → Type
  | .getJobMeta _ => Option JobMeta
  | .latestJobForUser _ | .getCachedArchiveUrl _ => Option String
  | .isDelivered _ => Bool
  | .readBucket _ => Option Bucket
  | _ => Unit

/-- What a client raises: an error reply, or what it read was malformed. -/
inductive ClientError
  | response (error : Error)
  | malformed
  deriving DecidableEq, Repr

/-- What becomes of the reply to a command once the client has read it. -/
def reading {α β : Type} (read : α → Option β) (result : Except Error α × Keyspace) :
    Except ClientError β × Keyspace :=
  (match result.1 with
    | .ok reply => (read reply).elim (.error .malformed) .ok
    | .error error => .error (.response error), result.2)

/-- `json.loads`, unless the key is absent. -/
def readMeta : Option String → Option (Option JobMeta)
  | none => some none
  | some text => (loadsMeta text).map some

theorem readMeta_map_dumpsMeta (found : Option JobMeta) :
    readMeta (found.map dumpsMeta) = some found := by
  cases found with
  | none => rfl
  | some jobMeta => rw [Option.map_some, readMeta, loadsMeta_dumpsMeta, Option.map_some]

/-- `raw_tokens` and `raw_last`; the second is read only with the first. -/
def readFields : List (Option ℚ) → Option (Option Bucket)
  | none :: _ => some none
  | [some tokens, some lastRefill] => some (some ⟨tokens, lastRefill⟩)
  | _ => none

/-- The requests as the clients send them. -/
def serve (now : ℚ) (keyspace : Keyspace) :
    (request : Request) → Except ClientError (Reply request) × Keyspace
  | .recordJob taskId jobMeta ttlSeconds stamp =>
      reading some (transaction
        [setEx now (metaKey taskId) (dumpsMeta jobMeta) ttlSeconds,
          zadd now (userJobsKey jobMeta.ownerUserId) taskId stamp,
          expire now (userJobsKey jobMeta.ownerUserId) ttlSeconds] keyspace)
  | .getJobMeta taskId => reading readMeta (get now (metaKey taskId) keyspace)
  | .latestJobForUser userId =>
      reading some (zrevrangeFirst now (userJobsKey userId) keyspace)
  | .forgetJob taskId ownerUserId =>
      reading some (transaction
        [del (metaKey taskId), zrem now (userJobsKey ownerUserId) taskId] keyspace)
  | .getCachedArchiveUrl taskId => reading some (get now (archiveUrlKey taskId) keyspace)
  | .cacheArchiveUrl taskId url ttlSeconds =>
      reading some (setEx now (archiveUrlKey taskId) url ttlSeconds keyspace)
  | .isDelivered taskId => reading some (keyExists now (deliveredKey taskId) keyspace)
  | .markDelivered taskId ttlSeconds =>
      reading some (setEx now (deliveredKey taskId) "1" ttlSeconds keyspace)
  | .readBucket guildId =>
      reading readFields (hmget now (bucketKey guildId) ["tokens", "last_refill"] keyspace)
  | .writeBucket guildId bucket ttlSeconds =>
      reading some (transaction
        [hset now (bucketKey guildId)
            [("tokens", bucket.tokens), ("last_refill", bucket.lastRefill)],
          expire now (bucketKey guildId) ttlSeconds] keyspace)
  | .refreshSentinel role pid => reading some (setEx now (sentinelKey role pid) "1" 90 keyspace)
  | .deleteSentinel role pid => reading some (del (sentinelKey role pid) keyspace)

/-- The time to live that a request asks for. -/
def Request.lifetime : Request → ℤ
  | .recordJob _ _ ttlSeconds _ | .cacheArchiveUrl _ _ ttlSeconds
  | .markDelivered _ ttlSeconds | .writeBucket _ _ ttlSeconds => ttlSeconds
  | .refreshSentinel _ _ => 90
  | .getJobMeta _ | .latestJobForUser _ | .forgetJob _ _ | .getCachedArchiveUrl _
  | .isDelivered _ | .readBucket _ | .deleteSentinel _ _ => 0

/-! ## Typed stores -/

@[reducible]
def Content : Slot → Type
  | .jobMeta _ => JobMeta
  | .activeJobs _ => ScoredSet String ℚ
  | .archiveUrl _ => String
  | .delivered _ => Unit
  | .bucket _ => Bucket
  | .sentinel _ _ => Unit

/-- A typed `SET` with `EX`. -/
def put {α : Type} (now : ℚ) (value : α) (ttlSeconds : ℤ) (key : Option (Cell α ℚ)) :
    Option (Cell α ℚ) × Except ResponseError Unit :=
  if 0 < ttlSeconds then (some ⟨value, some (now + ttlSeconds)⟩, .ok ())
  else (key, .error .invalidExpireTime)

abbrev TypedStores := Stores Content

/-- The index of the jobs in the stores. -/
def index (stores : TypedStores) : Index :=
  ⟨fun taskId => stores (.jobMeta taskId), fun userId => stores (.activeJobs userId)⟩

/-- The stores with this index. -/
def withIndex (stores : TypedStores) (index : Index) : TypedStores
  | .jobMeta taskId => index.metas taskId
  | .activeJobs userId => index.activeJobs userId
  | slot => stores slot

/-- A `SET` in one slot. -/
def putSlot (now : ℚ) (stores : TypedStores) (slot : Slot) (value : Content slot)
    (ttlSeconds : ℤ) : Except ResponseError Unit × TypedStores :=
  let (cell, outcome) := put now value ttlSeconds (stores slot)
  (outcome, Function.update stores slot cell)

/-- The requests on the stores that they are for. -/
def serveTyped (now : ℚ) (stores : TypedStores) :
    (request : Request) → Except ResponseError (Reply request) × TypedStores
  | .recordJob taskId jobMeta ttlSeconds stamp =>
      let (index, outcome) :=
        Jobs.recordJob (index stores) now stamp taskId jobMeta ttlSeconds
      (outcome, withIndex stores index)
  | .getJobMeta taskId => (.ok (Jobs.getJobMeta (index stores) now taskId), stores)
  | .latestJobForUser userId => (.ok (Jobs.latestJobForUser (index stores) now userId), stores)
  | .forgetJob taskId ownerUserId =>
      (.ok (), withIndex stores (Jobs.forgetJob (index stores) now taskId ownerUserId))
  | .getCachedArchiveUrl taskId => (.ok (fetch now (stores (.archiveUrl taskId))), stores)
  | .cacheArchiveUrl taskId url ttlSeconds =>
      putSlot now stores (.archiveUrl taskId) url ttlSeconds
  | .isDelivered taskId => (.ok (fetch now (stores (.delivered taskId))).isSome, stores)
  | .markDelivered taskId ttlSeconds => putSlot now stores (.delivered taskId) () ttlSeconds
  | .readBucket guildId => (.ok (fetch now (stores (.bucket guildId))), stores)
  | .writeBucket guildId bucket ttlSeconds =>
      (.ok (), Function.update stores (.bucket guildId)
        (if 0 < ttlSeconds then some ⟨bucket, some (now + ttlSeconds)⟩ else none))
  | .refreshSentinel role pid => putSlot now stores (.sentinel role pid) () 90
  | .deleteSentinel role pid => (.ok (), Function.update stores (.sentinel role pid) none)

/-! ## The layout -/

def bucketHash (bucket : Bucket) : AList fun _ : String => ℚ :=
  AList.insert "last_refill" bucket.lastRefill (AList.insert "tokens" bucket.tokens ∅)

def encode : (slot : Slot) → Content slot → Value
  | .jobMeta _, jobMeta => .text (dumpsMeta jobMeta)
  | .activeJobs _, set => .scored set
  | .archiveUrl _, url => .text url
  | .delivered _, _ => .text "1"
  | .bucket _, bucket => .hash (bucketHash bucket)
  | .sentinel _ _, _ => .text "1"

def layout : Layout Slot Content := ⟨Slot.key, key_injective, encode⟩

/-- The error that a client raises for a refused request. -/
def refusal : ResponseError → ClientError
  | .invalidExpireTime => .response .invalidExpireTime

section Refinement

variable {now : ℚ} {keyspace : Keyspace} {stores : TypedStores}

/-- The request is answered alike on both levels, and leaves the one representing the other. -/
def Agrees (now : ℚ) {request : Request}
    (flat : Except ClientError (Reply request) × Keyspace)
    (typed : Except ResponseError (Reply request) × TypedStores) : Prop :=
  flat.1 = typed.1.mapError refusal ∧ layout.Represents now flat.2 typed.2

theorem reading_ok {α β : Type} {command : Command α} {read : α → Option β} {reply : α}
    {answer : β} (hcommand : command keyspace = (.ok reply, keyspace))
    (hread : read reply = some answer) :
    reading read (command keyspace) = (.ok answer, keyspace) := by
  simp only [reading, hcommand, hread]
  rfl

/-- A request that only reads. -/
theorem agrees_read {request : Request} {answer : Reply request}
    (hrep : layout.Represents now keyspace stores)
    (hflat : serve now keyspace request = (.ok answer, keyspace))
    (htyped : serveTyped now stores request = (.ok answer, stores)) :
    Agrees now (serve now keyspace request) (serveTyped now stores request) := by
  rw [hflat, htyped]
  exact ⟨rfl, hrep⟩

/-- A `SET` in one slot. -/
theorem agrees_putSlot (hrep : layout.Represents now keyspace stores) (slot : Slot)
    {content : Content slot} {text : String} (htext : encode slot content = .text text)
    {ttlSeconds : ℤ} (hrange : InRange now ttlSeconds) :
    (reading some (setEx now slot.key text ttlSeconds keyspace)).1 =
        (putSlot now stores slot content ttlSeconds).1.mapError refusal ∧
      layout.Represents now (reading some (setEx now slot.key text ttlSeconds keyspace)).2
        (putSlot now stores slot content ttlSeconds).2 := by
  by_cases httl : 0 < ttlSeconds
  · have hboth : 0 < ttlSeconds ∧ InRange now ttlSeconds := ⟨httl, hrange⟩
    simp only [setEx, putSlot, put, reading, if_pos httl, if_pos hboth]
    exact ⟨rfl, hrep.setEx htext httl⟩
  · have hnot : ¬ (0 < ttlSeconds ∧ InRange now ttlSeconds) := fun hboth => httl hboth.1
    simp only [setEx, putSlot, put, reading, if_neg httl, if_neg hnot, Function.update_eq_self]
    exact ⟨rfl, hrep⟩

theorem withIndex_update (stores : TypedStores) (taskId : String) (userId : ℕ)
    (stored : Option (Cell JobMeta ℚ)) (set : Option (Cell (ScoredSet String ℚ) ℚ)) :
    withIndex stores ⟨Function.update (index stores).metas taskId stored,
        Function.update (index stores).activeJobs userId set⟩ =
      Function.update (Function.update stores (.jobMeta taskId) stored) (.activeJobs userId)
        set := by
  funext slot
  cases slot with
  | jobMeta other =>
      by_cases hsame : other = taskId
      · subst hsame
        simp [withIndex]
      · simp [withIndex, index, hsame]
  | activeJobs other =>
      by_cases hsame : other = userId
      · subst hsame
        simp [withIndex]
      · simp [withIndex, index, hsame]
  | _ => simp [withIndex]

theorem live_activeJobs (hrep : layout.Represents now keyspace stores) (userId : ℕ) :
    live now (keyspace (userJobsKey userId)) =
      (live now (stores (.activeJobs userId))).map (mapCell .scored) :=
  hrep (.activeJobs userId)

/-- The set after a `ZADD` has not expired. -/
theorem live_zadd (now score : ℚ) (member : String)
    (key : Option (Cell (ScoredSet String ℚ) ℚ)) :
    (Jobs.zadd now member score key).Live now := by
  cases key with
  | none => exact fun _ hdeadline => by cases hdeadline
  | some cell =>
      rw [Jobs.zadd]
      split
      case isTrue hlive => exact hlive
      case isFalse => exact fun _ hdeadline => by cases hdeadline

theorem zadd_eq (hrep : layout.Represents now keyspace stores) (userId : ℕ) (member : String)
    (score : ℚ) : zadd now (userJobsKey userId) member score keyspace =
      (.ok (), Function.update keyspace (userJobsKey userId)
        (some (mapCell .scored
          (Jobs.zadd now member score (stores (.activeJobs userId)))))) := by
  have hkey := live_activeJobs hrep userId
  cases hcell : stores (.activeJobs userId) with
  | none =>
      rw [hcell] at hkey
      simp only [zadd, hkey, live_none, Option.map_none, Jobs.zadd, mapCell]
  | some cell =>
      rw [hcell] at hkey
      by_cases hlive : cell.Live now
      · rw [live_of_live hlive, Option.map_some, mapCell] at hkey
        simp only [zadd, hkey, Jobs.zadd, if_pos hlive, mapCell]
      · rw [live, if_neg hlive, Option.map_none] at hkey
        simp only [zadd, hkey, Jobs.zadd, if_neg hlive, mapCell]

/-- `ZADD` and `EXPIRE` on the set of a user. -/
theorem agrees_zadd (hrep : layout.Represents now keyspace stores) (userId : ℕ)
    (member : String) (score : ℚ) {ttlSeconds : ℤ} (hrange : InRange now ttlSeconds) :
    ∃ after, transaction [zadd now (userJobsKey userId) member score,
        expire now (userJobsKey userId) ttlSeconds] keyspace = (.ok (), after) ∧
      layout.Represents now after (Function.update stores (.activeJobs userId)
        (Jobs.expire now ttlSeconds
          (Jobs.zadd now member score (stores (.activeJobs userId))))) := by
  have hlive : live now (some (mapCell Value.scored
      (Jobs.zadd now member score (stores (.activeJobs userId))))) =
        some (mapCell .scored (Jobs.zadd now member score (stores (.activeJobs userId)))) :=
    live_of_live (live_zadd now score member _)
  refine ⟨Function.update keyspace (userJobsKey userId)
    ((Jobs.expire now ttlSeconds (Jobs.zadd now member score (stores (.activeJobs userId)))).map
      (mapCell .scored)), ?_, hrep.put (.activeJobs userId) (live_map now _ _)⟩
  rw [transaction, zadd_eq hrep]
  simp only [transaction, expire, if_pos hrange, Function.update_self, hlive,
    Function.update_idem, Jobs.expire]
  by_cases httl : 0 < ttlSeconds
  · simp [httl, mapCell, Except.bind]
  · simp [httl, Except.bind]

theorem agrees_recordJob (hrep : layout.Represents now keyspace stores) (taskId : String)
    (jobMeta : JobMeta) {ttlSeconds : ℤ} (stamp : ℚ) (hrange : InRange now ttlSeconds) :
    Agrees now (serve now keyspace (.recordJob taskId jobMeta ttlSeconds stamp))
      (serveTyped now stores (.recordJob taskId jobMeta ttlSeconds stamp)) := by
  obtain ⟨hset, hstored⟩ := agrees_putSlot hrep (.jobMeta taskId)
    (show encode (.jobMeta taskId) jobMeta = .text (dumpsMeta jobMeta) from rfl) hrange
  obtain ⟨after, hmore, hafter⟩ :=
    agrees_zadd hstored jobMeta.ownerUserId taskId stamp hrange
  have hflat : serve now keyspace (.recordJob taskId jobMeta ttlSeconds stamp) =
      ((reading some (setEx now (metaKey taskId) (dumpsMeta jobMeta) ttlSeconds keyspace)).1,
        after) := by
    exact congrArg (reading some) (transaction_cons hmore)
  have htyped : serveTyped now stores (.recordJob taskId jobMeta ttlSeconds stamp) =
      ((putSlot now stores (.jobMeta taskId) jobMeta ttlSeconds).1, Function.update
        (putSlot now stores (.jobMeta taskId) jobMeta ttlSeconds).2
          (.activeJobs jobMeta.ownerUserId) (Jobs.expire now ttlSeconds
            (Jobs.zadd now taskId stamp (stores (.activeJobs jobMeta.ownerUserId))))) := by
    simp only [serveTyped, Jobs.recordJob, withIndex_update]
    rfl
  rw [Agrees, hflat, htyped]
  exact ⟨hset, hafter⟩

/-- `ZREM` on the set of a user. -/
theorem agrees_zrem (hrep : layout.Represents now keyspace stores) (userId : ℕ)
    (member : String) :
    ∃ after, zrem now (userJobsKey userId) member keyspace = (.ok (), after) ∧
      layout.Represents now after (Function.update stores (.activeJobs userId)
        (Jobs.zrem now member (stores (.activeJobs userId)))) := by
  have hkey := live_activeJobs hrep userId
  by_cases hlive : live now (stores (.activeJobs userId)) = none
  · rw [hlive, Option.map_none] at hkey
    refine ⟨keyspace, by simp only [zrem, hkey], ?_⟩
    have hnone : Jobs.zrem now member (stores (.activeJobs userId)) = none := by
      cases hcell : stores (.activeJobs userId) with
      | none => rfl
      | some cell =>
          rw [hcell] at hlive
          have hexpired : ¬ cell.Live now := fun h => by rw [live_of_live h] at hlive; cases hlive
          exact if_neg hexpired
    rw [hnone]
    exact hrep.drop hlive
  · obtain ⟨cell, hcell, hcellLive⟩ := exists_of_live hlive
    have hmapped : live now (keyspace (userJobsKey userId)) =
        some ⟨.scored cell.value, cell.deadline⟩ := by
      rw [hkey, hcell, live_of_live hcellLive]
      rfl
    have hremoved : zrem now (userJobsKey userId) member keyspace =
        (.ok (), Function.update keyspace (userJobsKey userId)
          ((Jobs.zrem now member (stores (.activeJobs userId))).map (mapCell .scored))) := by
      simp only [zrem, hmapped, hcell, Jobs.zrem, if_pos hcellLive]
      split <;> rfl
    exact ⟨_, hremoved, hrep.put (.activeJobs userId) (live_map now _ _)⟩

theorem agrees_forgetJob (hrep : layout.Represents now keyspace stores) (taskId : String)
    (ownerUserId : ℕ) :
    Agrees now (serve now keyspace (.forgetJob taskId ownerUserId))
      (serveTyped now stores (.forgetJob taskId ownerUserId)) := by
  have hdeleted : layout.Represents now (Function.update keyspace (metaKey taskId) none)
      (Function.update stores (.jobMeta taskId) none) := hrep.put (.jobMeta taskId) rfl
  obtain ⟨after, hremoved, hafter⟩ := agrees_zrem hdeleted ownerUserId taskId
  have hmore : transaction [zrem now (userJobsKey ownerUserId) taskId]
      (del (metaKey taskId) keyspace).2 = (.ok (), after) := by
    rw [transaction_cons rfl, del, hremoved]
  have hflat : serve now keyspace (.forgetJob taskId ownerUserId) = (.ok (), after) :=
    congrArg (reading some) (transaction_cons hmore)
  have htyped : (serveTyped now stores (.forgetJob taskId ownerUserId)).2 =
      Function.update (Function.update stores (.jobMeta taskId) none) (.activeJobs ownerUserId)
        (Jobs.zrem now taskId (stores (.activeJobs ownerUserId))) :=
    withIndex_update stores taskId ownerUserId none _
  rw [Agrees, hflat, htyped]
  exact ⟨rfl, hafter⟩

theorem live_bucket (hrep : layout.Represents now keyspace stores) (guildId : ℕ) :
    live now (keyspace (bucketKey guildId)) =
      (live now (stores (.bucket guildId))).map
        (mapCell fun bucket => .hash (bucketHash bucket)) :=
  hrep (.bucket guildId)

theorem agrees_readBucket (hrep : layout.Represents now keyspace stores) (guildId : ℕ) :
    Agrees now (serve now keyspace (.readBucket guildId))
      (serveTyped now stores (.readBucket guildId)) := by
  have hkey := live_bucket hrep guildId
  cases hlive : live now (stores (.bucket guildId)) with
  | none =>
      rw [hlive, Option.map_none] at hkey
      simp only [serve, serveTyped, hmget, hkey, fetch_eq_live, hlive]
      exact ⟨rfl, hrep⟩
  | some cell =>
      rw [hlive, Option.map_some, mapCell] at hkey
      simp only [serve, serveTyped, hmget, hkey, fetch_eq_live, hlive]
      exact ⟨rfl, hrep⟩

/-- `HSET` and `EXPIRE` on a bucket. -/
theorem agrees_writeBucket (hrep : layout.Represents now keyspace stores) (guildId : ℕ)
    (bucket : Bucket) {ttlSeconds : ℤ} (hrange : InRange now ttlSeconds) :
    Agrees now (serve now keyspace (.writeBucket guildId bucket ttlSeconds))
      (serveTyped now stores (.writeBucket guildId bucket ttlSeconds)) := by
  have hwritten : ∃ deadline, (⟨.hash (bucketHash bucket), deadline⟩ : Cell Value ℚ).Live now ∧
      hset now (bucketKey guildId)
          [("tokens", bucket.tokens), ("last_refill", bucket.lastRefill)] keyspace =
        (.ok (), Function.update keyspace (bucketKey guildId)
          (some ⟨.hash (bucketHash bucket), deadline⟩)) := by
    have hkey := live_bucket hrep guildId
    by_cases hlive : live now (stores (.bucket guildId)) = none
    · rw [hlive, Option.map_none] at hkey
      have hnever : (⟨.hash (bucketHash bucket), none⟩ : Cell Value ℚ).Live now :=
        fun _ hdeadline => by cases hdeadline
      exact ⟨none, hnever, by simp only [hset, hkey]; rfl⟩
    · obtain ⟨cell, hcell, hcellLive⟩ := exists_of_live hlive
      rw [hcell, live_of_live hcellLive, Option.map_some, mapCell] at hkey
      refine ⟨cell.deadline, hcellLive, ?_⟩
      simp only [hset, hkey]
      rfl
  obtain ⟨deadline, hlive, hwritten⟩ := hwritten
  have hexpired : expire now (bucketKey guildId) ttlSeconds
      (Function.update keyspace (bucketKey guildId) (some ⟨.hash (bucketHash bucket), deadline⟩)) =
      (.ok (), Function.update keyspace (bucketKey guildId)
        (if 0 < ttlSeconds then some ⟨.hash (bucketHash bucket), some (now + ttlSeconds)⟩
          else none)) := by
    simp only [expire, if_pos hrange, Function.update_self, live_of_live hlive,
      Function.update_idem]
  have hflat : serve now keyspace (.writeBucket guildId bucket ttlSeconds) =
      (.ok (), Function.update keyspace (bucketKey guildId)
        (if 0 < ttlSeconds then some ⟨.hash (bucketHash bucket), some (now + ttlSeconds)⟩
          else none)) := by
    have hmore : transaction [expire now (bucketKey guildId) ttlSeconds]
        (hset now (bucketKey guildId)
          [("tokens", bucket.tokens), ("last_refill", bucket.lastRefill)] keyspace).2 =
        (.ok (), Function.update keyspace (bucketKey guildId)
          (if 0 < ttlSeconds then some ⟨.hash (bucketHash bucket), some (now + ttlSeconds)⟩
            else none)) := by
      rw [transaction_cons rfl, hwritten, hexpired]
    rw [serve, transaction_cons hmore, hwritten]
    rfl
  rw [hflat]
  refine ⟨rfl, hrep.put (.bucket guildId) ?_⟩
  split
  case isTrue httl => rw [live_setEx httl, live_setEx httl]; rfl
  case isFalse => rfl

theorem agrees_latestJobForUser (hrep : layout.Represents now keyspace stores) (userId : ℕ) :
    Agrees now (serve now keyspace (.latestJobForUser userId))
      (serveTyped now stores (.latestJobForUser userId)) := by
  have hkey := live_activeJobs hrep userId
  have hlatest : Jobs.latestJobForUser (index stores) now userId =
      ((live now (stores (.activeJobs userId))).map Cell.value).bind highest := by
    rw [← fetch_eq_live]
    rfl
  cases hlive : live now (stores (.activeJobs userId)) with
  | none =>
      rw [hlive, Option.map_none] at hkey
      simp only [serve, serveTyped, zrevrangeFirst, hkey, hlatest, hlive]
      exact ⟨rfl, hrep⟩
  | some cell =>
      rw [hlive, Option.map_some, mapCell] at hkey
      simp only [serve, serveTyped, zrevrangeFirst, hkey, hlatest, hlive]
      exact ⟨rfl, hrep⟩

/-- Every request. -/
theorem agrees_serve (hrep : layout.Represents now keyspace stores) (request : Request)
    (hrange : InRange now request.lifetime) :
    Agrees now (serve now keyspace request) (serveTyped now stores request) := by
  cases request with
  | recordJob taskId jobMeta ttlSeconds stamp =>
      exact agrees_recordJob hrep taskId jobMeta stamp hrange
  | forgetJob taskId ownerUserId => exact agrees_forgetJob hrep taskId ownerUserId
  | readBucket guildId => exact agrees_readBucket hrep guildId
  | writeBucket guildId bucket ttlSeconds =>
      exact agrees_writeBucket hrep guildId bucket hrange
  | cacheArchiveUrl taskId url ttlSeconds =>
      exact agrees_putSlot hrep (.archiveUrl taskId) rfl hrange
  | markDelivered taskId ttlSeconds =>
      exact agrees_putSlot hrep (.delivered taskId) rfl hrange
  | refreshSentinel role pid => exact agrees_putSlot hrep (.sentinel role pid) rfl hrange
  | deleteSentinel role pid => exact ⟨rfl, hrep.put (.sentinel role pid) rfl⟩
  | isDelivered taskId =>
      exact agrees_read hrep (reading_ok (hrep.keyExists (.delivered taskId)) rfl) rfl
  | getCachedArchiveUrl taskId =>
      have hget := hrep.get (show ∀ url, layout.encode (.archiveUrl taskId) url = .text (id url)
        from fun _ => rfl)
      rw [Option.map_id] at hget
      exact agrees_read hrep (reading_ok hget rfl) rfl
  | getJobMeta taskId =>
      have hget := hrep.get (show ∀ jobMeta, layout.encode (.jobMeta taskId) jobMeta =
        .text (dumpsMeta jobMeta) from fun _ => rfl)
      exact agrees_read hrep (reading_ok hget (readMeta_map_dumpsMeta _)) rfl
  | latestJobForUser userId => exact agrees_latestJobForUser hrep userId

end Refinement

/-! ## Runs -/

/-- `evict`: Redis drops a key if it has expired.  `foreign`: another program, such as
Taskiq, writes or deletes a key. -/
inductive Label
  | request (request : Request)
  | elapse (seconds : ℚ)
  | evict (key : String)
  | foreign (key : String) (cell : Option (Cell Value ℚ))

/-- Time does not run backwards, and other programs leave the keys of this one alone. -/
def Label.Proper : Label → Prop
  | .elapse seconds => 0 ≤ seconds
  | .foreign key _ => ∀ slot : Slot, slot.key ≠ key
  | _ => True

/-- Every time to live is in range when it is asked for. -/
def Timely (now : ℚ) : List Label → Prop
  | [] => True
  | .request request :: labels => InRange now request.lifetime ∧ Timely now labels
  | .elapse seconds :: labels => Timely (now + seconds) labels
  | .evict _ :: labels | .foreign _ _ :: labels => Timely now labels

/-- A request and what became of it. -/
abbrev Outcome := (request : Request) × Except ClientError (Reply request)

/-- The outcomes of the requests of a run, in order. -/
def outcomes (now : ℚ) (keyspace : Keyspace) : List Label → List Outcome
  | [] => []
  | .request request :: labels =>
      ⟨request, (serve now keyspace request).1⟩ ::
        outcomes now (serve now keyspace request).2 labels
  | .elapse seconds :: labels => outcomes (now + seconds) keyspace labels
  | .evict key :: labels => outcomes now (evict now key keyspace) labels
  | .foreign key cell :: labels => outcomes now (Function.update keyspace key cell) labels

/-- The outcomes of the same requests on the typed stores, which know no other programs. -/
def typedOutcomes (now : ℚ) (stores : TypedStores) : List Label → List Outcome
  | [] => []
  | .request request :: labels =>
      ⟨request, (serveTyped now stores request).1.mapError refusal⟩ ::
        typedOutcomes now (serveTyped now stores request).2 labels
  | .elapse seconds :: labels => typedOutcomes (now + seconds) stores labels
  | _ :: labels => typedOutcomes now stores labels

theorem outcomes_eq {now : ℚ} {keyspace : Keyspace} {stores : TypedStores} {labels : List Label}
    (hrep : layout.Represents now keyspace stores) (hproper : ∀ label ∈ labels, label.Proper)
    (htimely : Timely now labels) :
    outcomes now keyspace labels = typedOutcomes now stores labels := by
  induction labels generalizing now keyspace stores with
  | nil => rfl
  | cons label labels ih =>
      have hrest : ∀ label ∈ labels, label.Proper :=
        fun other hother => hproper other (.tail _ hother)
      have hlabel := hproper label List.mem_cons_self
      cases label with
      | request request =>
          obtain ⟨houtcome, hafter⟩ := agrees_serve hrep request htimely.1
          rw [outcomes, typedOutcomes, houtcome, ih hafter hrest htimely.2]
      | elapse seconds =>
          exact ih (hrep.elapse (le_add_of_nonneg_right hlabel)) hrest htimely
      | evict key => exact ih (hrep.evict key) hrest htimely
      | foreign key cell => exact ih (hrep.foreign hlabel cell) hrest htimely

/-- The typed stores refuse nothing but a time to live that is not positive. -/
theorem error_of_mem_typedOutcomes {now : ℚ} {stores : TypedStores} {labels : List Label}
    {outcome : Outcome} {error : ClientError}
    (hmem : outcome ∈ typedOutcomes now stores labels) (herror : outcome.2 = .error error) :
    error = .response .invalidExpireTime := by
  induction labels generalizing now stores with
  | nil => cases hmem
  | cons label labels ih =>
      cases label with
      | request request =>
          rcases List.mem_cons.mp hmem with rfl | hrest
          · cases hrefused : (serveTyped now stores request).1 with
            | ok reply =>
                rw [hrefused] at herror
                cases herror
            | error refused =>
                rw [hrefused] at herror
                cases refused
                cases herror
                rfl
          · exact ih hrest
      | elapse seconds => exact ih hmem
      | evict key => exact ih hmem
      | foreign key cell => exact ih hmem

/-- In every run with times to live that Redis can count, whoever sends the requests,
whenever Redis drops what has expired and whatever other programs do under keys of their
own: every request is answered as by the typed stores, so no client is told that a key
holds another kind of value, and none reads anything malformed. -/
theorem outcomes_typed (now : ℚ) (labels : List Label)
    (hproper : ∀ label ∈ labels, label.Proper) (htimely : Timely now labels) :
    outcomes now (fun _ => none) labels = typedOutcomes now (fun _ => none) labels ∧
      ∀ outcome ∈ outcomes now (fun _ => none) labels, ∀ error, outcome.2 = .error error →
        error = .response .invalidExpireTime := by
  have heq := outcomes_eq (layout.represents_empty now) hproper htimely
  refine ⟨heq, fun outcome hmem error herror => ?_⟩
  rw [heq] at hmem
  exact error_of_mem_typedOutcomes hmem herror

def aMeta : JobMeta := ⟨7, none, 3, "2026-05-09T12:00:00+00:00", false⟩

/-- A job is recorded and its URL cached, Taskiq stores the result under the bare task id,
and `/status` looks the job up. -/
def recordedJob : List Label :=
  [.request (.recordJob "5a" aMeta 3600 100),
    .request (.cacheArchiveUrl "5a" "https://host/a.zip" 3600), .elapse 60,
    .foreign "5a" (some ⟨.text "result", none⟩), .evict (metaKey "5a"),
    .request (.latestJobForUser 7), .request (.getJobMeta "5a")]

theorem proper_recordedJob : ∀ label ∈ recordedJob, label.Proper := by
  simp only [recordedJob, List.forall_mem_cons, Label.Proper]
  exact ⟨trivial, trivial, by norm_num, key_ne (by decide), trivial, trivial, trivial,
    List.forall_mem_nil _⟩

theorem timely_recordedJob : Timely 100 recordedJob :=
  ⟨by decide +kernel, by decide +kernel, by decide +kernel, by decide +kernel, trivial⟩

/-- The outcome of a lookup that found this meta. -/
def foundMeta (jobMeta : JobMeta) : Outcome → Bool
  | ⟨.getJobMeta _, .ok (some found)⟩ => found = jobMeta
  | _ => false

theorem outcomes_typed_recordedJob :
    (outcomes 100 (fun _ => none) recordedJob).getLast?.any (foundMeta aMeta) = true := by
  rw [(outcomes_typed 100 recordedJob proper_recordedJob timely_recordedJob).1]
  decide +kernel

end DownloaderBot.RedisStore
