import DownloaderBot.Download.RedisStore

/-!
# Nothing stays in Redis

Every key that the program writes is given a deadline in the same transaction, also the
hash of a bucket and the set of a user, which `HSET` and `ZADD` create without one; only
an `EXPIRE` that is refused, for a time to live out of range, would leave them so.  When the
program falls silent, its keys are gone once the longest time to live is over.
-/

namespace DownloaderBot.RedisStore

open DownloaderBot.KeyValue
open DownloaderBot.Keys

/-- The moment and the keyspace after these steps. -/
def final (now : ℚ) (keyspace : Keyspace) : List Label → ℚ × Keyspace
  | [] => (now, keyspace)
  | .request request :: labels => final now (serve now keyspace request).2 labels
  | .elapse seconds :: labels => final (now + seconds) keyspace labels
  | .evict key :: labels => final now (evict now key keyspace) labels
  | .foreign key cell :: labels => final now (Function.update keyspace key cell) labels

/-- No request asks for a longer time to live. -/
def Label.Within (bound : ℤ) : Label → Prop
  | .request sent => sent.lifetime ≤ bound
  | .elapse _ | .evict _ | .foreign _ _ => True

/-- The program sends nothing. -/
def Label.Silent : Label → Prop
  | .request _ => False
  | .elapse _ | .evict _ | .foreign _ _ => True

/-- The time that passes in these steps. -/
def elapsed : List Label → ℚ
  | [] => 0
  | .elapse seconds :: labels => seconds + elapsed labels
  | .request _ :: labels | .evict _ :: labels | .foreign _ _ :: labels => elapsed labels

/-- The keys of the program. -/
def ownKeys : Set String := Set.range Slot.key

section Expiry

variable {now latest : ℚ} {keyspace : Keyspace}

theorem foreign_notMem {key : String} {cell : Option (ExpiringStore.Cell Value ℚ)}
    (hproper : (Label.foreign key cell).Proper) : key ∉ ownKeys := by
  rintro ⟨slot, hslot⟩
  exact hproper slot hslot

/-- A request leaves no key that stays. -/
theorem mortal_serve (hmortal : Mortal ownKeys latest keyspace) {request : Request}
    (hrange : InRange now request.lifetime) (hnow : now ≤ latest)
    (hlate : now + request.lifetime ≤ latest) :
    Mortal ownKeys latest (serve now keyspace request).2 := by
  cases request with
  | recordJob taskId jobMeta ttlSeconds stamp =>
      have hstored : Mortal ownKeys latest
          (setEx now (metaKey taskId) (dumpsMeta jobMeta) ttlSeconds keyspace).2 :=
        hmortal.setEx _ hlate
      exact (hstored.zadd taskId stamp).expire hrange hnow hlate
  | forgetJob taskId ownerUserId =>
      have hdeleted : Mortal ownKeys latest (del (metaKey taskId) keyspace).2 := hmortal.del
      have hremoved : Mortal ownKeys latest
          (zrem now (userJobsKey ownerUserId) taskId (del (metaKey taskId) keyspace).2).2 :=
        hdeleted.zrem ⟨.activeJobs ownerUserId, rfl⟩ taskId
      exact hremoved
  | writeBucket guildId bucket ttlSeconds => exact (hmortal.hset _).expire hrange hnow hlate
  | cacheArchiveUrl taskId url ttlSeconds => exact hmortal.setEx url hlate
  | markDelivered taskId ttlSeconds => exact hmortal.setEx "1" hlate
  | refreshSentinel role pid => exact hmortal.setEx "1" hlate
  | deleteSentinel role pid => exact hmortal.del
  | getJobMeta taskId => exact (snd_get now _ keyspace).symm ▸ hmortal
  | getCachedArchiveUrl taskId => exact (snd_get now _ keyspace).symm ▸ hmortal
  | isDelivered taskId => exact hmortal
  | readBucket guildId => exact (snd_hmget now _ keyspace _).symm ▸ hmortal
  | latestJobForUser userId => exact (snd_zrevrangeFirst now _ keyspace).symm ▸ hmortal

/-- Along a run every key is given up within the bound. -/
theorem mortal_final {bound : ℕ} (hmortal : Mortal ownKeys (now + bound) keyspace)
    {labels : List Label} (hproper : ∀ label ∈ labels, label.Proper)
    (htimely : Timely now labels) (hwithin : ∀ label ∈ labels, label.Within bound) :
    Mortal ownKeys ((final now keyspace labels).1 + bound) (final now keyspace labels).2 := by
  induction labels generalizing now keyspace with
  | nil => exact hmortal
  | cons label labels ih =>
      have hlabel := hproper label List.mem_cons_self
      have hbound := hwithin label List.mem_cons_self
      have hmore : ∀ {moment : ℚ} {after : Keyspace}, Timely moment labels →
          Mortal ownKeys (moment + bound) after →
          Mortal ownKeys ((final moment after labels).1 + bound) (final moment after labels).2 :=
        fun hrest hafter => ih hafter (fun other hother => hproper other (.tail _ hother)) hrest
          fun other hother => hwithin other (.tail _ hother)
      cases label with
      | request request =>
          have hlifetime : (request.lifetime : ℚ) ≤ bound := by exact_mod_cast hbound
          have hnow : now ≤ now + bound := le_add_of_nonneg_right (Nat.cast_nonneg bound)
          exact hmore htimely.2
            (mortal_serve hmortal htimely.1 hnow (add_le_add_right hlifetime now))
      | elapse seconds =>
          exact hmore htimely
            (hmortal.mono (add_le_add_left (le_add_of_nonneg_right hlabel) _))
      | evict key => exact hmore htimely (hmortal.evict now key)
      | foreign key cell => exact hmore htimely (hmortal.foreign (foreign_notMem hlabel) cell)

/-- Without requests, no key is given longer. -/
theorem mortal_final_silent (hmortal : Mortal ownKeys latest keyspace) {labels : List Label}
    (hproper : ∀ label ∈ labels, label.Proper) (hsilent : ∀ label ∈ labels, label.Silent) :
    (final now keyspace labels).1 = now + elapsed labels ∧
      Mortal ownKeys latest (final now keyspace labels).2 := by
  induction labels generalizing now keyspace with
  | nil => exact ⟨(add_zero now).symm, hmortal⟩
  | cons label labels ih =>
      have hlabel := hproper label List.mem_cons_self
      have hquiet := hsilent label List.mem_cons_self
      have hrest := fun other hother => hproper other (List.mem_cons_of_mem label hother)
      have hless := fun other hother => hsilent other (List.mem_cons_of_mem label hother)
      cases label with
      | request request => cases hquiet
      | elapse seconds =>
          obtain ⟨htime, hlast⟩ := ih hmortal hrest hless
          exact ⟨htime.trans (add_assoc now seconds _), hlast⟩
      | evict key => exact ih (hmortal.evict now key) hrest hless
      | foreign key cell => exact ih (hmortal.foreign (foreign_notMem hlabel) cell) hrest hless

end Expiry

/-- In every run with times to live that Redis can count: whatever is there of the program
has a deadline, at most the longest time to live ahead; and once the program has sent
nothing for that long, nothing is there. -/
theorem nothing_stays (now : ℚ) {bound : ℕ} {labels silent : List Label}
    (hproper : ∀ label ∈ labels ++ silent, label.Proper) (htimely : Timely now labels)
    (hwithin : ∀ label ∈ labels, label.Within bound)
    (hsilent : ∀ label ∈ silent, label.Silent) (hlong : bound ≤ elapsed silent) :
    let middle := final now (fun _ => none) labels
    let last := final middle.1 middle.2 silent
    Mortal ownKeys (middle.1 + bound) middle.2 ∧
      ∀ slot : Slot, live last.1 (last.2 slot.key) = none := by
  have hempty : Mortal ownKeys (now + bound) fun _ => none := fun _ _ => expiresBy_none
  have hmiddle := mortal_final hempty
    (fun label hlabel => hproper label (List.mem_append_left silent hlabel)) htimely hwithin
  obtain ⟨htime, hlast⟩ := mortal_final_silent hmiddle
    (fun label hlabel => hproper label (List.mem_append_right labels hlabel)) hsilent
  refine ⟨hmiddle, fun slot => ?_⟩
  apply (hlast slot.key ⟨slot, rfl⟩).live_eq_none
  rw [htime]
  exact add_le_add_right hlong _

/-- The program falls silent for an hour. -/
def anHour : List Label := [.elapse 1800, .evict (metaKey "5a"), .elapse 1800]

theorem proper_anHour : ∀ label ∈ anHour, label.Proper := by
  simp only [anHour, List.forall_mem_cons, Label.Proper]
  norm_num

theorem nothing_stays_recordedJob :
    let middle := final 100 (fun _ => none) recordedJob
    let last := final middle.1 middle.2 anHour
    Mortal ownKeys (middle.1 + (3600 : ℕ)) middle.2 ∧
      ∀ slot : Slot, live last.1 (last.2 slot.key) = none := by
  apply nothing_stays 100
  · intro label hlabel
    rcases List.mem_append.mp hlabel with hbefore | hafter
    · exact proper_recordedJob label hbefore
    · exact proper_anHour label hafter
  · exact timely_recordedJob
  · simp only [recordedJob, List.forall_mem_cons, Label.Within, Request.lifetime]
    norm_num
  · simp [anHour, Label.Silent]
  · norm_num [anHour, elapsed]

end DownloaderBot.RedisStore
