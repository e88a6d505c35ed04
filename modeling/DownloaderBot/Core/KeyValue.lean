import DownloaderBot.Core.ExpiringStore
import Mathlib.Algebra.Order.Field.Rat
import Mathlib.Data.Rat.Floor
import Mathlib.Data.String.Basic
import Mathlib.Logic.Function.Basic

/-!
# A keyspace, and typed stores laid out in it

One flat space of named keys, each of which holds a text, a hash or a scored set and may
expire.  A command on a key of another kind is refused.  A layout gives every slot of a
family of typed stores a key of its own; the keyspace represents the stores when every
key that has not expired holds what is in its slot.
-/

namespace DownloaderBot.KeyValue

open DownloaderBot.ExpiringStore (Cell ScoredSet fetch highest)

/-! ## Cells that have not expired -/

section Live

variable {Value Other : Type*}

/-- The cell, unless it has expired. -/
def live (now : ℚ) (key : Option (Cell Value ℚ)) : Option (Cell Value ℚ) :=
  match key with
  | none => none
  | some cell => if cell.Live now then some cell else none

/-- A cell with another value and the same deadline. -/
def mapCell (f : Value → Other) (cell : Cell Value ℚ) : Cell Other ℚ :=
  ⟨f cell.value, cell.deadline⟩

@[simp]
theorem live_none (now : ℚ) : live now (none : Option (Cell Value ℚ)) = none := rfl

theorem live_of_live {now : ℚ} {cell : Cell Value ℚ} (hlive : cell.Live now) :
    live now (some cell) = some cell :=
  if_pos hlive

theorem exists_of_live {now : ℚ} {key : Option (Cell Value ℚ)} (hlive : live now key ≠ none) :
    ∃ cell, key = some cell ∧ cell.Live now := by
  cases key with
  | none => exact absurd rfl hlive
  | some cell => exact ⟨cell, rfl, by_contra fun hnot => hlive (if_neg hnot)⟩

/-- A read sees what has not expired. -/
theorem fetch_eq_live (now : ℚ) (key : Option (Cell Value ℚ)) :
    fetch now key = (live now key).map Cell.value := by
  cases key with
  | none => rfl
  | some cell => by_cases hlive : cell.Live now <;> simp [fetch, live, hlive]

theorem live_map (now : ℚ) (f : Value → Other) (key : Option (Cell Value ℚ)) :
    live now (key.map (mapCell f)) = (live now key).map (mapCell f) := by
  cases key with
  | none => rfl
  | some cell =>
      by_cases hlive : cell.Live now
      · have hmapped : (mapCell f cell).Live now := hlive
        rw [live_of_live hlive, Option.map_some, live_of_live hmapped]
      · have hmapped : ¬ (mapCell f cell).Live now := hlive
        simp [live, hlive, hmapped]

/-- What is left later is left of what is left now. -/
theorem live_live {now later : ℚ} (htime : now ≤ later) (key : Option (Cell Value ℚ)) :
    live later (live now key) = live later key := by
  cases key with
  | none => rfl
  | some cell =>
      by_cases hlive : cell.Live now
      · rw [live_of_live hlive]
      · have hlater : ¬ cell.Live later := fun h => hlive (h.of_le htime)
        simp [live, hlive, hlater]

/-- Time to live from now on. -/
theorem live_setEx {now : ℚ} {ttlSeconds : ℤ} (httl : 0 < ttlSeconds) (value : Value) :
    live now (some ⟨value, some (now + ttlSeconds)⟩) =
      some ⟨value, some (now + ttlSeconds)⟩ := by
  apply live_of_live
  rintro deadline ⟨rfl⟩
  have hpos : (0 : ℚ) < ttlSeconds := by exact_mod_cast httl
  exact lt_add_of_pos_right now hpos

end Live

/-! ## Commands -/

inductive Value
  | text (text : String)
  | hash (fields : AList fun _ : String => ℚ)
  | scored (set : ScoredSet String ℚ)

/-- The error replies. -/
inductive Error
  | wrongType
  | invalidExpireTime
  deriving DecidableEq, Repr

/-- Times are counted in milliseconds, in 64 bits: a time to live must fit them, and so
must the deadline that it makes. -/
def InRange (now : ℚ) (ttlSeconds : ℤ) : Prop :=
  |1000 * ttlSeconds| < 2 ^ 63 ∧ ⌊1000 * now⌋ + 1000 * ttlSeconds < 2 ^ 63

instance (now : ℚ) (ttlSeconds : ℤ) : Decidable (InRange now ttlSeconds) :=
  inferInstanceAs (Decidable (_ ∧ _))

abbrev Keyspace := String → Option (Cell Value ℚ)

/-- What a command replies, and the keyspace that it leaves. -/
abbrev Command (α : Type) := Keyspace → Except Error α × Keyspace

section Commands

variable (now : ℚ) (key : String)

/-- `GET`. -/
def get : Command (Option String) := fun keyspace =>
  match live now (keyspace key) with
  | none => (.ok none, keyspace)
  | some ⟨.text text, _⟩ => (.ok (some text), keyspace)
  | some _ => (.error .wrongType, keyspace)

/-- `SET` with `EX`, over a value of any kind. -/
def setEx (text : String) (ttlSeconds : ℤ) : Command Unit := fun keyspace =>
  if 0 < ttlSeconds ∧ InRange now ttlSeconds then
    (.ok (), Function.update keyspace key (some ⟨.text text, some (now + ttlSeconds)⟩))
  else (.error .invalidExpireTime, keyspace)

/-- `EXISTS`. -/
def keyExists : Command Bool := fun keyspace =>
  (.ok (live now (keyspace key)).isSome, keyspace)

/-- `DEL`. -/
def del : Command Unit := fun keyspace => (.ok (), Function.update keyspace key none)

/-- `EXPIRE`: a time to live that is not positive deletes the key, and one that is out of
range is refused. -/
def expire (ttlSeconds : ℤ) : Command Unit := fun keyspace =>
  if InRange now ttlSeconds then
    match live now (keyspace key) with
    | none => (.ok (), keyspace)
    | some cell =>
        (.ok (), Function.update keyspace key
          (if 0 < ttlSeconds then some { cell with deadline := some (now + ttlSeconds) }
            else none))
  else (.error .invalidExpireTime, keyspace)

/-- `HMGET`. -/
def hmget (fields : List String) : Command (List (Option ℚ)) := fun keyspace =>
  match live now (keyspace key) with
  | none => (.ok (fields.map fun _ => none), keyspace)
  | some ⟨.hash hash, _⟩ => (.ok (fields.map fun field => hash.lookup field), keyspace)
  | some _ => (.error .wrongType, keyspace)

/-- `HSET`; the deadline of the key stays. -/
def hset (mapping : List (String × ℚ)) : Command Unit := fun keyspace =>
  let write (hash : AList fun _ : String => ℚ) : AList fun _ : String => ℚ :=
    mapping.foldl (fun hash entry => hash.insert entry.1 entry.2) hash
  match live now (keyspace key) with
  | none => (.ok (), Function.update keyspace key (some ⟨.hash (write ∅), none⟩))
  | some ⟨.hash hash, deadline⟩ =>
      (.ok (), Function.update keyspace key (some ⟨.hash (write hash), deadline⟩))
  | some _ => (.error .wrongType, keyspace)

/-- `ZADD` of one member; the deadline of the key stays. -/
def zadd (member : String) (score : ℚ) : Command Unit := fun keyspace =>
  match live now (keyspace key) with
  | none =>
      (.ok (), Function.update keyspace key (some ⟨.scored (AList.insert member score ∅), none⟩))
  | some ⟨.scored set, deadline⟩ =>
      (.ok (), Function.update keyspace key (some ⟨.scored (set.insert member score), deadline⟩))
  | some _ => (.error .wrongType, keyspace)

/-- `ZREM` of one member.  A set that becomes empty is deleted. -/
def zrem (member : String) : Command Unit := fun keyspace =>
  match live now (keyspace key) with
  | none => (.ok (), keyspace)
  | some ⟨.scored set, deadline⟩ =>
      (.ok (), Function.update keyspace key
        (if (set.erase member).entries = [] then none
          else some ⟨.scored (set.erase member), deadline⟩))
  | some _ => (.error .wrongType, keyspace)

/-- `ZREVRANGE 0 0`. -/
def zrevrangeFirst : Command (Option String) := fun keyspace =>
  match live now (keyspace key) with
  | none => (.ok none, keyspace)
  | some ⟨.scored set, _⟩ => (.ok (highest set), keyspace)
  | some _ => (.error .wrongType, keyspace)

end Commands

/-- `MULTI`/`EXEC`: every command runs; the client raises the first error among the replies. -/
def transaction : List (Command Unit) → Command Unit
  | [], keyspace => (.ok (), keyspace)
  | command :: commands, keyspace =>
      let (outcome, between) := command keyspace
      let (rest, after) := transaction commands between
      (outcome.bind fun _ => rest, after)

/-! Reads leave the keyspace. -/

section Reads

variable (now : ℚ) (key : String) (keyspace : Keyspace)

theorem snd_get : (get now key keyspace).2 = keyspace := by
  rw [get]
  split <;> rfl

theorem snd_hmget (fields : List String) : (hmget now key fields keyspace).2 = keyspace := by
  rw [hmget]
  split <;> rfl

theorem snd_zrevrangeFirst : (zrevrangeFirst now key keyspace).2 = keyspace := by
  rw [zrevrangeFirst]
  split <;> rfl

end Reads

/-- Where the later commands succeed, the reply to the first one counts. -/
theorem transaction_cons {command : Command Unit} {commands : List (Command Unit)}
    {keyspace after : Keyspace}
    (hmore : transaction commands (command keyspace).2 = (.ok (), after)) :
    transaction (command :: commands) keyspace = ((command keyspace).1, after) := by
  simp only [transaction, hmore]
  cases (command keyspace).1 <;> rfl

/-- An expired key is dropped, at any time. -/
def evict (now : ℚ) (key : String) (keyspace : Keyspace) : Keyspace :=
  Function.update keyspace key (live now (keyspace key))

/-! ## Keys that expire

`HSET` and `ZADD` may leave a key without a deadline; an `EXPIRE` after them gives it one. -/

section Expiry

/-- What is there will have expired by then. -/
def ExpiresBy {Value : Type*} (latest : ℚ) (key : Option (Cell Value ℚ)) : Prop :=
  ∀ cell ∈ key, ∃ deadline ∈ cell.deadline, deadline ≤ latest

/-- Every one of these keys will have expired by then. -/
def Mortal (names : Set String) (latest : ℚ) (keyspace : Keyspace) : Prop :=
  ∀ name ∈ names, ExpiresBy latest (keyspace name)

/-- All but one of them. -/
def MortalBut (key : String) (names : Set String) (latest : ℚ) (keyspace : Keyspace) : Prop :=
  ∀ name ∈ names, name ≠ key → ExpiresBy latest (keyspace name)

variable {names : Set String} {now latest : ℚ} {keyspace : Keyspace} {key : String}

theorem expiresBy_none {Value : Type*} :
    ExpiresBy latest (none : Option (Cell Value ℚ)) := nofun

theorem expiresBy_some {cell : Cell Value ℚ} {deadline : ℚ}
    (hdeadline : cell.deadline = some deadline) (hle : deadline ≤ latest) :
    ExpiresBy latest (some cell) := by
  rintro found ⟨rfl⟩
  exact ⟨deadline, hdeadline, hle⟩

theorem ExpiresBy.live_eq_none {cell : Option (Cell Value ℚ)} (hby : ExpiresBy latest cell)
    (hlate : latest ≤ now) : live now cell = none := by
  by_contra hlive
  obtain ⟨found, rfl, hfound⟩ := exists_of_live hlive
  obtain ⟨deadline, hdeadline, hle⟩ := hby found rfl
  exact absurd (hfound deadline hdeadline) (not_lt.mpr (hle.trans hlate))

theorem ExpiresBy.live {cell : Option (Cell Value ℚ)} (hby : ExpiresBy latest cell) (now : ℚ) :
    ExpiresBy latest (live now cell) := by
  intro found hfound
  have hlive : KeyValue.live now cell ≠ none := by
    rw [Option.mem_def.mp hfound]
    exact Option.some_ne_none found
  obtain ⟨other, rfl, hother⟩ := exists_of_live hlive
  rw [live_of_live hother] at hfound
  exact hby found hfound

/-- What has expired has a deadline that is over. -/
theorem expiresBy_of_live_eq_none {cell : Option (Cell Value ℚ)}
    (hexpired : live now cell = none) (hlate : now ≤ latest) : ExpiresBy latest cell := by
  rintro found ⟨rfl⟩
  have hnot : ¬ found.Live now := fun h => by
    rw [live_of_live h] at hexpired
    cases hexpired
  obtain ⟨deadline, hnot⟩ := not_forall.mp hnot
  obtain ⟨hdeadline, hle⟩ := Classical.not_imp.mp hnot
  exact ⟨deadline, hdeadline, (not_lt.mp hle).trans hlate⟩

theorem Mortal.mono (hmortal : Mortal names latest keyspace) {later : ℚ} (hle : latest ≤ later) :
    Mortal names later keyspace := by
  intro name hname cell hcell
  obtain ⟨deadline, hdeadline, hby⟩ := hmortal name hname cell hcell
  exact ⟨deadline, hdeadline, hby.trans hle⟩

theorem Mortal.but (hmortal : Mortal names latest keyspace) (key : String) :
    MortalBut key names latest keyspace :=
  fun name hname _ => hmortal name hname

theorem MortalBut.update (hmortal : MortalBut key names latest keyspace)
    (cell : Option (Cell Value ℚ)) :
    MortalBut key names latest (Function.update keyspace key cell) := by
  intro name hname hne
  rw [Function.update_of_ne hne]
  exact hmortal name hname hne

theorem MortalBut.put (hmortal : MortalBut key names latest keyspace)
    {cell : Option (Cell Value ℚ)} (hcell : ExpiresBy latest cell) :
    Mortal names latest (Function.update keyspace key cell) := by
  intro name hname
  rcases eq_or_ne name key with rfl | hne
  · rw [Function.update_self]
    exact hcell
  · exact hmortal.update cell name hname hne

theorem Mortal.evict (hmortal : Mortal names latest keyspace) (now : ℚ) (key : String) :
    Mortal names latest (evict now key keyspace) := by
  intro name hname
  rw [KeyValue.evict]
  rcases eq_or_ne name key with rfl | hne
  · rw [Function.update_self]
    exact (hmortal name hname).live now
  · rw [Function.update_of_ne hne]
    exact hmortal name hname

theorem Mortal.foreign (hmortal : Mortal names latest keyspace) (hkey : key ∉ names)
    (cell : Option (Cell Value ℚ)) : Mortal names latest (Function.update keyspace key cell) := by
  intro name hname
  have hne : name ≠ key := fun heq => hkey (heq ▸ hname)
  rw [Function.update_of_ne hne]
  exact hmortal name hname

theorem Mortal.setEx (hmortal : Mortal names latest keyspace) (text : String) {ttlSeconds : ℤ}
    (hlate : now + ttlSeconds ≤ latest) :
    Mortal names latest (setEx now key text ttlSeconds keyspace).2 := by
  rw [KeyValue.setEx]
  split
  · exact (hmortal.but key).put (expiresBy_some rfl hlate)
  · exact hmortal

theorem Mortal.del (hmortal : Mortal names latest keyspace) :
    Mortal names latest (del key keyspace).2 :=
  (hmortal.but key).put expiresBy_none

theorem Mortal.hset (hmortal : Mortal names latest keyspace) (mapping : List (String × ℚ)) :
    MortalBut key names latest (hset now key mapping keyspace).2 := by
  rw [KeyValue.hset]
  split <;> first | exact (hmortal.but key).update _ | exact hmortal.but key

theorem Mortal.zadd (hmortal : Mortal names latest keyspace) (member : String) (score : ℚ) :
    MortalBut key names latest (zadd now key member score keyspace).2 := by
  rw [KeyValue.zadd]
  split <;> first | exact (hmortal.but key).update _ | exact hmortal.but key

/-- `EXPIRE` leaves no key that stays. -/
theorem MortalBut.expire (hmortal : MortalBut key names latest keyspace) {ttlSeconds : ℤ}
    (hrange : InRange now ttlSeconds) (hnow : now ≤ latest)
    (hlate : now + ttlSeconds ≤ latest) :
    Mortal names latest (expire now key ttlSeconds keyspace).2 := by
  rw [KeyValue.expire, if_pos hrange]
  split
  case h_1 hexpired =>
    intro name hname
    rcases eq_or_ne name key with rfl | hne
    · exact expiresBy_of_live_eq_none hexpired hnow
    · exact hmortal name hname hne
  case h_2 cell _ =>
    apply hmortal.put
    split
    · exact expiresBy_some rfl hlate
    · exact expiresBy_none

theorem Mortal.zrem (hmortal : Mortal names latest keyspace) (hkey : key ∈ names)
    (member : String) : Mortal names latest (zrem now key member keyspace).2 := by
  rw [KeyValue.zrem]
  split
  · exact hmortal
  case h_2 set deadline hlive =>
    have hby : ExpiresBy latest (some ⟨Value.scored set, deadline⟩) :=
      hlive ▸ (hmortal key hkey).live now
    obtain ⟨last, hlast, hle⟩ := hby _ rfl
    apply (hmortal.but key).put
    split
    · exact expiresBy_none
    · exact expiresBy_some hlast hle
  · exact hmortal

end Expiry

/-! ## Layouts -/

section Layouts

/-- A key for every slot, and how the contents of a slot are stored. -/
structure Layout (Slot : Type) (Content : Slot → Type) where
  name : Slot → String
  name_injective : Function.Injective name
  encode : (slot : Slot) → Content slot → Value

variable {Slot : Type} {Content : Slot → Type}

/-- One store for each slot. -/
abbrev Stores (Content : Slot → Type) := (slot : Slot) → Option (Cell (Content slot) ℚ)

variable (layout : Layout Slot Content)

/-- Every key that has not expired holds what is in its slot. -/
def Layout.Represents (now : ℚ) (keyspace : Keyspace) (stores : Stores Content) : Prop :=
  ∀ slot, live now (keyspace (layout.name slot)) =
    (live now (stores slot)).map (mapCell (layout.encode slot))

variable {layout} {now : ℚ} {keyspace : Keyspace} {stores : Stores Content}

theorem Layout.represents_empty (now : ℚ) :
    layout.Represents now (fun _ => none) fun _ => none :=
  fun _ => rfl

/-- Expiry is the same on both levels. -/
theorem Layout.Represents.elapse (hrep : layout.Represents now keyspace stores) {later : ℚ}
    (htime : now ≤ later) : layout.Represents later keyspace stores := by
  intro slot
  rw [← live_live htime, hrep slot, live_map, live_live htime]

theorem Layout.Represents.evict (hrep : layout.Represents now keyspace stores) (key : String) :
    layout.Represents now (evict now key keyspace) stores := by
  intro slot
  rw [← hrep slot, KeyValue.evict]
  by_cases hkey : layout.name slot = key
  · subst hkey
    rw [Function.update_self, live_live (le_refl now)]
  · rw [Function.update_of_ne hkey]

/-- A key that belongs to no slot is nothing to the stores. -/
theorem Layout.Represents.foreign (hrep : layout.Represents now keyspace stores) {key : String}
    (hkey : ∀ slot, layout.name slot ≠ key) (cell : Option (Cell Value ℚ)) :
    layout.Represents now (Function.update keyspace key cell) stores := by
  intro slot
  rw [Function.update_of_ne (hkey slot), hrep slot]

/-- Only the slot whose key is written changes. -/
theorem Layout.Represents.put [DecidableEq Slot] (hrep : layout.Represents now keyspace stores)
    (slot : Slot) {cell : Option (Cell Value ℚ)} {content : Option (Cell (Content slot) ℚ)}
    (hcell : live now cell = (live now content).map (mapCell (layout.encode slot))) :
    layout.Represents now (Function.update keyspace (layout.name slot) cell)
      (Function.update stores slot content) := by
  intro other
  by_cases hslot : other = slot
  · subst hslot
    rw [Function.update_self, Function.update_self, hcell]
  · have hname : layout.name other ≠ layout.name slot :=
      fun heq => hslot (layout.name_injective heq)
    rw [Function.update_of_ne hname, Function.update_of_ne hslot, hrep other]

/-- What has expired may be dropped from its store. -/
theorem Layout.Represents.drop [DecidableEq Slot] (hrep : layout.Represents now keyspace stores)
    {slot : Slot} (hexpired : live now (stores slot) = none) :
    layout.Represents now keyspace (Function.update stores slot none) := by
  have hcell : live now (keyspace (layout.name slot)) =
      (live now (none : Option (Cell (Content slot) ℚ))).map (mapCell (layout.encode slot)) := by
    rw [hrep slot, hexpired, live_none]
  have hput := hrep.put slot hcell
  rwa [Function.update_eq_self] at hput

/-- `GET` on the key of a slot that is stored as text. -/
theorem Layout.Represents.get (hrep : layout.Represents now keyspace stores) {slot : Slot}
    {text : Content slot → String}
    (htext : ∀ content, layout.encode slot content = .text (text content)) :
    get now (layout.name slot) keyspace =
      (.ok ((fetch now (stores slot)).map text), keyspace) := by
  have hkey := hrep slot
  rw [fetch_eq_live]
  cases hlive : live now (stores slot) with
  | none =>
      rw [hlive] at hkey
      simp only [KeyValue.get, hkey, Option.map_none]
  | some cell =>
      rw [hlive, Option.map_some, mapCell, htext] at hkey
      simp only [KeyValue.get, hkey, Option.map_some]

/-- `EXISTS` on the key of a slot. -/
theorem Layout.Represents.keyExists (hrep : layout.Represents now keyspace stores)
    (slot : Slot) : keyExists now (layout.name slot) keyspace =
      (.ok (fetch now (stores slot)).isSome, keyspace) := by
  rw [KeyValue.keyExists, hrep slot, fetch_eq_live, Option.isSome_map, Option.isSome_map]

/-- `SET` with `EX` on the key of a slot that is stored as text. -/
theorem Layout.Represents.setEx [DecidableEq Slot] (hrep : layout.Represents now keyspace stores)
    {slot : Slot} {content : Content slot} {text : String}
    (htext : layout.encode slot content = .text text) {ttlSeconds : ℤ} (httl : 0 < ttlSeconds) :
    layout.Represents now
      (Function.update keyspace (layout.name slot) (some ⟨.text text, some (now + ttlSeconds)⟩))
      (Function.update stores slot (some ⟨content, some (now + ttlSeconds)⟩)) := by
  apply hrep.put
  rw [live_setEx httl, live_setEx httl, Option.map_some, mapCell, htext]

end Layouts

end DownloaderBot.KeyValue
