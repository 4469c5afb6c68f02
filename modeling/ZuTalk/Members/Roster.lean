/-
# The roster of a space

`crates/vt-store/src/replica_docs.rs`, `Roster`: the two maps of a roster document, from
device ids to names and from device ids to the time of removal.  Of the writes of one key the
one with the greatest timestamp stays, ties go to the greater peer; a document takes every
write once, and takes it from anybody.  Only strings are read.

A device is known by 32 bytes (`EndpointId`), the maps by the hexadecimal of these.
-/

import Mathlib.Data.UInt
import ZuTalk.Library.Edits
import ZuTalk.Library.Hex

namespace ZuTalk
namespace Members

/-! ### Device ids -/

/-- `EndpointId`: 32 bytes that are a point of the curve. -/
structure EndpointId (onCurve : List UInt8 → Bool) where
  bytes : List UInt8
  length : bytes.length = 32
  valid : onCurve bytes = true
  deriving DecidableEq

section Ids

variable {onCurve : List UInt8 → Bool}

/-- `device_hex` -/
def deviceHex (id : EndpointId onCurve) : String := Hex.encode id.bytes

variable (onCurve) in
/-- `parse_device` -/
def parseDevice (hexId : String) : Option (EndpointId onCurve) :=
  (Hex.decode hexId).bind fun bytes =>
    if h : bytes.length = 32 ∧ onCurve bytes = true then some ⟨bytes, h.1, h.2⟩ else none

@[simp] theorem parseDevice_deviceHex (id : EndpointId onCurve) :
    parseDevice onCurve (deviceHex id) = some id := by
  simp [parseDevice, deviceHex, id.length, id.valid]

/-- The key is spelled as `device_hex` spells the device it is read as, if it is read as one. -/
def Canonical (onCurve : List UInt8 → Bool) (key : String) : Prop :=
  ∀ id ∈ parseDevice onCurve key, deviceHex id = key

instance (key : String) : Decidable (Canonical onCurve key) := by
  unfold Canonical
  infer_instance

end Ids

/-! ### The document -/

inductive RosterMap
  | devices | removed
  deriving DecidableEq, Repr

/-- A value of a map, as far as it is told apart. -/
inductive Entry
  | null
  | text (value : String)
  | other
  deriving DecidableEq, Repr

/-- A write, `none` where the key is deleted.  It is known by its peer and its counter. -/
structure Write where
  map : RosterMap
  key : String
  entry : Option Entry
  lamport : ℕ
  peer : UInt64
  counter : ℕ
  deriving DecidableEq, Repr

namespace Write

def id (write : Write) : UInt64 × ℕ := (write.peer, write.counter)

def place (write : Write) : RosterMap × String := (write.map, write.key)

/-- The order of writes: by timestamp, then by peer. -/
def rank (write : Write) : ℕ := write.lamport * 2 ^ 64 + write.peer.toNat

def isText (write : Write) : Bool := write.entry matches some (.text _)

end Write

/-- The writes of a document. -/
abbrev RosterDoc := List Write

namespace RosterDoc

/-- One write that comes in: what the document has is not taken again. -/
def take (doc : RosterDoc) (write : Write) : RosterDoc :=
  if write.id ∈ doc.map Write.id then doc else doc ++ [write]

/-- `LoroDoc::import` -/
def imported (doc : RosterDoc) (update : List Write) : RosterDoc := update.foldl take doc

/-- The last write of a key of a map. -/
def last (doc : RosterDoc) (map : RosterMap) (key : String) : Option Write :=
  Edits.best Write.rank Write.place doc (map, key)

/-- `LoroMap::get` -/
def get (doc : RosterDoc) (map : RosterMap) (key : String) : Option Entry :=
  (doc.last map key).bind Write.entry

/-- `get_string` -/
def getString (doc : RosterDoc) (map : RosterMap) (key : String) : Option String :=
  match doc.get map key with
  | some (.text value) => some value
  | _ => none

/-- `LoroMap::insert` by a peer: its next counter, and a timestamp behind all there are. -/
def insert (doc : RosterDoc) (peer : UInt64) (map : RosterMap) (key value : String) : RosterDoc :=
  doc ++ [{
    map := map
    key := key
    entry := some (.text value)
    lamport := (doc.map Write.lamport).foldl max 0 + 1
    peer := peer
    counter := ((doc.filter (·.peer = peer)).map Write.counter).foldl max 0 + 1 }]

/-- `set`: what is there already is not written; a value of another kind counts as the empty
string. -/
def set (doc : RosterDoc) (peer : UInt64) (map : RosterMap) (key value : String) : RosterDoc :=
  let current := match doc.get map key with
    | none => none
    | some .null => some none
    | some (.text text) => some (some text)
    | some .other => some (some "")
  if current = some (some value) then doc else doc.insert peer map key value

/-- `put_member` -/
def putMember (doc : RosterDoc) (peer : UInt64) (device name : String) : RosterDoc :=
  doc.set peer .devices device name

/-- `remove_member` -/
def removeMember (doc : RosterDoc) (peer : UInt64) (device at_ : String) : RosterDoc :=
  if (doc.getString .removed device).isSome then doc else doc.insert peer .removed device at_

end RosterDoc

/-- `Roster` -/
structure Roster where
  devices : String → Option String
  removed : String → Option String

/-- `Roster::is_member` -/
def Roster.isMember (roster : Roster) (device : String) : Bool :=
  (roster.devices device).isSome && !(roster.removed device).isSome

/-- `read_roster` -/
def readRoster (doc : RosterDoc) : Roster := ⟨doc.getString .devices, doc.getString .removed⟩

/-! ### What is read of a document -/

namespace RosterDoc

variable {doc : RosterDoc} {map : RosterMap} {key : String}

/-- What is read was written. -/
theorem exists_of_getString (h : (doc.getString map key).isSome = true) :
    ∃ write, doc.last map key = some write ∧ write.isText = true := by
  unfold getString get at h
  cases hlast : doc.last map key with
  | none => simp [hlast] at h
  | some write =>
      refine ⟨write, rfl, ?_⟩
      rw [hlast, Option.bind_some] at h
      unfold Write.isText
      cases hentry : write.entry with
      | none => simp [hentry] at h
      | some entry => cases entry <;> simp_all

theorem getString_of_last {write : Write} (hlast : doc.last map key = some write)
    (htext : write.isText = true) : (doc.getString map key).isSome = true := by
  unfold getString get
  rw [hlast, Option.bind_some]
  unfold Write.isText at htext
  cases hentry : write.entry with
  | none => simp [hentry] at htext
  | some entry => cases entry <;> simp_all

/-- The last write of a key is one of the writes, and none of that key is later. -/
theorem last_eq_some {write : Write} (h : doc.last map key = some write) :
    write ∈ doc ∧ write.place = (map, key) ∧
      ∀ other ∈ doc, other.place = (map, key) → other.rank ≤ write.rank :=
  Edits.best_eq_some Write.rank Write.place h

theorem last_append_eq_some {more : RosterDoc} {write : Write}
    (h : last (doc ++ more) map key = some write) :
    doc.last map key = some write ∨ write ∈ more := by
  rcases Edits.best_append_eq_some Write.rank Write.place h with hdoc | hmore
  · exact .inl hdoc
  · exact .inr (Edits.best_eq_some Write.rank Write.place hmore).1

theorem exists_last {write : Write} (hwrite : write ∈ doc) (hplace : write.place = (map, key)) :
    ∃ last, doc.last map key = some last :=
  Option.ne_none_iff_exists'.1 (Edits.best_ne_none Write.rank Write.place hwrite hplace)

/-- A document that takes writes keeps those it has, and gets none that it was not given. -/
theorem imported_eq_append (update : List Write) :
    ∃ more, doc.imported update = doc ++ more ∧ more ⊆ update := by
  induction update generalizing doc with
  | nil => exact ⟨[], by simp [imported], by simp⟩
  | cons write update ih =>
      obtain ⟨more, hmore, hsubset⟩ :
          ∃ more, (doc.take write).imported update = doc.take write ++ more ∧ more ⊆ update := ih
      have himported : doc.imported (write :: update) = (doc.take write).imported update := rfl
      rw [himported, hmore]
      unfold take
      split
      · exact ⟨more, rfl, fun w hw => List.mem_cons_of_mem _ (hsubset hw)⟩
      · refine ⟨write :: more, by simp, ?_⟩
        intro w hw
        rcases List.mem_cons.1 hw with rfl | hw
        · exact List.mem_cons_self
        · exact List.mem_cons_of_mem _ (hsubset hw)

theorem le_foldl_max {l : List ℕ} {n start : ℕ} (h : n ∈ l ∨ n ≤ start) :
    n ≤ l.foldl max start := by
  induction l generalizing start with
  | nil => simpa using h
  | cons m l ih =>
      rw [List.foldl_cons]
      apply ih
      rcases h with h | h
      · rcases List.mem_cons.1 h with rfl | h
        · right
          omega
        · left
          exact h
      · right
        omega

/-- **What is inserted is read**, and nothing else changes. -/
theorem getString_insert (peer : UInt64) (map' : RosterMap) (key' value : String) :
    (doc.insert peer map key value).getString map' key' =
      if map' = map ∧ key' = key then some value else doc.getString map' key' := by
  split
  · rename_i hplace
    obtain ⟨rfl, rfl⟩ := hplace
    obtain ⟨write, hlast⟩ :
        ∃ write, (doc.insert peer map' key' value).last map' key' = some write :=
      exists_last (List.mem_append_right doc (List.mem_singleton_self _)) rfl
    obtain ⟨-, -, hmax⟩ := last_eq_some hlast
    have hnew := hmax _ (List.mem_append_right doc (List.mem_singleton_self _)) rfl
    -- the timestamp of an older write is below the new one
    have hold : ∀ other ∈ doc, other.rank < ((doc.map Write.lamport).foldl max 0 + 1) * 2 ^ 64 := by
      intro other hother
      have hle : other.lamport ≤ (doc.map Write.lamport).foldl max 0 :=
        le_foldl_max (.inl (List.mem_map_of_mem hother))
      have hpeer := other.peer.toNat_lt
      unfold Write.rank
      omega
    rcases last_append_eq_some hlast with hdoc | hmem
    · have hlt := hold write (last_eq_some hdoc).1
      unfold Write.rank at hnew hlt
      dsimp only at hnew
      omega
    · rw [List.mem_singleton.1 hmem] at hlast
      unfold getString get
      rw [hlast]
      rfl
  · rename_i hplace
    unfold getString get last insert
    rw [Edits.best_append, Edits.best_cons, if_neg, Edits.best_nil]
    · simp
    · simpa [Write.place, Prod.ext_iff, eq_comm] using hplace

/-- A name is written, or is there already. -/
theorem putMember_eq (peer : UInt64) (device name : String) :
    doc.putMember peer device name = doc ∨
      doc.putMember peer device name = doc.insert peer .devices device name :=
  ite_eq_or_eq _ _ _

/-- A write that another write of its key, a text, is later than. -/
def Outdated (doc : RosterDoc) (write : Write) : Prop :=
  ∃ other ∈ doc, other.place = write.place ∧ other.isText = true ∧ write.rank < other.rank

instance (write : Write) : Decidable (doc.Outdated write) := by
  unfold Outdated
  infer_instance

/-- **A text stays a text** when what comes in for its key are texts, or is outdated. -/
theorem getString_imported {update : List Write} (h : (doc.getString map key).isSome = true)
    (hupdate : ∀ write ∈ update, write.place = (map, key) →
      write.isText = true ∨ (doc.imported update).Outdated write) :
    ((doc.imported update).getString map key).isSome = true := by
  obtain ⟨write, hlast, htext⟩ := exists_of_getString h
  obtain ⟨more, hmore, hsubset⟩ := (imported_eq_append update :
    ∃ more, doc.imported update = doc ++ more ∧ more ⊆ update)
  obtain ⟨last, hlast'⟩ : ∃ last, (doc.imported update).last map key = some last := by
    rw [hmore]
    exact exists_last (List.mem_append_left more (last_eq_some hlast).1) (last_eq_some hlast).2.1
  obtain ⟨-, hplace, hmax⟩ := last_eq_some hlast'
  apply getString_of_last hlast'
  rcases last_append_eq_some (hmore ▸ hlast') with hdoc | hnew
  · obtain rfl : last = write := Option.some.inj (hdoc.symm.trans hlast)
    exact htext
  · rcases hupdate last (hsubset hnew) hplace with hlastText | ⟨other, hother, hsame, -, hlt⟩
    · exact hlastText
    · have hle := hmax other hother (hsame.trans hplace)
      omega

end RosterDoc

end Members
end ZuTalk
