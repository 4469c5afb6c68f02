/-
# Utterance blocks

`crates/vt-store/src/transcript_projection.rs`: the blocks of a transcript, what the facade makes of
the JSON they are kept as, and the same on plain lists of blocks.

`item[key] = value` of `serde_json` makes an object of `null` and panics on other values.  The items
of a transcript are objects, and so are their lanes, for the schema says so; the functions here
leave other values as they are.
-/

import ZuTalk.Mirror.Committed

namespace ZuTalk
namespace Transcripts

open Mirror (Value Sorted insertEntry MirrorError)

/-! ### The data -/

/-- `BTreeMap<String, String>`. -/
structure Lanes where
  entries : List (String × String)
  sorted : Sorted entries

namespace Lanes

@[ext]
theorem ext {a b : Lanes} (h : a.entries = b.entries) : a = b := by
  cases a
  cases b
  obtain rfl := h
  rfl

instance : DecidableEq Lanes := fun a b =>
  decidable_of_iff (a.entries = b.entries) ⟨ext, congrArg entries⟩

/-- No lanes. -/
def empty : Lanes := ⟨[], List.Pairwise.nil⟩

/-- `BTreeMap::insert`. -/
def insert (lane text : String) (lanes : Lanes) : Lanes :=
  ⟨insertEntry lane text lanes.entries, lanes.sorted.insertEntry text⟩

/-- `BTreeMap::get`. -/
def get (lanes : Lanes) (lane : String) : Option String := lanes.entries.lookup lane

/-- `BTreeMap::keys`. -/
def keys (lanes : Lanes) : List String := lanes.entries.map Prod.fst

/-- The JSON object of the lanes. -/
def toJson (lanes : Lanes) : Value :=
  .object (lanes.entries.map fun entry => (entry.1, .string entry.2))

end Lanes

/-- `SUPPORTED_LANES`. -/
def supportedLanes : List String := ["en", "th", "ja", "ko", "fr", "es", "de", "zh"]

/-- `USER_OWNER`. -/
def userOwner : String := "user"

/-- The owner of the blocks a session captures. -/
def captureOwner (sessionId : String) : String := "capture:" ++ sessionId

/-- `UtteranceBlock`. -/
structure UtteranceBlock where
  id : String
  owner : String
  text : String
  lanes : Lanes
  deriving DecidableEq

/-- `MachineBlockWrite`. -/
structure MachineBlockWrite where
  id : String
  owner : String
  text : String
  lanes : Lanes

/-- `MachineBlockUpsert`. -/
structure MachineBlockUpsert where
  write : MachineBlockWrite
  frozenLanes : List String
  insertBefore : Option String

/-- `TranscriptProjectionError`. -/
inductive TranscriptProjectionError
  | laneOutOfScope (lane : String)
  | blockNotFound (id : String)
  | emptyBlockId
  | sessionSliceInterleaved (sessionId : String)
  | mirror (error : MirrorError)
  deriving DecidableEq

/-- `validate_lanes`. -/
def validateLanes (lanes : List String) : Except TranscriptProjectionError Unit :=
  match lanes.find? (· ∉ supportedLanes) with
  | some lane => .error (.laneOutOfScope lane)
  | none => .ok ()

/-! ### Blocks as JSON -/

/-- The JSON object of a block. -/
def blockJson (id owner text : String) (lanes : Value) : Value :=
  .object [("id", .string id), ("lanes", lanes), ("owner", .string owner), ("text", .string text)]

/-- The JSON of a block. -/
def UtteranceBlock.toJson (block : UtteranceBlock) : Value :=
  blockJson block.id block.owner block.text block.lanes.toJson

/-- `item.get("id").and_then(Value::as_str)`. -/
def itemId (item : Value) : Option String := (item.get "id").bind Value.asStr

/-- `block_owner`. -/
def blockOwner (item : Value) : String := ((item.get "owner").bind Value.asStr).getD ""

/-- The lanes of an item: those whose text is a string. -/
def itemLanes (item : Value) : Lanes :=
  match item.get "lanes" with
  | some (.object entries) => entries.foldl (fun lanes entry =>
      (entry.2.asStr).elim lanes fun text => lanes.insert entry.1 text) .empty
  | _ => .empty

/-- `blocks`, of one item. -/
def itemBlock (item : Value) : Option UtteranceBlock :=
  (itemId item).map fun id =>
    ⟨id, blockOwner item, ((item.get "text").bind Value.asStr).getD "", itemLanes item⟩

/-- `item[key] = value`. -/
def setKey (key : String) (value : Value) : Value → Value
  | .object entries => .object (insertEntry key value entries)
  | .null => .object [(key, value)]
  | item => item

/-- `item["lanes"][lane] = text`. -/
def setLane (lane text : String) (item : Value) : Value :=
  setKey "lanes" (setKey lane (.string text) ((item.get "lanes").getD .null)) item

/-- The first of a list that is looked for, changed. -/
def updateFirst {α : Type*} (p : α → Bool) (f : α → α) : List α → Option (List α)
  | [] => none
  | a :: l => if p a then some (f a :: l) else (updateFirst p f l).map (a :: ·)

/-- `apply_machine_upsert`, for a block that is there. -/
def updateItem (upsert : MachineBlockUpsert) (item : Value) : Value :=
  upsert.write.lanes.entries.foldl (fun item entry =>
    if entry.1 ∈ upsert.frozenLanes then item else setLane entry.1 entry.2 item)
    (setKey "text" (.string upsert.write.text) item)

/-- `apply_machine_upsert`. -/
def applyMachineUpsert (items : List Value) (upsert : MachineBlockUpsert) :
    Except TranscriptProjectionError (List Value) :=
  match updateFirst (itemId · = some upsert.write.id) (updateItem upsert) items with
  | some items => .ok items
  | none =>
      let block := blockJson upsert.write.id upsert.write.owner upsert.write.text
        upsert.write.lanes.toJson
      match upsert.insertBefore with
      | none => .ok (items ++ [block])
      | some anchor =>
          match items.findIdx? (itemId · = some anchor) with
          | none => .error (.blockNotFound anchor)
          | some index => .ok (items.insertIdx index block)

/-! ### Plain lists of blocks -/

/-- The lanes, and those that are written but for the frozen ones. -/
def Lanes.write (frozenLanes : List String) (written : List (String × String)) (lanes : Lanes) :
    Lanes :=
  written.foldl (fun lanes entry =>
    if entry.1 ∈ frozenLanes then lanes else lanes.insert entry.1 entry.2) lanes

/-- What a machine write makes of a block that is there. -/
def UtteranceBlock.update (upsert : MachineBlockUpsert) (block : UtteranceBlock) :
    UtteranceBlock where
  id := block.id
  owner := block.owner
  text := upsert.write.text
  lanes := block.lanes.write upsert.frozenLanes upsert.write.lanes.entries

/-- The block a machine write makes. -/
def MachineBlockWrite.block (write : MachineBlockWrite) : UtteranceBlock :=
  ⟨write.id, write.owner, write.text, write.lanes⟩

/-- A machine write to a list of blocks. -/
def upsertBlock (blocks : List UtteranceBlock) (upsert : MachineBlockUpsert) :
    Except TranscriptProjectionError (List UtteranceBlock) :=
  match updateFirst (·.id = upsert.write.id) (UtteranceBlock.update upsert) blocks with
  | some blocks => .ok blocks
  | none =>
      match upsert.insertBefore with
      | none => .ok (blocks ++ [upsert.write.block])
      | some anchor =>
          match blocks.findIdx? (·.id = anchor) with
          | none => .error (.blockNotFound anchor)
          | some index => .ok (blocks.insertIdx index upsert.write.block)

/-! ### The two agree -/

section Json

variable (block : UtteranceBlock)

@[simp] theorem itemId_toJson : itemId block.toJson = some block.id := rfl

@[simp] theorem blockOwner_toJson : blockOwner block.toJson = block.owner := rfl

theorem insertEntry_append {α : Type*} {entries : List (String × α)} {key : String} (value : α)
    (h : ∀ entry ∈ entries, entry.1 < key) :
    insertEntry key value entries = entries ++ [(key, value)] := by
  induction entries with
  | nil => rfl
  | cons entry entries ih =>
      obtain ⟨k, v⟩ := entry
      obtain ⟨hfirst, hrest⟩ := List.forall_mem_cons.1 h
      have hlt : k < key := hfirst
      rw [insertEntry, if_neg hlt.ne', if_neg hlt.le.not_gt, ih hrest, List.cons_append]

/-- Entries in key order are what comes of them one after the other. -/
theorem entries_foldl_insert {lanes : Lanes} {entries : List (String × String)}
    (h : Sorted (lanes.entries ++ entries)) :
    (entries.foldl (fun lanes entry => lanes.insert entry.1 entry.2) lanes).entries =
      lanes.entries ++ entries := by
  induction entries generalizing lanes with
  | nil => exact (List.append_nil _).symm
  | cons entry entries ih =>
      have hlast : (lanes.insert entry.1 entry.2).entries = lanes.entries ++ [entry] :=
        insertEntry_append entry.2 fun other hother =>
          (List.pairwise_append.1 h).2.2 other hother entry List.mem_cons_self
      have hsplit : lanes.entries ++ entry :: entries =
          (lanes.insert entry.1 entry.2).entries ++ entries := by
        rw [hlast, List.append_assoc, List.singleton_append]
      rw [List.foldl_cons, hsplit]
      exact ih (hsplit ▸ h)

/-- **A block is read back as it was written.** -/
@[simp] theorem itemBlock_toJson : itemBlock block.toJson = some block := by
  have hlanes : itemLanes block.toJson = block.lanes := by
    change (block.lanes.entries.map fun entry => (entry.1, Value.string entry.2)).foldl
      (fun lanes entry => (entry.2.asStr).elim lanes fun text => lanes.insert entry.1 text)
        Lanes.empty = block.lanes
    rw [List.foldl_map]
    exact Lanes.ext (entries_foldl_insert block.lanes.sorted)
  change some (UtteranceBlock.mk block.id block.owner block.text (itemLanes block.toJson)) = _
  rw [hlanes]

theorem setKey_text (text : String) :
    setKey "text" (.string text) block.toJson = { block with text := text }.toJson := rfl

theorem setLane_toJson (lane text : String) :
    setLane lane text block.toJson =
      { block with lanes := block.lanes.insert lane text }.toJson := by
  have hlanes : setKey lane (.string text) block.lanes.toJson =
      (block.lanes.insert lane text).toJson :=
    congrArg Value.object (Mirror.insertEntry_map Value.string lane text block.lanes.entries)
  change setKey "lanes" (setKey lane (.string text) block.lanes.toJson) block.toJson = _
  rw [hlanes]
  rfl

theorem updateItem_toJson (upsert : MachineBlockUpsert) :
    updateItem upsert block.toJson = (block.update upsert).toJson := by
  have hrun : ∀ (written : List (String × String)) (lanes : Lanes),
      written.foldl (fun item entry =>
          if entry.1 ∈ upsert.frozenLanes then item else setLane entry.1 entry.2 item)
        (UtteranceBlock.mk block.id block.owner upsert.write.text lanes).toJson =
      (UtteranceBlock.mk block.id block.owner upsert.write.text
        (lanes.write upsert.frozenLanes written)).toJson := by
    intro written
    induction written with
    | nil => exact fun _ => rfl
    | cons entry written ih =>
        intro lanes
        rw [List.foldl_cons, Lanes.write, List.foldl_cons]
        split
        · exact ih lanes
        · rw [setLane_toJson]
          exact ih (lanes.insert entry.1 entry.2)
  rw [updateItem, setKey_text]
  exact hrun upsert.write.lanes.entries block.lanes

end Json

theorem updateFirst_map {α β : Type*} {p : β → Bool} {f : β → β} {g : α → β} {f' : α → α}
    (h : ∀ a, f (g a) = g (f' a)) (l : List α) :
    updateFirst p f (l.map g) = (updateFirst (p ∘ g) f' l).map (·.map g) := by
  induction l with
  | nil => rfl
  | cons a l ih =>
      rw [List.map_cons, updateFirst, updateFirst, Function.comp_apply]
      split
      · rw [h]
        rfl
      · rw [ih, Option.map_map, Option.map_map]
        rfl

/-- **A machine write does to the JSON what it does to the blocks.** -/
theorem applyMachineUpsert_toJson (blocks : List UtteranceBlock) (upsert : MachineBlockUpsert) :
    applyMachineUpsert (blocks.map UtteranceBlock.toJson) upsert =
      (upsertBlock blocks upsert).map (·.map UtteranceBlock.toJson) := by
  have hid : ∀ id : String, ((fun item : Value => decide (itemId item = some id)) ∘
      UtteranceBlock.toJson) = fun block => decide (block.id = id) := by
    intro id
    funext block
    simp
  unfold applyMachineUpsert upsertBlock
  rw [updateFirst_map (fun block => updateItem_toJson block upsert), hid]
  cases updateFirst (fun block => decide (block.id = upsert.write.id))
      (UtteranceBlock.update upsert) blocks with
  | some blocks => rfl
  | none =>
      dsimp only [Option.map_none]
      cases upsert.insertBefore with
      | none =>
          refine congrArg Except.ok (Eq.symm ?_)
          exact List.map_append
      | some anchor =>
          dsimp only
          rw [List.findIdx?_map, hid]
          cases blocks.findIdx? fun block => decide (block.id = anchor) with
          | none => rfl
          | some index =>
              refine congrArg Except.ok (Eq.symm ?_)
              exact List.map_insertIdx ..

end Transcripts
end ZuTalk
