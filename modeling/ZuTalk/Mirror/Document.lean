/-
# Documents

A Loro document as the mirror sees it: plain values and containers, each container
with its id and the schema the mirror has registered for it.  A list holds its
elements in order, a map its entries in key order, a text its string.

`crates/vt-mirror/src/mirror.rs`: `initialize_container`, and the operations of
the containers that `apply_container_changes` uses.
-/

import ZuTalk.Library.Moves
import ZuTalk.Mirror.Change

namespace ZuTalk
namespace Mirror

/-- `ValueOrContainer`. -/
inductive Node (σ : Type)
  | value (v : Value)
  | map (id : ContainerId) (schema : Option σ) (entries : List (String × Node σ))
  | list (id : ContainerId) (schema : Option σ) (items : List (Node σ))
  | movableList (id : ContainerId) (schema : Option σ) (items : List (Node σ))
  | text (id : ContainerId) (schema : Option σ) (content : String)

namespace Node

variable {σ : Type}

mutual

/-- `get_deep_value`. -/
def deepValue : Node σ → Value
  | .value v => v
  | .map _ _ entries => .object (deepEntries entries)
  | .list _ _ items => .array (deepItems items)
  | .movableList _ _ items => .array (deepItems items)
  | .text _ _ content => .string content

/-- The deep values of list items. -/
def deepItems : List (Node σ) → List Value
  | [] => []
  | item :: items => item.deepValue :: deepItems items

/-- The deep values of map entries. -/
def deepEntries : List (String × Node σ) → List (String × Value)
  | [] => []
  | (key, node) :: entries => (key, node.deepValue) :: deepEntries entries

end

mutual

/-- The containers of a node, each before those in it. -/
def ids : Node σ → List ContainerId
  | .value _ => []
  | .map id _ entries => id :: entryIds entries
  | .list id _ items => id :: itemIds items
  | .movableList id _ items => id :: itemIds items
  | .text id _ _ => [id]

/-- The containers in list items. -/
def itemIds : List (Node σ) → List ContainerId
  | [] => []
  | item :: items => item.ids ++ itemIds items

/-- The containers in map entries. -/
def entryIds : List (String × Node σ) → List ContainerId
  | [] => []
  | (_, node) :: entries => node.ids ++ entryIds entries

end

theorem deepItems_eq (items : List (Node σ)) : deepItems items = items.map deepValue := by
  induction items with
  | nil => rfl
  | cons item items ih => rw [deepItems, ih, List.map_cons]

theorem deepEntries_eq (entries : List (String × Node σ)) :
    deepEntries entries = entries.map fun entry => (entry.1, entry.2.deepValue) := by
  induction entries with
  | nil => rfl
  | cons entry entries ih => rw [deepEntries, ih, List.map_cons]

theorem itemIds_eq (items : List (Node σ)) : itemIds items = items.flatMap ids := by
  induction items with
  | nil => rfl
  | cons item items ih => rw [itemIds, ih, List.flatMap_cons]

theorem entryIds_eq (entries : List (String × Node σ)) :
    entryIds entries = entries.flatMap fun entry => entry.2.ids := by
  induction entries with
  | nil => rfl
  | cons entry entries ih => rw [entryIds, ih, List.flatMap_cons]

/-- The type of a container. -/
def containerType : Node σ → Option ContainerType
  | .value _ => none
  | .map .. => some .map
  | .list .. => some .list
  | .movableList .. => some .movableList
  | .text .. => some .text

mutual

/-- The container with an id. -/
def find? (id : ContainerId) : Node σ → Option (Node σ)
  | .value _ => none
  | .map own schema entries =>
      if own = id then some (.map own schema entries) else findInEntries? id entries
  | .list own schema items =>
      if own = id then some (.list own schema items) else findItem? id items
  | .movableList own schema items =>
      if own = id then some (.movableList own schema items) else findItem? id items
  | .text own schema content => if own = id then some (.text own schema content) else none

/-- The container with an id among list items. -/
def findItem? (id : ContainerId) : List (Node σ) → Option (Node σ)
  | [] => none
  | item :: items => (item.find? id).or (findItem? id items)

/-- The container with an id among map entries. -/
def findInEntries? (id : ContainerId) : List (String × Node σ) → Option (Node σ)
  | [] => none
  | (_, node) :: entries => (node.find? id).or (findInEntries? id entries)

end

mutual

/-- A node with the container of an id changed. -/
def modify (id : ContainerId) (f : Node σ → Node σ) : Node σ → Node σ
  | .value v => .value v
  | .map own schema entries =>
      if own = id then f (.map own schema entries)
      else .map own schema (modifyEntries id f entries)
  | .list own schema items =>
      if own = id then f (.list own schema items) else .list own schema (modifyItems id f items)
  | .movableList own schema items =>
      if own = id then f (.movableList own schema items)
      else .movableList own schema (modifyItems id f items)
  | .text own schema content =>
      if own = id then f (.text own schema content) else .text own schema content

/-- List items with the container of an id changed. -/
def modifyItems (id : ContainerId) (f : Node σ → Node σ) : List (Node σ) → List (Node σ)
  | [] => []
  | item :: items => item.modify id f :: modifyItems id f items

/-- Map entries with the container of an id changed. -/
def modifyEntries (id : ContainerId) (f : Node σ → Node σ) :
    List (String × Node σ) → List (String × Node σ)
  | [] => []
  | (key, node) :: entries => (key, node.modify id f) :: modifyEntries id f entries

end

mutual

/-- The containers of a node numbered from `n` on, in the order of `ids`. -/
def number (n : ℕ) : Node σ → Node σ
  | .value v => .value v
  | .map _ schema entries => .map (.numbered n) schema (numberEntries (n + 1) entries)
  | .list _ schema items => .list (.numbered n) schema (numberItems (n + 1) items)
  | .movableList _ schema items => .movableList (.numbered n) schema (numberItems (n + 1) items)
  | .text _ schema content => .text (.numbered n) schema content

/-- The containers in list items, numbered. -/
def numberItems (n : ℕ) : List (Node σ) → List (Node σ)
  | [] => []
  | item :: items => item.number n :: numberItems (n + item.ids.length) items

/-- The containers in map entries, numbered. -/
def numberEntries (n : ℕ) : List (String × Node σ) → List (String × Node σ)
  | [] => []
  | (key, node) :: entries => (key, node.number n) :: numberEntries (n + node.ids.length) entries

end

/-! ### New containers -/

section Build

variable (S : Schemas σ)

mutual

/-- `initialize_container`: a new container of a type, filled with a value as far
as the value is of that type. -/
def build : Value → ContainerType → Option σ → Node σ
  | .object entries, .map, schema => .map .created schema (buildEntries entries schema)
  | _, .map, schema => .map .created schema []
  | .array items, .list, schema => .list .created schema (buildItems items (S.listItem schema))
  | _, .list, schema => .list .created schema []
  | .array items, .movableList, schema =>
      .movableList .created schema (buildItems items (S.listItem schema))
  | _, .movableList, schema => .movableList .created schema []
  | .string content, .text, schema => .text .created schema content
  | _, .text, schema => .text .created schema ""

/-- The items of a new list. -/
def buildItems : List Value → Option σ → List (Node σ)
  | [], _ => []
  | item :: items, schema =>
      (match schema.bind fun s => if S.isContainerSchema s then S.containerType s else none with
        | some type => if isValueOfContainerType type item then build item type schema
          else .value item
        | none => .value item) :: buildItems items schema

/-- The entries of a new map. -/
def buildEntries : List (String × Value) → Option σ → List (String × Node σ)
  | [], _ => []
  | (key, v) :: entries, schema =>
      (key, match (S.mapField schema key).bind fun s =>
          if S.isContainerSchema s then S.containerType s else none with
        | some type => if isValueOfContainerType type v then build v type (S.mapField schema key)
          else .value v
        | none => .value v) :: buildEntries entries schema

end

end Build

end Node

/-! ### The operations of the containers -/

/-- A list with an element inserted. -/
def insertAt {α : Type*} (l : List α) (index : ℕ) (x : α) : Option (List α) :=
  if index ≤ l.length then some (l.insertIdx index x) else none

/-- A list without the element at an index. -/
def deleteAt {α : Type*} (l : List α) (index : ℕ) : Option (List α) :=
  if index < l.length then some (l.eraseIdx index) else none

/-- A map with a key set to a value, in its place in the key order. -/
def insertEntry {α : Type*} (key : String) (value : α) : List (String × α) → List (String × α)
  | [] => [(key, value)]
  | (k, v) :: rest =>
      if key = k then (key, value) :: rest
      else if key < k then (key, value) :: (k, v) :: rest
      else (k, v) :: insertEntry key value rest

/-- A map without a key. -/
def deleteEntry {α : Type*} (key : String) (entries : List (String × α)) : List (String × α) :=
  entries.filter (·.1 ≠ key)

end Mirror
end ZuTalk
