/-
# From changes to the document, and `set_state`

`crates/vt-mirror/src/mirror.rs`.

Changes are applied container by container and one after the other; the first
that fails ends it, and what was applied before stays in the document.
-/

import ZuTalk.Mirror.Diff

namespace ZuTalk
namespace Mirror

variable {σ : Type}

/-- `MirrorError`, of a mirror whose schema is a root schema. -/
inductive MirrorError
  | validationFailed (message : String)
  | diff (error : DiffError)
  | unsupportedMapChange | unsupportedListChange | invalidListIndex | containerInsertFailed
  | unknownRootContainerType | textValueNotString | listValueNotArray | mapValueNotObject
  deriving DecidableEq, Repr

/-- Steps one after the other, up to the first that fails. -/
def applyEach {α β ε : Type*} (step : α → β → Except ε α) : α → List β → α × Option ε
  | a, [] => (a, none)
  | a, b :: bs =>
      match step a b with
      | .ok a => applyEach step a bs
      | .error e => (a, some e)

section Containers

variable (S : Schemas σ) (options : InferContainerOptions)

/-- `get_schema_for_child`. -/
def schemaForChild (schema : Option σ) (key : String) : Option σ :=
  schema.bind fun s =>
    match S.kind s with
    | .map => S.field s key
    | .list | .movableList => S.item s
    | _ => none

/-- `insert_container_into_map` and `insert_container_into_list`: the container. -/
def newContainer (schema : Option σ) (value : Value) : Except MirrorError (Node σ) :=
  match (schema.bind S.containerType).or (tryInferContainerType value options) with
  | some type => .ok (Node.build S value type schema)
  | none => .error .unknownRootContainerType

/-- `apply_container_changes`, one change to a map. -/
def applyMapChange (schema : Option σ) (entries : List (String × Node σ)) (change : Change) :
    Except MirrorError (List (String × Node σ)) :=
  match change.key with
  | .index _ => .ok entries
  | .prop key =>
      if key = "" then .ok entries
      else
        match change.kind with
        | .insert => .ok (insertEntry key (.value (change.value.getD .null)) entries)
        | .insertContainer _ => do
            let node ← newContainer S options
              ((schemaForChild S schema key).filter (S.isContainerSchema ·))
              (change.value.getD .null)
            return insertEntry key node entries
        | .delete => .ok (deleteEntry key entries)
        | .move .. => .error .unsupportedMapChange

/-- `apply_container_changes`, one change to a list of either kind. -/
def applyListChange (movable : Bool) (schema : Option σ) (items : List (Node σ))
    (change : Change) : Except MirrorError (List (Node σ)) :=
  match change.key with
  | .prop _ => .error .invalidListIndex
  | .index index =>
      match change.kind with
      | .delete => (deleteAt items index).elim (.error .containerInsertFailed) .ok
      | .insert =>
          (insertAt items index (.value (change.value.getD .null))).elim
            (.error .containerInsertFailed) .ok
      | .insertContainer _ => do
          let node ← newContainer S options ((S.listItem schema).filter (S.isContainerSchema ·))
            (change.value.getD .null)
          (insertAt items index node).elim (.error .containerInsertFailed) .ok
      | .move fromIndex toIndex =>
          if movable then
            (Moves.mov items fromIndex toIndex).elim (.error .containerInsertFailed) .ok
          else .error .unsupportedListChange

/-- `apply_container_changes`, one change to a text. -/
def applyTextChange (content : String) (change : Change) : String :=
  match change.value with
  | some (.string s) => s
  | _ => content

/-- `apply_container_changes`: what the container becomes, and the error. -/
def applyContainerChanges (changes : List Change) : Node σ → Node σ × Option MirrorError
  | .value v => (.value v, none)
  | .map id schema entries =>
      let result := applyEach (applyMapChange S options schema) entries changes
      (.map id schema result.1, result.2)
  | .list id schema items =>
      let result := applyEach (applyListChange S options false schema) items changes
      (.list id schema result.1, result.2)
  | .movableList id schema items =>
      let result := applyEach (applyListChange S options true schema) items changes
      (.movableList id schema result.1, result.2)
  | .text id schema content => (.text id schema (changes.foldl applyTextChange content), none)

/-- A change joins the changes of its container. -/
def pushChange (groups : List (Option ContainerId × List Change)) (change : Change) :
    List (Option ContainerId × List Change) :=
  match groups with
  | [] => [(change.container, [change])]
  | (container, changes) :: rest =>
      if container = change.container then (container, changes ++ [change]) :: rest
      else (container, changes) :: pushChange rest change

/-- `by_container`. -/
def byContainer (changes : List Change) : List (Option ContainerId × List Change) :=
  changes.foldl pushChange []

/-- The changes of one container, applied in a node that holds it. -/
def applyGroup (node : Node σ) (id : ContainerId) (changes : List Change) :
    Node σ × Option MirrorError :=
  (node.modify id fun n => (applyContainerChanges S options changes n).1,
    (node.find? id).bind fun n => (applyContainerChanges S options changes n).2)

end Containers

/-! ### Root containers -/

section Root

variable (S : Schemas σ) (options : InferContainerOptions)

/-- An empty container. -/
def emptyContainer (type : ContainerType) (schema : Option σ) : Node σ :=
  match type with
  | .map => .map .created schema []
  | .list => .list .created schema []
  | .movableList => .movableList .created schema []
  | .text => .text .created schema ""

/-- `insert_item_into_list`. -/
def insertItemIntoList (items : List (Node σ)) (index : ℕ) (item : Value)
    (itemSchema : Option σ) : Except MirrorError (List (Node σ)) := do
  let schema := itemSchema.filter (S.isContainerSchema ·)
  let isContainer := schema.isSome || (tryInferContainerType item options).isSome
  let node ← if isContainer && (item.isObject || item.isArray) then
      newContainer S options schema item
    else .ok (.value item)
  (insertAt items index node).elim (.error .containerInsertFailed) .ok

/-- `update_list_with_id_selector`, one new item at the cursor. -/
def placeItem (idSelector : IdSelector) (itemSchema : Option σ) (currentIds : List String)
    (cursor : List (Node σ) × ℕ) (newItem : Value) : Except MirrorError (List (Node σ) × ℕ) :=
  match selectId idSelector newItem with
  | none => .ok cursor
  | some itemId => do
      let items ←
        if currentIds.contains itemId then
          if (cursor.1[cursor.2]?).map (·.deepValue) = some newItem then .ok cursor.1
          else do
            let items ← (deleteAt cursor.1 cursor.2).elim (.error .containerInsertFailed) .ok
            insertItemIntoList S options items cursor.2 newItem itemSchema
        else insertItemIntoList S options cursor.1 cursor.2 newItem itemSchema
      return (items, cursor.2 + 1)

/-- `update_list_with_id_selector`. -/
def updateListWithIdSelector (items : List (Node σ)) (newItems : List Value)
    (idSelector : IdSelector) (itemSchema : Option σ) : List (Node σ) × Option MirrorError :=
  let current := items.map (·.deepValue)
  let currentIds := current.filterMap (selectId idSelector)
  let kept := (deletionIndexes idSelector current newItems).foldl (fun l i => l.eraseIdx i) items
  let placed := applyEach (placeItem S options idSelector itemSchema currentIds) (kept, 0) newItems
  match placed.2 with
  | none => (placed.1.1.take placed.1.2, none)
  | some e => (placed.1.1, some e)

/-- `update_list_by_index`, one index. -/
def updateIndex (oldLength : ℕ) (newItems : List Value) (itemSchema : Option σ)
    (items : List (Node σ)) (i : ℕ) : Except MirrorError (List (Node σ)) :=
  match newItems[i]? with
  | none => .ok (items.take newItems.length)
  | some newItem =>
      if oldLength ≤ i then insertItemIntoList S options items i newItem itemSchema
      else if (items[i]?).map (·.deepValue) = some newItem then .ok items
      else do
        let items ← (deleteAt items i).elim (.error .containerInsertFailed) .ok
        insertItemIntoList S options items i newItem itemSchema

/-- `update_list_by_index`. -/
def updateListByIndex (items : List (Node σ)) (newItems : List Value) (itemSchema : Option σ) :
    List (Node σ) × Option MirrorError :=
  applyEach (updateIndex S options items.length newItems itemSchema) items
    (List.range (max items.length newItems.length))

/-- `update_list_container`. -/
def updateListContainer (schema : Option σ) (items : List (Node σ)) (value : Value) :
    List (Node σ) × Option MirrorError :=
  match value with
  | .array newItems =>
      match schema.bind fun s => if S.kind s = .list ∨ S.kind s = .movableList then S.idSelector s
          else none with
      | some idSelector =>
          updateListWithIdSelector S options items newItems idSelector (S.listItem schema)
      | none => updateListByIndex S options items newItems (S.listItem schema)
  | _ => (items, some .listValueNotArray)

/-- `update_map_entry`: the container of a container field is overwritten with the
plain value. -/
def updateMapEntry (schema : σ) (entries : List (String × Node σ)) (entry : String × Value) :
    List (String × Node σ) :=
  let field := (S.field schema entry.1).filter fun s =>
    S.kind s = .map ∨ S.kind s = .list ∨ S.kind s = .text
  let entries := match field.bind S.containerType with
    | some type =>
        if entry.2.isObject || entry.2.isArray then
          insertEntry entry.1 (Node.build S entry.2 type field) entries
        else entries
    | none => entries
  insertEntry entry.1 (.value entry.2) entries

/-- `update_map_container`. -/
def updateMapContainer (schema : Option σ) (entries : List (String × Node σ)) (value : Value) :
    List (String × Node σ) × Option MirrorError :=
  match value with
  | .object newEntries =>
      match schema.filter fun s => S.kind s = .map with
      | some s =>
          ((newEntries.foldl (updateMapEntry S s) entries).filter fun entry =>
            (newEntries.lookup entry.1).isSome, none)
      | none => (entries, none)
  | _ => (entries, some .mapValueNotObject)

/-- `update_top_level_container`, after `register_container_with_registry`. -/
def updateTopLevelContainer (schema : Option σ) (value : Value) :
    Node σ → Node σ × Option MirrorError
  | .value v => (.value v, some .unknownRootContainerType)
  | .map id _ entries =>
      let result := updateMapContainer S schema entries value
      (.map id schema result.1, result.2)
  | .list id _ items =>
      let result := updateListContainer S options schema items value
      (.list id schema result.1, result.2)
  | .movableList id _ items =>
      let result := updateListContainer S options schema items value
      (.movableList id schema result.1, result.2)
  | .text id _ content =>
      match value with
      | .string s => (.text id schema s, none)
      | _ => (.text id schema content, some .textValueNotString)

/-- The root container of a name and type. -/
def rootContainer (roots : List (String × Node σ)) (key : String) (type : ContainerType) :
    Node σ :=
  ((roots.lookup key).filter fun node => node.containerType = some type).getD
    (emptyContainer type none)

/-- `apply_root_changes`, one change. -/
def applyRootChange (rootSchema : Option σ) (roots : List (String × Node σ)) (change : Change) :
    List (String × Node σ) × Option MirrorError :=
  let key := match change.key with
    | .prop key => key
    | .index i => toString i
  let field := rootSchema.bind fun s => if S.kind s = .root then S.field s key else none
  match (field.bind S.containerType).or
      (change.value.bind fun value => tryInferContainerType value options) with
  | none => (roots, some .unknownRootContainerType)
  | some type =>
      let result := updateTopLevelContainer S options field (change.value.getD .null)
        (rootContainer roots key type)
      (insertEntry key result.1 roots, result.2)

/-- `apply_root_changes`. -/
def applyRootChanges (rootSchema : Option σ) :
    List (String × Node σ) → List Change → List (String × Node σ) × Option MirrorError
  | roots, [] => (roots, none)
  | roots, change :: changes =>
      match applyRootChange S options rootSchema roots change with
      | (roots, none) => applyRootChanges rootSchema roots changes
      | (roots, some e) => (roots, some e)

/-- `apply_changes_to_loro`, one container: a container that is no longer there takes no
changes. -/
def applyGroupToRoots (rootSchema : Option σ) (roots : List (String × Node σ))
    (group : Option ContainerId × List Change) : List (String × Node σ) × Option MirrorError :=
  match group with
  | (none, changes) => applyRootChanges S options rootSchema roots changes
  | (some id, changes) =>
      match Node.findInEntries? id roots with
      | none => (roots, some .containerInsertFailed)
      | some n =>
          (Node.modifyEntries id (fun n => (applyContainerChanges S options changes n).1) roots,
            (applyContainerChanges S options changes n).2)

/-- `apply_changes_to_loro`, the containers one after the other. -/
def applyGroups (rootSchema : Option σ) :
    List (String × Node σ) → List (Option ContainerId × List Change) →
      List (String × Node σ) × Option MirrorError
  | roots, [] => (roots, none)
  | roots, group :: groups =>
      match applyGroupToRoots S options rootSchema roots group with
      | (roots, none) => applyGroups rootSchema roots groups
      | (roots, some e) => (roots, some e)

end Root

/-! ### The mirror -/

/-- What does not change about a mirror. -/
structure MirrorConfig (σ : Type) where
  schemas : Schemas σ
  schema : σ
  validateUpdates : Bool
  inferOptions : InferContainerOptions

/-- `Inner`: the root containers of the document, and the state. -/
structure Inner (σ : Type) where
  roots : List (String × Node σ)
  state : Value

namespace Inner

variable (c : MirrorConfig σ)

/-- `update_loro`, up to the commit. -/
def updateLoro (m : Inner σ) (newState : Value) : List (String × Node σ) × Option MirrorError :=
  let child := fun key type =>
    (rootContainer m.roots key type).differ c.schemas c.inferOptions
  if !m.state.isObjectLike || !newState.isObjectLike || c.schemas.kind c.schema ≠ .root then
    (m.roots, some (.diff .rootStateNotObjects))
  else
    match diffMap c.schemas c.inferOptions none child (some c.schema) m.state newState with
    | .error e => (m.roots, some (.diff e))
    | .ok changes =>
        applyGroups c.schemas c.inferOptions (some c.schema) m.roots (byContainer changes)

/-- `set_state`: the mirror after it, and the error. -/
def setState (m : Inner σ) (newState : Value) : Inner σ × Option MirrorError :=
  let errors := if c.validateUpdates then validateSchema c.schemas newState c.schema else []
  if errors ≠ [] then (m, some (.validationFailed (String.intercalate ", " errors)))
  else
    match m.updateLoro c newState with
    | (roots, some e) => ({ m with roots := Node.numberEntries 0 roots }, some e)
    | (roots, none) => (⟨Node.numberEntries 0 roots, newState⟩, none)

/-- `get_deep_value` of the document. -/
def deepValue (m : Inner σ) : Value := .object (Node.deepEntries m.roots)

end Inner

/-! ### Opening -/

section Opening

variable (S : Schemas σ) (options : InferContainerOptions)

mutual

/-- `register_container`: a container and those in it with their schemas. -/
def Node.register (schema : Option σ) : Node σ → Node σ
  | .value v => .value v
  | .map id _ entries => .map id schema (Node.registerEntries schema entries)
  | .list id _ items => .list id schema (Node.registerItems (S.listItem schema) items)
  | .movableList id _ items =>
      .movableList id schema (Node.registerItems (S.listItem schema) items)
  | .text id _ content => .text id schema content

/-- The items of a list, registered. -/
def Node.registerItems (schema : Option σ) : List (Node σ) → List (Node σ)
  | [] => []
  | item :: items => item.register schema :: Node.registerItems schema items

/-- The entries of a map, registered. -/
def Node.registerEntries (schema : Option σ) : List (String × Node σ) → List (String × Node σ)
  | [] => []
  | (key, node) :: entries =>
      (key, node.register (S.mapField schema key)) :: Node.registerEntries schema entries

end

/-- A root container is there once it is asked for by its name. -/
def openRoot (roots : List (String × Node σ)) (key : String) (type : Option ContainerType)
    (schema : Option σ) : List (String × Node σ) :=
  match type with
  | some type => insertEntry key ((rootContainer roots key type).register S schema) roots
  | none => roots

/-- `initialize_containers`, the roots of the schema; those of the state are asked for when it is
compared. -/
def openRoots (schema : σ) (roots : List (String × Node σ)) (state : Value) :
    List (String × Node σ) :=
  let declared := (S.fields schema).foldl (fun roots (key, field) =>
    openRoot S roots key (S.containerType field) (some field)) roots
  state.objectEntries.foldl (fun roots (key, value) =>
    if (S.field schema key).isSome then roots
    else openRoot S roots key (tryInferContainerType value options) none) declared

end Opening

/-- A mirror of a document, with a state. -/
def Inner.opened (c : MirrorConfig σ) (roots : List (String × Node σ)) (state : Value) : Inner σ :=
  ⟨Node.numberEntries 0 (openRoots c.schemas c.inferOptions c.schema roots state), state⟩

end Mirror
end ZuTalk
