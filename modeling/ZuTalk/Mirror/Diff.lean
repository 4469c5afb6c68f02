/-
# From states to changes

`crates/vt-mirror/src/diff.rs`.

`diff_container` looks a container up in the document and goes on, for a child
that is a container on both sides, with the child's id.  Here `Node.differ` is
the diff of a container that is at hand; the containers in it come with their
own, `none` for a plain value.
-/

import ZuTalk.Mirror.Document
import ZuTalk.Mirror.Lis
import Mathlib.Data.List.Nodup

namespace ZuTalk
namespace Mirror

variable {σ : Type}

/-- `DiffError`. -/
inductive DiffError
  | rootStateNotObjects | mapStateNotObjects | listStateNotArrays | movableListStateNotArrays
  | textStateNotStrings | movableListWithoutIdSelector | expectedMapContainer
  deriving DecidableEq, Repr

/-- The diff of one container: its schema, the old and the new state. -/
abbrev Differ (σ : Type) := Option σ → Value → Value → Except DiffError (List Change)

/-- `select_id`: an empty id is none. -/
def selectId (idSelector : IdSelector) (item : Value) : Option String :=
  (idSelector item).filter (· ≠ "")

/-- Every item has an id, and no two have the same. -/
structure Keyed (idSelector : IdSelector) (items : List Value) : Prop where
  some : ∀ item ∈ items, (selectId idSelector item).isSome = true
  distinct : (items.map (selectId idSelector)).Nodup

namespace Keyed

variable {idSelector : IdSelector} {items : List Value}

theorem nodup (h : Keyed idSelector items) : items.Nodup := .of_map _ h.distinct

/-- Items with the same id are the same. -/
theorem eq_of_selectId (h : Keyed idSelector items) {a b : Value} (ha : a ∈ items)
    (hb : b ∈ items) (hid : selectId idSelector a = selectId idSelector b) : a = b :=
  List.inj_on_of_nodup_map h.distinct ha hb hid

theorem tail {item : Value} (h : Keyed idSelector (item :: items)) : Keyed idSelector items :=
  ⟨fun other hother => h.some other (List.mem_cons_of_mem _ hother), h.distinct.tail⟩

end Keyed

instance (idSelector : IdSelector) (items : List Value) : Decidable (Keyed idSelector items) :=
  decidable_of_iff ((∀ item ∈ items, (selectId idSelector item).isSome = true) ∧
    (items.map (selectId idSelector)).Nodup) ⟨fun h => ⟨h.1, h.2⟩, fun h => ⟨h.some, h.distinct⟩⟩

/-- `diff_text`. -/
def diffText (container : ContainerId) (oldState newState : String) : List Change :=
  if newState = oldState then []
  else [⟨some container, .prop "", some (.string newState), .insert⟩]

section Lists

variable (S : Schemas σ)

/-- The change that inserts an item at an index of a list. -/
def insertItem (container : ContainerId) (itemSchema : Option σ) (index : ℕ) (item : Value) :
    Change :=
  tryUpdateToInsertContainer S itemSchema ⟨some container, .index index, some item, .insert⟩

/-- The change that deletes the item at an index of a list. -/
def deleteItem (container : ContainerId) (index : ℕ) : Change :=
  ⟨some container, .index index, none, .delete⟩

/-- The changes for an item that has another content: a container's own, else the
item is deleted and inserted again. -/
def updateItem (container : ContainerId) (itemSchema : Option σ) (onLoro : Option (Differ σ))
    (index : ℕ) (oldItem newItem : Value) : Except DiffError (List Change) :=
  match onLoro with
  | some differ => differ itemSchema oldItem newItem
  | none => .ok [deleteItem container index, insertItem S container itemSchema index newItem]

/-! ### Lists with ids -/

/-- `signed`. -/
def signed (index : ℕ) (offset : ℤ) : ℕ := (index + offset).toNat

/-- The insertions of items one after the other before an old index. -/
def insertItems (container : ContainerId) (itemSchema : Option σ) (index : ℕ) :
    ℤ → List Value → List Change
  | _, [] => []
  | offset, item :: items =>
      insertItem S container itemSchema (signed index offset) item ::
        insertItems container itemSchema index (offset + 1) items

/-- The new items that are inserted before the old item: it stays the one looked
at as long as the next new item has an id that no old item has. -/
def newcomers (idSelector : IdSelector) (oldIds : List String) (oldItem : Value)
    (newState : List Value) : List Value :=
  newState.takeWhile fun newItem =>
    newItem ≠ oldItem && (selectId idSelector oldItem).isSome &&
      (selectId idSelector newItem).any fun newId =>
        selectId idSelector oldItem ≠ some newId && !oldIds.contains newId

/-- The scan of `diff_list_with_id_selector` from an old item on: `onLoro` are the
elements of the document list from `index` on. -/
def scanList (container : ContainerId) (itemSchema : Option σ) (idSelector : IdSelector)
    (oldIds : List String) :
    ℕ → ℤ → List Value → List (Option (Differ σ)) → List Value → Except DiffError (List Change)
  | index, offset, [], _, newState =>
      .ok (insertItems S container itemSchema index offset newState)
  | index, offset, oldItem :: oldState, onLoro, newState =>
      let inserted := newcomers idSelector oldIds oldItem newState
      let changes := insertItems S container itemSchema index offset inserted
      let offset := offset + inserted.length
      let rest := fun offset newState =>
        scanList container itemSchema idSelector oldIds (index + 1) offset oldState onLoro.tail
          newState
      (changes ++ ·) <$>
        match newState.drop inserted.length with
        | [] => rest offset []
        | newItem :: newState =>
            if oldItem = newItem then rest offset newState
            else
              match selectId idSelector oldItem, selectId idSelector newItem with
              | some oldId, some newId =>
                  if oldId = newId then do
                    let update ← updateItem S container itemSchema (onLoro.head?.bind id)
                      (signed index offset) oldItem newItem
                    return update ++ (← rest offset newState)
                  else
                    -- the new item is an old one further on
                    return deleteItem container (signed index offset) ::
                      (← rest (offset - 1) (newItem :: newState))
              | _, _ => rest offset (newItem :: newState)

/-- `diff_list_with_id_selector`. -/
def diffListWithIdSelector (container : ContainerId) (itemSchema : Option σ)
    (idSelector : IdSelector) (onLoro : List (Option (Differ σ))) (oldState newState : List Value) :
    Except DiffError (List Change) :=
  scanList S container itemSchema idSelector (oldState.filterMap (selectId idSelector)) 0 0
    oldState onLoro newState

/-! ### Movable lists -/

/-- `CommonItem`. -/
structure CommonItem where
  oldIndex : ℕ
  newIndex : ℕ
  oldItem : Value
  newItem : Value
  deriving DecidableEq

/-- `old_map`: where an id last is in the old list. -/
def oldItemOf (idSelector : IdSelector) (oldState : List Value) (itemId : String) :
    Option (ℕ × Value) :=
  (oldState.zipIdx.findRev? fun entry => selectId idSelector entry.1 = some itemId).map
    fun entry => (entry.2, entry.1)

/-- `common_items`, in the new order. -/
def commonItems (idSelector : IdSelector) (oldState newState : List Value) : List CommonItem :=
  newState.zipIdx.filterMap fun (newItem, newIndex) =>
    (selectId idSelector newItem).bind fun itemId =>
      (oldItemOf idSelector oldState itemId).map fun (oldIndex, oldItem) =>
        ⟨oldIndex, newIndex, oldItem, newItem⟩

/-- `deletion_indexes`: the items no new one has the id of, from the last on. -/
def deletionIndexes (idSelector : IdSelector) (oldState newState : List Value) : List ℕ :=
  let newIds := newState.filterMap (selectId idSelector)
  (oldState.zipIdx.filterMap fun (item, index) =>
    (selectId idSelector item).bind fun itemId =>
      if newIds.contains itemId ||
          (oldItemOf idSelector oldState itemId).map (·.1) ≠ some index then none
      else some index).reverse

/-- The moves: a common item outside the longest increasing subsequence that has
another index now. -/
def itemMoves (common : List CommonItem) : List CommonItem :=
  let lis := longestIncreasingSubsequence (common.map (·.oldIndex))
  (common.zipIdx.filter fun (info, i) =>
    !lis.contains i && info.oldIndex ≠ info.newIndex).map (·.1)

/-- `diff_movable_list`. -/
def diffMovableList (container : ContainerId) (itemSchema : Option σ) (idSelector : IdSelector)
    (onLoro : List (Option (Differ σ))) (oldState newState : List Value) :
    Except DiffError (List Change) := do
  let common := commonItems idSelector oldState newState
  let deletions := (deletionIndexes idSelector oldState newState).map (deleteItem container)
  let moves := (itemMoves common).map fun info : CommonItem =>
    Change.mk (some container) (.index info.oldIndex) (some info.newItem)
      (.move info.oldIndex info.newIndex)
  let insertions := (newState.zipIdx.filter fun (item, _) =>
    !(selectId idSelector item).any fun itemId =>
      (oldItemOf idSelector oldState itemId).isSome).map
    fun (item, index) => insertItem S container itemSchema index item
  let updates ← (common.filter fun info => info.oldItem ≠ info.newItem).mapM fun info =>
    updateItem S container itemSchema (onLoro[info.oldIndex]?.bind id) info.newIndex info.oldItem
      info.newItem
  return deletions ++ moves ++ insertions ++ updates.flatten

/-! ### Lists without ids -/

/-- `diff_list`. -/
def diffList (container : ContainerId) (itemSchema : Option σ) (onLoro : List (Option (Differ σ)))
    (oldState newState : List Value) : Except DiffError (List Change) := do
  let updates ← ((oldState.zip newState).zipIdx.filter fun ((oldItem, newItem), _) =>
    oldItem ≠ newItem).mapM fun ((oldItem, newItem), i) =>
      updateItem S container itemSchema (onLoro[i]?.bind id) i oldItem newItem
  let deletions := (List.range' newState.length (oldState.length - newState.length)).map
    (deleteItem container)
  let insertions := (newState.zipIdx.drop oldState.length).map
    fun (item, i) => insertItem S container itemSchema i item
  return updates.flatten ++ deletions ++ insertions

end Lists

/-! ### Maps -/

/-- `diff_map`; `child key type` is the diff of the container under a key, if there
is one. -/
def diffMap (S : Schemas σ) (options : InferContainerOptions) (container : Option ContainerId)
    (child : String → ContainerType → Option (Differ σ)) (schema : Option σ)
    (oldState newState : Value) : Except DiffError (List Change) := do
  let fieldSchema := fun key => schema.bind fun s =>
    if S.kind s = .map ∨ S.kind s = .root then S.field s key else none
  let deletions := (oldState.objectEntries.filter fun (key, _) =>
    (newState.objectGet key).isNone).map
    fun (key, _) => Change.mk container (.prop key) none .delete
  let updates ← newState.objectEntries.mapM fun (key, newItem) =>
    let childSchema := fieldSchema key
    let type := (childSchema.bind S.containerType).or (tryInferContainerType newItem options)
    let oldItem := oldState.objectGet key
    -- an old value that JavaScript takes for false counts as absent
    if Value.isFalsy oldItem then
      .ok [⟨container, .prop key, some newItem, type.elim .insert .insertContainer⟩]
    else
      match oldItem with
      | none => .ok []
      | some oldItem =>
          if oldItem = newItem then .ok []
          else
            match type.filter fun type =>
              isValueOfContainerType type newItem && isValueOfContainerType type oldItem with
            | some type =>
                match child key type with
                | some differ => differ childSchema oldItem newItem
                | none => .ok [insertChildToMap container key newItem]
            | none => .ok [insertChildToMap container key newItem]
  return deletions ++ updates.flatten

/-! ### Containers -/

section Containers

variable (S : Schemas σ) (options : InferContainerOptions)

/-- `diff_container` of a map. -/
def diffMapContainer (id : ContainerId) (child : String → ContainerType → Option (Differ σ)) :
    Differ σ := fun schema oldState newState =>
  if !oldState.isObjectLike || !newState.isObjectLike || schema.any (S.kind · ≠ .map) then
    .error .mapStateNotObjects
  else diffMap S options (some id) child schema oldState newState

/-- `diff_container` of a list. -/
def diffListContainer (id : ContainerId) (onLoro : List (Option (Differ σ))) : Differ σ :=
  fun schema oldState newState =>
    match oldState, newState with
    | .array oldItems, .array newItems =>
        if schema.any (S.kind · ≠ .list) then .error .listStateNotArrays
        else
          match schema.bind S.idSelector with
          | some idSelector =>
              diffListWithIdSelector S id (schema.bind S.item) idSelector onLoro oldItems newItems
          | none => diffList S id (schema.bind S.item) onLoro oldItems newItems
    | _, _ => .error .listStateNotArrays

/-- `diff_container` of a movable list. -/
def diffMovableListContainer (id : ContainerId) (onLoro : List (Option (Differ σ))) : Differ σ :=
  fun schema oldState newState =>
    match oldState, newState with
    | .array oldItems, .array newItems =>
        if schema.any (S.kind · ≠ .movableList) then .error .movableListStateNotArrays
        else
          match schema.bind S.idSelector with
          | some idSelector =>
              diffMovableList S id (schema.bind S.item) idSelector onLoro oldItems newItems
          | none => .error .movableListWithoutIdSelector
    | _, _ => .error .movableListStateNotArrays

/-- `diff_container` of a text. -/
def diffTextContainer (id : ContainerId) : Differ σ := fun schema oldState newState =>
  match oldState, newState with
  | .string oldText, .string newText =>
      if schema.any (S.kind · ≠ .text) then .error .textStateNotStrings
      else .ok (diffText id oldText newText)
  | _, _ => .error .textStateNotStrings

mutual

/-- `diff_container` of the container a node is. -/
def Node.differ : Node σ → Option (Differ σ)
  | .value _ => none
  | .map id _ entries =>
      let differs := Node.entryDiffers entries
      some (diffMapContainer S options id fun key _ => (differs.lookup key).bind fun d => d)
  | .list id _ items => some (diffListContainer S id (Node.itemDiffers items))
  | .movableList id _ items => some (diffMovableListContainer S id (Node.itemDiffers items))
  | .text id _ _ => some (diffTextContainer S id)

/-- The diffs of list items. -/
def Node.itemDiffers : List (Node σ) → List (Option (Differ σ))
  | [] => []
  | item :: items => item.differ :: Node.itemDiffers items

/-- The diffs of map entries. -/
def Node.entryDiffers : List (String × Node σ) → List (String × Option (Differ σ))
  | [] => []
  | (key, node) :: entries => (key, node.differ) :: Node.entryDiffers entries

end

end Containers

end Mirror
end ZuTalk
