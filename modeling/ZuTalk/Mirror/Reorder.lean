/-
# A movable list in another order

`diff_movable_list` computes every move against the old list, and
`apply_container_changes` applies them one after the other to a list the earlier
ones have shifted.  `diffMovableList_reorders` is when that does no harm; the
simplest order for which it does is three items turned round.
-/

import ZuTalk.Mirror.Write

namespace ZuTalk
namespace Mirror

variable {σ : Type} {idSelector : IdSelector} {oldState newState : List Value}

/-- The old places of the items, in the new order. -/
def oldOrder (oldState newState : List Value) : List ℕ := newState.map fun item => oldState.idxOf item

/-- The items outside the longest increasing subsequence of their old places that
have another place now: the old and the new one. -/
def outOfOrder (order : List ℕ) : List (ℕ × ℕ) :=
  order.zipIdx.filter fun (oldIndex, newIndex) =>
    !(longestIncreasingSubsequence order).contains newIndex && oldIndex ≠ newIndex

/-- The change that moves an item. -/
def moveItem (container : ContainerId) (info : CommonItem) : Change :=
  ⟨some container, .index info.oldIndex, some info.newItem, .move info.oldIndex info.newIndex⟩

/-! ### The changes -/

theorem oldItemOf_eq (h : Keyed idSelector oldState) {item : Value} (hitem : item ∈ oldState)
    {itemId : String} (hid : selectId idSelector item = some itemId) :
    oldItemOf idSelector oldState itemId = some (oldState.idxOf item, item) := by
  have hmem : (item, oldState.idxOf item) ∈ oldState.zipIdx :=
    List.mk_mem_zipIdx_iff_getElem?.2 (List.getElem?_idxOf hitem)
  have hunique : ∀ entry ∈ oldState.zipIdx, selectId idSelector entry.1 = some itemId →
      entry = (item, oldState.idxOf item) := by
    rintro ⟨other, i⟩ hentry hother
    have hother' := List.mk_mem_zipIdx_iff_getElem?.1 hentry
    obtain ⟨hi, rfl⟩ := List.getElem?_eq_some_iff.1 hother'
    obtain rfl := h.eq_of_selectId (List.getElem_mem hi) hitem (hother.trans hid.symm)
    rw [h.nodup.idxOf_getElem]
  unfold oldItemOf
  rw [List.findRev?_eq_findRev?TR, List.findRev?TR]
  cases hfind : oldState.zipIdx.reverse.find? fun entry =>
      selectId idSelector entry.1 = some itemId with
  | none =>
      rw [List.find?_eq_none] at hfind
      exact absurd hid (by simpa using hfind _ (List.mem_reverse.2 hmem))
  | some entry =>
      have hentry := hunique entry (List.mem_reverse.1 (List.mem_of_find?_eq_some hfind))
        (by simpa using List.find?_some hfind)
      rw [hentry]
      rfl

theorem zipIdx_zipIdx {α : Type*} (l : List α) (k : ℕ) :
    (l.zipIdx k).zipIdx k = (l.zipIdx k).map fun p => (p, p.2) := by
  induction l generalizing k with
  | nil => rfl
  | cons a l ih => rw [List.zipIdx_cons, List.zipIdx_cons, List.map_cons, ih]

/-- Every item of a rearranged list is common. -/
theorem commonItems_eq (h : Keyed idSelector oldState) (hperm : newState.Perm oldState) :
    commonItems idSelector oldState newState =
      newState.zipIdx.map fun entry => ⟨oldState.idxOf entry.1, entry.2, entry.1, entry.1⟩ := by
  unfold commonItems
  rw [← List.filterMap_eq_map]
  refine List.filterMap_congr fun entry hentry => ?_
  have hitem : entry.1 ∈ oldState := hperm.mem_iff.1 (List.fst_mem_of_mem_zipIdx hentry)
  obtain ⟨itemId, hid⟩ := Option.isSome_iff_exists.1 (h.some entry.1 hitem)
  simp only [hid, Option.bind_some, oldItemOf_eq h hitem hid, Option.map_some, Function.comp_apply]

theorem itemMoves_eq (h : Keyed idSelector oldState) (hperm : newState.Perm oldState) :
    (itemMoves (commonItems idSelector oldState newState)).map
      (fun info => (info.oldIndex, info.newIndex)) = outOfOrder (oldOrder oldState newState) := by
  have hindexes : (commonItems idSelector oldState newState).map (·.oldIndex) =
      oldOrder oldState newState := by
    rw [commonItems_eq h hperm, List.map_map]
    unfold oldOrder
    conv_rhs => rw [← List.zipIdx_map_fst 0 newState, List.map_map]
    rfl
  unfold itemMoves outOfOrder
  simp only [hindexes]
  rw [commonItems_eq h hperm, List.zipIdx_map, zipIdx_zipIdx]
  unfold oldOrder
  rw [List.zipIdx_map]
  simp only [List.filter_map, List.map_map]
  rfl

/-- Nothing is deleted, for every old item is a new one too. -/
theorem deletionIndexes_eq (hperm : newState.Perm oldState) :
    deletionIndexes idSelector oldState newState = [] := by
  unfold deletionIndexes
  rw [List.reverse_eq_nil_iff, List.filterMap_eq_nil_iff]
  rintro ⟨item, index⟩ hentry
  have hitem : item ∈ newState := hperm.mem_iff.2 (List.fst_mem_of_mem_zipIdx hentry)
  refine Option.bind_eq_none_iff.2 fun itemId hid => if_pos ?_
  have hnew : itemId ∈ newState.filterMap (selectId idSelector) :=
    List.mem_filterMap.2 ⟨item, hitem, hid⟩
  rw [List.contains_iff_mem.2 hnew, Bool.true_or]

/-- Nothing is inserted, for every new item is an old one too. -/
theorem insertions_eq (h : Keyed idSelector oldState) (hperm : newState.Perm oldState) :
    (newState.zipIdx.filter fun entry => !(selectId idSelector entry.1).any fun itemId =>
      (oldItemOf idSelector oldState itemId).isSome) = [] := by
  rw [List.filter_eq_nil_iff]
  rintro ⟨item, index⟩ hentry
  have hitem : item ∈ oldState := hperm.mem_iff.1 (List.fst_mem_of_mem_zipIdx hentry)
  obtain ⟨itemId, hid⟩ := Option.isSome_iff_exists.1 (h.some item hitem)
  simp [hid, oldItemOf_eq h hitem hid]

/-- The changes for a rearranged list are its moves. -/
theorem diffMovableList_eq {S : Schemas σ} {container : ContainerId} {itemSchema : Option σ}
    {onLoro : List (Option (Differ σ))} (h : Keyed idSelector oldState)
    (hperm : newState.Perm oldState) :
    diffMovableList S container itemSchema idSelector onLoro oldState newState =
      .ok ((itemMoves (commonItems idSelector oldState newState)).map (moveItem container)) := by
  have hupdates : ((commonItems idSelector oldState newState).filter
      fun info => info.oldItem ≠ info.newItem) = [] := by
    rw [commonItems_eq h hperm, List.filter_eq_nil_iff]
    rintro info hinfo
    obtain ⟨entry, -, rfl⟩ := List.mem_map.1 hinfo
    simp
  unfold diffMovableList
  simp only [deletionIndexes_eq hperm, insertions_eq h hperm, hupdates]
  simp
  rfl

/-! ### The moves -/

/-- Changes that are moves move. -/
theorem applyEach_moves {S : Schemas σ} {options : InferContainerOptions} {schema : Option σ}
    {container : ContainerId} {moves : List CommonItem} {items items' : List (Node σ)}
    (h : Moves.movs items (moves.map fun info => (info.oldIndex, info.newIndex)) = some items') :
    applyEach (applyListChange S options true schema) items (moves.map (moveItem container)) =
      (items', none) := by
  induction moves generalizing items with
  | nil =>
      obtain rfl := Option.some.inj h
      rfl
  | cons m moves ih =>
      rw [List.map_cons, Moves.movs_cons] at h
      obtain ⟨l, hl, hrest⟩ := Option.bind_eq_some_iff.1 h
      have hstep : applyListChange S options true schema items (moveItem container m) = .ok l := by
        simp only [applyListChange, moveItem, hl, if_true, Option.elim_some]
      rw [List.map_cons, applyEach, hstep]
      exact ih hrest

theorem oldOrder_perm (h : Keyed idSelector oldState) (hperm : newState.Perm oldState) :
    (oldOrder oldState newState).Perm (List.range oldState.length) := by
  have hself : (oldState.map fun item => oldState.idxOf item) = List.range oldState.length := by
    refine List.ext_getElem (by simp) fun i hi hi' => ?_
    simp [h.nodup.idxOf_getElem]
  rw [← hself]
  exact hperm.map _

/-- A list put in another order, by the old places. -/
def inOrder (items : List (Node σ)) (order : List ℕ) : List (Node σ) :=
  order.map (items.getD · (.value .null))

theorem inOrder_range (items : List (Node σ)) : inOrder items (List.range items.length) = items := by
  refine List.ext_getElem (by simp [inOrder]) fun i hi hi' => ?_
  simp [inOrder, hi']

/-- The new list is the old one in the old order. -/
theorem deepItems_inOrder {items : List (Node σ)} (hperm : newState.Perm (Node.deepItems items)) :
    Node.deepItems (inOrder items (oldOrder (Node.deepItems items) newState)) = newState := by
  rw [Node.deepItems_eq, inOrder, oldOrder, List.map_map, List.map_map]
  refine (List.map_congr_left fun item hitem => ?_).trans (List.map_id newState)
  have hi := List.idxOf_lt_length_of_mem (hperm.mem_iff.1 hitem)
  have hitem' := List.getElem_idxOf hi
  rw [Node.deepItems_eq] at hi
  rw [List.length_map] at hi
  simp only [Node.deepItems_eq, List.getElem_map] at hitem'
  simp only [Function.comp_apply, Node.deepItems_eq, List.getD_eq_getElem?_getD,
    List.getElem?_eq_getElem hi, Option.getD_some, hitem', id]

theorem movs_inOrder {items : List (Node σ)} {moves : List (ℕ × ℕ)} {order : List ℕ}
    (h : Moves.movs (List.range items.length) moves = some order) :
    Moves.movs items moves = some (inOrder items order) := by
  have hmap := Moves.movs_map (items.getD · (.value .null)) (List.range items.length) moves
  rw [h] at hmap
  rwa [← inOrder, inOrder_range] at hmap

/-- The moves of `outOfOrder` are about the order. -/
theorem getElem?_of_mem_outOfOrder {order : List ℕ} {m : ℕ × ℕ} (hm : m ∈ outOfOrder order) :
    order[m.2]? = some m.1 :=
  List.mk_mem_zipIdx_iff_getElem?.1 (List.mem_of_mem_filter hm)

section Write

variable {S : Schemas σ} {options : InferContainerOptions} {id : ContainerId} {schema : σ}
  {items : List (Node σ)}

theorem write_movableList (hkind : S.kind schema = .movableList)
    (hselector : S.idSelector schema = some idSelector) :
    (Node.movableList id (some schema) items).write S options (some schema) (.array newState) =
      (diffMovableList S id (S.item schema) idSelector (Node.itemDiffers S options items)
        (Node.deepItems items) newState).toOption.bind fun changes =>
          (Node.movableList id (some schema) items).applyGroups S options (byContainer changes) := by
  simp [Node.write, Node.differ, diffMovableListContainer, Node.deepValue, hkind, hselector]

/-- Whether the moves of an order can be made one after the other: none comes from
inside or before an earlier one, and the items that are not moved are in order. -/
structure Unshifted (order : List ℕ) : Prop where
  apart : Moves.Apart (outOfOrder order)
  kept : (order.filter fun q => !((outOfOrder order).map (·.1)).contains q).Pairwise (· < ·)

/-- **A movable list is rearranged** as it was to be, if the moves of the new order
are not shifted by one another. -/
theorem write_reordered (hkind : S.kind schema = .movableList)
    (hselector : S.idSelector schema = some idSelector)
    (hkeyed : Keyed idSelector (Node.deepItems items))
    (hperm : newState.Perm (Node.deepItems items))
    (hunshifted : Unshifted (oldOrder (Node.deepItems items) newState)) :
    ((Node.movableList id (some schema) items).write S options (some schema)
      (.array newState)).map (·.deepValue) = some (.array newState) := by
  have hlength : (Node.deepItems items).length = items.length := by simp [Node.deepItems_eq]
  have hmovs := Moves.movs_eq (oldOrder_perm hkeyed hperm)
    (fun m hm => getElem?_of_mem_outOfOrder hm) hunshifted.apart hunshifted.kept
  rw [← itemMoves_eq hkeyed hperm, hlength] at hmovs
  have happly : (Node.movableList id (some schema) items).applyGroups S options
      (byContainer ((itemMoves (commonItems idSelector (Node.deepItems items) newState)).map
        (moveItem id))) =
      some (.movableList id (some schema)
        (inOrder items (oldOrder (Node.deepItems items) newState))) := by
    refine applyGroups_own rfl (fun change hchange => ?_) ?_
    · obtain ⟨info, -, rfl⟩ := List.mem_map.1 hchange
      rfl
    · rw [applyContainerChanges, applyEach_moves (movs_inOrder hmovs)]
  rw [write_movableList hkind hselector, diffMovableList_eq hkeyed hperm]
  exact (congrArg _ happly).trans (by
    rw [Option.map_some, Node.deepValue, deepItems_inOrder hperm])

end Write

/-! ### A list of names -/

/-- The schemas of a movable list of names, each its own id. -/
inductive NameSchema
  | names | name
  deriving DecidableEq, Repr

/-- `loro_movable_list` of `string`. -/
def nameSchemas : Schemas NameSchema where
  kind schema := match schema with
    | .names => .movableList
    | .name => .plainString
  fields _ := []
  item schema := match schema with
    | .names => some .name
    | .name => none
  idSelector schema := match schema with
    | .names => some Value.asStr
    | .name => none
  required _ := false

/-- A movable list of names. -/
def nameList (names : List String) : Node NameSchema :=
  .movableList (.numbered 0) (some .names) (names.map fun name => .value (.string name))

/-- The two halves of a list change places. -/
theorem write_reordered_halves :
    ((nameList ["a", "b", "c", "d"]).write nameSchemas .default (some .names)
      (.array (["c", "d", "a", "b"].map .string))).map (·.deepValue) = some (.array (["c", "d", "a", "b"].map .string)) :=
  write_reordered rfl (show nameSchemas.idSelector .names = some Value.asStr from rfl)
    (by decide +kernel) (by decide +kernel) ⟨by decide +kernel, by decide +kernel⟩

/-- **A list turned round** comes out with its first two items exchanged: the move
of the second takes the first. -/
theorem write_not_reordered :
    Keyed Value.asStr (["a", "b", "c"].map Value.string) ∧
      (["c", "b", "a"].map Value.string).Perm (["a", "b", "c"].map Value.string) ∧
      ((nameList ["a", "b", "c"]).write nameSchemas .default (some .names)
        (.array (["c", "b", "a"].map .string))).map (·.deepValue) ≠
          some (.array (["c", "b", "a"].map .string)) := by
  decide +kernel

end Mirror
end ZuTalk
