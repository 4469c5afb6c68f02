/-
# A list without ids

`diff_list` compares a list without ids place by place: a changed item is deleted and inserted
again, what is missing at the end is inserted, and what is too much is deleted.

The surplus is deleted at ascending indices, while `apply_container_changes` applies one deletion
after the other to a list that gets shorter.  So a list shrinks by one item at most
(`diffList_applies_iff`); of a larger surplus the deletions leave every other item and then run out
of the list.
-/

import ZuTalk.Mirror.Failure
import ZuTalk.Mirror.ListPlan
import ZuTalk.Mirror.Reorder

namespace ZuTalk
namespace Mirror

variable {σ : Type}

section Positional

variable (S : Schemas σ) (options : InferContainerOptions) (container : ContainerId)
  (itemSchema : Option σ)

/-- An item goes into a list as a value, not as a container. -/
def PlainItem (item : Value) : Prop :=
  (itemSchema.bind fun s => (S.containerType s).or (tryInferContainerType item .default)) ∈
    [none, some .movableList]

instance (item : Value) : Decidable (PlainItem S itemSchema item) := by
  unfold PlainItem
  infer_instance

/-- The change that inserts a plain item. -/
def insertPlain (index : ℕ) (item : Value) : Change :=
  ⟨some container, .index index, some item, .insert⟩

/-- The changes for the places that both lists have. -/
def replacements : ℕ → List Value → List Value → List Change
  | index, oldItem :: oldState, newItem :: newState =>
      (if oldItem = newItem then []
        else [deleteItem container index, insertPlain container index newItem]) ++
        replacements (index + 1) oldState newState
  | _, [], _ | _, _ :: _, [] => []

/-- The deletions of what a list has too much. -/
def surplus (oldState newState : List Value) : List Change :=
  (List.range' newState.length (oldState.length - newState.length)).map (deleteItem container)

/-- The insertions of what is missing at the end. -/
def missing (oldState newState : List Value) : List Change :=
  (newState.zipIdx.drop oldState.length).map fun (item, i) => insertPlain container i item

variable {S options container itemSchema} {schema : Option σ} {oldState newState : List Value}

theorem insertItem_plain {item : Value} (h : PlainItem S itemSchema item) (index : ℕ) :
    insertItem S container itemSchema index item = insertPlain container index item := by
  unfold PlainItem at h
  unfold insertItem tryUpdateToInsertContainer
  dsimp only [Option.bind_some]
  rcases List.mem_cons.1 h with hnone | hlist
  · rw [hnone]
    rfl
  · rw [List.mem_singleton.1 hlist]
    rfl

/-- No plain value is a container on the document. -/
theorem itemDiffers_values (values : List Value) (i : ℕ) :
    ((Node.itemDiffers S options (values.map Node.value))[i]?).bind id = none := by
  induction values generalizing i with
  | nil => rfl
  | cons value values ih =>
      cases i with
      | zero => rfl
      | succ i => exact ih i

theorem mapM_replacements (container : ContainerId) {onLoro : List (Option (Differ σ))}
    (honLoro : ∀ i : ℕ, onLoro[i]?.bind id = none)
    (oldState : List Value) (h : ∀ item ∈ newState, PlainItem S itemSchema item) (index : ℕ) :
    List.flatten <$> (((oldState.zip newState).zipIdx index).filter fun ((oldItem, newItem), _) =>
      oldItem ≠ newItem).mapM (fun ((oldItem, newItem), i) =>
        updateItem S container itemSchema (onLoro[i]?.bind id) i oldItem newItem) =
      .ok (replacements container index oldState newState) := by
  induction oldState generalizing newState index with
  | nil => rfl
  | cons oldItem oldState ih =>
      cases newState with
      | nil => rfl
      | cons newItem newState =>
          obtain ⟨hitem, hrest⟩ := List.forall_mem_cons.1 h
          have hih := ih hrest (index + 1)
          rw [List.zip_cons_cons, List.zipIdx_cons, replacements]
          by_cases heq : oldItem = newItem
          · rw [List.filter_cons_of_neg (by simpa using heq), if_pos heq, List.nil_append]
            exact hih
          · rw [List.filter_cons_of_pos (by simpa using heq), if_neg heq, List.mapM_cons]
            dsimp only
            rw [honLoro, updateItem, insertItem_plain hitem]
            cases hmap : (((oldState.zip newState).zipIdx (index + 1)).filter
              fun ((oldItem, newItem), _) => oldItem ≠ newItem).mapM
                (fun ((oldItem, newItem), i) =>
                  updateItem S container itemSchema (onLoro[i]?.bind id) i oldItem newItem) with
            | error e => rw [hmap] at hih; cases hih
            | ok updates =>
                rw [hmap] at hih
                have hflatten : updates.flatten =
                    replacements container (index + 1) oldState newState :=
                  Except.ok.inj hih
                rw [← hflatten]
                rfl

/-- The changes of `diff_list` to a list of plain values. -/
theorem diffList_values (h : ∀ item ∈ newState, PlainItem S itemSchema item) :
    diffList S container itemSchema (Node.itemDiffers S options (oldState.map Node.value)) oldState
        newState =
      .ok (replacements container 0 oldState newState ++ surplus container oldState newState ++
        missing container oldState newState) := by
  have honLoro : ∀ i : ℕ,
      (Node.itemDiffers S options (oldState.map Node.value))[i]?.bind id = none :=
    itemDiffers_values oldState
  have hupdates := mapM_replacements container honLoro oldState h 0
  have hmissing : (newState.zipIdx.drop oldState.length).map
      (fun (item, i) => insertItem S container itemSchema i item) =
        missing container oldState newState := by
    refine List.map_congr_left fun entry hentry => insertItem_plain (h _ ?_) _
    exact List.fst_mem_of_mem_zipIdx (List.mem_of_mem_drop hentry)
  unfold diffList
  rw [hmissing]
  cases hmap : (((oldState.zip newState).zipIdx 0).filter fun ((oldItem, newItem), _) =>
    oldItem ≠ newItem).mapM (fun ((oldItem, newItem), i) =>
      updateItem S container itemSchema
        ((Node.itemDiffers S options (oldState.map Node.value))[i]?.bind id) i oldItem
          newItem) with
  | error e => rw [hmap] at hupdates; cases hupdates
  | ok updates =>
      rw [hmap] at hupdates
      have hflatten : updates.flatten = replacements container 0 oldState newState :=
        Except.ok.inj hupdates
      rw [← hflatten]
      rfl

/-! ### The changes applied -/

theorem applyListChange_insertPlain (items rest : List (Node σ)) (item : Value) :
    applyListChange S options false schema (items ++ rest)
        (insertPlain container items.length item) =
      .ok (items ++ .value item :: rest) := by
  simp only [applyListChange, insertPlain, insertAt_length, Option.getD_some, Option.elim_some]

/-- **The places that both lists have take the new items.** -/
theorem applyEach_replacements (newState : List Value) (items : List (Node σ)) :
    applyEach (applyListChange S options false schema) (items ++ oldState.map .value)
        (replacements container items.length oldState newState) =
      (items ++ (newState.take oldState.length).map .value ++
        (oldState.drop newState.length).map .value, none) := by
  induction oldState generalizing newState items with
  | nil => simp [replacements, applyEach]
  | cons oldItem oldState ih =>
      cases newState with
      | nil => simp [replacements, applyEach]
      | cons newItem newState =>
          have hrest := ih newState (items ++ [.value newItem])
          rw [List.length_append, List.length_singleton] at hrest
          have hitem : applyEach (applyListChange S options false schema)
              (items ++ (oldItem :: oldState).map .value)
              (if oldItem = newItem then []
                else [deleteItem container items.length,
                  insertPlain container items.length newItem]) =
              (items ++ [.value newItem] ++ oldState.map .value, none) := by
            split
            next heq => simp [applyEach, heq]
            next =>
              rw [applyEach, List.map_cons, applyListChange_deleteItem]
              dsimp only
              rw [applyEach, applyListChange_insertPlain]
              simp [applyEach]
          rw [replacements, applyEach_append_ok hitem, hrest]
          simp

theorem applyEach_missing (items : List (Node σ)) (newItems : List Value) :
    applyEach (applyListChange S options false schema) items
        ((newItems.zipIdx items.length).map fun (item, i) => insertPlain container i item) =
      (items ++ newItems.map .value, none) := by
  induction newItems generalizing items with
  | nil => simp [applyEach]
  | cons newItem newItems ih =>
      rw [List.zipIdx_cons, List.map_cons, applyEach]
      have hinsert : applyListChange S options false schema (items ++ [])
          (insertPlain container items.length newItem) = .ok (items ++ [.value newItem]) :=
        applyListChange_insertPlain items [] newItem
      rw [List.append_nil] at hinsert
      rw [hinsert]
      have hrest := ih (items ++ [.value newItem])
      rw [List.length_append, List.length_singleton] at hrest
      simpa using hrest

/-- **Deletions at ascending indices go through only while they stay in the list**, which gets
shorter by one each time. -/
theorem applyEach_deletions (items : List (Node σ)) (first count : ℕ) :
    (applyEach (applyListChange S options false schema) items
        ((List.range' first count).map (deleteItem container))).2 = none ↔
      count = 0 ∨ first + 2 * count ≤ items.length + 1 := by
  induction count generalizing items first with
  | zero => simp [applyEach]
  | succ count ih =>
      rw [List.range'_succ, List.map_cons, applyEach]
      by_cases hlt : first < items.length
      · have hdelete : applyListChange S options false schema items (deleteItem container first) =
            .ok (items.eraseIdx first) := by
          simp [applyListChange, deleteItem, deleteAt, hlt]
        rw [hdelete]
        dsimp only
        rw [ih, List.length_eraseIdx_of_lt hlt]
        omega
      · have hdelete : applyListChange S options false schema items (deleteItem container first) =
            .error .containerInsertFailed := by
          simp [applyListChange, deleteItem, deleteAt, hlt]
        rw [hdelete]
        exact iff_of_false (by simp) (by omega)

theorem drop_zipIdx_eq {α : Type*} (l : List α) (n first : ℕ) :
    (l.zipIdx first).drop n = (l.drop n).zipIdx (first + n) := by
  induction l generalizing n first with
  | nil => simp
  | cons x l ih =>
      cases n with
      | zero => rfl
      | succ n =>
          rw [List.zipIdx_cons, List.drop_succ_cons, List.drop_succ_cons, ih]
          congr 1
          omega

/-- A list that does not get shorter takes what is missing. -/
theorem applyEach_grown (h : oldState.length ≤ newState.length) :
    applyEach (applyListChange S options false schema)
        ((newState.take oldState.length).map .value) (missing container oldState newState) =
      (newState.map .value, none) := by
  have hlength : ((newState.take oldState.length).map (Node.value (σ := σ))).length =
      oldState.length := by simpa using h
  have hmissing : missing container oldState newState =
      ((newState.drop oldState.length).zipIdx
        ((newState.take oldState.length).map (Node.value (σ := σ))).length).map
          fun (item, i) => insertPlain container i item := by
    rw [missing, drop_zipIdx_eq, Nat.zero_add, hlength]
  rw [hmissing, applyEach_missing, ← List.map_append, List.take_append_drop]

/-- A list that gets shorter loses what is too much exactly if that is one item at most. -/
theorem applyEach_shrunk_iff (h : newState.length ≤ oldState.length) :
    applyEach (applyListChange S options false schema)
        (newState.map .value ++ (oldState.drop newState.length).map .value)
        (surplus container oldState newState) = (newState.map .value, none) ↔
      oldState.length ≤ newState.length + 1 := by
  constructor
  · intro happlied
    have hnone := congrArg Prod.snd happlied
    unfold surplus at hnone
    rw [applyEach_deletions] at hnone
    simp only [List.length_append, List.length_map, List.length_drop] at hnone
    omega
  · intro hle
    rcases Nat.lt_or_eq_of_le h with hlt | heq
    · obtain ⟨last, hlast⟩ : ∃ last, oldState.drop newState.length = [last] :=
        List.length_eq_one_iff.1 (by rw [List.length_drop]; omega)
      have hone : oldState.length - newState.length = 1 := by omega
      have hlength : (newState.map (Node.value (σ := σ))).length = newState.length := by simp
      unfold surplus
      rw [hlast, hone, ← hlength]
      simp only [List.range'_one, List.map_cons, List.map_nil, applyEach,
        applyListChange_deleteItem, List.append_nil]
    · simp [surplus, heq, applyEach]

/-- **The changes of `diff_list`, applied to the old list, succeed and leave the new list exactly
if the list gets shorter by one item at most.** -/
theorem diffList_applies_iff (S : Schemas σ) (options : InferContainerOptions)
    (container : ContainerId) (schema itemSchema : Option σ) (oldState newState : List Value)
    (h : ∀ item ∈ newState, PlainItem S itemSchema item) :
    ∃ changes, diffList S container itemSchema
        (Node.itemDiffers S options (oldState.map .value)) oldState newState = .ok changes ∧
      (applyContainerChanges S options changes (.list container schema (oldState.map .value)) =
          (.list container schema (newState.map .value), none) ↔
        oldState.length ≤ newState.length + 1) := by
  refine ⟨_, diffList_values h, ?_⟩
  have hreplaced : applyEach (applyListChange S options false schema) (oldState.map .value)
      (replacements container 0 oldState newState) =
        ((newState.take oldState.length).map .value ++
          (oldState.drop newState.length).map .value, none) :=
    applyEach_replacements newState []
  rw [applyContainerChanges, List.append_assoc, applyEach_append_ok hreplaced]
  simp only [Prod.mk.injEq, Node.list.injEq, true_and]
  rw [← Prod.mk_inj]
  rcases Nat.le_total oldState.length newState.length with hgrows | hshrinks
  · -- nothing is too much, and what is missing is appended
    have hsurplus : surplus container oldState newState = [] := by
      simp [surplus, Nat.sub_eq_zero_of_le hgrows]
    rw [hsurplus, List.nil_append, List.drop_eq_nil_of_le hgrows, List.map_nil, List.append_nil,
      applyEach_grown hgrows]
    exact iff_of_true rfl (by omega)
  · -- nothing is missing
    have hmissing : missing container oldState newState = [] := by
      simp [missing, List.drop_eq_nil_of_le, hshrinks]
    rw [hmissing, List.append_nil, List.take_of_length_le hshrinks]
    exact applyEach_shrunk_iff hshrinks

/-- Two names become one. -/
theorem diffList_applies_shorter :
    (∀ item ∈ [Value.string "c"], PlainItem nameSchemas (some .name) item) ∧
      ∃ changes, diffList nameSchemas (.numbered 0) (some .name)
          (Node.itemDiffers nameSchemas .default ([.string "a", .string "b"].map .value))
          [.string "a", .string "b"] [.string "c"] = .ok changes ∧
        (applyContainerChanges nameSchemas .default changes
            (.list (.numbered 0) none ([.string "a", .string "b"].map .value)) =
          (.list (.numbered 0) none ([.string "c"].map .value), none) ↔ 2 ≤ 1 + 1) := by
  have hplain : ∀ item ∈ [Value.string "c"], PlainItem nameSchemas (some .name) item := by
    decide
  exact ⟨hplain, diffList_applies_iff nameSchemas .default (.numbered 0) none (some .name)
    [.string "a", .string "b"] [.string "c"] hplain⟩

/-- **Three names do not become one**: the second deletion is out of the list. -/
theorem diffList_fails_shorter :
    ∃ changes, diffList nameSchemas (.numbered 0) (some .name)
        (Node.itemDiffers nameSchemas .default
          ([.string "a", .string "b", .string "c"].map .value))
        [.string "a", .string "b", .string "c"] [.string "a"] = .ok changes ∧
      (applyContainerChanges nameSchemas .default changes (.list (.numbered 0) none
        ([.string "a", .string "b", .string "c"].map .value))).2 =
          some .containerInsertFailed :=
  ⟨_, rfl, rfl⟩

end Positional

end Mirror
end ZuTalk
