/-
# Lists that take what they are to hold

The changes to a list, seen as what becomes of its items from the first on: an item is kept, takes
changes of its own, is replaced or deleted, and new ones come in between.  A list takes the
changes, and is left with the items (`ListPlan.writes_list`).
-/

import ZuTalk.Library.Rows
import ZuTalk.Mirror.Fields

namespace ZuTalk
namespace Mirror

variable {σ : Type}

/-- What becomes of the next item of a list. -/
inductive ListStep (σ : Type)
  | insert (v : Value) (fresh : Node σ)
  | keep (v : Value) (node : Node σ)
  | update (v : Value) (node : Node σ) (changes : List Change)
  | replace (v : Value) (node fresh : Node σ)
  | delete (node : Node σ)

namespace ListStep

/-- The item a step is about. -/
def node? : ListStep σ → Option (Node σ)
  | .insert _ _ => none
  | .keep _ node | .update _ node _ | .replace _ node _ | .delete node => some node

/-- The value the step leaves. -/
def value? : ListStep σ → Option Value
  | .insert v _ | .keep v _ | .update v _ _ | .replace v _ _ => some v
  | .delete _ => none

/-- What the step leaves of the list, the items that stay seen through `g`. -/
def left (g : Node σ → Node σ) : ListStep σ → Option (Node σ)
  | .insert _ fresh | .replace _ _ fresh => some fresh
  | .keep _ node | .update _ node _ => some (g node)
  | .delete _ => none

/-- The changes in the item. -/
def inner : ListStep σ → List Change
  | .update _ _ changes => changes
  | _ => []

end ListStep

section Plan

variable (S : Schemas σ) (options : InferContainerOptions) (id : ContainerId)
  (itemSchema : Option σ)

/-- The changes to the list at an index. -/
def ListStep.own (index : ℕ) : ListStep σ → List Change
  | .insert v _ => [insertItem S id itemSchema index v]
  | .keep _ _ | .update _ _ _ => []
  | .replace v _ _ => [deleteItem id index, insertItem S id itemSchema index v]
  | .delete _ => [deleteItem id index]

/-- The changes of the steps, from an index on. -/
def renderSteps : ℕ → List (ListStep σ) → List Change
  | _, [] => []
  | index, step :: steps =>
      step.own S id itemSchema index ++ step.inner ++
        renderSteps (index + step.value?.toList.length) steps

variable (schema : Option σ)

/-- A change that puts a new item with a value at an index of a list. -/
structure Inserts (v : Value) (fresh : Node σ) : Prop where
  value : fresh.deepValue = v
  created : ∀ i ∈ fresh.ids, i = .created
  applies : ∀ index items, index ≤ items.length →
    applyListChange S options false schema items (insertItem S id itemSchema index v) =
      .ok (items.insertIdx index fresh)

/-- What a step needs: new items are what they are to be, and so are those that stay. -/
def ListStep.Good : ListStep σ → Prop
  | .insert v fresh | .replace v _ fresh => Inserts S options id itemSchema schema v fresh
  | .keep v node => node.deepValue = v
  | .update v node changes => Writes S options changes node v
  | .delete _ => True

/-- The changes to the list name it. -/
theorem container_of_mem_own {step : ListStep σ} {index : ℕ} {change : Change}
    (h : change ∈ step.own S id itemSchema index) : change.container = some id := by
  have hinsert : ∀ v, (insertItem S id itemSchema index v).container = some id := by
    intro v
    unfold insertItem tryUpdateToInsertContainer
    dsimp only
    split <;> rfl
  cases step with
  | insert v fresh => exact List.mem_singleton.1 h ▸ hinsert v
  | keep v node => cases h
  | update v node changes => cases h
  | replace v node fresh =>
      rcases List.mem_cons.1 h with rfl | h
      · rfl
      · exact List.mem_singleton.1 h ▸ hinsert v
  | delete node => exact List.mem_singleton.1 h ▸ rfl

/-- The changes to what is in the items are those of the steps. -/
theorem changesTo_renderSteps {i : ContainerId} (h : i ≠ id) (index : ℕ)
    (steps : List (ListStep σ)) : changesTo i (renderSteps S id itemSchema index steps) =
      steps.flatMap fun step => changesTo i step.inner := by
  induction steps generalizing index with
  | nil => rfl
  | cons step steps ih =>
      have hown : changesTo i (step.own S id itemSchema index) = [] :=
        changesTo_eq_nil fun change hchange heq =>
          h (Option.some.inj (heq.symm.trans (container_of_mem_own S id itemSchema hchange)))
      rw [renderSteps, changesTo_append, changesTo_append, hown, ih, List.nil_append,
        List.flatMap_cons]

/-- The changes in an item name containers in it. -/
theorem ListStep.Good.within {step : ListStep σ} (h : step.Good S options id itemSchema schema)
    {change : Change} (hchange : change ∈ step.inner) :
    ∃ node, step.node? = some node ∧ ∃ i ∈ node.ids, change.container = some i := by
  cases step with
  | update v node changes => exact ⟨node, rfl, Takes.within (Writes.toTakes h) change hchange⟩
  | insert v fresh | keep v node | replace v node fresh | delete node => cases hchange

section Own

variable {S options id itemSchema schema}

theorem insertAt_length {α : Type*} (l l' : List α) (x : α) :
    insertAt (l ++ l') l.length x = some (l ++ x :: l') := by
  rw [insertAt, if_pos (List.length_append ▸ Nat.le_add_right ..), Rows.insertIdx_at]

theorem deleteAt_length {α : Type*} (l l' : List α) (x : α) :
    deleteAt (l ++ x :: l') l.length = some (l ++ l') := by
  have hlength : l.length < (l ++ x :: l').length := by
    rw [List.length_append, List.length_cons]
    omega
  rw [deleteAt, if_pos hlength, List.eraseIdx_append_of_length_le le_rfl, Nat.sub_self,
    List.eraseIdx_cons_zero]

theorem Inserts.applyListChange {v : Value} {fresh : Node σ}
    (h : Inserts S options id itemSchema schema v fresh) (items rest : List (Node σ)) :
    applyListChange S options false schema (items ++ rest)
        (insertItem S id itemSchema items.length v) = .ok (items ++ fresh :: rest) := by
  rw [h.applies _ _ (List.length_append ▸ Nat.le_add_right ..), Rows.insertIdx_at]

theorem applyListChange_deleteItem (schema : Option σ) (items rest : List (Node σ))
    (node : Node σ) : applyListChange S options false schema (items ++ node :: rest)
      (deleteItem id items.length) = .ok (items ++ rest) := by
  simp only [Mirror.applyListChange, deleteItem, deleteAt_length, Option.elim_some]

/-- **The list's own changes, item by item**: those before are done, those after are still to
come. -/
theorem applyEach_own (g : Node σ → Node σ) {steps : List (ListStep σ)}
    (hgood : ∀ step ∈ steps, step.Good S options id itemSchema schema)
    (hinner : ∀ step ∈ steps, changesTo id step.inner = []) (items : List (Node σ)) :
    applyEach (applyListChange S options false schema)
        (items ++ (steps.filterMap ListStep.node?).map g)
        (changesTo id (renderSteps S id itemSchema items.length steps)) =
      (items ++ steps.filterMap (ListStep.left g), none) := by
  induction steps generalizing items with
  | nil => rfl
  | cons step steps ih =>
      obtain ⟨hstep, hrest⟩ := List.forall_mem_cons.1 hgood
      obtain ⟨hnil, hinners⟩ := List.forall_mem_cons.1 hinner
      have hown : changesTo id (step.own S id itemSchema items.length) =
          step.own S id itemSchema items.length :=
        changesTo_eq_self fun change => container_of_mem_own S id itemSchema
      have hnext : ∀ node, applyEach (applyListChange S options false schema)
          (items ++ node :: (steps.filterMap ListStep.node?).map g)
          (changesTo id (renderSteps S id itemSchema (items.length + 1) steps)) =
            (items ++ node :: steps.filterMap (ListStep.left g), none) := by
        intro node
        have hih := ih hrest hinners (items ++ [node])
        rwa [List.length_append, List.length_singleton, List.append_assoc, List.append_assoc]
          at hih
      rw [renderSteps, changesTo_append, changesTo_append, hown, hnil, List.append_nil]
      cases step with
      | insert v fresh =>
          rw [ListStep.own, List.singleton_append, applyEach]
          simp only [ListStep.node?, List.filterMap_cons, ListStep.left,
            Inserts.applyListChange hstep]
          exact hnext fresh
      | keep v node | update v node changes => exact hnext (g node)
      | replace v node fresh =>
          rw [ListStep.own, List.cons_append, List.singleton_append, applyEach]
          simp only [ListStep.node?, List.filterMap_cons, ListStep.left, List.map_cons,
            applyListChange_deleteItem]
          rw [applyEach, Inserts.applyListChange hstep]
          exact hnext fresh
      | delete node =>
          rw [ListStep.own, List.singleton_append, applyEach]
          simp only [ListStep.node?, List.filterMap_cons, ListStep.left, List.map_cons,
            applyListChange_deleteItem]
          exact ih hrest hinners items

end Own

/-- Changes to a list, item by item. -/
structure ListPlan where
  steps : List (ListStep σ)
  nodup : (id :: Node.itemIds (steps.filterMap ListStep.node?)).Nodup
  numbered : ∀ i ∈ id :: Node.itemIds (steps.filterMap ListStep.node?), i ≠ .created
  good : ∀ step ∈ steps, step.Good S options id itemSchema schema

namespace ListPlan

variable {S options id itemSchema schema} (plan : ListPlan S options id itemSchema schema)

include plan

/-- The items before. -/
def items : List (Node σ) := plan.steps.filterMap ListStep.node?

/-- The values after. -/
def values : List Value := plan.steps.filterMap ListStep.value?

/-- The changes. -/
def changes : List Change := renderSteps S id itemSchema 0 plan.steps

theorem mem_items {step : ListStep σ} (hstep : step ∈ plan.steps) {node : Node σ}
    (hnode : step.node? = some node) : node ∈ plan.items :=
  List.mem_filterMap.2 ⟨step, hstep, hnode⟩

theorem id_notMem : id ∉ Node.itemIds plan.items := (List.nodup_cons.1 plan.nodup).1

/-- A container is in one item. -/
theorem item_unique {node other : Node σ} {i : ContainerId} (hnode : node ∈ plan.items)
    (hother : other ∈ plan.items) (hi : i ∈ node.ids) (hi' : i ∈ other.ids) : node = other := by
  have hnodup := (List.nodup_cons.1 plan.nodup).2
  rw [Node.itemIds_eq] at hnodup
  exact eq_of_nodup_flatMap hnodup hnode hother hi hi'

theorem ne_of_mem_items {node : Node σ} (hnode : node ∈ plan.items) {i : ContainerId}
    (hi : i ∈ node.ids) : i ≠ id :=
  fun heq => plan.id_notMem (mem_itemIds.2 ⟨node, hnode, by rwa [← heq]⟩)

theorem changesTo_inner_id {step : ListStep σ} (hstep : step ∈ plan.steps) :
    changesTo id step.inner = [] := by
  refine changesTo_eq_nil fun change hchange heq => ?_
  obtain ⟨node, hnode, i, hi, hcontainer⟩ :=
    (plan.good step hstep).within S options id itemSchema schema hchange
  exact plan.ne_of_mem_items (plan.mem_items hstep hnode) hi
    (Option.some.inj (hcontainer.symm.trans heq))

/-- A change is one to the list, or one in an item that is updated. -/
theorem change_cases {change : Change} (h : change ∈ plan.changes) :
    change.container = some id ∨ ∃ step ∈ plan.steps, change ∈ step.inner := by
  have hrun : ∀ (steps : List (ListStep σ)) (index : ℕ),
      change ∈ renderSteps S id itemSchema index steps →
        change.container = some id ∨ ∃ step ∈ steps, change ∈ step.inner := by
    intro steps
    induction steps with
    | nil =>
        intro index hmem
        cases hmem
    | cons step steps ih =>
        intro index hmem
        rw [renderSteps, List.mem_append, List.mem_append] at hmem
        rcases hmem with (hmem | hmem) | hmem
        · exact .inl (container_of_mem_own S id itemSchema hmem)
        · exact .inr ⟨step, List.mem_cons_self, hmem⟩
        · refine (ih _ hmem).imp_right ?_
          rintro ⟨other, hother, hchange⟩
          exact ⟨other, List.mem_cons_of_mem _ hother, hchange⟩
  exact hrun plan.steps 0 h

/-- The changes to what is in an item are those of its step. -/
theorem changesTo_item {step : ListStep σ} (hstep : step ∈ plan.steps) {node : Node σ}
    (hnode : step.node? = some node) {i : ContainerId} (hi : i ∈ node.ids) :
    changesTo i plan.changes = changesTo i step.inner := by
  have hid : i ≠ id := plan.ne_of_mem_items (plan.mem_items hstep hnode) hi
  unfold changes
  rw [changesTo_renderSteps S id itemSchema hid]
  have hother : ∀ other ∈ plan.steps, (∀ node, other.node? = some node → i ∉ node.ids) →
      changesTo i other.inner = [] := by
    intro other hmem hnot
    refine changesTo_eq_nil fun change hchange heq => ?_
    obtain ⟨node', hnode', j, hj, hcontainer⟩ :=
      (plan.good other hmem).within S options id itemSchema schema hchange
    obtain rfl := Option.some.inj (hcontainer.symm.trans heq)
    exact hnot node' hnode' hj
  have hrun : ∀ steps : List (ListStep σ), (∀ other ∈ steps, other ∈ plan.steps) →
      (Node.itemIds (steps.filterMap ListStep.node?)).Nodup → step ∈ steps →
        (steps.flatMap fun other => changesTo i other.inner) = changesTo i step.inner := by
    intro steps
    induction steps with
    | nil => exact fun _ _ => nofun
    | cons first rest ih =>
        intro hsteps hnodup hmem
        obtain ⟨hfirst, hrest⟩ := List.forall_mem_cons.1 hsteps
        rw [List.flatMap_cons]
        rcases List.mem_cons.1 hmem with rfl | hmem
        · rw [List.filterMap_cons_some hnode, Node.itemIds] at hnodup
          obtain ⟨-, -, hdisjoint⟩ := List.nodup_append'.1 hnodup
          have hnil : (rest.flatMap fun other => changesTo i other.inner) = [] := by
            refine List.flatMap_eq_nil_iff.2 fun other hmem => ?_
            refine hother other (hrest other hmem) fun node' hnode' hi' => ?_
            exact hdisjoint hi (mem_itemIds.2
              ⟨node', List.mem_filterMap.2 ⟨other, hmem, hnode'⟩, hi'⟩)
          rw [hnil, List.append_nil]
        · have hnot : ∀ node', first.node? = some node' → i ∉ node'.ids := by
            intro node' hnode' hi'
            rw [List.filterMap_cons_some hnode', Node.itemIds] at hnodup
            exact (List.nodup_append'.1 hnodup).2.2 hi' (mem_itemIds.2
              ⟨node, List.mem_filterMap.2 ⟨step, hmem, hnode⟩, hi⟩)
          rw [hother first hfirst hnot, List.nil_append]
          refine ih hrest ?_ hmem
          cases hnone : first.node? with
          | none => rwa [List.filterMap_cons_none hnone] at hnodup
          | some node' =>
              rw [List.filterMap_cons_some hnone, Node.itemIds] at hnodup
              exact (List.nodup_append'.1 hnodup).2.1
  exact hrun plan.steps (fun _ h => h) (List.nodup_cons.1 plan.nodup).2 hstep

/-- An item is patched by its step alone. -/
theorem patch_item (done : ContainerId → Bool) {step : ListStep σ} (hstep : step ∈ plan.steps)
    {node : Node σ} (hnode : step.node? = some node) :
    node.patch S options (changesOf done plan.changes) =
      node.patch S options (changesOf done step.inner) :=
  Node.patch_congr S options fun i hi => by
    rw [changesTo_changesOf, changesTo_changesOf, plan.changesTo_item hstep hnode hi]

theorem patch_item_all {step : ListStep σ} (hstep : step ∈ plan.steps) {node : Node σ}
    (hnode : step.node? = some node) :
    node.patch S options plan.changes = node.patch S options step.inner :=
  Node.patch_congr S options fun _ hi => plan.changesTo_item hstep hnode hi

/-- The list's own changes, with its items seen through a function. -/
theorem applyEach_changes (g : Node σ → Node σ) :
    applyEach (applyListChange S options false schema) (plan.items.map g)
        (changesTo id plan.changes) = (plan.steps.filterMap (ListStep.left g), none) :=
  applyEach_own g plan.good (fun _ => plan.changesTo_inner_id) []

/-- The patched list: new items, and patched ones. -/
theorem patch_eq (done : ContainerId → Bool) :
    ∃ left, (Node.list id schema plan.items).patch S options (changesOf done plan.changes) =
        .list id schema left ∧
      (∀ other ∈ left, (∀ i ∈ other.ids, i = .created) ∨ ∃ node ∈ plan.items,
        other = node.patch S options (changesOf done plan.changes)) ∧
      ∀ v node changes, ListStep.update v node changes ∈ plan.steps →
        node.patch S options (changesOf done plan.changes) ∈ left := by
  rw [Node.patch, changesTo_changesOf, Node.patchItems_eq]
  split
  · refine ⟨_, by rw [applyContainerChanges, plan.applyEach_changes], fun other hother => ?_,
      fun v node changes hstep => List.mem_filterMap.2 ⟨_, hstep, rfl⟩⟩
    obtain ⟨step, hstep, hleft⟩ := List.mem_filterMap.1 hother
    have hgood := plan.good step hstep
    cases step with
    | insert v fresh =>
        obtain rfl := Option.some.inj hleft
        exact .inl hgood.created
    | replace v node fresh =>
        obtain rfl := Option.some.inj hleft
        exact .inl hgood.created
    | keep v node | update v node changes =>
        exact .inr ⟨node, plan.mem_items hstep rfl, (Option.some.inj hleft).symm⟩
    | delete node => cases hleft
  · refine ⟨_, rfl, fun other hother => .inr ?_, fun v node changes hstep =>
      List.mem_map_of_mem (plan.mem_items hstep rfl)⟩
    obtain ⟨node, hnode, rfl⟩ := List.mem_map.1 hother
    exact ⟨node, hnode, rfl⟩

/-- The list is left with the items it is to have. -/
theorem deepValue_patch :
    ((Node.list id schema plan.items).patch S options plan.changes).deepValue =
      .array plan.values := by
  rw [Node.patch, Node.patchItems_eq, applyContainerChanges, plan.applyEach_changes,
    Node.deepValue, Node.deepItems_eq, List.map_filterMap]
  refine congrArg Value.array (List.filterMap_congr fun step hstep => ?_)
  have hgood := plan.good step hstep
  cases step with
  | insert | replace => exact congrArg some hgood.value
  | delete node => rfl
  | keep v node =>
      refine congrArg some ?_
      rw [plan.patch_item_all hstep rfl]
      exact (congrArg Node.deepValue (Node.patch_nil S options node)).trans hgood
  | update v node changes =>
      refine congrArg some ?_
      rw [plan.patch_item_all hstep rfl]
      exact hgood.value

/-- **A list takes the changes of a plan**, and is left with the items it is to have. -/
theorem writes_list : Writes S options plan.changes (.list id schema plan.items)
    (.array plan.values) := by
  refine ⟨⟨fun change hmem => ?_, fun done i hne hnot => ?_⟩, plan.deepValue_patch⟩
  · rcases plan.change_cases hmem with hid | ⟨step, hstep, hinner⟩
    · exact ⟨id, List.mem_cons_self, hid⟩
    · obtain ⟨node, hnode, i, hi, hcontainer⟩ :=
        (plan.good step hstep).within S options id itemSchema schema hinner
      exact ⟨i, List.mem_cons_of_mem _ (mem_itemIds.2 ⟨node, plan.mem_items hstep hnode, hi⟩),
        hcontainer⟩
  · by_cases hid : i = id
    · subst hid
      refine ⟨.list i schema (plan.items.map
        (Node.patch S options (changesOf done plan.changes))), ?_, ?_⟩
      · rw [Node.patch, changesTo_changesOf, hnot, Node.patchItems_eq]
        exact if_pos rfl
      · rw [applyContainerChanges, plan.applyEach_changes]
    · obtain ⟨change, hmem⟩ := List.exists_mem_of_ne_nil _ hne
      have hcontainer := container_of_mem_changesTo hmem
      obtain ⟨step, hstep, hinner⟩ := (plan.change_cases (List.mem_of_mem_filter hmem)).resolve_left
        fun heq => hid (Option.some.inj (hcontainer.symm.trans heq))
      cases step with
      | insert v fresh | keep v node | replace v node fresh | delete node => cases hinner
      | update v node changes =>
          have hwrites : Writes S options changes node v := plan.good _ hstep
          obtain ⟨j, hj, hj'⟩ := hwrites.within change hinner
          obtain rfl := Option.some.inj (hj'.symm.trans hcontainer)
          have hnode : node ∈ plan.items := plan.mem_items hstep rfl
          have hown : changesTo j plan.changes = changesTo j changes :=
            plan.changesTo_item hstep rfl hj
          have hnumbered : j ≠ .created :=
            plan.numbered j (List.mem_cons_of_mem _ (mem_itemIds.2 ⟨node, hnode, hj⟩))
          rw [hown] at hne ⊢
          obtain ⟨n, hfound, hok⟩ := hwrites.there done j hne hnot
          obtain ⟨left, hleft, hcases, hkept⟩ := plan.patch_eq done
          refine ⟨n, ?_, hok⟩
          rw [hleft, Node.find?, if_neg (Ne.symm hid)]
          refine findItem?_eq_some (hkept v node changes hstep) ?_ fun other hother => ?_
          · rw [plan.patch_item done hstep rfl]
            exact hfound
          · rcases hcases other hother with hnew | ⟨old, hold, rfl⟩
            · exact .inr fun hmem => hnumbered (hnew j hmem)
            · by_cases heq : old = node
              · exact .inl (heq ▸ rfl)
              · refine .inr fun hmem => heq ?_
                exact plan.item_unique hold hnode ((mem_ids_patch hmem).resolve_right hnumbered) hj

end ListPlan

end Plan

end Mirror
end ZuTalk
