/-
# What the changes for a keyed list do

The scan of `diff_list_with_id_selector` goes along the old items.  When the new ones are used up it
goes on to the end and deletes nothing, so old items at the tail stay (`leftBehind`).  Otherwise the
list is left with the new items (`writes_keyedList`).  `leftBehind_eq` says which items stay: those
after the last that is still wanted, where the items that are kept are in the order they were in.
-/

import ZuTalk.Mirror.ListPlan
import Mathlib.Data.List.DropRight

namespace ZuTalk
namespace Mirror

variable {σ : Type}

theorem Keyed.of_append {idSelector : IdSelector} {items more : List Value}
    (h : Keyed idSelector (items ++ more)) : Keyed idSelector more where
  some item hitem := h.some item (List.mem_append_right _ hitem)
  distinct := by
    have hdistinct := h.distinct
    rw [List.map_append] at hdistinct
    exact (List.nodup_append'.1 hdistinct).2.1

/-! ### What stays at the tail -/

/-- The old items that are not looked at any more once the new ones are used up. -/
def leftBehind (idSelector : IdSelector) (oldIds : List String) :
    List Value → List Value → List Value
  | [], _ => []
  | oldItem :: oldState, newState =>
      match newState.drop (newcomers idSelector oldIds oldItem newState).length with
      | [] => oldItem :: oldState
      | newItem :: rest =>
          if selectId idSelector oldItem = selectId idSelector newItem then
            leftBehind idSelector oldIds oldState rest
          else leftBehind idSelector oldIds oldState (newItem :: rest)

/-- The new list does not have the item. -/
def gone (idSelector : IdSelector) (newState : List Value) (item : Value) : Bool :=
  decide (selectId idSelector item ∉ newState.map (selectId idSelector))

/-- The last items of which none is among the new, where the old ones among the new are in order. -/
def leftover (idSelector : IdSelector) (oldState newState : List Value) : List Value :=
  if ((newState.map (selectId idSelector)).filter
      (· ∈ oldState.map (selectId idSelector))).Sublist (oldState.map (selectId idSelector)) then
    oldState.rtakeWhile (gone idSelector newState)
  else []

theorem rtakeWhile_cons {α : Type*} {p : α → Bool} {a : α} {l : List α}
    (h : p a = false ∨ ∃ x ∈ l, p x = false) :
    (a :: l).rtakeWhile p = l.rtakeWhile p := by
  unfold List.rtakeWhile
  rw [List.reverse_cons, List.takeWhile_append]
  split
  · rename_i hall
    have hself : l.reverse.takeWhile p = l.reverse :=
      (List.takeWhile_prefix p).eq_of_length hall
    rcases h with h | ⟨x, hx, hnot⟩
    · simp [h, hself]
    · have hmem : x ∈ l.reverse.takeWhile p := by
        rw [hself]
        exact List.mem_reverse.2 hx
      rw [List.mem_takeWhile_imp hmem] at hnot
      cases hnot
  · rfl

theorem rtakeWhile_congr {α : Type*} {p q : α → Bool} {l : List α} (h : ∀ a ∈ l, p a = q a) :
    l.rtakeWhile p = l.rtakeWhile q := by
  induction l using List.reverseRecOn with
  | nil => rfl
  | append_singleton l a ih =>
      have ha : p a = q a := h a (List.mem_append_right _ (List.mem_singleton.2 rfl))
      rw [List.rtakeWhile_concat, List.rtakeWhile_concat, ha,
        ih fun b hb => h b (List.mem_append_left _ hb)]

section LeftBehind

variable {idSelector : IdSelector} {oldIds : List String}

theorem newcomers_append (idSelector : IdSelector) (oldIds : List String) (oldItem : Value)
    (newState : List Value) :
    newcomers idSelector oldIds oldItem newState ++
      newState.drop (newcomers idSelector oldIds oldItem newState).length = newState :=
  List.prefix_iff_eq_append.1 (List.takeWhile_prefix _)

/-- The new items up to the one that is looked at next have ids that no old item has. -/
theorem newcomers_spec {oldItem : Value} {newState : List Value}
    (hold : ∃ i ∈ oldIds, selectId idSelector oldItem = some i)
    (hsome : ∀ item ∈ newState, (selectId idSelector item).isSome = true) :
    (∀ item ∈ newcomers idSelector oldIds oldItem newState,
      ∀ i ∈ oldIds, selectId idSelector item ≠ some i) ∧
    ∀ newItem rest,
      newState.drop (newcomers idSelector oldIds oldItem newState).length = newItem :: rest →
        ∃ i ∈ oldIds, selectId idSelector newItem = some i := by
  obtain ⟨oldId, holdId, hid⟩ := hold
  induction newState with
  | nil => exact ⟨nofun, nofun⟩
  | cons item items ih =>
      obtain ⟨hitem, hitems⟩ := List.forall_mem_cons.1 hsome
      obtain ⟨itemId, hitemId⟩ := Option.isSome_iff_exists.1 hitem
      unfold newcomers at ih ⊢
      rw [List.takeWhile_cons]
      split
      · rename_i htake
        refine ⟨List.forall_mem_cons.2 ⟨fun i hi heq => ?_, (ih hitems).1⟩, (ih hitems).2⟩
        obtain rfl := Option.some.inj (hitemId.symm.trans heq)
        simp [hitemId, hi] at htake
      · rename_i hstop
        refine ⟨nofun, fun newItem rest hdrop => ?_⟩
        obtain ⟨rfl, -⟩ := List.cons.inj hdrop
        by_cases hmem : itemId ∈ oldIds
        · exact ⟨itemId, hmem, hitemId⟩
        · have hids : oldId ≠ itemId := fun heq => hmem (heq ▸ holdId)
          have hne : item ≠ oldItem := by
            rintro rfl
            exact hids (Option.some.inj (hid.symm.trans hitemId))
          exact absurd (by simp [hne, hid, hitemId, hids, hmem]) hstop

/-- **What stays is what comes after the last old item that is still wanted**, unless the old items
among the new are in another order than they were. -/
theorem leftBehind_eq {oldState newState : List Value} (hold : Keyed idSelector oldState)
    (hnew : Keyed idSelector newState)
    (hids : ∀ item ∈ oldState, ∃ i ∈ oldIds, selectId idSelector item = some i) :
    leftBehind idSelector oldIds oldState newState =
      if ((newState.map (selectId idSelector)).filter (· ∈ oldIds.map some)).Sublist
          (oldState.map (selectId idSelector)) then
        oldState.rtakeWhile (gone idSelector newState)
      else [] := by
  induction oldState generalizing newState with
  | nil =>
      rw [leftBehind, List.rtakeWhile_nil, ite_self]
  | cons oldItem oldState ih =>
      obtain ⟨hitem, hitems⟩ := List.forall_mem_cons.1 hids
      obtain ⟨hins, hnext⟩ := newcomers_spec hitem hnew.some
      have hsplit := newcomers_append idSelector oldIds oldItem newState
      rw [leftBehind]
      generalize newcomers idSelector oldIds oldItem newState = inserted at hins hnext hsplit ⊢
      generalize hdrop : newState.drop inserted.length = rest at hnext hsplit ⊢
      subst hsplit
      have hknown : ∀ {i : Option String}, (i ∈ oldIds.map some ↔ ∃ j ∈ oldIds, i = some j) := by
        intro i
        rw [List.mem_map]
        exact ⟨fun ⟨j, hj, h⟩ => ⟨j, hj, h.symm⟩, fun ⟨j, hj, h⟩ => ⟨j, hj, h.symm⟩⟩
      have hnotin : ∀ {i : Option String}, i ∈ oldIds.map some →
          i ∉ inserted.map (selectId idSelector) := by
        intro i hi hmem
        obtain ⟨item, hitem', rfl⟩ := List.mem_map.1 hmem
        obtain ⟨j, hj, heq⟩ := hknown.1 hi
        exact hins item hitem' j hj heq
      have hfilter : ((inserted ++ rest).map (selectId idSelector)).filter (· ∈ oldIds.map some) =
          (rest.map (selectId idSelector)).filter (· ∈ oldIds.map some) := by
        have hnil : (inserted.map (selectId idSelector)).filter (· ∈ oldIds.map some) = [] :=
          List.filter_eq_nil_iff.2 fun i hi hmem => hnotin (of_decide_eq_true hmem) hi
        rw [List.map_append, List.filter_append, hnil, List.nil_append]
      have hwanted : ∀ item ∈ oldItem :: oldState,
          (selectId idSelector item ∉ (inserted ++ rest).map (selectId idSelector)) ↔
            selectId idSelector item ∉ rest.map (selectId idSelector) := by
        intro item hitem'
        rw [List.map_append, List.mem_append, not_or]
        exact ⟨And.right, fun h => ⟨hnotin (hknown.2 (hids item hitem')), h⟩⟩
      have hkeyed : Keyed idSelector rest := hnew.of_append
      rw [hfilter]
      cases rest with
      | nil =>
          have hall : ∀ item ∈ oldItem :: oldState,
              gone idSelector (inserted ++ []) item = true := fun item hitem' =>
            decide_eq_true ((hwanted item hitem').2 List.not_mem_nil)
          rw [List.rtakeWhile_eq_self_iff.2 hall]
          exact (if_pos (List.nil_sublist _)).symm
      | cons newItem rest =>
          obtain ⟨j, hj, hnewId⟩ := hnext newItem rest rfl
          have hhead : (((newItem :: rest).map (selectId idSelector)).filter
              (· ∈ oldIds.map some)) = selectId idSelector newItem ::
                (rest.map (selectId idSelector)).filter (· ∈ oldIds.map some) := by
            rw [List.map_cons, List.filter_cons_of_pos]
            exact decide_eq_true (hknown.2 ⟨j, hj, hnewId⟩)
          have hmem : selectId idSelector newItem ∈
              (inserted ++ newItem :: rest).map (selectId idSelector) :=
            List.mem_map_of_mem (List.mem_append_right _ List.mem_cons_self)
          have hstop : ∀ item, selectId idSelector item = selectId idSelector newItem →
              gone idSelector (inserted ++ newItem :: rest) item = false :=
            fun item heq => decide_eq_false (not_not.2 (heq ▸ hmem))
          dsimp only
          split
          · rename_i hsame
            have hcons := rtakeWhile_cons (l := oldState) (.inl (hstop oldItem hsame))
            rw [ih hold.tail hkeyed.tail hitems, hhead, List.map_cons, hsame, hcons]
            refine ite_congr (propext List.cons_sublist_cons.symm) (fun _ => ?_) fun _ => rfl
            refine rtakeWhile_congr fun item hitem' => decide_eq_decide.2 ?_
            rw [hwanted item (List.mem_cons_of_mem _ hitem'), List.map_cons, List.mem_cons, not_or]
            refine ⟨fun h => ⟨fun heq => ?_, h⟩, And.right⟩
            refine (List.nodup_cons.1 hold.distinct).1 ?_
            rw [hsame, ← heq]
            exact List.mem_map_of_mem hitem'
          · rename_i hother
            rw [ih hold.tail hkeyed hitems, hhead, List.map_cons (l := oldState)]
            by_cases hsub : (selectId idSelector newItem ::
                (rest.map (selectId idSelector)).filter (· ∈ oldIds.map some)).Sublist
                  (oldState.map (selectId idSelector))
            · obtain ⟨wanted, hwantedMem, heq⟩ := List.mem_map.1 (hsub.subset List.mem_cons_self)
              have hcons := rtakeWhile_cons (a := oldItem)
                (.inr ⟨wanted, hwantedMem, hstop wanted heq⟩)
              rw [if_pos hsub, if_pos (hsub.cons _), hcons]
              exact rtakeWhile_congr fun item hitem' => decide_eq_decide.2
                (hwanted item (List.mem_cons_of_mem _ hitem')).symm
            · rw [if_neg hsub, if_neg]
              intro hcons
              rcases List.sublist_cons_iff.1 hcons with h | ⟨r, h, -⟩
              · exact hsub h
              · exact hother (List.cons.inj h).1.symm

end LeftBehind

/-- What the changes leave beyond the new items: `leftover` of the two lists. -/
theorem leftBehind_eq_leftover {idSelector : IdSelector} {oldState newState : List Value}
    (hold : Keyed idSelector oldState) (hnew : Keyed idSelector newState) :
    leftBehind idSelector (oldState.filterMap (selectId idSelector)) oldState newState =
      leftover idSelector oldState newState := by
  have hids : ∀ item ∈ oldState, ∃ i ∈ oldState.filterMap (selectId idSelector),
      selectId idSelector item = some i := by
    intro item hitem
    obtain ⟨i, hi⟩ := Option.isSome_iff_exists.1 (hold.some item hitem)
    exact ⟨i, List.mem_filterMap.2 ⟨item, hitem, hi⟩, hi⟩
  have hmap : (oldState.filterMap (selectId idSelector)).map some =
      oldState.map (selectId idSelector) := by
    rw [List.map_filterMap, ← List.filterMap_eq_map]
    refine List.filterMap_congr fun item hitem => ?_
    obtain ⟨i, hi⟩ := Option.isSome_iff_exists.1 (hold.some item hitem)
    rw [hi, Function.comp_apply, hi]
    rfl
  rw [leftBehind_eq hold hnew hids, leftover, hmap]

/-! ### The scan -/

section Scan

variable (S : Schemas σ) (options : InferContainerOptions) (id : ContainerId)
  (itemSchema schema : Option σ) (idSelector : IdSelector)

/-- New items come in as what they are, and an item takes the changes to one with its id. -/
structure ItemsWrite (fresh : Value → Node σ) (items : List (Node σ)) (newState : List Value) :
    Prop where
  fresh : ∀ v ∈ newState, Inserts S options id itemSchema schema v (fresh v)
  update : ∀ node ∈ items, ∀ v ∈ newState,
    selectId idSelector node.deepValue = selectId idSelector v →
      ∀ differ, node.differ S options = some differ →
        ∃ changes, differ itemSchema node.deepValue v = .ok changes ∧
          Writes S options changes node v

variable {S options id itemSchema schema idSelector} {fresh : Value → Node σ}

theorem ItemsWrite.mono {items others : List (Node σ)} {newState newer : List Value}
    (h : ItemsWrite S options id itemSchema schema idSelector fresh items newState)
    (hitems : ∀ node ∈ others, node ∈ items) (hnew : ∀ v ∈ newer, v ∈ newState) :
    ItemsWrite S options id itemSchema schema idSelector fresh others newer where
  fresh v hv := h.fresh v (hnew v hv)
  update node hnode v hv := h.update node (hitems node hnode) v (hnew v hv)

theorem signed_eq {index p : ℕ} {offset : ℤ} (hp : (p : ℤ) = index + offset) :
    signed index offset = p := by
  unfold signed
  omega

/-- Items that come in one after the other. -/
theorem renderSteps_insert {values : List Value} {index p : ℕ}
    {offset : ℤ} (hp : (p : ℤ) = index + offset) (steps : List (ListStep σ)) :
    renderSteps S id itemSchema p ((values.map fun v => .insert v (fresh v)) ++ steps) =
      insertItems S id itemSchema index offset values ++
        renderSteps S id itemSchema (p + values.length) steps := by
  induction values generalizing p offset with
  | nil => rfl
  | cons v values ih =>
      have hnext : ((p + 1 : ℕ) : ℤ) = index + (offset + 1) := by omega
      rw [List.map_cons, List.cons_append, renderSteps, insertItems, signed_eq hp, List.cons_append]
      have hih := ih hnext
      simp only [ListStep.own, ListStep.inner, ListStep.value?, Option.toList_some,
        List.length_singleton, List.append_nil, List.singleton_append]
      rw [hih, List.length_cons, Nat.add_assoc, Nat.add_comm 1]

theorem leftBehind_nil (oldIds : List String) (oldState : List Value) :
    leftBehind idSelector oldIds oldState [] = oldState := by
  cases oldState <;> rfl

/-- **The scan is a plan**: its changes are those of steps that take the items, in order, to the
new ones and those that are left behind. -/
theorem exists_steps {oldIds : List String} {items : List (Node σ)} {newState : List Value}
    {index p : ℕ} {offset : ℤ} (hp : (p : ℤ) = index + offset) (extra : List (Node σ))
    (hold : Keyed idSelector (items.map Node.deepValue)) (hnew : Keyed idSelector newState)
    (hwrite : ItemsWrite S options id itemSchema schema idSelector fresh items newState) :
    ∃ steps, scanList S id itemSchema idSelector oldIds index offset (items.map Node.deepValue)
        (Node.itemDiffers S options (items ++ extra)) newState =
          .ok (renderSteps S id itemSchema p steps) ∧
      steps.filterMap ListStep.node? = items ∧
      steps.filterMap ListStep.value? =
        newState ++ leftBehind idSelector oldIds (items.map Node.deepValue) newState ∧
      ∀ step ∈ steps, step.Good S options id itemSchema schema := by
  have hnode? : ∀ values : List Value,
      (values.map fun v => ListStep.insert v (fresh v)).filterMap ListStep.node? = [] :=
    fun values => by simp [List.filterMap_map, Function.comp_def, ListStep.node?]
  have hvalue? : ∀ values : List Value,
      (values.map fun v => ListStep.insert v (fresh v)).filterMap ListStep.value? = values :=
    fun values => by simp [List.filterMap_map, Function.comp_def, ListStep.value?]
  induction items generalizing newState index p offset with
  | nil =>
      refine ⟨newState.map fun v => .insert v (fresh v), ?_, hnode? _, ?_, fun step hstep => ?_⟩
      · have hrender : renderSteps S id itemSchema p
            ((newState.map fun v => .insert v (fresh v)) ++ []) =
              insertItems S id itemSchema index offset newState ++ [] :=
          renderSteps_insert hp []
        rw [List.append_nil, List.append_nil] at hrender
        rw [hrender]
        rfl
      · rw [hvalue?]
        exact (List.append_nil _).symm
      · obtain ⟨v, hv, rfl⟩ := List.mem_map.1 hstep
        exact hwrite.fresh v hv
  | cons node items ih =>
      have hsplit := newcomers_append idSelector oldIds node.deepValue newState
      rw [List.map_cons, leftBehind]
      simp only [scanList, List.cons_append, Node.itemDiffers, List.tail_cons, List.head?_cons,
        Option.bind_some, id_eq]
      generalize newcomers idSelector oldIds node.deepValue newState = inserted at hsplit ⊢
      generalize newState.drop inserted.length = rest at hsplit ⊢
      subst hsplit
      have hp' : ((p + inserted.length : ℕ) : ℤ) = index + (offset + inserted.length) := by
        omega
      have hkeyed : Keyed idSelector rest := hnew.of_append
      have hassemble : ∀ (result : Except DiffError (List Change)) (steps : List (ListStep σ))
          (left : List Value),
          result = .ok (renderSteps S id itemSchema (p + inserted.length) steps) →
          steps.filterMap ListStep.node? = node :: items →
          steps.filterMap ListStep.value? = rest ++ left →
          (∀ step ∈ steps, step.Good S options id itemSchema schema) →
          ∃ steps, (insertItems S id itemSchema index offset inserted ++ ·) <$> result =
              .ok (renderSteps S id itemSchema p steps) ∧
            steps.filterMap ListStep.node? = node :: items ∧
            steps.filterMap ListStep.value? = (inserted ++ rest) ++ left ∧
            ∀ step ∈ steps, step.Good S options id itemSchema schema := by
        intro result steps left hresult hnodes hvalues hgood
        refine ⟨(inserted.map fun v => .insert v (fresh v)) ++ steps, ?_, ?_, ?_, ?_⟩
        · rw [renderSteps_insert hp, hresult]
          rfl
        · rw [List.filterMap_append, hnode?, hnodes, List.nil_append]
        · rw [List.filterMap_append, hvalue?, hvalues, List.append_assoc]
        · refine List.forall_mem_append.2 ⟨fun step hstep => ?_, hgood⟩
          obtain ⟨v, hv, rfl⟩ := List.mem_map.1 hstep
          exact hwrite.fresh v (List.mem_append_left _ hv)
      have hrest : ∀ {others : List Value}, (∀ v ∈ others, v ∈ rest) →
          ItemsWrite S options id itemSchema schema idSelector fresh items others := fun hothers =>
        hwrite.mono (fun _ h => List.mem_cons_of_mem _ h)
          fun v hv => List.mem_append_right _ (hothers v hv)
      cases rest with
      | nil =>
          have hnil : Keyed idSelector [] := ⟨fun _ h => (List.not_mem_nil h).elim, List.nodup_nil⟩
          obtain ⟨steps, hscan, hnodes, hvalues, hgood⟩ := @ih [] (index + 1)
            (p + inserted.length + 1) (offset + inserted.length) (by omega) hold.tail hnil
            (hrest fun _ h => h)
          rw [leftBehind_nil] at hvalues
          refine hassemble _ (.keep node.deepValue node :: steps) _ hscan ?_ ?_ ?_
          · exact congrArg (node :: ·) hnodes
          · exact congrArg (node.deepValue :: ·) hvalues
          · exact List.forall_mem_cons.2 ⟨rfl, hgood⟩
      | cons newItem rest =>
          obtain ⟨oldId, holdId⟩ := Option.isSome_iff_exists.1 (hold.some _ List.mem_cons_self)
          obtain ⟨newId, hnewId⟩ := Option.isSome_iff_exists.1 (hkeyed.some _ List.mem_cons_self)
          have hnext := @ih rest (index + 1) (p + inserted.length + 1) (offset + inserted.length)
            (by omega) hold.tail hkeyed.tail (hrest fun v hv => List.mem_cons_of_mem _ hv)
          have hmem : newItem ∈ inserted ++ newItem :: rest :=
            List.mem_append_right _ List.mem_cons_self
          dsimp only
          by_cases hsame : node.deepValue = newItem
          · obtain ⟨steps, hscan, hnodes, hvalues, hgood⟩ := hnext
            rw [if_pos hsame, if_pos (congrArg _ hsame)]
            refine hassemble _ (.keep newItem node :: steps) _ hscan ?_ ?_ ?_
            · exact congrArg (node :: ·) hnodes
            · exact congrArg (newItem :: ·) hvalues
            · exact List.forall_mem_cons.2 ⟨hsame, hgood⟩
          · rw [if_neg hsame, holdId, hnewId]
            dsimp only
            by_cases hid : oldId = newId
            · obtain ⟨steps, hscan, hnodes, hvalues, hgood⟩ := hnext
              rw [if_pos hid, if_pos (congrArg some hid)]
              cases hdiffer : node.differ S options with
              | none =>
                  refine hassemble _ (.replace newItem node (fresh newItem) :: steps) _ ?_ ?_ ?_ ?_
                  · rw [updateItem, signed_eq hp', hscan]
                    rfl
                  · exact congrArg (node :: ·) hnodes
                  · exact congrArg (newItem :: ·) hvalues
                  · exact List.forall_mem_cons.2 ⟨hwrite.fresh newItem hmem, hgood⟩
              | some differ =>
                  obtain ⟨changes, hchanges, hwrites⟩ := hwrite.update node List.mem_cons_self
                    newItem hmem (by rw [holdId, hnewId, hid]) differ hdiffer
                  refine hassemble _ (.update newItem node changes :: steps) _ ?_ ?_ ?_ ?_
                  · rw [updateItem, hchanges, hscan]
                    rfl
                  · exact congrArg (node :: ·) hnodes
                  · exact congrArg (newItem :: ·) hvalues
                  · exact List.forall_mem_cons.2 ⟨hwrites, hgood⟩
            · rw [if_neg hid, if_neg fun h => hid (Option.some.inj h)]
              obtain ⟨steps, hscan, hnodes, hvalues, hgood⟩ := @ih (newItem :: rest) (index + 1)
                (p + inserted.length) (offset + inserted.length - 1) (by omega) hold.tail hkeyed
                (hrest fun v hv => hv)
              refine hassemble _ (.delete node :: steps) _ ?_ ?_ ?_ ?_
              · rw [signed_eq hp', hscan]
                rfl
              · exact congrArg (node :: ·) hnodes
              · exact hvalues
              · exact List.forall_mem_cons.2 ⟨trivial, hgood⟩

/-- Items that stay as they are need no changes. -/
theorem renderSteps_keep (p : ℕ) (steps : List (ListStep σ)) (nodes : List (Node σ)) :
    renderSteps S id itemSchema p (steps ++ nodes.map fun node => .keep node.deepValue node) =
      renderSteps S id itemSchema p steps := by
  induction steps generalizing p with
  | nil =>
      rw [List.nil_append]
      induction nodes generalizing p with
      | nil => rfl
      | cons node nodes ih => exact ih (p + 1)
  | cons step steps ih => rw [List.cons_append, renderSteps, renderSteps, ih]

/-- **A keyed list takes its changes**, and is left with the new items, the old ones that are left
behind, and what the old state did not know of. -/
theorem writes_keyedList {items extra : List (Node σ)} {newState : List Value}
    (hold : Keyed idSelector (items.map Node.deepValue)) (hnew : Keyed idSelector newState)
    (hwrite : ItemsWrite S options id itemSchema schema idSelector fresh items newState)
    (hnodup : (id :: Node.itemIds (items ++ extra)).Nodup)
    (hnumbered : ∀ i ∈ id :: Node.itemIds (items ++ extra), i ≠ .created) :
    ∃ changes, diffListWithIdSelector S id itemSchema idSelector
        (Node.itemDiffers S options (items ++ extra)) (items.map Node.deepValue) newState =
          .ok changes ∧
      Writes S options changes (.list id schema (items ++ extra)) (.array
        (newState ++ leftover idSelector (items.map Node.deepValue) newState ++
          extra.map Node.deepValue)) := by
  obtain ⟨steps, hscan, hnodes, hvalues, hgood⟩ := @exists_steps _ S options id
    itemSchema schema idSelector fresh ((items.map Node.deepValue).filterMap (selectId idSelector))
    items newState 0 0 0 rfl extra hold hnew hwrite
  rw [leftBehind_eq_leftover hold hnew] at hvalues
  have hkept : (steps ++ extra.map fun node => ListStep.keep node.deepValue node).filterMap
      ListStep.node? = items ++ extra := by
    rw [List.filterMap_append, hnodes, List.filterMap_map]
    congr 1
    exact List.filterMap_some
  let plan : ListPlan S options id itemSchema schema :=
    { steps := steps ++ extra.map fun node => .keep node.deepValue node
      nodup := by
        rw [hkept]
        exact hnodup
      numbered := by
        rw [hkept]
        exact hnumbered
      good := by
        refine List.forall_mem_append.2 ⟨hgood, fun step hstep => ?_⟩
        obtain ⟨node, -, rfl⟩ := List.mem_map.1 hstep
        rfl }
  have hwrites := plan.writes_list
  have hitems : plan.items = items ++ extra := hkept
  have hplan : plan.values = newState ++
      leftover idSelector (items.map Node.deepValue) newState ++ extra.map Node.deepValue := by
    change (steps ++ extra.map fun node => ListStep.keep node.deepValue node).filterMap
      ListStep.value? = _
    rw [List.filterMap_append, hvalues, List.filterMap_map]
    congr 1
    exact congrFun List.filterMap_eq_map extra
  have hchanges : plan.changes = renderSteps S id itemSchema 0 steps :=
    renderSteps_keep 0 steps extra
  rw [hitems, hplan, hchanges] at hwrites
  exact ⟨_, hscan, hwrites⟩

end Scan

end Mirror
end ZuTalk
