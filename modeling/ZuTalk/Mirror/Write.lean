/-
# Writing one container

`Node.write` is what `set_state` does about one container of the document:
`diff_container` computes its changes and those of the containers in it, and
`apply_changes_to_loro` applies them container by container, each group in the
node that holds its container.
-/

import ZuTalk.Mirror.Apply

namespace ZuTalk
namespace Mirror

variable {σ : Type}

section Write

variable (S : Schemas σ) (options : InferContainerOptions)

/-- `apply_changes_to_loro` inside one node: what it becomes, if nothing fails. -/
def Node.applyGroups : Node σ → List (Option ContainerId × List Change) → Option (Node σ)
  | node, [] => some node
  | node, (container, changes) :: groups =>
      match container.map (applyGroup S options node · changes) with
      | some (node, none) => Node.applyGroups node groups
      | _ => none

/-- A container that is to have another value. -/
def Node.write (node : Node σ) (schema : Option σ) (newState : Value) : Option (Node σ) := do
  let differ ← node.differ S options
  let changes ← (differ schema node.deepValue newState).toOption
  node.applyGroups S options (byContainer changes)

end Write

/-! ### Groups -/

theorem pushChange_filter (p : Option ContainerId → Bool)
    (groups : List (Option ContainerId × List Change)) (change : Change) :
    (pushChange groups change).filter (fun group => p group.1) =
      if p change.container then pushChange (groups.filter fun group => p group.1) change
      else groups.filter fun group => p group.1 := by
  induction groups with
  | nil => by_cases hp : p change.container <;> simp [pushChange, hp]
  | cons group groups ih =>
      obtain ⟨container, changes⟩ := group
      by_cases hown : container = change.container
      · subst hown
        by_cases hp : p change.container <;> simp [pushChange, hp]
      · by_cases hp : p change.container <;> by_cases hq : p container <;>
          simp [pushChange, hown, hp, hq, ih]

theorem byContainer_append (changes : List Change) (change : Change) :
    byContainer (changes ++ [change]) = pushChange (byContainer changes) change := by
  rw [byContainer, List.foldl_append]
  rfl

/-- The groups of some containers are those of the changes to them. -/
theorem byContainer_filter (p : Option ContainerId → Bool) (changes : List Change) :
    byContainer (changes.filter fun change => p change.container) =
      (byContainer changes).filter fun group => p group.1 := by
  induction changes using List.reverseRecOn with
  | nil => rfl
  | append_singleton changes change ih =>
      rw [byContainer_append, pushChange_filter, List.filter_append, ← ih]
      by_cases hp : p change.container
      · simp [hp, byContainer_append]
      · simp [hp]

/-- A group is about a container that a change is about. -/
theorem mem_byContainer {changes : List Change} {group : Option ContainerId × List Change}
    (h : group ∈ byContainer changes) : ∃ change ∈ changes, change.container = group.1 := by
  have hfilter := byContainer_filter (fun container => container = group.1) changes
  by_contra hnone
  have hempty : (changes.filter fun change => decide (change.container = group.1)) = [] :=
    List.filter_eq_nil_iff.2 fun change hchange => by
      simpa using fun heq => hnone ⟨change, hchange, heq⟩
  rw [hempty] at hfilter
  have : group ∈ (byContainer changes).filter fun other => decide (other.1 = group.1) :=
    List.mem_filter.2 ⟨h, by simp⟩
  rw [← hfilter] at this
  cases this

/-- Changes to one container are one group. -/
theorem byContainer_own {container : Option ContainerId} {changes : List Change}
    (h : ∀ change ∈ changes, change.container = container) :
    byContainer changes = if changes = [] then [] else [(container, changes)] := by
  induction changes using List.reverseRecOn with
  | nil => rfl
  | append_singleton changes change ih =>
      have hchange : change.container = container := h change (by simp)
      rw [byContainer_append, ih fun c hc => h c (List.mem_append_left _ hc)]
      by_cases hempty : changes = [] <;> simp [hempty, pushChange, hchange]

/-- A container's own changes, applied to it. -/
theorem applyGroups_own {S : Schemas σ} {options : InferContainerOptions} {node : Node σ}
    {id : ContainerId} {changes : List Change} (hnode : node.ids.head? = some id)
    (h : ∀ change ∈ changes, change.container = some id) {node' : Node σ}
    (happly : applyContainerChanges S options changes node = (node', none)) :
    node.applyGroups S options (byContainer changes) = some node' := by
  have hempty : ∀ n : Node σ, applyContainerChanges S options [] n = (n, none) := by
    rintro (_ | _ | _ | _ | _) <;> rfl
  rw [byContainer_own h]
  split
  · rename_i hnil
    rw [hnil, hempty, Prod.mk.injEq] at happly
    rw [Node.applyGroups, happly.1]
  · have hgroup : applyGroup S options node id changes = (node', none) := by
      cases node with
      | value v => simp [Node.ids] at hnode
      | map own schema entries | list own schema items | movableList own schema items
        | text own schema content =>
          obtain rfl : own = id := by simpa [Node.ids] using hnode
          simp [applyGroup, Node.modify, Node.find?, happly]
    rw [Node.applyGroups, Option.map_some, hgroup]
    rfl

/-! ### Containers elsewhere -/

mutual

/-- A container is only found where it is. -/
theorem Node.find?_eq_none {id : ContainerId} : ∀ {node : Node σ}, id ∉ node.ids →
    node.find? id = none
  | .value _, _ => rfl
  | .map own schema entries, h => by
      rw [Node.ids, List.mem_cons, not_or] at h
      rw [Node.find?, if_neg (Ne.symm h.1), Node.findInEntries?_eq_none h.2]
  | .list own schema items, h | .movableList own schema items, h => by
      rw [Node.ids, List.mem_cons, not_or] at h
      rw [Node.find?, if_neg (Ne.symm h.1), Node.findItem?_eq_none h.2]
  | .text own schema content, h => by
      rw [Node.ids, List.mem_singleton] at h
      rw [Node.find?, if_neg (Ne.symm h)]

theorem Node.findItem?_eq_none {id : ContainerId} : ∀ {items : List (Node σ)},
    id ∉ Node.itemIds items → Node.findItem? id items = none
  | [], _ => rfl
  | item :: items, h => by
      rw [Node.itemIds, List.mem_append, not_or] at h
      rw [Node.findItem?, Node.find?_eq_none h.1, Node.findItem?_eq_none h.2, Option.or_none]

theorem Node.findInEntries?_eq_none {id : ContainerId} : ∀ {entries : List (String × Node σ)},
    id ∉ Node.entryIds entries → Node.findInEntries? id entries = none
  | [], _ => rfl
  | (_, node) :: entries, h => by
      rw [Node.entryIds, List.mem_append, not_or] at h
      rw [Node.findInEntries?, Node.find?_eq_none h.1, Node.findInEntries?_eq_none h.2, Option.or_none]

end

mutual

/-- Nothing changes where a container is not. -/
theorem Node.modify_eq_self {id : ContainerId} {f : Node σ → Node σ} : ∀ {node : Node σ},
    id ∉ node.ids → node.modify id f = node
  | .value _, _ => rfl
  | .map own schema entries, h => by
      rw [Node.ids, List.mem_cons, not_or] at h
      rw [Node.modify, if_neg (Ne.symm h.1), Node.modifyEntries_eq_self h.2]
  | .list own schema items, h | .movableList own schema items, h => by
      rw [Node.ids, List.mem_cons, not_or] at h
      rw [Node.modify, if_neg (Ne.symm h.1), Node.modifyItems_eq_self h.2]
  | .text own schema content, h => by
      rw [Node.ids, List.mem_singleton] at h
      rw [Node.modify, if_neg (Ne.symm h)]

theorem Node.modifyItems_eq_self {id : ContainerId} {f : Node σ → Node σ} :
    ∀ {items : List (Node σ)}, id ∉ Node.itemIds items → Node.modifyItems id f items = items
  | [], _ => rfl
  | item :: items, h => by
      rw [Node.itemIds, List.mem_append, not_or] at h
      rw [Node.modifyItems, Node.modify_eq_self h.1, Node.modifyItems_eq_self h.2]

theorem Node.modifyEntries_eq_self {id : ContainerId} {f : Node σ → Node σ} :
    ∀ {entries : List (String × Node σ)}, id ∉ Node.entryIds entries →
      Node.modifyEntries id f entries = entries
  | [], _ => rfl
  | (key, node) :: entries, h => by
      rw [Node.entryIds, List.mem_append, not_or] at h
      rw [Node.modifyEntries, Node.modify_eq_self h.1, Node.modifyEntries_eq_self h.2]

end

mutual

/-- A change brings no containers in but those it makes. -/
theorem Node.mem_ids_modify {id : ContainerId} {f : Node σ → Node σ} {i : ContainerId}
    (hf : ∀ node : Node σ, i ∈ (f node).ids → i ∈ node.ids) :
    ∀ {node : Node σ}, i ∈ (node.modify id f).ids → i ∈ node.ids
  | .value _, h => h
  | .map own schema entries, h => by
      rw [Node.modify] at h
      split at h
      · exact hf _ h
      · rw [Node.ids, List.mem_cons] at h ⊢
        exact h.imp_right (Node.mem_ids_modifyEntries hf)
  | .list own schema items, h | .movableList own schema items, h => by
      rw [Node.modify] at h
      split at h
      · exact hf _ h
      · rw [Node.ids, List.mem_cons] at h ⊢
        exact h.imp_right (Node.mem_ids_modifyItems hf)
  | .text own schema content, h => by
      rw [Node.modify] at h
      split at h
      · exact hf _ h
      · exact h

theorem Node.mem_ids_modifyItems {id : ContainerId} {f : Node σ → Node σ} {i : ContainerId}
    (hf : ∀ node : Node σ, i ∈ (f node).ids → i ∈ node.ids) :
    ∀ {items : List (Node σ)}, i ∈ Node.itemIds (Node.modifyItems id f items) →
      i ∈ Node.itemIds items
  | [], h => h
  | item :: items, h => by
      rw [Node.modifyItems, Node.itemIds, List.mem_append] at h
      rw [Node.itemIds, List.mem_append]
      exact h.imp (Node.mem_ids_modify hf) (Node.mem_ids_modifyItems hf)

theorem Node.mem_ids_modifyEntries {id : ContainerId} {f : Node σ → Node σ} {i : ContainerId}
    (hf : ∀ node : Node σ, i ∈ (f node).ids → i ∈ node.ids) :
    ∀ {entries : List (String × Node σ)}, i ∈ Node.entryIds (Node.modifyEntries id f entries) →
      i ∈ Node.entryIds entries
  | [], h => h
  | (_, node) :: entries, h => by
      rw [Node.modifyEntries, Node.entryIds, List.mem_append] at h
      rw [Node.entryIds, List.mem_append]
      exact h.imp (Node.mem_ids_modify hf) (Node.mem_ids_modifyEntries hf)

end

mutual

/-- New containers have no number yet. -/
theorem Node.ids_build {S : Schemas σ} {i : ContainerId} : ∀ {v : Value} {type : ContainerType}
    {schema : Option σ}, i ∈ (Node.build S v type schema).ids → i = .created
  | .object entries, type, schema, h => by
      cases type with
      | map =>
          rw [Node.build, Node.ids, List.mem_cons] at h
          exact h.elim id Node.ids_buildEntries
      | _ => simpa [Node.build, Node.ids, Node.itemIds] using h
  | .array items, type, schema, h => by
      cases type with
      | list | movableList =>
          rw [Node.build, Node.ids, List.mem_cons] at h
          exact h.elim id Node.ids_buildItems
      | _ => simpa [Node.build, Node.ids, Node.entryIds] using h
  | .null, type, schema, h | .bool _, type, schema, h | .number _, type, schema, h
    | .string _, type, schema, h => by
      cases type <;> simpa [Node.build, Node.ids, Node.entryIds, Node.itemIds] using h

theorem Node.ids_buildItems {S : Schemas σ} {i : ContainerId} : ∀ {items : List Value}
    {schema : Option σ}, i ∈ Node.itemIds (Node.buildItems S items schema) → i = .created
  | [], schema, h => by simp [Node.buildItems, Node.itemIds] at h
  | item :: items, schema, h => by
      rw [Node.buildItems, Node.itemIds, List.mem_append] at h
      refine h.elim (fun h => ?_) Node.ids_buildItems
      split at h
      · split at h
        · exact Node.ids_build h
        · simp [Node.ids] at h
      · simp [Node.ids] at h

theorem Node.ids_buildEntries {S : Schemas σ} {i : ContainerId} :
    ∀ {entries : List (String × Value)} {schema : Option σ},
      i ∈ Node.entryIds (Node.buildEntries S entries schema) → i = .created
  | [], schema, h => by simp [Node.buildEntries, Node.entryIds] at h
  | (key, v) :: entries, schema, h => by
      rw [Node.buildEntries, Node.entryIds, List.mem_append] at h
      refine h.elim (fun h => ?_) Node.ids_buildEntries
      split at h
      · split at h
        · exact Node.ids_build h
        · simp [Node.ids] at h
      · simp [Node.ids] at h

end

end Mirror
end ZuTalk
