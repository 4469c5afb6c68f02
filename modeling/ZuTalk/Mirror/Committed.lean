/-
# States that are taken

A state that differs from the one before in what is under one root, where the container takes the
changes: `set_state` succeeds, and leaves the state and the patched container
(`Inner.setState_of_takes`).
-/

import ZuTalk.Mirror.Keyed

namespace ZuTalk
namespace Mirror

variable {σ : Type} {S : Schemas σ} {options : InferContainerOptions}

namespace Node

theorem modifyEntries_append (id : ContainerId) (f : Node σ → Node σ)
    (entries more : List (String × Node σ)) :
    modifyEntries id f (entries ++ more) =
      modifyEntries id f entries ++ modifyEntries id f more := by
  induction entries with
  | nil => rfl
  | cons entry entries ih =>
      obtain ⟨key, node⟩ := entry
      rw [List.cons_append, modifyEntries, modifyEntries, ih, List.cons_append]

end Node

/-- Changes in one root container are applied to it, and the others stay as they are. -/
theorem Applied.applyGroups_roots {before after : List (String × Node σ)} {key : String}
    {node node' : Node σ} {groups : List (Option ContainerId × List Change)}
    (rootSchema : Option σ) (h : Applied S options node groups node')
    (hothers : ∀ group ∈ groups, ∀ id, group.1 = some id →
      id ∉ Node.entryIds before ∧ id ∉ Node.entryIds after) :
    Mirror.applyGroups S options rootSchema (before ++ (key, node) :: after) groups =
      (before ++ (key, node') :: after, none) := by
  induction h with
  | nil node => rfl
  | @cons node n node' id own groups hfound hok hrest ih =>
      obtain ⟨hgroup, hgroups⟩ := List.forall_mem_cons.1 hothers
      obtain ⟨hbefore, hafter⟩ := hgroup id rfl
      have hfind : Node.findInEntries? id (before ++ (key, node) :: after) = some n := by
        refine findInEntries?_eq_some (List.mem_append_right _ List.mem_cons_self) hfound
          fun other hother => ?_
        rcases List.mem_append.1 hother with hother | hother
        · exact .inr fun hmem => hbefore (mem_entryIds.2 ⟨other, hother, hmem⟩)
        · rcases List.mem_cons.1 hother with rfl | hother
          · exact .inl rfl
          · exact .inr fun hmem => hafter (mem_entryIds.2 ⟨other, hother, hmem⟩)
      have hmodify : Node.modifyEntries id
          (fun n => (applyContainerChanges S options own n).1) (before ++ (key, node) :: after) =
            before ++ (key, node.modify id fun n =>
              (applyContainerChanges S options own n).1) :: after := by
        rw [Node.modifyEntries_append, Node.modifyEntries_eq_self hbefore, Node.modifyEntries,
          Node.modifyEntries_eq_self hafter]
      rw [Mirror.applyGroups, applyGroupToRoots, hfind]
      simp only [hok, hmodify]
      exact ih hgroups

/-- An entry that stays as it is needs no changes. -/
theorem diffEntry_same {container : Option ContainerId}
    {child : String → ContainerType → Option (Differ σ)} {schema : Option σ} {oldState : Value}
    {entry : String × Value} (h : oldState.objectGet entry.1 = some entry.2)
    (hfalsy : Value.isFalsy (some entry.2) = false) :
    diffEntry S options container child schema oldState entry = .ok [] := by
  unfold diffEntry
  rw [h]
  simp only [hfalsy, Bool.false_eq_true, if_false, if_true]

/-- **A state is taken** when it is valid and the one root container that is to change takes its
changes. -/
theorem Inner.setState_of_takes {c : MirrorConfig σ} {m : Inner σ} {newState : Value}
    {before after : List (String × Node σ)} {key : String} {node : Node σ} {changes : List Change}
    (hvalid : validateSchema c.schemas newState c.schema = [])
    (hchanges : m.changes c newState = .ok changes)
    (hroots : m.roots = before ++ (key, node) :: after) (hnodup : (Node.entryIds m.roots).Nodup)
    (hnumbered : ∀ i ∈ node.ids, ∃ n, i = .numbered n)
    (htakes : Takes c.schemas c.inferOptions changes node) :
    m.setState c newState = (⟨Node.numberEntries 0 (before ++
      (key, node.patch c.schemas c.inferOptions changes) :: after), newState⟩, none) := by
  have hids : Node.entryIds m.roots =
      Node.entryIds before ++ (node.ids ++ Node.entryIds after) := by
    rw [hroots, Node.entryIds_eq, Node.entryIds_eq, Node.entryIds_eq, List.flatMap_append,
      List.flatMap_cons]
  rw [hids] at hnodup
  obtain ⟨-, hrest, hbefore⟩ := List.nodup_append'.1 hnodup
  obtain ⟨hnode, -, hafter⟩ := List.nodup_append'.1 hrest
  have happly : applyGroups c.schemas c.inferOptions (some c.schema) m.roots
      (byContainer changes) = (before ++
        (key, node.patch c.schemas c.inferOptions changes) :: after, none) := by
    rw [hroots]
    refine (htakes.applied hnode hnumbered).applyGroups_roots _ fun group hgroup id hid => ?_
    obtain ⟨change, hchange, hcontainer⟩ := mem_byContainer hgroup
    obtain ⟨i, hi, hsome⟩ := htakes.within change hchange
    obtain rfl : i = id := by
      rw [hid] at hcontainer
      exact Option.some.inj (hsome.symm.trans hcontainer)
    exact ⟨fun hmem => hbefore hmem (List.mem_append_left _ hi), hafter hi⟩
  have hrejects : rejects c newState = false := by
    rw [rejects, hvalid]
    exact Bool.and_false _
  rw [setState_eq, hrejects, updateLoro_eq, hchanges]
  simp only [happly]
  rfl

end Mirror
end ZuTalk
