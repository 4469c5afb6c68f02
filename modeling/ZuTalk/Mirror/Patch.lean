/-
# Changes to a tree of containers, all at once

`apply_changes_to_loro` takes the changes container by container and looks each container up in
the document as the earlier ones have left it.  `Node.patch` applies them in one descent, each
container's own changes to it after those in its children.  The two agree (`Writes.applyGroups`)
where every container with changes is still there when its turn comes, and takes them.
-/

import ZuTalk.Mirror.Failure

namespace ZuTalk
namespace Mirror

variable {σ : Type}

/-- The changes to one container. -/
def changesTo (id : ContainerId) (changes : List Change) : List Change :=
  changes.filter fun change => change.container = some id

theorem changesTo_append (id : ContainerId) (changes more : List Change) :
    changesTo id (changes ++ more) = changesTo id changes ++ changesTo id more :=
  List.filter_append ..

theorem changesTo_eq_nil {id : ContainerId} {changes : List Change}
    (h : ∀ change ∈ changes, change.container ≠ some id) : changesTo id changes = [] :=
  List.filter_eq_nil_iff.2 fun change hchange => by simpa using h change hchange

theorem container_of_mem_changesTo {id : ContainerId} {changes : List Change} {change : Change}
    (h : change ∈ changesTo id changes) : change.container = some id :=
  of_decide_eq_true (List.mem_filter.1 h).2

theorem changesTo_eq_self {id : ContainerId} {changes : List Change}
    (h : ∀ change ∈ changes, change.container = some id) : changesTo id changes = changes :=
  List.filter_eq_self.2 fun change hchange => by simpa using h change hchange

section Patch

variable (S : Schemas σ) (options : InferContainerOptions)

namespace Node

mutual

/-- The changes to a container and to those in it. -/
def patch (changes : List Change) : Node σ → Node σ
  | .value v => .value v
  | .map id schema entries =>
      (applyContainerChanges S options (changesTo id changes)
        (.map id schema (patchEntries changes entries))).1
  | .list id schema items =>
      (applyContainerChanges S options (changesTo id changes)
        (.list id schema (patchItems changes items))).1
  | .movableList id schema items =>
      (applyContainerChanges S options (changesTo id changes)
        (.movableList id schema (patchItems changes items))).1
  | .text id schema content =>
      (applyContainerChanges S options (changesTo id changes) (.text id schema content)).1

/-- The changes to list items. -/
def patchItems (changes : List Change) : List (Node σ) → List (Node σ)
  | [] => []
  | item :: items => item.patch changes :: patchItems changes items

/-- The changes to map entries. -/
def patchEntries (changes : List Change) : List (String × Node σ) → List (String × Node σ)
  | [] => []
  | (key, node) :: entries => (key, node.patch changes) :: patchEntries changes entries

end

theorem patchItems_eq (changes : List Change) (items : List (Node σ)) :
    patchItems S options changes items = items.map (patch S options changes) := by
  induction items with
  | nil => rfl
  | cons item items ih => rw [patchItems, ih, List.map_cons]

theorem patchEntries_eq (changes : List Change) (entries : List (String × Node σ)) :
    patchEntries S options changes entries =
      entries.map fun entry => (entry.1, entry.2.patch S options changes) := by
  induction entries with
  | nil => rfl
  | cons entry entries ih => rw [patchEntries, ih, List.map_cons]

mutual

/-- Only the changes to what is in a node matter to it. -/
theorem patch_congr {changes changes' : List Change} : ∀ {node : Node σ},
    (∀ id ∈ node.ids, changesTo id changes = changesTo id changes') →
      node.patch S options changes = node.patch S options changes'
  | .value _, _ => rfl
  | .map id schema entries, h => by
      rw [ids, List.forall_mem_cons] at h
      rw [patch, patch, h.1, patchEntries_congr h.2]
  | .list id schema items, h | .movableList id schema items, h => by
      rw [ids, List.forall_mem_cons] at h
      rw [patch, patch, h.1, patchItems_congr h.2]
  | .text id schema content, h => by
      rw [patch, patch, h id (List.mem_singleton.2 rfl)]

theorem patchItems_congr {changes changes' : List Change} : ∀ {items : List (Node σ)},
    (∀ id ∈ itemIds items, changesTo id changes = changesTo id changes') →
      patchItems S options changes items = patchItems S options changes' items
  | [], _ => rfl
  | item :: items, h => by
      rw [itemIds, List.forall_mem_append] at h
      rw [patchItems, patchItems, patch_congr h.1, patchItems_congr h.2]

theorem patchEntries_congr {changes changes' : List Change} :
    ∀ {entries : List (String × Node σ)},
      (∀ id ∈ entryIds entries, changesTo id changes = changesTo id changes') →
        patchEntries S options changes entries = patchEntries S options changes' entries
  | [], _ => rfl
  | (_, node) :: entries, h => by
      rw [entryIds, List.forall_mem_append] at h
      rw [patchEntries, patchEntries, patch_congr h.1, patchEntries_congr h.2]

end

mutual

/-- No changes leave a node as it is. -/
theorem patch_nil : ∀ node : Node σ, node.patch S options [] = node
  | .value _ => rfl
  | .map id schema entries => by
      rw [patch, patchEntries_nil]
      rfl
  | .list id schema items | .movableList id schema items => by
      rw [patch, patchItems_nil]
      rfl
  | .text id schema content => rfl

theorem patchItems_nil : ∀ items : List (Node σ), patchItems S options [] items = items
  | [] => rfl
  | item :: items => by rw [patchItems, patch_nil, patchItems_nil]

theorem patchEntries_nil : ∀ entries : List (String × Node σ),
    patchEntries S options [] entries = entries
  | [] => rfl
  | (_, node) :: entries => by rw [patchEntries, patch_nil, patchEntries_nil]

end

/-- Changes elsewhere leave a node as it is. -/
theorem patch_eq_self {changes : List Change} {node : Node σ}
    (h : ∀ change ∈ changes, ∀ id ∈ node.ids, change.container ≠ some id) :
    node.patch S options changes = node := by
  refine (patch_congr S options fun id hid => ?_).trans (patch_nil S options node)
  exact changesTo_eq_nil fun change hchange => h change hchange id hid

end Node

/-! ### Changes and what is below -/

/-- The children of a container, changed. -/
def Node.mapChildren (g : Node σ → Node σ) : Node σ → Node σ
  | .value v => .value v
  | .map id schema entries => .map id schema (entries.map fun entry => (entry.1, g entry.2))
  | .list id schema items => .list id schema (items.map g)
  | .movableList id schema items => .movableList id schema (items.map g)
  | .text id schema content => .text id schema content

/-- A function on nodes that leaves new ones. -/
structure LeavesNew (g : Node σ → Node σ) : Prop where
  value : ∀ v, g (.value v) = .value v
  build : ∀ v type schema, g (Node.build S v type schema) = Node.build S v type schema

variable {S options} {g : Node σ → Node σ}

theorem LeavesNew.newContainer (hg : LeavesNew S g) {schema : Option σ} {v : Value} {node : Node σ}
    (h : newContainer S options schema v = .ok node) : g node = node := by
  unfold Mirror.newContainer at h
  split at h
  · obtain rfl := Except.ok.inj h
    exact hg.build _ _ _
  · cases h

theorem insertEntry_map {α β : Type*} (f : α → β) (key : String) (x : α)
    (entries : List (String × α)) :
    insertEntry key (f x) (entries.map fun entry => (entry.1, f entry.2)) =
      (insertEntry key x entries).map fun entry => (entry.1, f entry.2) := by
  induction entries with
  | nil => rfl
  | cons entry rest ih =>
      obtain ⟨k, v⟩ := entry
      rw [List.map_cons, insertEntry, insertEntry]
      split
      · rfl
      · split
        · rfl
        · rw [ih, List.map_cons]

theorem deleteEntry_map {α β : Type*} (f : α → β) (key : String) (entries : List (String × α)) :
    deleteEntry key (entries.map fun entry => (entry.1, f entry.2)) =
      (deleteEntry key entries).map fun entry => (entry.1, f entry.2) :=
  List.filter_map

theorem insertAt_map {α β : Type*} (f : α → β) (l : List α) (index : ℕ) (x : α) :
    insertAt (l.map f) index (f x) = (insertAt l index x).map (·.map f) := by
  unfold insertAt
  rw [List.length_map]
  split
  · rw [Option.map_some, List.map_insertIdx]
  · rfl

theorem deleteAt_map {α β : Type*} (f : α → β) (l : List α) (index : ℕ) :
    deleteAt (l.map f) index = (deleteAt l index).map (·.map f) := by
  unfold deleteAt
  rw [List.length_map]
  split
  · rw [Option.map_some, List.eraseIdx_map]
  · rfl

theorem applyMapChange_map (hg : LeavesNew S g) (schema : Option σ)
    (entries : List (String × Node σ)) (change : Change) :
    applyMapChange S options schema (entries.map fun entry => (entry.1, g entry.2)) change =
      (applyMapChange S options schema entries change).map
        (·.map fun entry => (entry.1, g entry.2)) := by
  unfold applyMapChange
  split
  · rfl
  · rename_i key _
    split
    · rfl
    · split
      · have hentry := insertEntry_map g key (.value (change.value.getD .null)) entries
        rw [hg.value] at hentry
        exact congrArg Except.ok hentry
      · cases hnew : newContainer S options
            ((schemaForChild S schema key).filter (S.isContainerSchema ·))
              (change.value.getD .null) with
        | error e => rfl
        | ok node =>
            have hentry := insertEntry_map g key node entries
            rw [hg.newContainer hnew] at hentry
            exact congrArg Except.ok hentry
      · exact congrArg Except.ok (deleteEntry_map g key entries)
      · rfl

theorem elim_map {α β : Type*} (f : α → β) (e : MirrorError) (x : Option α) :
    (x.map f).elim (.error e : Except MirrorError β) .ok =
      (x.elim (.error e) .ok : Except MirrorError α).map f := by
  cases x <;> rfl

theorem applyListChange_map (hg : LeavesNew S g) (movable : Bool) (schema : Option σ)
    (items : List (Node σ)) (change : Change) :
    applyListChange S options movable schema (items.map g) change =
      (applyListChange S options movable schema items change).map (·.map g) := by
  unfold applyListChange
  split
  · rfl
  · rename_i index _
    split
    · rw [deleteAt_map, elim_map]
    · have hitem := insertAt_map g items index (.value (change.value.getD .null))
      rw [hg.value] at hitem
      rw [hitem, elim_map]
    · cases hnew : newContainer S options ((S.listItem schema).filter (S.isContainerSchema ·))
          (change.value.getD .null) with
      | error e => rfl
      | ok node =>
          have hitem := insertAt_map g items index node
          rw [hg.newContainer hnew] at hitem
          change (insertAt (items.map g) index node).elim
            (Except.error MirrorError.containerInsertFailed) Except.ok = _
          rw [hitem, elim_map]
          rfl
    · split
      · rw [Moves.mov_map, elim_map]
      · rfl

theorem applyEach_map {α β ε : Type*} {step : α → β → Except ε α} {f : α → α}
    (hstep : ∀ a b, step (f a) b = (step a b).map f) (a : α) (bs : List β) :
    applyEach step (f a) bs = (f (applyEach step a bs).1, (applyEach step a bs).2) := by
  induction bs generalizing a with
  | nil => rfl
  | cons b bs ih =>
      rw [applyEach, applyEach, hstep]
      cases step a b with
      | error e => rfl
      | ok a' => exact ih a'

/-- A container's own changes do not look at what is in its children. -/
theorem applyContainerChanges_mapChildren (hg : LeavesNew S g) (changes : List Change)
    (node : Node σ) : applyContainerChanges S options changes (node.mapChildren g) =
      ((applyContainerChanges S options changes node).1.mapChildren g,
        (applyContainerChanges S options changes node).2) := by
  cases node with
  | value v => rfl
  | text id schema content => rfl
  | map id schema entries =>
      simp only [Node.mapChildren, applyContainerChanges]
      rw [applyEach_map (applyMapChange_map hg schema) entries changes]
  | list id schema items =>
      simp only [Node.mapChildren, applyContainerChanges]
      rw [applyEach_map (applyListChange_map hg false schema) items changes]
  | movableList id schema items =>
      simp only [Node.mapChildren, applyContainerChanges]
      rw [applyEach_map (applyListChange_map hg true schema) items changes]

/-! ### One container after the other -/

/-- Changing a container that has a number leaves new ones. -/
theorem leavesNew_modify (n : ℕ) (f : Node σ → Node σ) :
    LeavesNew S (Node.modify (.numbered n) f) where
  value _ := rfl
  build _ _ _ := Node.modify_eq_self fun h => by cases Node.ids_build h

namespace Node

theorem modify_mapChildren {id own : ContainerId} {f : Node σ → Node σ} {node : Node σ}
    (hown : node.ids.head? = some own) (h : own ≠ id) :
    node.modify id f = node.mapChildren (modify id f) := by
  have hitems : ∀ items : List (Node σ), modifyItems id f items = items.map (modify id f) := by
    intro items
    induction items with
    | nil => rfl
    | cons item items ih => rw [modifyItems, ih, List.map_cons]
  have hentries : ∀ entries : List (String × Node σ), modifyEntries id f entries =
      entries.map fun entry => (entry.1, entry.2.modify id f) := by
    intro entries
    induction entries with
    | nil => rfl
    | cons entry entries ih => rw [modifyEntries, ih, List.map_cons]
  cases node with
  | value v => rfl
  | map own' schema entries =>
      obtain rfl := Option.some.inj hown
      rw [modify, if_neg h, mapChildren, hentries]
  | list own' schema items | movableList own' schema items =>
      obtain rfl := Option.some.inj hown
      rw [modify, if_neg h, mapChildren, hitems]
  | text own' schema content =>
      obtain rfl := Option.some.inj hown
      rw [modify, if_neg h, mapChildren]

/-- A container's patch is its own changes to its children's patches. -/
theorem patch_eq {own : ContainerId} {changes : List Change} {node : Node σ}
    (hown : node.ids.head? = some own) : node.patch S options changes =
      (applyContainerChanges S options (changesTo own changes)
        (node.mapChildren (patch S options changes))).1 := by
  cases node with
  | value v => cases hown
  | map own' schema entries =>
      obtain rfl := Option.some.inj hown
      rw [patch, patchEntries_eq, mapChildren]
  | list own' schema items | movableList own' schema items =>
      obtain rfl := Option.some.inj hown
      rw [patch, patchItems_eq, mapChildren]
  | text own' schema content =>
      obtain rfl := Option.some.inj hown
      rw [patch, mapChildren]

section Modify

variable {n : ℕ} {changes own : List Change}

/-- A container elsewhere may as well be changed before a container's own changes. -/
theorem modify_applied {id : ContainerId} {f : Node σ → Node σ} {node : Node σ}
    (hown : node.ids.head? = some id) (h : id ≠ .numbered n) :
    (applyContainerChanges S options changes node).1.modify (.numbered n) f =
      (applyContainerChanges S options changes (node.mapChildren (modify (.numbered n) f))).1 := by
  rw [modify_mapChildren ((ids_applyContainerChanges changes node).trans hown) h,
    applyContainerChanges_mapChildren (leavesNew_modify n f)]

theorem changesTo_append_own {id : ContainerId} (hown : ∀ change ∈ own,
    change.container = some (.numbered n)) (h : id ≠ .numbered n) :
    changesTo id (changes ++ own) = changesTo id changes := by
  have hnil : changesTo id own = [] := changesTo_eq_nil fun change hchange heq =>
    h (Option.some.inj (heq.symm.trans (hown change hchange)))
  rw [changesTo_append, hnil, List.append_nil]

/-- The container that is patched, once its children are: its own changes remain to be made. -/
theorem modify_patch_own (hnot : ∀ change ∈ changes, change.container ≠ some (.numbered n))
    (hown : ∀ change ∈ own, change.container = some (.numbered n)) {node : Node σ}
    (hid : node.ids.head? = some (.numbered n)) (hnodup : node.ids.Nodup) :
    (node.patch S options changes).modify (.numbered n)
        (fun m => (applyContainerChanges S options own m).1) =
      node.patch S options (changes ++ own) := by
  have hchildren : node.mapChildren (patch S options changes) =
      node.mapChildren (patch S options (changes ++ own)) := by
    cases node with
    | value v => rfl
    | text id schema content => rfl
    | map id schema entries =>
        obtain rfl := Option.some.inj hid
        have hsame : ∀ id ∈ entryIds entries,
            changesTo id changes = changesTo id (changes ++ own) := fun id hmem =>
          (changesTo_append_own hown fun h =>
            (List.nodup_cons.1 hnodup).1 (h ▸ hmem)).symm
        have hrest := patchEntries_congr S options hsame
        rw [patchEntries_eq, patchEntries_eq] at hrest
        rw [mapChildren, mapChildren, hrest]
    | list id schema items | movableList id schema items =>
        obtain rfl := Option.some.inj hid
        have hsame : ∀ id ∈ itemIds items,
            changesTo id changes = changesTo id (changes ++ own) := fun id hmem =>
          (changesTo_append_own hown fun h =>
            (List.nodup_cons.1 hnodup).1 (h ▸ hmem)).symm
        have hrest := patchItems_congr S options hsame
        rw [patchItems_eq, patchItems_eq] at hrest
        rw [mapChildren, mapChildren, hrest]
  have hempty : ∀ m : Node σ, applyContainerChanges S options [] m = (m, none) := by
    rintro (_ | _ | _ | _ | _) <;> rfl
  have hhead : (node.mapChildren (patch S options changes)).ids.head? = some (.numbered n) := by
    cases node <;> exact hid
  rw [patch_eq hid, patch_eq hid, changesTo_append, changesTo_eq_nil hnot,
    changesTo_eq_self hown, hempty, List.nil_append, ← hchildren]
  cases hnode : node.mapChildren (patch S options changes) with
  | value v =>
      rw [hnode] at hhead
      cases hhead
  | map id schema entries | list id schema items | movableList id schema items
    | text id schema content =>
      rw [hnode] at hhead
      rw [modify, if_pos (Option.some.inj hhead)]

mutual

/-- **A container's own changes come last or first**: a tree that is patched but for one container,
with that container changed, is the tree patched. -/
theorem modify_patch (hnot : ∀ change ∈ changes, change.container ≠ some (.numbered n))
    (hown : ∀ change ∈ own, change.container = some (.numbered n)) :
    ∀ {node : Node σ}, node.ids.Nodup → (node.patch S options changes).modify (.numbered n)
        (fun m => (applyContainerChanges S options own m).1) =
      node.patch S options (changes ++ own)
  | .value _, _ => rfl
  | .map id schema entries, hnodup => by
      by_cases hid : id = .numbered n
      · exact modify_patch_own hnot hown (congrArg some hid) hnodup
      · rw [patch, patch, modify_applied rfl hid, changesTo_append_own hown hid, mapChildren,
          modify_patchEntries hnot hown (List.nodup_cons.1 hnodup).2]
  | .list id schema items, hnodup | .movableList id schema items, hnodup => by
      by_cases hid : id = .numbered n
      · exact modify_patch_own hnot hown (congrArg some hid) hnodup
      · rw [patch, patch, modify_applied rfl hid, changesTo_append_own hown hid, mapChildren,
          modify_patchItems hnot hown (List.nodup_cons.1 hnodup).2]
  | .text id schema content, hnodup => by
      by_cases hid : id = .numbered n
      · exact modify_patch_own hnot hown (congrArg some hid) hnodup
      · rw [patch, patch, modify_applied rfl hid, changesTo_append_own hown hid, mapChildren]

theorem modify_patchItems (hnot : ∀ change ∈ changes, change.container ≠ some (.numbered n))
    (hown : ∀ change ∈ own, change.container = some (.numbered n)) :
    ∀ {items : List (Node σ)}, (itemIds items).Nodup →
      (patchItems S options changes items).map (modify (.numbered n)
        fun m => (applyContainerChanges S options own m).1) =
          patchItems S options (changes ++ own) items
  | [], _ => rfl
  | item :: items, hnodup => by
      rw [itemIds] at hnodup
      obtain ⟨hitem, hitems, -⟩ := List.nodup_append'.1 hnodup
      rw [patchItems, patchItems, List.map_cons, modify_patch hnot hown hitem,
        modify_patchItems hnot hown hitems]

theorem modify_patchEntries (hnot : ∀ change ∈ changes, change.container ≠ some (.numbered n))
    (hown : ∀ change ∈ own, change.container = some (.numbered n)) :
    ∀ {entries : List (String × Node σ)}, (entryIds entries).Nodup →
      (patchEntries S options changes entries).map (fun entry => (entry.1, modify (.numbered n)
        (fun m => (applyContainerChanges S options own m).1) entry.2)) =
          patchEntries S options (changes ++ own) entries
  | [], _ => rfl
  | (_, node) :: entries, hnodup => by
      rw [entryIds] at hnodup
      obtain ⟨hnode, hentries, -⟩ := List.nodup_append'.1 hnodup
      rw [patchEntries, patchEntries, List.map_cons, modify_patch hnot hown hnode,
        modify_patchEntries hnot hown hentries]

end

end Modify

end Node

/-! ### The groups of some changes -/

/-- The changes to the containers of a set. -/
def changesOf (done : ContainerId → Bool) (changes : List Change) : List Change :=
  changes.filter fun change => change.container.any done

theorem changesTo_changesOf (done : ContainerId → Bool) (id : ContainerId)
    (changes : List Change) :
    changesTo id (changesOf done changes) = if done id then changesTo id changes else [] := by
  unfold changesTo changesOf
  rw [List.filter_filter]
  split
  · rename_i hdone
    refine List.filter_congr fun change _ => ?_
    by_cases hid : change.container = some id
    · simp [hid, hdone]
    · simp [hid]
  · rename_i hdone
    refine List.filter_eq_nil_iff.2 fun change _ => ?_
    by_cases hid : change.container = some id
    · simp [hid, hdone]
    · simp [hid]

/-- One container more. -/
theorem modify_patch_changesOf {changes : List Change} {done : ContainerId → Bool} {k : ℕ}
    {node : Node σ} (hnot : done (.numbered k) = false) (hnodup : node.ids.Nodup) :
    (node.patch S options (changesOf done changes)).modify (.numbered k)
        (fun n => (applyContainerChanges S options (changesTo (.numbered k) changes) n).1) =
      node.patch S options
        (changesOf (fun id => done id || decide (id = .numbered k)) changes) := by
  have hothers : ∀ change ∈ changesOf done changes, change.container ≠ some (.numbered k) := by
    intro change hchange heq
    obtain ⟨-, hany⟩ := List.mem_filter.1 hchange
    rw [heq, Option.any_some, hnot] at hany
    cases hany
  rw [Node.modify_patch hothers (fun change => container_of_mem_changesTo) hnodup]
  refine Node.patch_congr S options fun i _ => ?_
  rw [changesTo_append, changesTo_changesOf, changesTo_changesOf]
  by_cases hi : i = .numbered k
  · subst hi
    have hself : changesTo (.numbered k) (changesTo (.numbered k) changes) =
        changesTo (.numbered k) changes := changesTo_eq_self fun change =>
      container_of_mem_changesTo
    simp [hnot, hself]
  · have hnil : changesTo i (changesTo (.numbered k) changes) = [] :=
      changesTo_eq_nil fun change hchange heq =>
        hi (Option.some.inj (heq.symm.trans (container_of_mem_changesTo hchange)))
    simp [hi, hnil]

/-- The group of a container is of all the changes to it. -/
theorem byContainer_changesTo (id : ContainerId) (changes : List Change) :
    (byContainer changes).filter (fun group => group.1 = some id) =
      if changesTo id changes = [] then [] else [(some id, changesTo id changes)] := by
  rw [← byContainer_filter (fun container => container = some id)]
  refine byContainer_own fun change hchange => ?_
  exact of_decide_eq_true (List.mem_filter.1 hchange).2

theorem mem_byContainer_some {changes : List Change} {id : ContainerId} {own : List Change}
    (h : (some id, own) ∈ byContainer changes) :
    own = changesTo id changes ∧ changesTo id changes ≠ [] := by
  have hmem : (some id, own) ∈ (byContainer changes).filter fun group => group.1 = some id :=
    List.mem_filter.2 ⟨h, decide_eq_true rfl⟩
  rw [byContainer_changesTo] at hmem
  split at hmem
  · cases hmem
  · rename_i hne
    exact ⟨(Prod.mk.inj (List.mem_singleton.1 hmem)).2, hne⟩

/-- Each container has one group. -/
theorem pairwise_byContainer (changes : List Change) :
    (byContainer changes).Pairwise fun a b => a.1 ≠ b.1 := by
  induction changes using List.reverseRecOn with
  | nil => exact List.Pairwise.nil
  | append_singleton changes change ih =>
      rw [byContainer_append]
      generalize byContainer changes = groups at ih
      have hmem : ∀ {groups : List (Option ContainerId × List Change)}
          {group : Option ContainerId × List Change}, group ∈ pushChange groups change →
            group.1 = change.container ∨ ∃ other ∈ groups, other.1 = group.1 := by
        intro groups
        induction groups with
        | nil =>
            intro group h
            exact .inl (List.mem_singleton.1 h ▸ rfl)
        | cons head rest ih' =>
            intro group h
            obtain ⟨container, own⟩ := head
            rw [pushChange] at h
            split at h
            · rcases List.mem_cons.1 h with rfl | h
              · exact .inr ⟨_, List.mem_cons_self, rfl⟩
              · exact .inr ⟨group, List.mem_cons_of_mem _ h, rfl⟩
            · rcases List.mem_cons.1 h with rfl | h
              · exact .inr ⟨_, List.mem_cons_self, rfl⟩
              · refine (ih' h).imp_right ?_
                rintro ⟨other, hother, heq⟩
                exact ⟨other, List.mem_cons_of_mem _ hother, heq⟩
      induction groups with
      | nil => exact List.pairwise_singleton _ _
      | cons head rest ih' =>
          obtain ⟨container, own⟩ := head
          obtain ⟨hhead, hrest⟩ := List.pairwise_cons.1 ih
          rw [pushChange]
          split
          · exact List.pairwise_cons.2 ⟨hhead, hrest⟩
          · rename_i hne
            refine List.pairwise_cons.2 ⟨fun group hgroup => ?_, ih' hrest⟩
            rcases hmem hgroup with heq | ⟨other, hother, heq⟩
            · exact fun h => hne (h.trans heq)
            · exact fun h => hhead other hother (h.trans heq.symm)

variable (S options) in
/-- Containers that are there take their changes, one after the other. -/
inductive Applied : Node σ → List (Option ContainerId × List Change) → Node σ → Prop
  | nil (node : Node σ) : Applied node [] node
  | cons {node n node' : Node σ} {id : ContainerId} {own : List Change}
      {groups : List (Option ContainerId × List Change)} (hfound : node.find? id = some n)
      (hok : (applyContainerChanges S options own n).2 = none)
      (hrest : Applied (node.modify id fun n => (applyContainerChanges S options own n).1)
        groups node') : Applied node ((some id, own) :: groups) node'

variable (S options) in
/-- Every container with changes is in the node, is there at any time before they are made, and
takes them. -/
structure Takes (changes : List Change) (node : Node σ) : Prop where
  within : ∀ change ∈ changes, ∃ id ∈ node.ids, change.container = some id
  there : ∀ (done : ContainerId → Bool) (id : ContainerId), changesTo id changes ≠ [] →
    done id = false → ∃ n, (node.patch S options (changesOf done changes)).find? id = some n ∧
      (applyContainerChanges S options (changesTo id changes) n).2 = none

/-- **Changes are applied container by container, or all at once.** -/
theorem Takes.applied {changes : List Change} {node : Node σ} (h : Takes S options changes node)
    (hnodup : node.ids.Nodup) (hnumbered : ∀ id ∈ node.ids, ∃ n, id = .numbered n) :
    Applied S options node (byContainer changes) (node.patch S options changes) := by
  have hgroups : ∀ group ∈ byContainer changes, ∃ id ∈ node.ids,
      group = (some id, changesTo id changes) ∧ changesTo id changes ≠ [] := by
    rintro ⟨container, own⟩ hgroup
    obtain ⟨change, hchange, hcontainer⟩ := mem_byContainer hgroup
    obtain ⟨id, hid, hsome⟩ := h.within change hchange
    obtain rfl : container = some id := hcontainer.symm.trans hsome
    obtain ⟨rfl, hne⟩ := mem_byContainer_some hgroup
    exact ⟨id, hid, rfl, hne⟩
  have hrun : ∀ (groups : List (Option ContainerId × List Change)) (done : ContainerId → Bool),
      groups.Pairwise (fun a b => a.1 ≠ b.1) →
      (∀ group ∈ groups, ∃ id ∈ node.ids, group = (some id, changesTo id changes) ∧
        changesTo id changes ≠ []) →
      (∀ group ∈ groups, ∀ id, group.1 = some id → done id = false) →
      Applied S options (node.patch S options (changesOf done changes)) groups
        (node.patch S options (changesOf (fun id =>
          done id || groups.any fun group => group.1 = some id) changes)) := by
    intro groups
    induction groups with
    | nil =>
        intro done _ _ _
        simp only [List.any_nil, Bool.or_false]
        exact .nil _
    | cons group rest ih =>
        intro done hpairwise hmem hdone
        obtain ⟨hfirst, hpairs⟩ := List.pairwise_cons.1 hpairwise
        obtain ⟨⟨id, hid, rfl, hne⟩, hrest⟩ := List.forall_mem_cons.1 hmem
        have hnot := hdone _ List.mem_cons_self id rfl
        obtain ⟨n, hfound, hok⟩ := h.there done id hne hnot
        refine .cons hfound hok ?_
        obtain ⟨k, rfl⟩ := hnumbered id hid
        rw [modify_patch_changesOf hnot hnodup]
        have hlater : ∀ other ∈ rest, ∀ i, other.1 = some i →
            (done i || decide (i = .numbered k)) = false := by
          intro other hother i hi
          rw [Bool.or_eq_false_iff]
          refine ⟨hdone other (List.mem_cons_of_mem _ hother) i hi, decide_eq_false fun heq => ?_⟩
          exact hfirst other hother (by rw [hi, heq])
        have hnext := ih (fun i => done i || decide (i = .numbered k)) hpairs hrest hlater
        have hsame : (fun i => done i || ((some (ContainerId.numbered k),
            changesTo (.numbered k) changes) :: rest).any fun group => group.1 = some i) =
            fun i => (done i || decide (i = .numbered k)) ||
              rest.any fun group => group.1 = some i := by
          funext i
          have hhead : decide (some (ContainerId.numbered k) = some i) =
              decide (i = .numbered k) :=
            decide_eq_decide.2 ⟨fun heq => (Option.some.inj heq).symm, fun heq => heq ▸ rfl⟩
          rw [List.any_cons, hhead, Bool.or_assoc]
        rw [hsame]
        exact hnext
  have hall := hrun (byContainer changes) (fun _ => false) (pairwise_byContainer changes) hgroups
    fun _ _ _ _ => rfl
  have hnone : changesOf (fun _ => false) changes = [] :=
    List.filter_eq_nil_iff.2 fun change _ => by cases change.container <;> simp
  have hevery : changesOf (fun id => false || (byContainer changes).any fun group =>
      group.1 = some id) changes = changes := by
    refine List.filter_eq_self.2 fun change hchange => ?_
    obtain ⟨id, hid, hsome⟩ := h.within change hchange
    have hne : changesTo id changes ≠ [] := List.ne_nil_of_mem
      (List.mem_filter.2 ⟨hchange, decide_eq_true hsome⟩)
    have hmem : (some id, changesTo id changes) ∈ byContainer changes := by
      have hfilter := byContainer_changesTo id changes
      rw [if_neg hne] at hfilter
      exact (List.mem_filter.1 (hfilter ▸ List.mem_singleton.2 rfl)).1
    rw [hsome, Option.any_some, Bool.false_or]
    exact List.any_eq_true.2 ⟨_, hmem, decide_eq_true rfl⟩
  rwa [hnone, Node.patch_nil, hevery] at hall

end Patch

end Mirror
end ZuTalk
