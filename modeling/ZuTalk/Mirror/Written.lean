/-
# Containers that take what they are to hold

`Writes changes node value` says of changes to a container, and to those in it, that every one
of them finds its container and is taken, and that they leave the container with the value.  The
changes `diff_container` makes for a text and for a map do (`writes_text`, `writes_map`), the
latter if they do for every entry.
-/

import ZuTalk.Library.Entries
import ZuTalk.Mirror.Patch
import Mathlib.Data.String.Basic

namespace ZuTalk
namespace Mirror

variable {σ : Type}

/-! ### Entries in key order -/

/-- Entries in key order. -/
def Sorted {α : Type*} (entries : List (String × α)) : Prop :=
  entries.Pairwise fun a b => a.1 < b.1

section Entries

variable {α : Type*} {entries : List (String × α)} {key : String}

theorem lookup_insertEntry_self (value : α) (entries : List (String × α)) :
    (insertEntry key value entries).lookup key = some value := by
  induction entries with
  | nil => exact List.lookup_cons_self
  | cons entry rest ih =>
      obtain ⟨k, v⟩ := entry
      rw [insertEntry]
      split
      · exact List.lookup_cons_self
      · rename_i hne
        split
        · exact List.lookup_cons_self
        · rw [List.lookup_cons, beq_false_of_ne hne]
          exact ih

theorem mem_insertEntry {value : α} {entry : String × α}
    (h : entry ∈ insertEntry key value entries) : entry = (key, value) ∨ entry ∈ entries := by
  induction entries with
  | nil => exact .inl (List.mem_singleton.1 h)
  | cons first rest ih =>
      obtain ⟨k, v⟩ := first
      rw [insertEntry] at h
      split at h
      · exact (List.mem_cons.1 h).imp_right (List.mem_cons_of_mem _)
      · split at h
        · exact List.mem_cons.1 h
        · rcases List.mem_cons.1 h with rfl | h
          · exact .inr List.mem_cons_self
          · exact (ih h).imp_right (List.mem_cons_of_mem _)

theorem Sorted.insertEntry (h : Sorted entries) (value : α) :
    Sorted (insertEntry key value entries) := by
  induction entries with
  | nil => exact List.pairwise_singleton _ _
  | cons first rest ih =>
      obtain ⟨k, v⟩ := first
      obtain ⟨hfirst, hrest⟩ := List.pairwise_cons.1 h
      rw [Mirror.insertEntry]
      split
      · rename_i heq
        exact List.pairwise_cons.2 ⟨fun entry hentry => heq ▸ hfirst entry hentry, hrest⟩
      · rename_i hne
        split
        · rename_i hlt
          refine List.pairwise_cons.2 ⟨fun entry hentry => ?_, h⟩
          rcases List.mem_cons.1 hentry with rfl | hentry
          · exact hlt
          · exact hlt.trans (hfirst entry hentry)
        · rename_i hnlt
          refine List.pairwise_cons.2 ⟨fun entry hentry => ?_, ih hrest⟩
          rcases mem_insertEntry hentry with rfl | hentry
          · exact lt_of_le_of_ne (not_lt.1 hnlt) (Ne.symm hne)
          · exact hfirst entry hentry

theorem Sorted.deleteEntry (h : Sorted entries) : Sorted (deleteEntry key entries) :=
  h.sublist List.filter_sublist

theorem Sorted.nodup (h : Sorted entries) : (entries.map Prod.fst).Nodup :=
  List.pairwise_map.2 (h.imp fun hlt => hlt.ne)

/-- Entries in key order are what they are looked up as. -/
theorem Sorted.ext {others : List (String × α)} (h : Sorted entries) (h' : Sorted others)
    (hlookup : ∀ key, entries.lookup key = others.lookup key) : entries = others := by
  have hmem : ∀ {l l' : List (String × α)}, Sorted l → (∀ key, l.lookup key = l'.lookup key) →
      ∀ entry ∈ l, entry ∈ l' := fun hl hall entry hentry =>
    Entries.mem_of_lookup ((hall entry.1).symm.trans (Entries.lookup_of_mem hl.nodup hentry))
  refine List.Perm.eq_of_pairwise (fun a b _ _ hab hba => absurd (hab.trans hba) (lt_irrefl _))
    h h' ((List.perm_ext_iff_of_nodup ?_ ?_).2 fun entry => ⟨?_, ?_⟩)
  · exact .of_map _ h.nodup
  · exact .of_map _ h'.nodup
  · exact hmem h hlookup entry
  · exact hmem h' (fun key => (hlookup key).symm) entry

theorem lookup_map {β : Type*} (f : α → β) (entries : List (String × α)) (key : String) :
    (entries.map fun entry => (entry.1, f entry.2)).lookup key = (entries.lookup key).map f := by
  induction entries with
  | nil => rfl
  | cons entry rest ih =>
      rw [List.map_cons, List.lookup_cons, List.lookup_cons, ih]
      cases key == entry.1 <;> rfl

theorem Sorted.map {β : Type*} (h : Sorted entries) (f : α → β) :
    Sorted (entries.map fun entry => (entry.1, f entry.2)) :=
  List.pairwise_map.2 h

end Entries

/-! ### What is new, and what is where -/

section Ids

variable {S : Schemas σ} {options : InferContainerOptions}

/-- New nodes have no number yet. -/
theorem ids_newContainer {schema : Option σ} {v : Value} {node : Node σ}
    (h : newContainer S options schema v = .ok node) : ∀ i ∈ node.ids, i = .created := by
  unfold newContainer at h
  split at h
  · obtain rfl := Except.ok.inj h
    exact fun i => Node.ids_build
  · cases h

/-- Steps that each bring no containers in but new ones. -/
theorem ids_applyEach {α β ε : Type*} {step : α → β → Except ε α} {ids : α → List ContainerId}
    (hstep : ∀ a b a', step a b = .ok a' → ∀ i ∈ ids a', i ∈ ids a ∨ i = .created) (a : α)
    (bs : List β) : ∀ i ∈ ids (applyEach step a bs).1, i ∈ ids a ∨ i = .created := by
  induction bs generalizing a with
  | nil => exact fun i hi => .inl hi
  | cons b bs ih =>
      intro i hi
      rw [applyEach] at hi
      cases hb : step a b with
      | ok a' =>
          rw [hb] at hi
          exact (ih a' i hi).elim (hstep a b a' hb i) .inr
      | error e =>
          rw [hb] at hi
          exact .inl hi

/-- Of lists that have no member in common, a member is in one. -/
theorem eq_of_nodup_flatMap {α β : Type*} {l : List α} {f : α → List β} (h : (l.flatMap f).Nodup)
    {a b : α} (ha : a ∈ l) (hb : b ∈ l) {x : β} (hx : x ∈ f a) (hx' : x ∈ f b) : a = b := by
  by_contra hne
  have hsymm : Std.Symm (Function.onFun List.Disjoint f) := ⟨fun _ _ h _ hx hx' => h hx' hx⟩
  exact (List.nodup_flatMap.1 h).2.forall ha hb hne hx hx'

theorem mem_entryIds {entries : List (String × Node σ)} {i : ContainerId} :
    i ∈ Node.entryIds entries ↔ ∃ entry ∈ entries, i ∈ entry.2.ids := by
  rw [Node.entryIds_eq, List.mem_flatMap]

theorem mem_itemIds {items : List (Node σ)} {i : ContainerId} :
    i ∈ Node.itemIds items ↔ ∃ item ∈ items, i ∈ item.ids := by
  rw [Node.itemIds_eq, List.mem_flatMap]

/-- An entry of a map after a change was there, or it is a plain value or a new container. -/
theorem mem_applyMapChange {schema : Option σ} {entries entries' : List (String × Node σ)}
    {change : Change} {entry : String × Node σ}
    (h : applyMapChange S options schema entries change = .ok entries')
    (hentry : entry ∈ entries') :
    entry ∈ entries ∨ (∃ v, entry.2 = .value v) ∨
      newContainer S options ((schemaForChild S schema entry.1).filter (S.isContainerSchema ·))
        (change.value.getD .null) = .ok entry.2 := by
  unfold applyMapChange at h
  split at h
  · obtain rfl := Except.ok.inj h
    exact .inl hentry
  · rename_i key _
    split at h
    · obtain rfl := Except.ok.inj h
      exact .inl hentry
    · split at h
      · obtain rfl := Except.ok.inj h
        rcases mem_insertEntry hentry with rfl | hentry
        · exact .inr (.inl ⟨_, rfl⟩)
        · exact .inl hentry
      · cases hnew : newContainer S options ((schemaForChild S schema key).filter
            (S.isContainerSchema ·)) (change.value.getD .null) with
        | error e =>
            rw [hnew] at h
            cases h
        | ok node =>
            rw [hnew] at h
            obtain rfl := Except.ok.inj h
            rcases mem_insertEntry hentry with rfl | hentry
            · exact .inr (.inr hnew)
            · exact .inl hentry
      · obtain rfl := Except.ok.inj h
        exact .inl (List.mem_of_mem_filter hentry)
      · cases h

theorem ids_applyMapChange {schema : Option σ} {entries entries' : List (String × Node σ)}
    {change : Change} {i : ContainerId}
    (h : applyMapChange S options schema entries change = .ok entries')
    (hi : i ∈ Node.entryIds entries') : i ∈ Node.entryIds entries ∨ i = .created := by
  obtain ⟨⟨key, node⟩, hentry, hmem⟩ := mem_entryIds.1 hi
  rcases mem_applyMapChange h hentry with hold | ⟨v, rfl⟩ | hnew
  · exact .inl (mem_entryIds.2 ⟨_, hold, hmem⟩)
  · cases hmem
  · exact .inr (ids_newContainer hnew i hmem)

theorem mem_insertAt {α : Type*} {l l' : List α} {index : ℕ} {x a : α}
    (h : insertAt l index x = some l') (ha : a ∈ l') : a = x ∨ a ∈ l := by
  unfold insertAt at h
  split at h
  · obtain rfl := Option.some.inj h
    rename_i hindex
    exact (List.mem_insertIdx hindex).1 ha
  · cases h

/-- An item of a list after a change was there, or it is a plain value or a new container. -/
theorem mem_applyListChange {movable : Bool} {schema : Option σ} {items items' : List (Node σ)}
    {change : Change} {item : Node σ}
    (h : applyListChange S options movable schema items change = .ok items')
    (hitem : item ∈ items') :
    item ∈ items ∨ (∃ v, item = .value v) ∨
      newContainer S options ((S.listItem schema).filter (S.isContainerSchema ·))
        (change.value.getD .null) = .ok item := by
  have helim : ∀ {x : Option (List (Node σ))},
      x.elim (.error .containerInsertFailed : Except MirrorError _) .ok = .ok items' →
        x = some items' := by
    rintro (_ | l) hx
    · cases hx
    · exact congrArg some (Except.ok.inj hx)
  unfold applyListChange at h
  split at h
  · cases h
  · split at h
    · have hdelete := helim h
      unfold deleteAt at hdelete
      split at hdelete
      · obtain rfl := Option.some.inj hdelete
        exact .inl (List.mem_of_mem_eraseIdx hitem)
      · cases hdelete
    · exact (mem_insertAt (helim h) hitem).elim (fun hnew => .inr (.inl ⟨_, hnew⟩)) .inl
    · cases hnew : newContainer S options ((S.listItem schema).filter (S.isContainerSchema ·))
          (change.value.getD .null) with
      | error e =>
          rw [hnew] at h
          cases h
      | ok node =>
          rw [hnew] at h
          rcases mem_insertAt (helim h) hitem with rfl | hitem
          · exact .inr (.inr rfl)
          · exact .inl hitem
    · split at h
      · exact .inl ((Moves.mov_perm (helim h)).mem_iff.1 hitem)
      · cases h

theorem ids_applyListChange {movable : Bool} {schema : Option σ} {items items' : List (Node σ)}
    {change : Change} {i : ContainerId}
    (h : applyListChange S options movable schema items change = .ok items')
    (hi : i ∈ Node.itemIds items') : i ∈ Node.itemIds items ∨ i = .created := by
  obtain ⟨item, hitem, hmem⟩ := mem_itemIds.1 hi
  rcases mem_applyListChange h hitem with hold | ⟨v, rfl⟩ | hnew
  · exact .inl (mem_itemIds.2 ⟨item, hold, hmem⟩)
  · cases hmem
  · exact .inr (ids_newContainer hnew i hmem)

/-- A container's own changes bring new containers in, and no others. -/
theorem mem_ids_applyContainerChanges {changes : List Change} {node : Node σ} {i : ContainerId}
    (h : i ∈ (applyContainerChanges S options changes node).1.ids) :
    i ∈ node.ids ∨ i = .created := by
  cases node with
  | value v => exact .inl h
  | text id schema content => exact .inl h
  | map id schema entries =>
      rw [applyContainerChanges, Node.ids, List.mem_cons] at h
      rw [Node.ids, List.mem_cons, or_assoc]
      refine h.imp_right fun h => ?_
      exact ids_applyEach (fun _ _ _ hb i hi => ids_applyMapChange hb hi) entries changes i h
  | list id schema items | movableList id schema items =>
      rw [applyContainerChanges, Node.ids, List.mem_cons] at h
      rw [Node.ids, List.mem_cons, or_assoc]
      refine h.imp_right fun h => ?_
      exact ids_applyEach (fun _ _ _ hb i hi => ids_applyListChange hb hi) items changes i h

mutual

/-- A patch brings new containers in, and no others. -/
theorem mem_ids_patch {changes : List Change} {i : ContainerId} : ∀ {node : Node σ},
    i ∈ (node.patch S options changes).ids → i ∈ node.ids ∨ i = .created
  | .value _, h => .inl h
  | .text id schema content, h => .inl h
  | .map id schema entries, h => by
      rw [Node.patch] at h
      refine (mem_ids_applyContainerChanges h).elim (fun h => ?_) .inr
      rw [Node.ids, List.mem_cons] at h ⊢
      exact h.elim (fun h => .inl (.inl h)) fun h => (mem_ids_patchEntries h).imp_left .inr
  | .list id schema items, h | .movableList id schema items, h => by
      rw [Node.patch] at h
      refine (mem_ids_applyContainerChanges h).elim (fun h => ?_) .inr
      rw [Node.ids, List.mem_cons] at h ⊢
      exact h.elim (fun h => .inl (.inl h)) fun h => (mem_ids_patchItems h).imp_left .inr

theorem mem_ids_patchItems {changes : List Change} {i : ContainerId} : ∀ {items : List (Node σ)},
    i ∈ Node.itemIds (Node.patchItems S options changes items) →
      i ∈ Node.itemIds items ∨ i = .created
  | [], h => .inl h
  | item :: items, h => by
      rw [Node.patchItems, Node.itemIds, List.mem_append] at h
      rw [Node.itemIds, List.mem_append]
      exact h.elim (fun h => (mem_ids_patch h).imp_left .inl)
        fun h => (mem_ids_patchItems h).imp_left .inr

theorem mem_ids_patchEntries {changes : List Change} {i : ContainerId} :
    ∀ {entries : List (String × Node σ)},
      i ∈ Node.entryIds (Node.patchEntries S options changes entries) →
        i ∈ Node.entryIds entries ∨ i = .created
  | [], h => .inl h
  | (_, node) :: entries, h => by
      rw [Node.patchEntries, Node.entryIds, List.mem_append] at h
      rw [Node.entryIds, List.mem_append]
      exact h.elim (fun h => (mem_ids_patch h).imp_left .inl)
        fun h => (mem_ids_patchEntries h).imp_left .inr

end

/-- A container is found in the only item that has it. -/
theorem findItem?_eq_some {items : List (Node σ)} {item n : Node σ} {id : ContainerId}
    (hitem : item ∈ items) (hfound : item.find? id = some n)
    (hothers : ∀ other ∈ items, other = item ∨ id ∉ other.ids) :
    Node.findItem? id items = some n := by
  induction items with
  | nil => cases hitem
  | cons first rest ih =>
      rw [Node.findItem?]
      rcases hothers first List.mem_cons_self with rfl | hnot
      · rw [hfound, Option.some_or]
      · rw [Node.find?_eq_none hnot, Option.none_or]
        refine ih ((List.mem_cons.1 hitem).resolve_left ?_)
          fun other hother => hothers other (List.mem_cons_of_mem _ hother)
        rintro rfl
        rw [Node.find?_eq_none hnot] at hfound
        cases hfound

/-- The same of the entries of a map. -/
theorem findInEntries?_eq_some {entries : List (String × Node σ)} {entry : String × Node σ}
    {n : Node σ} {id : ContainerId} (hentry : entry ∈ entries)
    (hfound : entry.2.find? id = some n)
    (hothers : ∀ other ∈ entries, other.2 = entry.2 ∨ id ∉ other.2.ids) :
    Node.findInEntries? id entries = some n := by
  have hitems : ∀ l : List (String × Node σ), Node.findInEntries? id l =
      Node.findItem? id (l.map Prod.snd) := by
    intro l
    induction l with
    | nil => rfl
    | cons first rest ih => rw [Node.findInEntries?, List.map_cons, Node.findItem?, ih]
  rw [hitems]
  refine findItem?_eq_some (List.mem_map_of_mem hentry) hfound fun other hother => ?_
  obtain ⟨pair, hpair, rfl⟩ := List.mem_map.1 hother
  exact hothers pair hpair

end Ids

/-! ### What a container takes -/

section Writes

variable (S : Schemas σ) (options : InferContainerOptions)

/-- Changes that leave a container with a value. -/
structure Writes (changes : List Change) (node : Node σ) (v : Value) : Prop
    extends Takes S options changes node where
  value : (node.patch S options changes).deepValue = v

variable {S options}

/-- A text takes another string. -/
theorem writes_text (id : ContainerId) (schema : Option σ) (content newText : String) :
    Writes S options (diffText id content newText) (.text id schema content)
      (.string newText) := by
  have hown : ∀ change ∈ diffText id content newText, change.container = some id := by
    intro change hchange
    unfold diffText at hchange
    split at hchange
    · cases hchange
    · rw [List.mem_singleton.1 hchange]
  refine ⟨⟨fun change hchange => ⟨id, List.mem_singleton.2 rfl, hown change hchange⟩, ?_⟩, ?_⟩
  · intro done other hne hnot
    obtain rfl : other = id := by
      by_contra hother
      exact hne (changesTo_eq_nil fun change hchange heq =>
        hother (Option.some.inj (heq.symm.trans (hown change hchange))))
    have hpatch : (Node.text other schema content : Node σ).patch S options
        (changesOf done (diffText other content newText)) = .text other schema content := by
      refine Node.patch_eq_self S options fun change hchange => ?_
      obtain ⟨hmem, hany⟩ := List.mem_filter.1 hchange
      rw [hown change hmem, Option.any_some, hnot] at hany
      cases hany
    rw [hpatch]
    exact ⟨_, if_pos rfl, rfl⟩
  · rw [Node.patch, changesTo_eq_self hown]
    unfold diffText
    split
    · rename_i heq
      rw [heq]
      rfl
    · rfl

/-! ### Maps -/

variable (S options) in
/-- A change that gives a key of a map a new node with a value. -/
structure Sets (id : ContainerId) (schema : Option σ) (key : String) (v : Value)
    (change : Change) : Prop where
  container : change.container = some id
  applies : ∃ node : Node σ, node.deepValue = v ∧ (∀ i ∈ node.ids, i = .created) ∧
    ∀ entries, applyMapChange S options schema entries change = .ok (insertEntry key node entries)

variable (S options) in
/-- What the changes for an entry of a map do: nothing, where it has its value; give the key a new
node; or change the container under it. -/
inductive EntryWrites (id : ContainerId) (schema : Option σ) (entries : List (String × Node σ))
    (key : String) (v : Value) : List Change → Prop
  | same {node : Node σ} (h : entries.lookup key = some node) (hv : node.deepValue = v) :
      EntryWrites id schema entries key v []
  | fresh {change : Change} (h : Sets S options id schema key v change) :
      EntryWrites id schema entries key v [change]
  | child {node : Node σ} {changes : List Change} (h : entries.lookup key = some node)
      (hchanges : Writes S options changes node v) : EntryWrites id schema entries key v changes

variable (S options) in
/-- Changes to a map, key by key: what they delete, and what they do for each key it is to have. -/
structure MapPlan (id : ContainerId) (schema : Option σ) (entries : List (String × Node σ)) where
  deleted : List String
  updates : List (String × Value × List Change)
  sorted : Sorted entries
  nodup : (Node.map id schema entries).ids.Nodup
  numbered : ∀ i ∈ (Node.map id schema entries).ids, i ≠ .created
  keys : Sorted updates
  deletes : ∀ key ∈ deleted, key ≠ "" ∧ key ∉ updates.map Prod.fst
  covers : ∀ entry ∈ entries, entry.1 ∈ deleted ∨ entry.1 ∈ updates.map Prod.fst
  writes : ∀ update ∈ updates,
    EntryWrites S options id schema entries update.1 update.2.1 update.2.2

/-- Of updates with different keys, all the changes to a container may come from one. -/
theorem changesTo_updates {updates : List (String × Value × List Change)} {key : String}
    {i : ContainerId} (hkeys : (updates.map Prod.fst).Nodup)
    (hother : ∀ update ∈ updates, update.1 ≠ key → changesTo i update.2.2 = []) :
    changesTo i (updates.flatMap fun update => update.2.2) =
      (updates.lookup key).elim [] fun update => changesTo i update.2 := by
  induction updates with
  | nil => rfl
  | cons update rest ih =>
      obtain ⟨hfirst, hrest⟩ := List.forall_mem_cons.1 hother
      obtain ⟨hnot, hnodup⟩ := List.nodup_cons.1 hkeys
      rw [List.flatMap_cons, changesTo_append, List.lookup_cons, ih hnodup hrest]
      by_cases heq : key = update.1
      · have hnone : rest.lookup key = none := List.lookup_eq_none_iff.2 fun other hother =>
          bne_iff_ne.2 fun h => hnot (heq ▸ h ▸ List.mem_map_of_mem hother)
        rw [hnone, heq, beq_self_eq_true]
        exact List.append_nil _
      · rw [hfirst (Ne.symm heq), beq_false_of_ne heq]
        rfl

section Own

variable {id : ContainerId} {schema : Option σ}

/-- What is deleted is gone, and the rest is as it was. -/
theorem applyEach_deletes (schema : Option σ) {deleted : List String}
    (hdeletes : ∀ key ∈ deleted, key ≠ "") {current : List (String × Node σ)}
    (hsorted : Sorted current) :
    ∃ left, applyEach (applyMapChange S options schema) current
        (deleted.map fun key => ⟨some id, .prop key, none, .delete⟩) = (left, none) ∧
      Sorted left ∧ (∀ key ∈ deleted, left.lookup key = none) ∧
      ∀ key, key ∉ deleted → left.lookup key = current.lookup key := by
  induction deleted generalizing current with
  | nil => exact ⟨current, rfl, hsorted, nofun, fun _ _ => rfl⟩
  | cons key rest ih =>
      obtain ⟨hkey, hrest⟩ := List.forall_mem_cons.1 hdeletes
      obtain ⟨left, hleft, hsorted', hnone, hsame⟩ := ih hrest hsorted.deleteEntry
      have hlookup : ∀ other, other ≠ key →
          (deleteEntry key current).lookup other = current.lookup other := fun other hne =>
        Entries.lookup_remove_of_ne hne
      refine ⟨left, ?_, hsorted', fun other hother => ?_, fun other hother => ?_⟩
      · rw [List.map_cons, applyEach, applyMapChange]
        simp only [if_neg hkey]
        exact hleft
      · by_cases hmem : other ∈ rest
        · exact hnone other hmem
        · obtain rfl := (List.mem_cons.1 hother).resolve_right hmem
          rw [hsame other hmem]
          exact Entries.lookup_remove_self
      · rw [List.mem_cons, not_or] at hother
        rw [hsame other hother.2, hlookup other hother.1]

/-- What the own changes of some updates do to a map, by key. -/
theorem applyEach_updates {updates : List (String × Value × List Change)}
    (hkeys : (updates.map Prod.fst).Nodup)
    (hown : ∀ update ∈ updates,
      (∃ change, update.2.2 = [change] ∧
        Sets S options id schema update.1 update.2.1 change) ∨ changesTo id update.2.2 = [])
    {current : List (String × Node σ)} (hsorted : Sorted current) :
    ∃ left, applyEach (applyMapChange S options schema) current
        (updates.flatMap fun update => changesTo id update.2.2) = (left, none) ∧
      Sorted left ∧ (∀ key, key ∉ updates.map Prod.fst → left.lookup key = current.lookup key) ∧
      ∀ update ∈ updates, (changesTo id update.2.2 = [] ∧
          left.lookup update.1 = current.lookup update.1) ∨
        (changesTo id update.2.2 ≠ [] ∧ ∃ node, left.lookup update.1 = some node ∧
          node.deepValue = update.2.1 ∧ ∀ i ∈ node.ids, i = .created) := by
  induction updates generalizing current with
  | nil => exact ⟨current, rfl, hsorted, fun _ _ => rfl, nofun⟩
  | cons update rest ih =>
      obtain ⟨hfirst, hrest⟩ := List.forall_mem_cons.1 hown
      obtain ⟨hnot, hnodup⟩ := List.nodup_cons.1 hkeys
      rw [List.flatMap_cons]
      rcases hfirst with ⟨change, hchange, hsets⟩ | hnil
      · obtain ⟨node, hvalue, hnew, happlies⟩ := hsets.applies
        have hself : changesTo id update.2.2 = [change] := by
          rw [hchange]
          exact changesTo_eq_self fun c hc => List.mem_singleton.1 hc ▸ hsets.container
        obtain ⟨left, hleft, hsorted', hsame, hupdates⟩ :=
          ih hnodup hrest (hsorted.insertEntry node)
        refine ⟨left, ?_, hsorted', fun key hkey => ?_, fun other hother => ?_⟩
        · rw [hself, List.singleton_append, applyEach, happlies]
          exact hleft
        · rw [List.map_cons, List.mem_cons, not_or] at hkey
          rw [hsame key hkey.2, lookup_insertEntry_of_ne _ _ hkey.1]
        · rcases List.mem_cons.1 hother with rfl | hother
          · refine .inr ⟨by rw [hself]; exact List.cons_ne_nil _ _, node, ?_, hvalue, hnew⟩
            rw [hsame _ hnot, lookup_insertEntry_self]
          · refine (hupdates other hother).imp_left fun hunchanged => ⟨hunchanged.1, ?_⟩
            rw [hunchanged.2, lookup_insertEntry_of_ne]
            rintro heq
            exact hnot (heq ▸ List.mem_map_of_mem hother)
      · obtain ⟨left, hleft, hsorted', hsame, hupdates⟩ := ih hnodup hrest hsorted
        refine ⟨left, ?_, hsorted', fun key hkey => ?_, fun other hother => ?_⟩
        · rw [hnil, List.nil_append]
          exact hleft
        · rw [List.map_cons, List.mem_cons, not_or] at hkey
          exact hsame key hkey.2
        · rcases List.mem_cons.1 hother with rfl | hother
          · exact .inl ⟨hnil, hsame _ hnot⟩
          · exact hupdates other hother

end Own

namespace MapPlan

variable {id : ContainerId} {schema : Option σ} {entries : List (String × Node σ)}
  (plan : MapPlan S options id schema entries)

include plan

/-- The changes, those that delete first. -/
def changes : List Change :=
  plan.deleted.map (fun key => ⟨some id, .prop key, none, .delete⟩) ++
    plan.updates.flatMap fun update => update.2.2

/-- The entries the map is to have. -/
def newEntries : List (String × Value) :=
  plan.updates.map fun update => (update.1, update.2.1)

theorem id_notMem : id ∉ Node.entryIds entries := (List.nodup_cons.1 plan.nodup).1

/-- What an update changes, a fresh entry apart, is in the entry it is about. -/
theorem update_cases {update : String × Value × List Change} (h : update ∈ plan.updates) :
    (∃ change, update.2.2 = [change] ∧ Sets S options id schema update.1 update.2.1 change) ∨
      ∃ node, entries.lookup update.1 = some node ∧ changesTo id update.2.2 = [] ∧
        (∀ change ∈ update.2.2, ∃ i ∈ node.ids, change.container = some i) ∧
        Writes S options update.2.2 node update.2.1 := by
  obtain ⟨key, v, changes⟩ := update
  cases plan.writes _ h with
  | @same node hlookup hv =>
      refine .inr ⟨node, hlookup, rfl, nofun, ⟨⟨nofun, fun _ _ hne => absurd rfl hne⟩, ?_⟩⟩
      rw [Node.patch_nil]
      exact hv
  | fresh hsets => exact .inl ⟨_, rfl, hsets⟩
  | @child node _ hlookup hwrites =>
      refine .inr ⟨node, hlookup, changesTo_eq_nil fun change hchange heq => ?_,
        hwrites.within, hwrites⟩
      obtain ⟨i, hi, hcontainer⟩ := hwrites.within change hchange
      obtain rfl := Option.some.inj (hcontainer.symm.trans heq)
      exact plan.id_notMem (mem_entryIds.2 ⟨_, Entries.mem_of_lookup hlookup, hi⟩)

/-- A container is in one entry. -/
theorem entry_unique {entry other : String × Node σ} {i : ContainerId} (hentry : entry ∈ entries)
    (hother : other ∈ entries) (hi : i ∈ entry.2.ids) (hi' : i ∈ other.2.ids) : entry = other := by
  have hnodup := (List.nodup_cons.1 plan.nodup).2
  rw [Node.entryIds_eq] at hnodup
  exact eq_of_nodup_flatMap hnodup hentry hother hi hi'

/-- The changes to what is in an entry are those of its update. -/
theorem changesTo_entry {key : String} {node : Node σ} (hlookup : entries.lookup key = some node)
    {i : ContainerId} (hi : i ∈ node.ids) :
    changesTo i plan.changes = ((plan.updates.lookup key).elim [] fun u => changesTo i u.2) := by
  have hid : id ≠ i := fun heq =>
    plan.id_notMem (heq ▸ mem_entryIds.2 ⟨_, Entries.mem_of_lookup hlookup, hi⟩)
  have hdeletes : changesTo i (plan.deleted.map fun key =>
      (⟨some id, .prop key, none, .delete⟩ : Change)) = [] := by
    refine changesTo_eq_nil fun change hchange heq => ?_
    obtain ⟨k, -, rfl⟩ := List.mem_map.1 hchange
    exact hid (Option.some.inj heq)
  have hother : ∀ update ∈ plan.updates, update.1 ≠ key → changesTo i update.2.2 = [] := by
    intro update hupdate hne
    refine changesTo_eq_nil fun change hchange heq => ?_
    rcases plan.update_cases hupdate with ⟨own, hown, hsets⟩ | ⟨other, hother, -, hwithin, -⟩
    · rw [hown] at hchange
      obtain rfl := List.mem_singleton.1 hchange
      exact hid (Option.some.inj (hsets.container.symm.trans heq))
    · obtain ⟨j, hj, hcontainer⟩ := hwithin change hchange
      obtain rfl := Option.some.inj (hcontainer.symm.trans heq)
      have hsame := plan.entry_unique (Entries.mem_of_lookup hlookup)
        (Entries.mem_of_lookup hother) hi hj
      exact hne (congrArg Prod.fst hsame).symm
  unfold changes
  rw [changesTo_append, hdeletes, List.nil_append]
  exact changesTo_updates plan.keys.nodup hother

/-- An entry with an update is patched by it alone. -/
theorem patch_entry (done : ContainerId → Bool) {update : String × Value × List Change}
    (hupdate : update ∈ plan.updates) {node : Node σ}
    (hlookup : entries.lookup update.1 = some node) :
    node.patch S options (changesOf done plan.changes) =
      node.patch S options (changesOf done update.2.2) := by
  refine Node.patch_congr S options fun i hi => ?_
  rw [changesTo_changesOf, changesTo_changesOf, plan.changesTo_entry hlookup hi,
    Entries.lookup_of_mem plan.keys.nodup hupdate]
  rfl

theorem patch_entry_all {update : String × Value × List Change} (hupdate : update ∈ plan.updates)
    {node : Node σ} (hlookup : entries.lookup update.1 = some node) :
    node.patch S options plan.changes = node.patch S options update.2.2 := by
  refine Node.patch_congr S options fun i hi => ?_
  rw [plan.changesTo_entry hlookup hi, Entries.lookup_of_mem plan.keys.nodup hupdate]
  rfl

/-- The changes to the map itself. -/
theorem changesTo_own : changesTo id plan.changes =
    plan.deleted.map (fun key => ⟨some id, .prop key, none, .delete⟩) ++
      plan.updates.flatMap fun update => changesTo id update.2.2 := by
  unfold changes
  rw [changesTo_append, changesTo_eq_self (by simp)]
  congr 1
  induction plan.updates with
  | nil => rfl
  | cons update rest ih => rw [List.flatMap_cons, changesTo_append, ih, List.flatMap_cons]

/-- **What the map's own changes do to it**, by key: a key that is deleted is gone, a key that is
given a new node has it, and the others are as they were. -/
theorem applyEach_own {current : List (String × Node σ)} (hsorted : Sorted current) :
    ∃ left, applyEach (applyMapChange S options schema) current (changesTo id plan.changes) =
        (left, none) ∧
      Sorted left ∧ (∀ key ∈ plan.deleted, left.lookup key = none) ∧
      (∀ key, key ∉ plan.deleted → key ∉ plan.updates.map Prod.fst →
        left.lookup key = current.lookup key) ∧
      ∀ update ∈ plan.updates, (changesTo id update.2.2 = [] ∧
          left.lookup update.1 = current.lookup update.1) ∨
        (changesTo id update.2.2 ≠ [] ∧ ∃ node, left.lookup update.1 = some node ∧
          node.deepValue = update.2.1 ∧ ∀ i ∈ node.ids, i = .created) := by
  obtain ⟨mid, hmid, hsortedmid, hnone, hsame⟩ := applyEach_deletes (S := S) schema
    (fun key hkey => (plan.deletes key hkey).1) hsorted
  obtain ⟨left, hleft, hsortedleft, hothers, hupdates⟩ := applyEach_updates plan.keys.nodup
    (fun update hupdate => (plan.update_cases hupdate).imp_right fun ⟨_, _, hnil, _⟩ => hnil)
    hsortedmid
  refine ⟨left, ?_, hsortedleft, fun key hkey => ?_, fun key hkey hnot => ?_,
    fun update hupdate => (hupdates update hupdate).imp_left fun ⟨hnil, hlookup⟩ => ⟨hnil, ?_⟩⟩
  · rw [changesTo_own, applyEach_append_ok hmid]
    exact hleft
  · rw [hothers key (plan.deletes key hkey).2, hnone key hkey]
  · rw [hothers key hnot, hsame key hkey]
  · rw [hlookup, hsame]
    exact fun hmem => (plan.deletes _ hmem).2 (List.mem_map_of_mem hupdate)

/-- The patched map, by key: a new node or none, or the entry's patch, as it is where the update
leaves the map itself alone. -/
theorem patch_eq (done : ContainerId → Bool) :
    ∃ left, (Node.map id schema entries).patch S options (changesOf done plan.changes) =
        .map id schema left ∧ Sorted left ∧
      (∀ key, (∃ node, left.lookup key = some node ∧ ∀ i ∈ node.ids, i = .created) ∨
        left.lookup key = none ∨ left.lookup key = (entries.lookup key).map
          (Node.patch S options (changesOf done plan.changes))) ∧
      ∀ update ∈ plan.updates, changesTo id update.2.2 = [] →
        left.lookup update.1 = (entries.lookup update.1).map
          (Node.patch S options (changesOf done plan.changes)) := by
  have hsorted : Sorted (Node.patchEntries S options (changesOf done plan.changes) entries) := by
    rw [Node.patchEntries_eq]
    exact plan.sorted.map _
  have hlookup : ∀ key, (Node.patchEntries S options (changesOf done plan.changes) entries).lookup
      key = (entries.lookup key).map (Node.patch S options (changesOf done plan.changes)) := by
    intro key
    rw [Node.patchEntries_eq, lookup_map]
  rw [Node.patch, changesTo_changesOf]
  split
  · obtain ⟨left, hleft, hsortedleft, hnone, hothers, hupdates⟩ := plan.applyEach_own hsorted
    refine ⟨left, ?_, hsortedleft, fun key => ?_, fun update hupdate hnil => ?_⟩
    · rw [applyContainerChanges, hleft]
    · by_cases hdeleted : key ∈ plan.deleted
      · exact .inr (.inl (hnone key hdeleted))
      · by_cases hkey : key ∈ plan.updates.map Prod.fst
        · obtain ⟨update, hupdate, rfl⟩ := List.mem_map.1 hkey
          rcases hupdates update hupdate with ⟨-, hsame⟩ | ⟨-, node, hnode, -, hnew⟩
          · exact .inr (.inr (hsame.trans (hlookup _)))
          · exact .inl ⟨node, hnode, hnew⟩
        · exact .inr (.inr ((hothers key hdeleted hkey).trans (hlookup key)))
    · rcases hupdates update hupdate with ⟨-, hsame⟩ | ⟨hne, -⟩
      · exact hsame.trans (hlookup _)
      · exact absurd hnil hne
  · exact ⟨Node.patchEntries S options (changesOf done plan.changes) entries, rfl, hsorted,
      fun key => .inr (.inr (hlookup key)), fun update _ _ => hlookup update.1⟩

/-- The map is left with the entries it is to have. -/
theorem deepValue_patch :
    ((Node.map id schema entries).patch S options plan.changes).deepValue =
      .object plan.newEntries := by
  have hsorted : Sorted (Node.patchEntries S options plan.changes entries) := by
    rw [Node.patchEntries_eq]
    exact plan.sorted.map _
  obtain ⟨left, hleft, hsortedleft, hnone, hothers, hupdates⟩ := plan.applyEach_own hsorted
  rw [Node.patch, applyContainerChanges, hleft, Node.deepValue, Node.deepEntries_eq]
  refine congrArg Value.object (Sorted.ext (hsortedleft.map _) ?_ fun key => ?_)
  · exact List.pairwise_map.2 plan.keys
  · rw [lookup_map]
    unfold newEntries
    rw [lookup_map (fun update : Value × List Change => update.1)]
    by_cases hkey : key ∈ plan.updates.map Prod.fst
    · obtain ⟨update, hupdate, rfl⟩ := List.mem_map.1 hkey
      rw [Entries.lookup_of_mem plan.keys.nodup hupdate, Option.map_some]
      rcases hupdates update hupdate with ⟨hnil, hlookup⟩ | ⟨-, node, hnode, hvalue, -⟩
      · rcases plan.update_cases hupdate with
          ⟨change, hchange, hsets⟩ | ⟨node, hnode, -, -, hwrites⟩
        · have hself : changesTo id update.2.2 = update.2.2 := changesTo_eq_self fun c hc =>
            List.mem_singleton.1 (hchange ▸ hc) ▸ hsets.container
          rw [hself, hchange] at hnil
          cases hnil
        · rw [hlookup, Node.patchEntries_eq, lookup_map, hnode, Option.map_some, Option.map_some,
            plan.patch_entry_all hupdate hnode, hwrites.value]
      · rw [hnode, Option.map_some, hvalue]
    · have hnew : plan.updates.lookup key = none :=
        List.lookup_eq_none_iff.2 fun update hupdate => bne_iff_ne.2 fun heq =>
          hkey (heq ▸ List.mem_map_of_mem hupdate)
      rw [hnew]
      by_cases hdeleted : key ∈ plan.deleted
      · rw [hnone key hdeleted]
        rfl
      · have hold : entries.lookup key = none := by
          cases hlookup : entries.lookup key with
          | none => rfl
          | some node =>
              exact absurd (plan.covers _ (Entries.mem_of_lookup hlookup))
                (not_or.2 ⟨hdeleted, hkey⟩)
        rw [hothers key hdeleted hkey, Node.patchEntries_eq, lookup_map, hold]
        rfl

/-- **A map takes the changes of a plan**, and is left with the entries it is to have. -/
theorem writes_map : Writes S options plan.changes (.map id schema entries)
    (.object plan.newEntries) := by
  have hchange : ∀ change ∈ plan.changes, change.container = some id ∨
      ∃ update ∈ plan.updates, ∃ node, entries.lookup update.1 = some node ∧
        changesTo id update.2.2 = [] ∧ Writes S options update.2.2 node update.2.1 ∧
        ∃ i ∈ node.ids, change.container = some i := by
    intro change hmem
    rcases List.mem_append.1 hmem with hmem | hmem
    · obtain ⟨key, -, rfl⟩ := List.mem_map.1 hmem
      exact .inl rfl
    · obtain ⟨update, hupdate, hmem⟩ := List.mem_flatMap.1 hmem
      rcases plan.update_cases hupdate with
        ⟨own, hown, hsets⟩ | ⟨node, hnode, hnil, hwithin, hwrites⟩
      · exact .inl (List.mem_singleton.1 (hown ▸ hmem) ▸ hsets.container)
      · exact .inr ⟨update, hupdate, node, hnode, hnil, hwrites, hwithin change hmem⟩
  refine ⟨⟨fun change hmem => ?_, fun done i hne hnot => ?_⟩, plan.deepValue_patch⟩
  · rcases hchange change hmem with hid | ⟨update, -, node, hnode, -, -, i, hi, hcontainer⟩
    · exact ⟨id, List.mem_cons_self, hid⟩
    · exact ⟨i, List.mem_cons_of_mem _ (mem_entryIds.2 ⟨_, Entries.mem_of_lookup hnode, hi⟩),
        hcontainer⟩
  · obtain ⟨change, hmem⟩ := List.exists_mem_of_ne_nil _ hne
    obtain ⟨hmem, hcontainer⟩ := List.mem_filter.1 hmem
    rw [decide_eq_true_eq] at hcontainer
    rcases hchange change hmem with
      hid | ⟨update, hupdate, node, hnode, hnil, hwrites, j, hj, hj'⟩
    · obtain rfl : id = i := Option.some.inj (hid.symm.trans hcontainer)
      have hsorted : Sorted
          (Node.patchEntries S options (changesOf done plan.changes) entries) := by
        rw [Node.patchEntries_eq]
        exact plan.sorted.map _
      obtain ⟨left, hleft, -⟩ := plan.applyEach_own hsorted
      refine ⟨.map id schema (Node.patchEntries S options (changesOf done plan.changes) entries),
        ?_, ?_⟩
      · rw [Node.patch, changesTo_changesOf, hnot]
        exact if_pos rfl
      · rw [applyContainerChanges, hleft]
    · obtain rfl : j = i := Option.some.inj (hj'.symm.trans hcontainer)
      have hown : changesTo j plan.changes = changesTo j update.2.2 := by
        rw [plan.changesTo_entry hnode hj, Entries.lookup_of_mem plan.keys.nodup hupdate]
        rfl
      rw [hown] at hne ⊢
      obtain ⟨n, hfound, hok⟩ := hwrites.there done j hne hnot
      refine ⟨n, ?_, hok⟩
      obtain ⟨left, hleft, hsortedleft, hcases, hkept⟩ := plan.patch_eq done
      have hentry := hkept update hupdate hnil
      rw [hnode, Option.map_some] at hentry
      have hmemnode : (update.1, node) ∈ entries := Entries.mem_of_lookup hnode
      have hid : id ≠ j := fun heq => plan.id_notMem (heq ▸ mem_entryIds.2 ⟨_, hmemnode, hj⟩)
      have hnumbered : j ≠ .created :=
        plan.numbered j (List.mem_cons_of_mem _ (mem_entryIds.2 ⟨_, hmemnode, hj⟩))
      rw [hleft, Node.find?, if_neg hid]
      refine findInEntries?_eq_some (Entries.mem_of_lookup hentry) ?_ fun other hother => ?_
      · rw [plan.patch_entry done hupdate hnode]
        exact hfound
      · have hlookup := Entries.lookup_of_mem hsortedleft.nodup hother
        by_cases hkey : other.1 = update.1
        · rw [hkey, hentry] at hlookup
          exact .inl (Option.some.inj hlookup).symm
        · refine .inr fun hmem => ?_
          rcases hcases other.1 with ⟨fresh, hfresh, hnew⟩ | hnone | hsame
          · rw [hlookup] at hfresh
            obtain rfl := Option.some.inj hfresh
            exact hnumbered (hnew j hmem)
          · rw [hlookup] at hnone
            cases hnone
          · obtain ⟨old, hold, heq⟩ := Option.map_eq_some_iff.1 (hsame.symm.trans hlookup)
            rw [← heq] at hmem
            have hunique := plan.entry_unique hmemnode (Entries.mem_of_lookup hold) hj
              ((mem_ids_patch hmem).resolve_right hnumbered)
            exact hkey (congrArg Prod.fst hunique).symm

end MapPlan

end Writes

end Mirror
end ZuTalk
