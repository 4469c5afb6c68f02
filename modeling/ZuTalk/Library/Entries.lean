/-
# Maps as lists of entries

A map is a list of entries, one for each key it has.  `put` enters a value and `remove` takes
one out.
-/

import Mathlib.Data.List.Basic

namespace Entries

variable {κ α : Type*} [DecidableEq κ]

/-- The map without a key. -/
def remove (key : κ) (entries : List (κ × α)) : List (κ × α) :=
  entries.filter fun entry => entry.1 ≠ key

/-- The map with a value for the key. -/
def put (key : κ) (value : α) (entries : List (κ × α)) : List (κ × α) :=
  remove key entries ++ [(key, value)]

section

variable {entries : List (κ × α)} {key other : κ} {value : α} {entry : κ × α}

theorem mem_remove : entry ∈ remove key entries ↔ entry ∈ entries ∧ entry.1 ≠ key := by
  unfold remove
  rw [List.mem_filter, decide_eq_true_eq]

theorem lookup_remove_of_ne (hne : other ≠ key) :
    (remove key entries).lookup other = entries.lookup other := by
  induction entries with
  | nil => rfl
  | cons first rest ih =>
      by_cases hfirst : first.1 = key
      · have hskip : remove key (first :: rest) = remove key rest := by simp [remove, hfirst]
        rw [hskip, ih, List.lookup_cons, beq_false_of_ne (hfirst ▸ hne)]
      · have hkeep : remove key (first :: rest) = first :: remove key rest := by
          simp [remove, hfirst]
        rw [hkeep, List.lookup_cons, List.lookup_cons, ih]

theorem lookup_remove_self : (remove key entries).lookup key = none :=
  List.lookup_eq_none_iff.2 fun _ hentry => bne_iff_ne.2 fun heq => (mem_remove.1 hentry).2 heq.symm

theorem lookup_put_self : (put key value entries).lookup key = some value := by
  unfold put
  rw [List.lookup_append, lookup_remove_self]
  exact List.lookup_cons_self

theorem lookup_put_of_ne (hne : other ≠ key) :
    (put key value entries).lookup other = entries.lookup other := by
  unfold put
  rw [List.lookup_append, lookup_remove_of_ne hne, List.lookup_cons, beq_false_of_ne hne]
  exact Option.or_none

theorem lookup_of_mem (hnodup : (entries.map Prod.fst).Nodup) (hentry : entry ∈ entries) :
    entries.lookup entry.1 = some entry.2 := by
  induction entries with
  | nil => cases hentry
  | cons first rest ih =>
      rw [List.map_cons, List.nodup_cons] at hnodup
      rcases List.mem_cons.1 hentry with rfl | hrest
      · exact List.lookup_cons_self
      · have hne : entry.1 ≠ first.1 := fun heq => hnodup.1 (heq ▸ List.mem_map_of_mem hrest)
        rw [List.lookup_cons, beq_false_of_ne hne]
        exact ih hnodup.2 hrest

theorem mem_of_lookup (h : entries.lookup key = some value) : (key, value) ∈ entries := by
  induction entries with
  | nil => cases h
  | cons first rest ih =>
      rw [List.lookup_cons] at h
      by_cases heq : key = first.1
      · rw [heq, beq_self_eq_true] at h
        obtain rfl := Option.some.inj h
        exact heq ▸ List.mem_cons_self
      · rw [beq_false_of_ne heq] at h
        exact List.mem_cons_of_mem _ (ih h)

end

end Entries
