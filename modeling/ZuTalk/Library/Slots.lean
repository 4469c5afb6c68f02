/-
# Entries in the order in which their keys came

`put` overwrites the entry of a key where it stands, or adds one behind the others.  Entries
that were put aside and are put in later come to the same as if each had been put in at once
(`putAll_put`).
-/

import Mathlib.Data.List.Nodup

namespace Slots

variable {κ β : Type*} [DecidableEq κ]

/-- The value goes where the key is, or behind the others. -/
def put (key : κ) (value : β) : List (κ × β) → List (κ × β)
  | [] => [(key, value)]
  | entry :: rest => if entry.1 = key then (key, value) :: rest else entry :: put key value rest

/-- Entries are put in one after the other. -/
def putAll (entries added : List (κ × β)) : List (κ × β) :=
  added.foldl (fun held entry => put entry.1 entry.2 held) entries

variable {key key' : κ} {value value' : β} {entry : κ × β} {entries added : List (κ × β)}

theorem keys_put : (put key value entries).map Prod.fst =
    if key ∈ entries.map Prod.fst then entries.map Prod.fst
    else entries.map Prod.fst ++ [key] := by
  induction entries with
  | nil => rfl
  | cons first rest ih =>
      unfold put
      by_cases hfirst : first.1 = key
      · simp [hfirst]
      · rw [if_neg hfirst, List.map_cons, ih]
        by_cases hrest : key ∈ rest.map Prod.fst
        · simp [hrest]
        · simp only [List.map_cons, List.mem_cons, Ne.symm hfirst, hrest, if_false, or_self,
            List.cons_append]

/-- A key looks up what was put under it last. -/
theorem lookup_put : (put key value entries).lookup key' =
    if key' = key then some value else entries.lookup key' := by
  induction entries with
  | nil =>
      by_cases heq : key' = key
      · simp [put, heq]
      · simp [put, heq, List.lookup_cons, beq_eq_false_iff_ne.2 heq]
  | cons first rest ih =>
      obtain ⟨firstKey, firstValue⟩ := first
      unfold put
      by_cases hfirst : firstKey = key
      · rw [if_pos hfirst]
        by_cases heq : key' = key
        · simp [heq]
        · have hne : key' ≠ firstKey := fun h => heq (h.trans hfirst)
          simp [List.lookup_cons, heq, beq_eq_false_iff_ne.2 heq, beq_eq_false_iff_ne.2 hne]
      · rw [if_neg hfirst]
        by_cases heq : key' = firstKey
        · have hne : key' ≠ key := fun h => hfirst (heq.symm.trans h)
          simp [heq, hfirst]
        · simp [List.lookup_cons, beq_eq_false_iff_ne.2 heq, ih]

theorem mem_put (h : entry ∈ put key value entries) : entry = (key, value) ∨ entry ∈ entries := by
  induction entries with
  | nil => exact .inl (List.mem_singleton.1 h)
  | cons first rest ih =>
      unfold put at h
      split at h
      · exact (List.mem_cons.1 h).imp_right (List.mem_cons_of_mem first)
      · rcases List.mem_cons.1 h with rfl | hrest
        · exact .inr List.mem_cons_self
        · exact (ih hrest).imp_right (List.mem_cons_of_mem first)

theorem nodup_put (h : (entries.map Prod.fst).Nodup) :
    ((put key value entries).map Prod.fst).Nodup := by
  rw [keys_put]
  split
  · exact h
  · rename_i hnot
    exact List.nodup_append.2 ⟨h, List.nodup_singleton key, fun a ha b hb heq =>
      hnot (List.mem_singleton.1 hb ▸ heq ▸ ha)⟩

theorem mem_of_lookup (h : entries.lookup key = some value) : (key, value) ∈ entries := by
  induction entries with
  | nil => cases h
  | cons first rest ih =>
      by_cases heq : key = first.1
      · subst heq
        rw [List.lookup_cons_self] at h
        obtain rfl := Option.some.inj h
        exact List.mem_cons_self
      · rw [List.lookup_cons, beq_eq_false_iff_ne.2 heq] at h
        exact List.mem_cons_of_mem first (ih h)

theorem lookup_of_mem (h : (entries.map Prod.fst).Nodup) (hmem : entry ∈ entries) :
    entries.lookup entry.1 = some entry.2 := by
  induction entries with
  | nil => cases hmem
  | cons first rest ih =>
      obtain ⟨hfirst, hrest⟩ := List.nodup_cons.1 h
      rcases List.mem_cons.1 hmem with rfl | hmem'
      · exact List.lookup_cons_self
      · have hne : entry.1 ≠ first.1 := fun heq => hfirst (heq ▸ List.mem_map_of_mem hmem')
        rw [List.lookup_cons, beq_eq_false_iff_ne.2 hne]
        exact ih hrest hmem'

/-- An entry that is there is overwritten where it stands, -/
theorem put_of_mem (h : (entries.map Prod.fst).Nodup) (hmem : key ∈ entries.map Prod.fst) :
    put key value entries =
      entries.map fun entry => if entry.1 = key then (entry.1, value) else entry := by
  induction entries with
  | nil => cases hmem
  | cons first rest ih =>
      obtain ⟨hfirst, hrest⟩ := List.nodup_cons.1 h
      by_cases heq : first.1 = key
      · have hothers : rest.map (fun entry => if entry.1 = key then (entry.1, value) else entry) =
            rest := by
          refine (List.map_congr_left fun entry hentry => ?_).trans (List.map_id rest)
          have hsame : entry.1 ≠ key := by
            rintro rfl
            exact hfirst (heq ▸ List.mem_map_of_mem hentry)
          exact if_neg hsame
        simp [put, heq, hothers]
      · have hmem' : key ∈ rest.map Prod.fst :=
          (List.mem_cons.1 hmem).resolve_left fun hkey => heq hkey.symm
        simp [put, heq, ih hrest hmem']

/-- and one that is not comes last. -/
theorem put_of_notMem (hnot : key ∉ entries.map Prod.fst) :
    put key value entries = entries ++ [(key, value)] := by
  induction entries with
  | nil => rfl
  | cons first rest ih =>
      obtain ⟨hne, hrest⟩ := not_or.1 fun h => hnot (List.mem_cons.2 h)
      simp [put, Ne.symm hne, ih hrest]

/-! ### Entries put in later -/

theorem put_put_self : put key value (put key value' entries) = put key value entries := by
  induction entries with
  | nil => simp [put]
  | cons first rest ih =>
      by_cases hfirst : first.1 = key
      · simp [put, hfirst]
      · simp [put, hfirst, ih]

/-- Where a key has its place, what is put under other keys does not matter. -/
theorem put_comm (hne : key' ≠ key) (hmem : key ∈ entries.map Prod.fst) :
    put key value (put key' value' entries) = put key' value' (put key value entries) := by
  induction entries with
  | nil => cases hmem
  | cons first rest ih =>
      by_cases hfirst : first.1 = key
      · simp [put, hfirst, Ne.symm hne]
      · have hrest : key ∈ rest.map Prod.fst := by
          rcases List.mem_cons.1 hmem with heq | hrest
          · exact absurd heq.symm hfirst
          · exact hrest
        by_cases hfirst' : first.1 = key'
        · simp [put, hfirst', hne]
        · simp [put, hfirst, hfirst', ih hrest]

theorem putAll_put_of_notMem (hmem : key ∈ entries.map Prod.fst)
    (hnot : key ∉ added.map Prod.fst) :
    putAll (put key value entries) added = put key value (putAll entries added) := by
  induction added generalizing entries with
  | nil => rfl
  | cons first rest ih =>
      obtain ⟨hne, hrest⟩ := not_or.1 (fun h => hnot (List.mem_cons.2 h))
      have hmem' : key ∈ (put first.1 first.2 entries).map Prod.fst := by
        rw [keys_put]
        split
        · exact hmem
        · exact List.mem_append_left _ hmem
      show putAll (put first.1 first.2 (put key value entries)) rest = _
      rw [← put_comm (Ne.symm hne) hmem]
      exact ih hmem' hrest

/-- **What is put among the added entries** might as well be put in after them. -/
theorem putAll_put (h : (added.map Prod.fst).Nodup) :
    putAll entries (put key value added) = put key value (putAll entries added) := by
  induction added generalizing entries with
  | nil => rfl
  | cons first rest ih =>
      obtain ⟨hfirst, hrest⟩ := List.nodup_cons.1 h
      by_cases heq : first.1 = key
      · subst heq
        have hmem : first.1 ∈ (put first.1 first.2 entries).map Prod.fst := by
          rw [keys_put]
          split
          · assumption
          · exact List.mem_append_right _ List.mem_cons_self
        show putAll entries (if first.1 = first.1 then _ else _) = _
        rw [if_pos rfl]
        show putAll (put first.1 value entries) rest = _
        rw [← put_put_self, putAll_put_of_notMem hmem hfirst]
        rfl
      · show putAll entries (if first.1 = key then _ else _) = _
        rw [if_neg heq]
        exact ih hrest

end Slots
