/-
# Entries in the order of their keys

`set` enters a value under a key, in its place among the others.  Entries in the order of
their keys are the same when every key looks up the same (`Sorted.ext`).
-/

import Mathlib.Data.List.Basic
import Mathlib.Order.Lattice

namespace Ordered

variable {κ β : Type*} [LinearOrder κ]

/-- The value goes under the key, in place of the one there. -/
def set (key : κ) (value : β) : List (κ × β) → List (κ × β)
  | [] => [(key, value)]
  | entry :: rest =>
      if key < entry.1 then (key, value) :: entry :: rest
      else if key = entry.1 then (key, value) :: rest
      else entry :: set key value rest

/-- The value under a key. -/
def get (key : κ) : List (κ × β) → Option β
  | [] => none
  | entry :: rest => if entry.1 = key then some entry.2 else get key rest

/-- The keys ascend. -/
def Sorted (entries : List (κ × β)) : Prop := entries.Pairwise fun a b => a.1 < b.1

variable {key key' : κ} {value : β} {entry : κ × β} {entries entries' : List (κ × β)}

/-- Values may be mapped before or after one is entered. -/
theorem map_set {γ : Type*} (f : β → γ) :
    (set key value entries).map (fun entry => (entry.1, f entry.2)) =
      set key (f value) (entries.map fun entry => (entry.1, f entry.2)) := by
  induction entries with
  | nil => rfl
  | cons first rest ih =>
      unfold set
      simp only [List.map_cons]
      split
      · rfl
      · split
        · rfl
        · rw [List.map_cons, ih]

theorem mem_set (h : entry ∈ set key value entries) : entry = (key, value) ∨ entry ∈ entries := by
  induction entries with
  | nil => exact .inl (List.mem_singleton.1 h)
  | cons first rest ih =>
      unfold set at h
      split at h
      · exact List.mem_cons.1 h
      · split at h
        · exact (List.mem_cons.1 h).imp_right (List.mem_cons_of_mem first)
        · rcases List.mem_cons.1 h with rfl | hrest
          · exact .inr List.mem_cons_self
          · exact (ih hrest).imp_right (List.mem_cons_of_mem first)

theorem Sorted.set (h : Sorted entries) : Sorted (set key value entries) := by
  induction entries with
  | nil => exact List.pairwise_singleton _ _
  | cons first rest ih =>
      obtain ⟨hfirst, hrest⟩ := List.pairwise_cons.1 h
      unfold Ordered.set
      split
      · rename_i hlt
        refine List.pairwise_cons.2 ⟨fun other hother => ?_, h⟩
        rcases List.mem_cons.1 hother with rfl | hmem
        · exact hlt
        · exact hlt.trans (hfirst other hmem)
      · split
        · rename_i heq
          exact List.pairwise_cons.2 ⟨fun other hother => heq ▸ hfirst other hother, hrest⟩
        · rename_i hnlt hne
          have hlt : first.1 < key := lt_of_le_of_ne (not_lt.1 hnlt) fun heq => hne heq.symm
          refine List.pairwise_cons.2 ⟨fun other hother => ?_, ih hrest⟩
          rcases mem_set hother with rfl | hmem
          · exact hlt
          · exact hfirst other hmem

/-- A key looks up what was entered last. -/
theorem get_set : get key' (set key value entries) =
    if key' = key then some value else get key' entries := by
  induction entries with
  | nil =>
      by_cases heq : key' = key
      · simp [set, get, heq]
      · simp [set, get, heq, Ne.symm heq]
  | cons first rest ih =>
      unfold set
      split
      · by_cases heq : key' = key
        · simp [get, heq]
        · simp [get, heq, Ne.symm heq]
      · split
        · rename_i hkey
          by_cases heq : key' = key
          · simp [get, heq]
          · have hne : first.1 ≠ key' := fun hfirst => heq (hfirst.symm.trans hkey.symm)
            simp [get, heq, Ne.symm heq, hne]
        · rename_i hkey
          by_cases hfirst : first.1 = key'
          · have hne : key' ≠ key := fun heq => hkey (heq.symm.trans hfirst.symm)
            simp [get, hfirst, hne]
          · simp [get, hfirst, ih]

/-- Looking up what a filter of the keys left. -/
theorem get_filter (keep : κ → Bool) : get key (entries.filter fun entry => keep entry.1) =
    if keep key then get key entries else none := by
  induction entries with
  | nil => simp [get]
  | cons first rest ih =>
      rw [List.filter_cons]
      by_cases hfirst : first.1 = key
      · by_cases hkeep : keep key = true
        · simp [hfirst, hkeep, get]
        · rw [hfirst, if_neg hkeep, ih, if_neg hkeep, if_neg hkeep]
      · by_cases hkeep : keep first.1 = true
        · simp [hfirst, hkeep, get, ih]
        · simp [hfirst, hkeep, get, ih]

theorem mem_of_get (h : get key entries = some value) : (key, value) ∈ entries := by
  induction entries with
  | nil => cases h
  | cons first rest ih =>
      unfold get at h
      split at h
      · rename_i heq
        obtain rfl := Option.some.inj h
        exact heq ▸ List.mem_cons_self
      · exact List.mem_cons_of_mem first (ih h)

theorem Sorted.get_of_mem (h : Sorted entries) (hmem : entry ∈ entries) :
    get entry.1 entries = some entry.2 := by
  induction entries with
  | nil => cases hmem
  | cons first rest ih =>
      obtain ⟨hfirst, hrest⟩ := List.pairwise_cons.1 h
      rcases List.mem_cons.1 hmem with rfl | hmem'
      · simp [get]
      · have hne : first.1 ≠ entry.1 := (hfirst entry hmem').ne
        simp [get, hne, ih hrest hmem']

/-- **Entries are told apart by looking them up.** -/
theorem Sorted.ext (h : Sorted entries) (h' : Sorted entries')
    (hget : ∀ key, get key entries = get key entries') : entries = entries' := by
  have hsub : ∀ {xs ys : List (κ × β)}, Sorted xs → (∀ key, get key xs = get key ys) →
      ∀ entry ∈ xs, entry ∈ ys := by
    intro xs ys hxs hsame entry hentry
    exact mem_of_get ((hsame entry.1).symm.trans (hxs.get_of_mem hentry))
  have hperm : entries.Perm entries' := by
    refine (List.perm_ext_iff_of_nodup ?_ ?_).2 fun entry =>
      ⟨hsub h hget entry, hsub h' (fun key => (hget key).symm) entry⟩
    · exact h.imp fun hlt heq => hlt.ne (congrArg Prod.fst heq)
    · exact h'.imp fun hlt heq => hlt.ne (congrArg Prod.fst heq)
  refine hperm.eq_of_pairwise (fun a b _ _ hab hba => absurd (hab.trans hba) (lt_irrefl _)) h h'

end Ordered
