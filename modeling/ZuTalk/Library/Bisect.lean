/-
# Binary search

`lowerBound` is the place of the first row whose key is not below a bound, found by halving.  It
is the place where the rows below the bound end (`lowerBound_append`); rows in the order of their
keys split at any bound (`exists_append`).
-/

import Mathlib.Data.List.Basic
import Mathlib.Order.Lattice

namespace Bisect

/-- The first place between `lower` and `upper` that is not `below`. -/
def search (below : ℕ → Bool) (lower upper : ℕ) : ℕ :=
  if lower < upper then
    if below ((lower + upper) / 2) then search below ((lower + upper) / 2 + 1) upper
    else search below lower ((lower + upper) / 2)
  else lower
termination_by upper - lower

/-- The search finds the place where `below` ends. -/
theorem search_eq {below : ℕ → Bool} {last lower upper : ℕ} (hbelow : ∀ i < last, below i = true)
    (habove : ∀ i, last ≤ i → i < upper → below i = false) (hlower : lower ≤ last)
    (hupper : last ≤ upper) : search below lower upper = last := by
  fun_induction search below lower upper with
  | case1 lower upper hlt hmiddle ih =>
      have hle : (lower + upper) / 2 < last := by
        by_contra hnot
        rw [habove _ (by omega) (by omega)] at hmiddle
        cases hmiddle
      exact ih habove (by omega) hupper
  | case2 lower upper hlt hmiddle ih =>
      have hle : last ≤ (lower + upper) / 2 := by
        by_contra hnot
        exact hmiddle (hbelow _ (by omega))
      exact ih (fun i hi hlt' => habove i hi (by omega)) hlower hle
  | case3 lower upper hnot => omega

variable {α κ : Type*} [LinearOrder κ] {key : α → κ} {below above rows : List α} {bound : κ}

/-- The place of the first row whose key is not below the bound. -/
def lowerBound (key : α → κ) (rows : List α) (bound : κ) : ℕ :=
  search (fun i => rows[i]?.any fun row => key row < bound) 0 rows.length

/-- **The place found is where the rows below the bound end.** -/
theorem lowerBound_append (hbelow : ∀ row ∈ below, key row < bound)
    (habove : ∀ row ∈ above, bound ≤ key row) :
    lowerBound key (below ++ above) bound = below.length := by
  refine search_eq (fun i hi => ?_) (fun i hi hlt => ?_) (Nat.zero_le _) (by simp)
  · rw [List.getElem?_append_left hi, List.getElem?_eq_getElem hi]
    simpa using hbelow _ (List.getElem_mem hi)
  · rw [List.length_append] at hlt
    rw [List.getElem?_append_right hi, List.getElem?_eq_getElem (by omega)]
    simpa using habove _ (List.getElem_mem (by omega : i - below.length < above.length))

theorem filter_lt_append (hbelow : ∀ row ∈ below, key row < bound)
    (habove : ∀ row ∈ above, bound ≤ key row) :
    (below ++ above).filter (key · < bound) = below := by
  rw [List.filter_append, List.filter_eq_self.2 fun row hrow => decide_eq_true (hbelow row hrow),
    List.filter_eq_nil_iff.2 fun row hrow => by simpa using habove row hrow, List.append_nil]

theorem filter_ge_append (hbelow : ∀ row ∈ below, key row < bound)
    (habove : ∀ row ∈ above, bound ≤ key row) :
    (below ++ above).filter (bound ≤ key ·) = above := by
  rw [List.filter_append, List.filter_eq_nil_iff.2 fun row hrow => by simpa using hbelow row hrow,
    List.filter_eq_self.2 fun row hrow => decide_eq_true (habove row hrow), List.nil_append]

/-- What is inserted at the place found stands between the rows below and the others. -/
theorem insertIdx_append (row : α) :
    (below ++ above).insertIdx below.length row = below ++ row :: above := by
  induction below with
  | nil => rfl
  | cons first rest ih => simp [ih]

/-- Rows in the order of their keys split at a bound. -/
theorem exists_append (h : rows.Pairwise fun a b => key a ≤ key b) (bound : κ) :
    ∃ below above, rows = below ++ above ∧ (∀ row ∈ below, key row < bound) ∧
      ∀ row ∈ above, bound ≤ key row := by
  induction rows with
  | nil => exact ⟨[], [], rfl, by simp, by simp⟩
  | cons row rest ih =>
      obtain ⟨hfirst, hrest⟩ := List.pairwise_cons.1 h
      by_cases hrow : key row < bound
      · obtain ⟨below, above, rfl, hbelow, habove⟩ := ih hrest
        exact ⟨row :: below, above, rfl, List.forall_mem_cons.2 ⟨hrow, hbelow⟩, habove⟩
      · have hge : bound ≤ key row := not_lt.1 hrow
        exact ⟨[], row :: rest, rfl, by simp, List.forall_mem_cons.2
          ⟨hge, fun other hother => hge.trans (hfirst other hother)⟩⟩

end Bisect
