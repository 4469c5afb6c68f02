/-
# Lists cut into pieces of one length

`full n l` are the pieces of length `n` that a list has from its start on, `rest n l`
what is left over, and `pieces n l` both, with the rest left out if it is empty and
not alone.  A list that arrives part by part may be cut part by part: what was left
over goes before the next part (`full_append`, `rest_append`).
-/

import Mathlib.Data.List.Basic
import Mathlib.Tactic.Common

namespace Cuts

variable {α : Type*} {n : ℕ}

/-- The pieces of full length. -/
def full (n : ℕ) (l : List α) : List (List α) :=
  if _h : 0 < n ∧ n ≤ l.length then l.take n :: full n (l.drop n) else []
termination_by l.length
decreasing_by
  rw [List.length_drop]
  omega

/-- What is left over. -/
def rest (n : ℕ) (l : List α) : List α :=
  if _h : 0 < n ∧ n ≤ l.length then rest n (l.drop n) else l
termination_by l.length
decreasing_by
  rw [List.length_drop]
  omega

theorem full_of_lt {l : List α} (h : l.length < n) : full n l = [] := by
  rw [full, dif_neg (by omega)]

theorem rest_of_lt {l : List α} (h : l.length < n) : rest n l = l := by
  rw [rest, dif_neg (by omega)]

/-- The first piece. -/
theorem full_cons (hn : 0 < n) {p : List α} (hp : p.length = n) (l : List α) :
    full n (p ++ l) = p :: full n l := by
  have hle : n ≤ (p ++ l).length := by
    rw [List.length_append]
    omega
  rw [full, dif_pos ⟨hn, hle⟩, ← hp, List.take_left, List.drop_left]

theorem rest_cons (hn : 0 < n) {p : List α} (hp : p.length = n) (l : List α) :
    rest n (p ++ l) = rest n l := by
  have hle : n ≤ (p ++ l).length := by
    rw [List.length_append]
    omega
  rw [rest, dif_pos ⟨hn, hle⟩, ← hp, List.drop_left]

/-- Induction on the pieces. -/
theorem cut_induction (hn : 0 < n) {P : List α → Prop} (short : ∀ l, l.length < n → P l)
    (cut : ∀ p l, p.length = n → P l → P (p ++ l)) (l : List α) : P l := by
  induction hlength : l.length using Nat.strongRecOn generalizing l with
  | ind k ih =>
      by_cases hle : n ≤ l.length
      · have hp : (l.take n).length = n := by
          rw [List.length_take]
          omega
        have hdrop : P (l.drop n) := ih (l.drop n).length (by rw [List.length_drop]; omega) _ rfl
        have hcut := cut (l.take n) (l.drop n) hp hdrop
        rwa [List.take_append_drop] at hcut
      · exact short l (by omega)

/-- The pieces and the rest are the list. -/
theorem flatten_full_append_rest (hn : 0 < n) (l : List α) :
    (full n l).flatten ++ rest n l = l := by
  induction l using cut_induction hn with
  | short l hl => rw [full_of_lt hl, rest_of_lt hl, List.flatten_nil, List.nil_append]
  | cut p l hp ih =>
      rw [full_cons hn hp, rest_cons hn hp, List.flatten_cons, List.append_assoc, ih]

theorem length_rest_lt (hn : 0 < n) (l : List α) : (rest n l).length < n := by
  induction l using cut_induction hn with
  | short l hl => rwa [rest_of_lt hl]
  | cut p l hp ih => rwa [rest_cons hn hp]

theorem length_of_mem_full (hn : 0 < n) {l p : List α} (h : p ∈ full n l) : p.length = n := by
  induction l using cut_induction hn with
  | short l hl =>
      rw [full_of_lt hl] at h
      cases h
  | cut q l hq ih =>
      rw [full_cons hn hq] at h
      rcases List.mem_cons.1 h with rfl | h
      · exact hq
      · exact ih h

/-- **More of the list:** what was left over goes before it. -/
theorem full_append (hn : 0 < n) (l l' : List α) :
    full n (l ++ l') = full n l ++ full n (rest n l ++ l') := by
  induction l using cut_induction hn with
  | short l hl => rw [full_of_lt hl, rest_of_lt hl, List.nil_append]
  | cut p l hp ih =>
      rw [List.append_assoc, full_cons hn hp, full_cons hn hp, rest_cons hn hp, ih, List.cons_append]

theorem rest_append (hn : 0 < n) (l l' : List α) :
    rest n (l ++ l') = rest n (rest n l ++ l') := by
  induction l using cut_induction hn with
  | short l hl => rw [rest_of_lt hl]
  | cut p l hp ih => rw [List.append_assoc, rest_cons hn hp, rest_cons hn hp, ih]

@[simp] theorem full_nil (hn : 0 < n) : full n ([] : List α) = [] := full_of_lt hn

@[simp] theorem rest_nil (hn : 0 < n) : rest n ([] : List α) = [] := rest_of_lt hn

/-- What does not complete a piece is left over. -/
theorem full_append_of_lt (hn : 0 < n) {l p : List α} (h : (rest n l ++ p).length < n) :
    full n (l ++ p) = full n l := by
  rw [full_append hn, full_of_lt h, List.append_nil]

theorem rest_append_of_lt (hn : 0 < n) {l p : List α} (h : (rest n l ++ p).length < n) :
    rest n (l ++ p) = rest n l ++ p := by
  rw [rest_append hn, rest_of_lt h]

/-- What completes a piece leaves nothing over. -/
theorem full_append_of_eq (hn : 0 < n) {l p : List α} (h : (rest n l ++ p).length = n) :
    full n (l ++ p) = full n l ++ [rest n l ++ p] := by
  have hpiece := full_cons hn h []
  rw [List.append_nil, full_nil hn] at hpiece
  rw [full_append hn, hpiece]

theorem rest_append_of_eq (hn : 0 < n) {l p : List α} (h : (rest n l ++ p).length = n) :
    rest n (l ++ p) = [] := by
  have hpiece := rest_cons hn h []
  rw [List.append_nil, rest_nil hn] at hpiece
  rw [rest_append hn, hpiece]

/-- The length of the list, in pieces and the rest. -/
theorem length_eq (hn : 0 < n) (l : List α) :
    (full n l).length * n + (rest n l).length = l.length := by
  induction l using cut_induction hn with
  | short l hl => rw [full_of_lt hl, rest_of_lt hl, List.length_nil, Nat.zero_mul, Nat.zero_add]
  | cut p l hp ih =>
      have hsucc := Nat.add_one_mul (full n l).length n
      rw [full_cons hn hp, rest_cons hn hp, List.length_cons, List.length_append]
      omega

/-- The pieces, the last of them shorter. -/
def pieces (n : ℕ) (l : List α) : List (List α) :=
  full n l ++ if rest n l ≠ [] ∨ full n l = [] then [rest n l] else []

theorem flatten_pieces (hn : 0 < n) (l : List α) : (pieces n l).flatten = l := by
  have hflat := flatten_full_append_rest hn l
  unfold pieces
  rw [List.flatten_append]
  split
  · rw [List.flatten_cons, List.flatten_nil, List.append_nil, hflat]
  · rename_i hrest
    have hempty : rest n l = [] := by
      by_contra hne
      exact hrest (.inl hne)
    rw [hempty, List.append_nil] at hflat
    rw [List.flatten_nil, List.append_nil, hflat]

theorem pieces_ne_nil (l : List α) : pieces n l ≠ [] := by
  unfold pieces
  split
  · simp
  · rename_i hrest
    intro hnil
    rw [List.append_nil] at hnil
    exact hrest (.inr hnil)

/-- **A list of parts that is cut somewhere** is some of the parts and the start of the
next one. -/
theorem take_flatten (parts : List (List α)) (m : ℕ) :
    ∃ k torn, parts.flatten.take m = (parts.take k).flatten ++ torn ∧ k ≤ parts.length ∧
      (parts.take k).flatten.length ≤ m ∧
      (k < parts.length → m < (parts.take (k + 1)).flatten.length) ∧
      (torn = [] ∨ ∃ part ∈ parts, torn <+: part ∧ torn.length < part.length) := by
  induction parts generalizing m with
  | nil => exact ⟨0, [], by simp, Nat.le_refl _, Nat.zero_le _, fun h => absurd h (by simp), .inl rfl⟩
  | cons part parts ih =>
      by_cases hm : m < part.length
      · refine ⟨0, part.take m, ?_, Nat.zero_le _, Nat.zero_le _, fun _ => ?_, .inr ?_⟩
        · rw [List.flatten_cons, List.take_append_of_le_length (Nat.le_of_lt hm)]
          rfl
        · simpa using hm
        · refine ⟨part, List.mem_cons_self, List.take_prefix .., ?_⟩
          rw [List.length_take]
          omega
      · obtain ⟨k, torn, htake, hk, hle, hlt, htorn⟩ := ih (m - part.length)
        refine ⟨k + 1, torn, ?_, Nat.succ_le_succ hk, ?_, fun hlast => ?_, ?_⟩
        · rw [List.flatten_cons, List.take_append, List.take_of_length_le (by omega), htake,
            List.take_succ_cons, List.flatten_cons, List.append_assoc]
        · rw [List.take_succ_cons, List.flatten_cons, List.length_append]
          omega
        · have hnext := hlt (Nat.lt_of_succ_lt_succ hlast)
          rw [List.take_succ_cons, List.flatten_cons, List.length_append]
          omega
        · rcases htorn with hnil | ⟨other, hother, hprefix⟩
          · exact .inl hnil
          · exact .inr ⟨other, List.mem_cons_of_mem _ hother, hprefix⟩

end Cuts
