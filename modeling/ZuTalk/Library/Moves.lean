/-
# Elements moved from place to place

`mov l i j` takes the element at `i` out of the list `l` and puts it back so that
it ends at `j`.  Moves applied one after the other name places of the list as it
is then, so a sequence of moves written down beforehand, against the list as it
was, goes wrong as soon as one of them shifts what a later one is about.

`movs_eq` is the case where none does: the targets ascend, and every source lies
behind both ends of every earlier move.  Then each move finds the element that
was at its source from the start, and what it puts down is never shifted again.
-/

import Mathlib.Data.List.Basic
import Mathlib.Data.List.Forall2
import Mathlib.Data.List.InsertIdx
import Mathlib.Data.List.Nodup
import Mathlib.Data.List.Perm.Basic
import Mathlib.Data.List.Range
import Mathlib.Data.List.Sort

namespace Moves

variable {α β : Type*}

/-- The element at `i` is moved so that it ends at `j`. -/
def mov (l : List α) (i j : ℕ) : Option (List α) :=
  if j < l.length then (l[i]?).map fun x => (l.eraseIdx i).insertIdx j x else none

/-- Moves, one after the other. -/
def movs (l : List α) (moves : List (ℕ × ℕ)) : Option (List α) :=
  moves.foldlM (fun l m => mov l m.1 m.2) l

@[simp] theorem movs_nil (l : List α) : movs l [] = some l := rfl

theorem movs_cons (l : List α) (m : ℕ × ℕ) (moves : List (ℕ × ℕ)) :
    movs l (m :: moves) = (mov l m.1 m.2).bind fun l => movs l moves := rfl

theorem mov_eq {l : List α} {i j : ℕ} (hi : i < l.length) (hj : j < l.length) :
    mov l i j = some ((l.eraseIdx i).insertIdx j l[i]) := by
  simp [mov, hi, hj]

/-- Moving does not look at the elements. -/
theorem mov_map (f : α → β) (l : List α) (i j : ℕ) :
    mov (l.map f) i j = (mov l i j).map (·.map f) := by
  unfold mov
  rw [List.length_map, List.getElem?_map]
  split
  · cases l[i]? with
    | none => rfl
    | some x =>
        simp only [Option.map_some, List.map_insertIdx, Option.some.injEq]
        rw [List.eraseIdx_map]
  · rfl

theorem movs_map (f : α → β) (l : List α) (moves : List (ℕ × ℕ)) :
    movs (l.map f) moves = (movs l moves).map (·.map f) := by
  induction moves generalizing l with
  | nil => rfl
  | cons m moves ih =>
      rw [movs_cons, movs_cons, mov_map]
      cases mov l m.1 m.2 with
      | none => rfl
      | some l' => exact ih l'

section Step

variable {l l' : List α} {i j : ℕ}

theorem mov_eq_some (h : mov l i j = some l') :
    ∃ (hi : i < l.length), j < l.length ∧ l' = (l.eraseIdx i).insertIdx j l[i] := by
  unfold mov at h
  split at h
  · rename_i hj
    obtain ⟨x, hx, rfl⟩ := Option.map_eq_some_iff.1 h
    obtain ⟨hi, rfl⟩ := List.getElem?_eq_some_iff.1 hx
    exact ⟨hi, hj, rfl⟩
  · cases h

theorem mov_length (h : mov l i j = some l') : l'.length = l.length := by
  obtain ⟨hi, hj, rfl⟩ := mov_eq_some h
  rw [List.length_insertIdx, List.length_eraseIdx_of_lt hi, if_pos (by omega)]
  omega

/-- The moved element is where it was to end. -/
theorem mov_target (h : mov l i j = some l') : l'[j]? = l[i]? := by
  obtain ⟨hi, hj, rfl⟩ := mov_eq_some h
  rw [List.getElem?_insertIdx_self, if_pos (by rw [List.length_eraseIdx_of_lt hi]; omega)]
  exact (List.getElem?_eq_getElem hi).symm

/-- Before both ends of a move nothing changes. -/
theorem mov_before (h : mov l i j = some l') {q : ℕ} (hqi : q < i) (hqj : q < j) :
    l'[q]? = l[q]? := by
  obtain ⟨hi, hj, rfl⟩ := mov_eq_some h
  rw [List.getElem?_insertIdx_of_lt hqj, List.getElem?_eraseIdx_of_lt hqi]

/-- Behind both ends of a move nothing changes. -/
theorem mov_behind (h : mov l i j = some l') {q : ℕ} (hqi : i < q) (hqj : j < q) :
    l'[q]? = l[q]? := by
  obtain ⟨hi, hj, rfl⟩ := mov_eq_some h
  rw [List.getElem?_insertIdx_of_gt hqj, List.getElem?_eraseIdx_of_ge (by omega)]
  congr 1
  omega

theorem mov_perm (h : mov l i j = some l') : l'.Perm l := by
  obtain ⟨hi, hj, rfl⟩ := mov_eq_some h
  have hinsert : ((l.eraseIdx i).insertIdx j l[i]).Perm (l[i] :: l.eraseIdx i) :=
    List.perm_insertIdx _ _ (by rw [List.length_eraseIdx_of_lt hi]; omega)
  exact hinsert.trans (List.getElem_cons_eraseIdx_perm hi)

theorem eraseIdx_filter {P : α → Bool} (l : List α) (i : ℕ)
    (hP : ∀ x, l[i]? = some x → P x = false) : (l.eraseIdx i).filter P = l.filter P := by
  induction l generalizing i with
  | nil => rfl
  | cons a l ih =>
      cases i with
      | zero =>
          have ha : P a = false := hP a rfl
          simp [ha]
      | succ i =>
          rw [List.eraseIdx_cons_succ, List.filter_cons, List.filter_cons,
            ih i fun x hx => hP x (by simpa using hx)]

theorem insertIdx_filter {P : α → Bool} (l : List α) (j : ℕ) {x : α} (hx : P x = false) :
    (l.insertIdx j x).filter P = l.filter P := by
  induction l generalizing j with
  | nil => cases j <;> simp [hx]
  | cons a l ih =>
      cases j with
      | zero => simp [hx]
      | succ j => simp [List.filter_cons, ih]

/-- Elements that are not moved keep their order. -/
theorem mov_filter (h : mov l i j = some l') {P : α → Bool}
    (hP : ∀ x, l[i]? = some x → P x = false) : l'.filter P = l.filter P := by
  obtain ⟨hi, hj, rfl⟩ := mov_eq_some h
  rw [insertIdx_filter _ _ (hP _ (List.getElem?_eq_getElem hi)), eraseIdx_filter _ _ hP]

end Step

/-- No move comes from inside or before an earlier one. -/
def Apart (moves : List (ℕ × ℕ)) : Prop :=
  moves.Pairwise fun m m' => m.2 < m'.2 ∧ m.1 < m'.1 ∧ m.2 < m'.1

instance (moves : List (ℕ × ℕ)) : Decidable (Apart moves) := by
  unfold Apart
  infer_instance

/-- **Moves that are apart** put every element where it was to go, and leave the
others in order. -/
theorem movs_apart {moves done : List (ℕ × ℕ)} {l : List ℕ} {n : ℕ} (hlength : l.length = n)
    (hbound : ∀ m ∈ moves, m.1 < n ∧ m.2 < n) (hapart : Apart (done ++ moves))
    (hdone : ∀ m ∈ done, l[m.2]? = some m.1)
    (hfresh : ∀ q < n, (∀ m ∈ done, m.1 < q ∧ m.2 < q) → l[q]? = some q) :
    ∃ l', movs l moves = some l' ∧ l'.length = n ∧ l'.Perm l ∧
      (∀ m ∈ done ++ moves, l'[m.2]? = some m.1) ∧
      ∀ P : ℕ → Bool, (∀ m ∈ moves, P m.1 = false) → l'.filter P = l.filter P := by
  induction moves generalizing l done with
  | nil => exact ⟨l, rfl, hlength, .refl l, by simpa using hdone, fun _ _ => rfl⟩
  | cons m moves ih =>
      obtain ⟨hm1, hm2⟩ := hbound m List.mem_cons_self
      have hbehind : ∀ d ∈ done, d.1 < m.1 ∧ d.2 < m.1 ∧ d.2 < m.2 := fun d hd => by
        have h := (List.pairwise_append.1 hapart).2.2 d hd m List.mem_cons_self
        exact ⟨h.2.1, h.2.2, h.1⟩
      -- the source has not been touched
      have hsource : l[m.1]? = some m.1 :=
        hfresh m.1 hm1 fun d hd => ⟨(hbehind d hd).1, (hbehind d hd).2.1⟩
      obtain ⟨l₁, hmov⟩ : ∃ l₁, mov l m.1 m.2 = some l₁ := ⟨_, mov_eq (by omega) (by omega)⟩
      have hapart' : Apart ((done ++ [m]) ++ moves) := by
        rwa [List.append_assoc, List.singleton_append]
      have hdone' : ∀ d ∈ done ++ [m], l₁[d.2]? = some d.1 := by
        intro d hd
        rcases List.mem_append.1 hd with hd | hd
        · rw [mov_before hmov (hbehind d hd).2.1 (hbehind d hd).2.2]
          exact hdone d hd
        · rw [List.mem_singleton.1 hd, mov_target hmov, hsource]
      have hfresh' : ∀ q < n, (∀ d ∈ done ++ [m], d.1 < q ∧ d.2 < q) → l₁[q]? = some q := by
        intro q hq hbehind'
        obtain ⟨hq1, hq2⟩ := hbehind' m (by simp)
        rw [mov_behind hmov hq1 hq2]
        exact hfresh q hq fun d hd => hbehind' d (List.mem_append_left _ hd)
      obtain ⟨l', hl', hlength', hperm, hplaced, hfilter⟩ := ih
        ((mov_length hmov).trans hlength) (fun m' hm' => hbound m' (List.mem_cons_of_mem m hm'))
        hapart' hdone' hfresh'
      refine ⟨l', by rw [movs_cons, hmov]; exact hl', hlength', hperm.trans (mov_perm hmov), ?_, ?_⟩
      · rwa [List.append_assoc, List.singleton_append] at hplaced
      · intro P hP
        rw [hfilter P fun m' hm' => hP m' (List.mem_cons_of_mem m hm'), mov_filter hmov]
        intro x hx
        rw [hsource] at hx
        obtain rfl := Option.some.inj hx
        exact hP m List.mem_cons_self

/-- Lists that have the same elements at the places of some, and the others in
the same order, are equal. -/
theorem eq_of_filter_eq {P : α → Bool} {l l' : List α}
    (h : List.Forall₂ (fun a b => P a = P b ∧ (P a = true → a = b)) l l')
    (hrest : l.filter (!P ·) = l'.filter (!P ·)) : l = l' := by
  induction h with
  | nil => rfl
  | @cons a b l l' hab _ ih =>
      cases hP : P a with
      | true =>
          have hPb : P b = true := hab.1.symm.trans hP
          simp only [List.filter_cons, hP, hPb, Bool.not_true, Bool.false_eq_true, if_false] at hrest
          rw [hab.2 hP, ih hrest]
      | false =>
          have hPb : P b = false := hab.1.symm.trans hP
          simp only [List.filter_cons, hP, hPb, Bool.not_false, if_true] at hrest
          obtain ⟨rfl, hrest'⟩ := List.cons.inj hrest
          rw [ih hrest']

/-- **A rearrangement is reached by moves that are apart**, if what they do not
move is in order. -/
theorem movs_eq {n : ℕ} {moves : List (ℕ × ℕ)} {order : List ℕ}
    (horder : order.Perm (List.range n)) (hbound : ∀ m ∈ moves, order[m.2]? = some m.1)
    (hapart : Apart moves)
    (hkept : (order.filter fun q => !(moves.map (·.1)).contains q).Pairwise (· < ·)) :
    movs (List.range n) moves = some order := by
  have hlength : order.length = n := by rw [horder.length_eq, List.length_range]
  have hnodup : order.Nodup := horder.nodup_iff.2 List.nodup_range
  have hinside : ∀ m ∈ moves, m.1 < n ∧ m.2 < n := by
    intro m hm
    obtain ⟨htarget, hsource⟩ := List.getElem?_eq_some_iff.1 (hbound m hm)
    exact ⟨List.mem_range.1 (horder.mem_iff.1 (hsource ▸ List.getElem_mem htarget)),
      htarget.trans_eq hlength⟩
  obtain ⟨l, hl, hlength', hperm, hplaced, hfilter⟩ :=
    movs_apart List.length_range hinside ((List.nil_append moves).symm ▸ hapart)
      (fun _ h => by cases h) (fun q hq _ => List.getElem?_range hq)
  rw [hl, Option.some.injEq]
  have hnodup' : l.Nodup := hperm.nodup_iff.2 List.nodup_range
  -- both hold a moved element at its target, and nowhere else
  have hmask : ∀ (r : List ℕ), r.Nodup → (∀ m ∈ moves, r[m.2]? = some m.1) → ∀ q e, r[q]? = some e →
      ((moves.map (·.1)).contains e = true ↔ ∃ m ∈ moves, m.2 = q) := by
    intro r hr hat q e hq
    simp only [List.contains_iff_mem, List.mem_map]
    constructor
    · rintro ⟨m, hm, rfl⟩
      refine ⟨m, hm, ?_⟩
      obtain ⟨hq', hqe⟩ := List.getElem?_eq_some_iff.1 hq
      obtain ⟨hm', hme⟩ := List.getElem?_eq_some_iff.1 (hat m hm)
      exact (hr.getElem_inj_iff).1 (hme.trans hqe.symm)
    · rintro ⟨m, hm, rfl⟩
      exact ⟨m, hm, Option.some.inj ((hat m hm).symm.trans hq)⟩
  refine eq_of_filter_eq (P := fun q => (moves.map (·.1)).contains q) ?_ ?_
  · refine List.forall₂_iff_get.2 ⟨hlength'.trans hlength.symm, fun q hq hq' => ?_⟩
    have hl' := hmask l hnodup' hplaced q _ (List.getElem?_eq_getElem hq)
    have ho' := hmask order hnodup hbound q _ (List.getElem?_eq_getElem hq')
    refine ⟨Bool.eq_iff_iff.2 (hl'.trans ho'.symm), fun hmoved => ?_⟩
    obtain ⟨m, hm, rfl⟩ := hl'.1 hmoved
    have hlm := hplaced m hm
    have hom := hbound m hm
    rw [List.getElem?_eq_getElem hq, Option.some.injEq] at hlm
    rw [List.getElem?_eq_getElem hq', Option.some.injEq] at hom
    exact hlm.trans hom.symm
  · rw [hfilter _ fun m hm => by simpa using ⟨m.2, hm⟩]
    exact List.Perm.eq_of_pairwise (fun a b _ _ hab hba => absurd hab (Nat.lt_asymm hba))
      (List.pairwise_lt_range.filter _) hkept (horder.symm.filter _)

end Moves
