/-
# The last of each kind

Items come one after the other, and some are of one kind: `same`, symmetric and transitive, but an
item need not be of the same kind as itself, and then it is one of its own.  Of a kind the last
item stands (`standing`), in the place of the first; a first item that is marked to stay keeps
those that follow out (`push`).  A run keeps what was there and stands, and the last of each new
kind, each once (`foldl_push_perm`).
-/

import Mathlib.Data.List.Pairwise
import Mathlib.Data.List.Perm.Basic

namespace Latest

variable {α : Type*} (same : α → α → Bool) (stays : α → Bool)

/-- An item comes: it takes the place of the one of its kind, unless that one stays. -/
def push : List α → α → List α
  | [], x => [x]
  | k :: kept, x => if same k x then (if stays k then k :: kept else x :: kept)
      else k :: push kept x

/-- The last item of each kind, and every item that is of no kind. -/
def standing : List α → List α
  | [] => []
  | x :: rest => if rest.any (same x) then standing rest else x :: standing rest

theorem mem_of_mem_standing {same : α → α → Bool} {items : List α} {x : α}
    (h : x ∈ standing same items) : x ∈ items := by
  induction items with
  | nil => exact h
  | cons y items ih =>
      rw [standing] at h
      split at h
      · exact List.mem_cons_of_mem _ (ih h)
      · rcases List.mem_cons.1 h with rfl | h
        · exact List.mem_cons_self ..
        · exact List.mem_cons_of_mem _ (ih h)

/-- Two items are not of one kind. -/
def Apart (a b : α) : Prop := same a b = false

variable {same stays} {kept rest : List α} {x : α}

/-- Where one of the kind stays, nothing changes. -/
theorem push_of_stays (hsymm : ∀ a b, same a b = same b a)
    (htrans : ∀ a b c, same a b → same b c → same a c) (hkept : kept.Pairwise (Apart same))
    (h : ∃ k ∈ kept, stays k ∧ same k x) : push same stays kept x = kept := by
  induction kept with
  | nil => exact absurd h (by simp)
  | cons k kept ih =>
      obtain ⟨hk, hrest⟩ := List.pairwise_cons.1 hkept
      obtain ⟨s, hs, hstays, hsame⟩ := h
      rw [push]
      rcases List.mem_cons.1 hs with rfl | hs
      · rw [if_pos hsame, if_pos hstays]
      · have hkx : ¬ same k x = true := fun hkx => by
          have hks := htrans k x s hkx (hsymm x s ▸ hsame)
          rw [hk s hs] at hks
          exact Bool.noConfusion hks
        rw [if_neg hkx, ih hrest ⟨s, hs, hstays, hsame⟩]

/-- Else the item is added, and the one of its kind goes. -/
theorem push_perm (hsymm : ∀ a b, same a b = same b a)
    (htrans : ∀ a b c, same a b → same b c → same a c) (hkept : kept.Pairwise (Apart same))
    (h : ∀ k ∈ kept, stays k → same k x = false) :
    (push same stays kept x).Perm ((kept.filter fun k => !same k x) ++ [x]) := by
  induction kept with
  | nil => exact List.Perm.refl _
  | cons k kept ih =>
      obtain ⟨hk, hrest⟩ := List.pairwise_cons.1 hkept
      obtain ⟨hstays, hothers⟩ := List.forall_mem_cons.1 h
      rw [push]
      by_cases hkx : same k x
      · have hnot : ¬ stays k = true := fun hs => by
          rw [hstays hs] at hkx
          exact Bool.noConfusion hkx
        have hall : kept.filter (fun other => !same other x) = kept := by
          refine List.filter_eq_self.2 fun other hother => ?_
          by_contra hsame
          rw [Bool.not_eq_true, Bool.not_eq_false'] at hsame
          have := htrans k x other hkx (hsymm x other ▸ hsame)
          rw [hk other hother] at this
          exact Bool.noConfusion this
        rw [if_pos hkx, if_neg hnot, List.filter_cons, hkx, Bool.not_true,
          if_neg Bool.false_ne_true, hall]
        exact (List.perm_append_singleton x kept).symm
      · rw [Bool.not_eq_true] at hkx
        rw [hkx, if_neg Bool.false_ne_true, List.filter_cons, hkx, Bool.not_false, if_pos rfl]
        exact (ih hrest hothers).cons k

theorem apart_symm (hsymm : ∀ a b, same a b = same b a) {a b : α} (h : Apart same a b) :
    Apart same b a := (hsymm b a).trans h

/-- Items of different kinds are kept. -/
theorem push_pairwise (hsymm : ∀ a b, same a b = same b a)
    (htrans : ∀ a b c, same a b → same b c → same a c) (hkept : kept.Pairwise (Apart same)) :
    (push same stays kept x).Pairwise (Apart same) := by
  by_cases h : ∃ k ∈ kept, stays k ∧ same k x
  · rwa [push_of_stays hsymm htrans hkept h]
  · have hnone : ∀ k ∈ kept, stays k → same k x = false := fun k hk hs =>
      Bool.not_eq_true _ ▸ fun hsame => h ⟨k, hk, hs, hsame⟩
    refine ((push_perm hsymm htrans hkept hnone).pairwise_iff fun hab => apart_symm hsymm hab).2 ?_
    refine List.pairwise_append.2 ⟨hkept.filter _, List.pairwise_singleton _ _, ?_⟩
    intro a ha b hb
    rw [List.mem_singleton.1 hb]
    simpa [Apart] using (List.mem_filter.1 ha).2

/-- Of one kind at most one item is kept. -/
theorem eq_of_same (hsymm : ∀ a b, same a b = same b a) (hkept : kept.Pairwise (Apart same))
    {a b : α} (ha : a ∈ kept) (hb : b ∈ kept) (hab : same a b) : a = b := by
  by_contra hne
  have : Std.Symm (Apart same) := ⟨fun _ _ h => apart_symm hsymm h⟩
  have hapart : Apart same a b := hkept.forall ha hb hne
  rw [hapart] at hab
  exact Bool.noConfusion hab

theorem any_congr_of_mem {l : List α} {p q : α → Bool} (h : ∀ a ∈ l, p a = q a) :
    l.any p = l.any q := by
  induction l with
  | nil => rfl
  | cons a l ih =>
      obtain ⟨ha, hl⟩ := List.forall_mem_cons.1 h
      rw [List.any_cons, List.any_cons, ha, ih hl]

/-- The step of a run where one of the kind stays: the item is passed over. -/
theorem foldl_step_of_stays (hsymm : ∀ a b, same a b = same b a)
    (htrans : ∀ a b c, same a b → same b c → same a c) (hkept : kept.Pairwise (Apart same))
    (h : ∃ k ∈ kept, stays k ∧ same k x) :
    ((kept.filter fun k => stays k || !rest.any (same k)) ++
        standing same (rest.filter fun y => !kept.any fun k => stays k && same k y)) =
      (kept.filter fun k => stays k || !(x :: rest).any (same k)) ++
        standing same ((x :: rest).filter fun y => !kept.any fun k => stays k && same k y) := by
  obtain ⟨s, hs, hstays, hsame⟩ := h
  have hover : (kept.any fun k => stays k && same k x) = true :=
    List.any_eq_true.2 ⟨s, hs, by rw [hstays, hsame]; rfl⟩
  rw [List.filter_cons, hover, Bool.not_true, if_neg Bool.false_ne_true]
  refine congrArg (· ++ _) (List.filter_congr fun k hk => ?_)
  rw [List.any_cons]
  cases hkx : same k x with
  | false => rw [Bool.false_or]
  | true =>
      rw [eq_of_same hsymm hkept hk hs (htrans k x s hkx (hsymm x s ▸ hsame)), hstays]
      rfl

/-- The step of a run where the item is added. -/
theorem foldl_step (hsymm : ∀ a b, same a b = same b a)
    (htrans : ∀ a b c, same a b → same b c → same a c) (hkept : kept.Pairwise (Apart same))
    (hx : stays x = false) (h : ∀ k ∈ kept, stays k → same k x = false) :
    (((push same stays kept x).filter fun k => stays k || !rest.any (same k)) ++
        standing same (rest.filter fun y =>
          !(push same stays kept x).any fun k => stays k && same k y)).Perm
      ((kept.filter fun k => stays k || !(x :: rest).any (same k)) ++
        standing same ((x :: rest).filter fun y => !kept.any fun k => stays k && same k y)) := by
  have hpush := push_perm hsymm htrans hkept h
  have hover : ∀ y, ((push same stays kept x).any fun k => stays k && same k y) =
      kept.any fun k => stays k && same k y := fun y => by
    rw [hpush.any_eq, List.any_append, List.any_filter, List.any_cons, List.any_nil, hx,
      Bool.false_and, Bool.or_false, Bool.or_false]
    refine any_congr_of_mem fun k hk => ?_
    cases hs : stays k with
    | false => simp
    | true => simp [h k hk hs]
  have hold : kept.filter (fun k => stays k || !(x :: rest).any (same k)) =
      (kept.filter fun k => !same k x).filter fun k => stays k || !rest.any (same k) := by
    rw [List.filter_filter]
    refine List.filter_congr fun k hk => ?_
    rw [List.any_cons]
    cases hs : stays k with
    | false => simp [Bool.and_comm]
    | true => simp [h k hk hs]
  have hself : (kept.any fun k => stays k && same k x) = false := by
    refine List.any_eq_false.2 fun k hk => ?_
    cases hs : stays k with
    | false => simp
    | true => simp [h k hk hs]
  have hlater : ((rest.filter fun y => !kept.any fun k => stays k && same k y).any (same x)) =
      rest.any (same x) := by
    rw [List.any_filter]
    refine any_congr_of_mem fun y _ => ?_
    cases hxy : same x y with
    | false => rw [Bool.and_false]
    | true =>
        rw [Bool.and_true, Bool.not_eq_true']
        refine List.any_eq_false.2 fun k hk => ?_
        cases hs : stays k with
        | false => simp
        | true =>
            intro hky
            have := htrans k y x (by simpa using hky) (hsymm x y ▸ hxy)
            rw [h k hk hs] at this
            exact Bool.noConfusion this
  simp only [hover]
  rw [hold, List.filter_cons, hself, Bool.not_false, if_pos rfl, standing, hlater]
  refine ((hpush.filter _).append_right _).trans ?_
  rw [List.filter_append, List.append_assoc]
  refine List.Perm.append_left _ ?_
  rw [List.filter_singleton, hx, Bool.false_or]
  cases rest.any (same x) <;> exact List.Perm.refl _

/-- **A run** leaves what stays and what no item of the run is of the kind of, and the last item
of each kind of the run that nothing that stays is of; each once. -/
theorem foldl_push_perm (hsymm : ∀ a b, same a b = same b a)
    (htrans : ∀ a b c, same a b → same b c → same a c) (hkept : kept.Pairwise (Apart same))
    (hrest : ∀ x ∈ rest, stays x = false) :
    (rest.foldl (push same stays) kept).Perm
      ((kept.filter fun k => stays k || !rest.any (same k)) ++
        standing same (rest.filter fun x => !kept.any fun k => stays k && same k x)) := by
  induction rest generalizing kept with
  | nil => simp [standing]
  | cons x rest ih =>
      obtain ⟨hx, hlater⟩ := List.forall_mem_cons.1 hrest
      rw [List.foldl_cons]
      refine (ih (push_pairwise hsymm htrans hkept) hlater).trans ?_
      by_cases h : ∃ k ∈ kept, stays k ∧ same k x
      · rw [push_of_stays hsymm htrans hkept h, foldl_step_of_stays hsymm htrans hkept h]
      · have hnone : ∀ k ∈ kept, stays k → same k x = false := fun k hk hs =>
          Bool.not_eq_true _ ▸ fun hsame => h ⟨k, hk, hs, hsame⟩
        exact foldl_step hsymm htrans hkept hx hnone

end Latest
