/-
# Lists of rows that are edited in place

Lemmas about a list whose elements are changed one by one: the element at the
place where a list is taken apart, and `List.Forall₂` between a list and the
edited one.
-/

import Mathlib.Data.List.Forall2

namespace Rows

variable {α β : Type*} {R : α → β → Prop}

/-- Changing the element at which a list is taken apart. -/
theorem modify_at (pre post : List α) (a : α) (f : α → α) :
    (pre ++ a :: post).modify pre.length f = pre ++ f a :: post := by
  induction pre with
  | nil => rfl
  | cons b pre ih => exact congrArg (b :: ·) ih

theorem getD_at (pre post : List α) (a d : α) : (pre ++ a :: post).getD pre.length d = a := by simp

theorem insertIdx_at (pre post : List α) (a : α) :
    (pre ++ post).insertIdx pre.length a = pre ++ a :: post := by
  induction pre with
  | nil => rfl
  | cons b pre ih =>
      rw [List.cons_append, List.length_cons, List.insertIdx_succ_cons, ih, List.cons_append]

theorem forall₂_map {R : α → α → Prop} {f : α → α} (h : ∀ a, R a (f a)) (l : List α) :
    List.Forall₂ R l (l.map f) := by
  induction l with
  | nil => exact .nil
  | cons a l ih => exact .cons (h a) ih

theorem forall₂_modify {R : α → α → Prop} (hrefl : ∀ a, R a a) {f : α → α} (h : ∀ a, R a (f a))
    (l : List α) (i : ℕ) : List.Forall₂ R l (l.modify i f) := by
  induction l generalizing i with
  | nil => simp
  | cons a l ih =>
      cases i with
      | zero => exact .cons (h a) (List.forall₂_same.2 fun b _ => hrefl b)
      | succ i => exact .cons (hrefl a) (ih i)

/-- Changing one element of a list relates the two lists. -/
theorem forall₂_at {R : α → α → Prop} (hrefl : ∀ a, R a a) {a b : α} (hab : R a b)
    (pre post : List α) : List.Forall₂ R (pre ++ a :: post) (pre ++ b :: post) := by
  induction pre with
  | nil => exact .cons hab (List.forall₂_same.2 fun c _ => hrefl c)
  | cons c pre ih => exact .cons (hrefl c) ih

/-- What corresponds to a list in two parts comes in two parts. -/
theorem forall₂_append_left {l₁ l₂ : List α} {l : List β} (h : List.Forall₂ R (l₁ ++ l₂) l) :
    ∃ l₁' l₂', List.Forall₂ R l₁ l₁' ∧ List.Forall₂ R l₂ l₂' ∧ l = l₁' ++ l₂' := by
  induction l₁ generalizing l with
  | nil => exact ⟨[], l, .nil, h, rfl⟩
  | cons a l₁ ih =>
      obtain ⟨b, rest, hab, hrest, rfl⟩ := List.forall₂_cons_left_iff.1 h
      obtain ⟨l₁', l₂', h₁, h₂, rfl⟩ := ih hrest
      exact ⟨b :: l₁', l₂', .cons hab h₁, h₂, rfl⟩

/-- A relation that holds of the elements may be exchanged for another. -/
theorem forall₂_imp_mem {S : α → β → Prop} {l : List α} {l' : List β} (h : List.Forall₂ R l l')
    (himp : ∀ a ∈ l, ∀ b ∈ l', R a b → S a b) : List.Forall₂ S l l' := by
  induction h with
  | nil => exact .nil
  | cons hab _ ih =>
      refine .cons (himp _ List.mem_cons_self _ List.mem_cons_self hab) (ih fun a ha b hb => ?_)
      exact himp a (List.mem_cons_of_mem _ ha) b (List.mem_cons_of_mem _ hb)

/-- A property that the relation carries over holds of all elements. -/
theorem forall₂_all {R : α → α → Prop} {P : α → Prop} (hP : ∀ a b, R a b → P a → P b)
    {l l' : List α} (h : List.Forall₂ R l l') (hl : ∀ a ∈ l, P a) : ∀ a ∈ l', P a := by
  induction h with
  | nil => exact hl
  | cons hab _ ih =>
      obtain ⟨hhead, htail⟩ := List.forall_mem_cons.1 hl
      exact List.forall_mem_cons.2 ⟨hP _ _ hab hhead, ih htail⟩

/-- An element has a counterpart. -/
theorem forall₂_exists {l : List α} {l' : List β} (h : List.Forall₂ R l l') {a : α} (ha : a ∈ l) :
    ∃ b ∈ l', R a b := by
  induction h with
  | nil => cases ha
  | cons hab _ ih =>
      rcases List.mem_cons.1 ha with rfl | ha
      · exact ⟨_, List.mem_cons_self .., hab⟩
      · obtain ⟨b, hb, hR⟩ := ih ha
        exact ⟨b, List.mem_cons_of_mem _ hb, hR⟩

theorem forall₂_map_eq {γ : Type*} {R : α → α → Prop} {f : α → γ} (hf : ∀ a b, R a b → f b = f a)
    {l l' : List α} (h : List.Forall₂ R l l') : l'.map f = l.map f := by
  induction h with
  | nil => rfl
  | cons hab _ ih => rw [List.map_cons, List.map_cons, hf _ _ hab, ih]

/-- What an edit of one element leaves alone. -/
theorem map_modify_eq {γ : Type*} {f : α → α} {g : α → γ} (hf : ∀ a, g (f a) = g a) (l : List α)
    (i : ℕ) : (l.modify i f).map g = l.map g := by
  have hrelated := forall₂_modify (R := fun a b => g b = g a) (fun _ => rfl) hf l i
  exact forall₂_map_eq (fun _ _ h => h) hrelated

/-- One edit after another. -/
theorem forall₂_trans {R : α → α → Prop} (hR : ∀ a b c, R a b → R b c → R a c)
    {l l' l'' : List α} (h : List.Forall₂ R l l') (h' : List.Forall₂ R l' l'') :
    List.Forall₂ R l l'' := by
  induction h generalizing l'' with
  | nil => exact h'
  | cons hab _ ih =>
      cases h' with
      | cons hbc hrest => exact .cons (hR _ _ _ hab hbc) (ih hrest)

end Rows
