/-
# The section of an owner in a list

Some items of a list belong to an owner, and some are loose: they belong to whatever stands before
them.  The section of the owner goes from its first item on, as long as items are its own or loose
(`cut`).  If one of its own comes after that, the section is interleaved.

Items that are put in between do not change the section of another owner, unless it was in one
piece around them (`cut_insert`).
-/

import Mathlib.Data.List.TakeWhile

namespace Sections

variable {α β : Type*}

/-- Where the section of an owner is. -/
inductive Cut (α : Type*)
  | absent
  | interleaved
  | found (before middle after : List α)

namespace Cut

/-- The section, if it is in one piece; no items have an empty one. -/
def items : Cut α → Option (List α)
  | absent => some []
  | interleaved => none
  | found _ middle _ => some middle

/-- Items in front of all. -/
def push (front : List α) : Cut α → Cut α
  | found before middle after => found (front ++ before) middle after
  | other => other

/-- The items, seen through a function. -/
def map (f : α → β) : Cut α → Cut β
  | absent => absent
  | interleaved => interleaved
  | found before middle after => found (before.map f) (middle.map f) (after.map f)

@[simp] theorem items_push (front : List α) (c : Cut α) : (c.push front).items = c.items := by
  cases c <;> rfl

end Cut

variable (own loose : α → Bool)

/-- From the first item of the owner on. -/
def cutFrom (before rest : List α) : Cut α :=
  let after := rest.dropWhile fun a => own a || loose a
  if after.any own then .interleaved
  else .found before (rest.takeWhile fun a => own a || loose a) after

/-- **The section of an owner.** -/
def cut (l : List α) : Cut α :=
  match l.dropWhile (!own ·) with
  | [] => .absent
  | a :: rest => cutFrom own loose (l.takeWhile (!own ·)) (a :: rest)

variable {own loose} {a : α} {before middle after l rest : List α}

/-- An owner without items has no section. -/
theorem cut_absent (h : ∀ a ∈ l, own a = false) : cut own loose l = .absent := by
  have hnone : l.dropWhile (!own ·) = [] := List.dropWhile_eq_nil_iff.2 fun a ha => by
    rw [h a ha]
    rfl
  rw [cut, hnone]

/-- What stands before the first item of the owner is before the section. -/
theorem cut_push (h : ∀ a ∈ before, own a = false) (l : List α) :
    cut own loose (before ++ l) = (cut own loose l).push before := by
  have hbefore : ∀ a ∈ before, (!own a) = true := fun a ha => by
    rw [h a ha]
    rfl
  have hdrop : (before ++ l).dropWhile (!own ·) = l.dropWhile (!own ·) :=
    List.dropWhile_append_of_pos hbefore
  have htake : (before ++ l).takeWhile (!own ·) = before ++ l.takeWhile (!own ·) :=
    List.takeWhile_append_of_pos hbefore
  unfold cut
  rw [hdrop, htake]
  cases l.dropWhile (!own ·) with
  | nil => rfl
  | cons a rest =>
      unfold cutFrom
      dsimp only
      split <;> rfl

/-- From an item of the owner on. -/
theorem cut_cons (h : own a = true) (rest : List α) :
    cut own loose (a :: rest) = cutFrom own loose [] (a :: rest) := by
  have hdrop : (a :: rest).dropWhile (!own ·) = a :: rest := by
    rw [List.dropWhile_cons_of_neg]
    simp [h]
  have htake : (a :: rest).takeWhile (!own ·) = [] := by
    rw [List.takeWhile_cons_of_neg]
    simp [h]
  rw [cut, hdrop, htake]

/-- A list with an item of the owner begins with some that are not. -/
theorem exists_first (h : ∃ a ∈ l, own a = true) : ∃ before a rest, l = before ++ a :: rest ∧
    own a = true ∧ ∀ b ∈ before, own b = false := by
  induction l with
  | nil =>
      obtain ⟨a, ha, -⟩ := h
      exact absurd ha List.not_mem_nil
  | cons b l ih =>
      cases hb : own b with
      | true => exact ⟨[], b, l, rfl, hb, List.forall_mem_nil _⟩
      | false =>
          obtain ⟨a, ha, hown⟩ := h
          have hmem : a ∈ l := (List.mem_cons.1 ha).resolve_left fun heq => by
            rw [heq, hb] at hown
            cases hown
          obtain ⟨before, first, rest, rfl, hfirst, hbefore⟩ := ih ⟨a, hmem, hown⟩
          exact ⟨b :: before, first, rest, rfl, hfirst, List.forall_mem_cons.2 ⟨hb, hbefore⟩⟩

/-- **A section in one piece**: it begins with an item of the owner, all in it is the owner's or
loose, what is around it is not the owner's, and what follows is not loose. -/
structure IsSection (own loose : α → Bool) (before middle after : List α) : Prop where
  none_before : ∀ a ∈ before, own a = false
  head : ∃ a rest, middle = a :: rest ∧ own a = true
  piece : ∀ a ∈ middle, (own a || loose a) = true
  none_after : ∀ a ∈ after, own a = false
  next : ∀ a ∈ after.head?, loose a = false

theorem IsSection.cut (h : IsSection own loose before middle after) :
    Sections.cut own loose (before ++ middle ++ after) = .found before middle after := by
  obtain ⟨a, rest, hmiddle, ha⟩ := h.head
  have hstop : after.dropWhile (fun a => own a || loose a) = after := by
    cases after with
    | nil => rfl
    | cons b after =>
        rw [List.dropWhile_cons_of_neg]
        have hown := h.none_after b List.mem_cons_self
        have hloose := h.next b rfl
        simp [hown, hloose]
  have hrun : (middle ++ after).takeWhile (fun a => own a || loose a) = middle := by
    rw [List.takeWhile_append_of_pos h.piece]
    cases after with
    | nil => simp
    | cons b after =>
        rw [List.takeWhile_cons_of_neg, List.append_nil]
        have hown := h.none_after b List.mem_cons_self
        have hloose := h.next b rfl
        simp [hown, hloose]
  have hany : after.any own = false := List.any_eq_false.2 fun a ha => by
    rw [h.none_after a ha]
    exact Bool.false_ne_true
  rw [List.append_assoc, cut_push h.none_before, hmiddle, List.cons_append, cut_cons ha,
    ← List.cons_append, ← hmiddle, cutFrom]
  rw [List.dropWhile_append_of_pos h.piece, hstop, hany, hrun, if_neg Bool.false_ne_true,
    Cut.push, List.append_nil]

/-- **What is found is a section in one piece.** -/
theorem isSection_of_cut (h : cut own loose l = .found before middle after) :
    l = before ++ middle ++ after ∧ IsSection own loose before middle after := by
  by_cases hown : ∃ a ∈ l, own a = true
  · obtain ⟨front, a, rest, rfl, ha, hfront⟩ := exists_first hown
    rw [cut_push hfront, cut_cons ha, cutFrom] at h
    split at h
    · cases h
    · next hany =>
        obtain ⟨rfl, rfl, rfl⟩ := Cut.found.inj h
        refine ⟨?_, ?_, ⟨a, _, List.takeWhile_cons_of_pos (by simp [ha]), ha⟩, ?_, ?_, ?_⟩
        · rw [List.append_nil, List.append_assoc, List.takeWhile_append_dropWhile]
        · rwa [List.append_nil]
        · intro b hb
          exact @List.mem_takeWhile_imp _ (fun a => own a || loose a) _ _ hb
        · intro b hb
          exact (Bool.not_eq_true _).mp fun hb' => hany (List.any_eq_true.2 ⟨b, hb, hb'⟩)
        · intro b hb
          have hnot := List.head?_dropWhile_not (fun a => own a || loose a) (a :: rest)
          rw [Option.mem_def.1 hb] at hnot
          simp only [Bool.or_eq_false_iff] at hnot
          exact hnot.2
  · rw [cut_absent fun a ha => (Bool.not_eq_true _).mp fun ha' => hown ⟨a, ha, ha'⟩] at h
    cases h

/-- Seen through a function, a section is where it was. -/
theorem cut_map {own loose : β → Bool} (f : α → β) (l : List α) :
    cut own loose (l.map f) = (cut (own ∘ f) (loose ∘ f) l).map f := by
  unfold cut
  rw [List.dropWhile_map, List.takeWhile_map]
  have hnot : (fun b => !own b) ∘ f = fun a => !(own ∘ f) a := rfl
  rw [hnot]
  cases l.dropWhile fun a => !(own ∘ f) a with
  | nil => rfl
  | cons a rest =>
      have hrun : (fun b => own b || loose b) ∘ f = fun a => (own ∘ f) a || (loose ∘ f) a := rfl
      rw [List.map_cons]
      dsimp only
      rw [cutFrom, cutFrom, ← List.map_cons, List.dropWhile_map, List.takeWhile_map, hrun,
        List.any_map]
      split <;> rfl

/-! ### Items put in between -/

section Between

variable {put : List α}

/-- A run ends where what follows is neither the owner's nor loose. -/
theorem run_append {p : α → Bool} (h : ∀ a ∈ l.head?, p a = false) (r : List α) :
    (r ++ l).takeWhile p = r.takeWhile p ∧ (r ++ l).dropWhile p = r.dropWhile p ++ l := by
  have htake : l.takeWhile p = [] := by
    cases l with
    | nil => rfl
    | cons a l => rw [List.takeWhile_cons_of_neg (by simp [h a rfl])]
  have hdrop : l.dropWhile p = l := by
    cases l with
    | nil => rfl
    | cons a l => rw [List.dropWhile_cons_of_neg (by simp [h a rfl])]
  induction r with
  | nil => exact ⟨htake, hdrop⟩
  | cons a r ih =>
      cases ha : p a with
      | true => simp [ha, ih.1, ih.2]
      | false => simp [ha]

/-- Between items of the owner, one that is neither the owner's nor loose. -/
theorem cut_interleaved (hbefore : ∃ a ∈ before, own a = true) (hafter : ∃ a ∈ after, own a = true)
    (hhead : ∀ a ∈ put.head?, own a = false ∧ loose a = false) (hput : put ≠ []) :
    cut own loose (before ++ put ++ after) = .interleaved := by
  obtain ⟨front, a, rest, rfl, ha, hfront⟩ := exists_first hbefore
  obtain ⟨b, hb, hown⟩ := hafter
  have hstop : ∀ c ∈ (put ++ after).head?, (own c || loose c) = false := by
    obtain ⟨c, put, rfl⟩ := List.exists_cons_of_ne_nil hput
    intro d hd
    obtain ⟨hnot, hnotLoose⟩ := hhead d hd
    rw [hnot, hnotLoose]
    rfl
  rw [List.append_assoc, List.append_assoc, cut_push hfront, List.cons_append, cut_cons ha,
    ← List.cons_append, cutFrom, (run_append hstop _).2, if_pos]
  · rfl
  · exact List.any_eq_true.2
      ⟨b, List.mem_append_right _ (List.mem_append_right _ hb), hown⟩

/-- **Items put in between change no other section**, unless the owner has items on both sides and
its section would be in one piece without them. -/
theorem items_insert_iff (hput : ∀ a ∈ put, own a = false) (hne : put ≠ [])
    (hhead : ∀ a ∈ put.head?, loose a = false) (hnext : ∀ a ∈ after.head?, loose a = false) :
    (cut own loose (before ++ put ++ after)).items = (cut own loose (before ++ after)).items ↔
      ¬ ((∃ a ∈ before, own a = true) ∧ (∃ a ∈ after, own a = true) ∧
        (cut own loose (before ++ after)).items ≠ none) := by
  have hputHead : ∀ a ∈ put.head?, own a = false ∧ loose a = false := fun a ha =>
    ⟨hput a (List.mem_of_mem_head? ha), hhead a ha⟩
  by_cases hbefore : ∃ a ∈ before, own a = true
  · by_cases hafter : ∃ a ∈ after, own a = true
    · rw [cut_interleaved hbefore hafter hputHead hne]
      simp only [hbefore, hafter, true_and, ne_eq, not_not]
      exact eq_comm
    · refine iff_of_true ?_ fun h => hafter h.2.1
      have hnone : ∀ a ∈ after, own a = false := fun a ha =>
        (Bool.not_eq_true _).mp fun ha' => hafter ⟨a, ha, ha'⟩
      obtain ⟨front, a, rest, rfl, ha, hfront⟩ := exists_first hbefore
      have hstop : ∀ c ∈ after.head?, (own c || loose c) = false := fun c hc => by
        rw [hnone c (List.mem_of_mem_head? hc), hnext c hc]
        rfl
      have hstop' : ∀ c ∈ (put ++ after).head?, (own c || loose c) = false := by
        obtain ⟨c, put, rfl⟩ := List.exists_cons_of_ne_nil hne
        intro d hd
        obtain ⟨hnot, hnotLoose⟩ := hputHead d hd
        rw [hnot, hnotLoose]
        rfl
      have hnot : put.any own = false := List.any_eq_false.2 fun a ha => by simp [hput a ha]
      rw [List.append_assoc, List.append_assoc, List.append_assoc, cut_push hfront,
        cut_push hfront, Cut.items_push, Cut.items_push, List.cons_append, List.cons_append,
        cut_cons ha, cut_cons ha, ← List.cons_append, ← List.cons_append, cutFrom, cutFrom,
        (run_append hstop _).1, (run_append hstop _).2, (run_append hstop' _).1,
        (run_append hstop' _).2, List.any_append, List.any_append, List.any_append, hnot,
        Bool.false_or]
      split <;> rfl
  · refine iff_of_true ?_ fun h => hbefore h.1
    have hnone : ∀ a ∈ before, own a = false := fun a ha =>
      (Bool.not_eq_true _).mp fun ha' => hbefore ⟨a, ha, ha'⟩
    rw [List.append_assoc, cut_push hnone, cut_push hput, cut_push hnone, Cut.items_push,
      Cut.items_push, Cut.items_push]

end Between

/-! ### From the first item to the last -/

/-- A list with an item of the owner ends with some that are not. -/
theorem exists_last (h : ∃ a ∈ l, own a = true) : ∃ front a after, l = front ++ a :: after ∧
    own a = true ∧ ∀ b ∈ after, own b = false := by
  obtain ⟨a, ha, hown⟩ := h
  obtain ⟨back, b, rest, hreverse, hb, hback⟩ := exists_first ⟨a, List.mem_reverse.2 ha, hown⟩
  refine ⟨rest.reverse, b, back.reverse, ?_, hb, fun c hc => hback c (List.mem_reverse.1 hc)⟩
  rw [← List.reverse_reverse l, hreverse]
  simp

/-- The items from the first of the owner to its last, and those before and after. -/
structure IsCore (own : α → Bool) (before core post : List α) : Prop where
  none_before : ∀ a ∈ before, own a = false
  head : ∃ a rest, core = a :: rest ∧ own a = true
  last : ∃ front a, core = front ++ [a] ∧ own a = true
  none_post : ∀ a ∈ post, own a = false

theorem exists_core (h : ∃ a ∈ l, own a = true) :
    ∃ before core post, l = before ++ (core ++ post) ∧ IsCore own before core post := by
  obtain ⟨before, first, rest, rfl, hfirst, hbefore⟩ := exists_first h
  have hrest : ∃ a ∈ first :: rest, own a = true := ⟨first, List.mem_cons_self, hfirst⟩
  obtain ⟨front, last, post, hsplit, hlast, hpost⟩ := exists_last hrest
  refine ⟨before, front ++ [last], post, ?_, hbefore, ?_, ⟨front, last, rfl, hlast⟩, hpost⟩
  · rw [hsplit, List.append_assoc, List.singleton_append]
  · cases front with
    | nil =>
        obtain ⟨rfl, -⟩ := List.cons.inj hsplit
        exact ⟨first, [], rfl, hfirst⟩
    | cons other front =>
        obtain ⟨rfl, -⟩ := List.cons.inj hsplit
        exact ⟨first, front ++ [last], rfl, hfirst⟩

variable {core post : List α}

/-- **A section is in one piece exactly if no item of another stands between its first and last.** -/
theorem IsCore.cut (h : IsCore own before core post) :
    Sections.cut own loose (before ++ (core ++ post)) =
      if core.any fun a => !own a && !loose a then .interleaved
      else .found before (core ++ post.takeWhile loose) (post.dropWhile loose) := by
  obtain ⟨first, rest, hhead, hfirst⟩ := h.head
  obtain ⟨front, last, htail, hlast⟩ := h.last
  by_cases hforeign : (core.any fun a => !own a && !loose a) = true
  · rw [if_pos hforeign]
    obtain ⟨foreign, hmem, hneither⟩ := List.any_eq_true.1 hforeign
    rw [Bool.and_eq_true, Bool.not_eq_true', Bool.not_eq_true'] at hneither
    obtain ⟨left, right, hlr⟩ := List.append_of_mem hmem
    have hleft : ∃ a ∈ before ++ left, own a = true := by
      cases left with
      | nil =>
          obtain ⟨rfl, -⟩ := List.cons.inj (hhead.symm.trans hlr)
          exact Bool.noConfusion (hneither.1.symm.trans hfirst)
      | cons other left =>
          obtain ⟨rfl, -⟩ := List.cons.inj (hhead.symm.trans hlr)
          exact ⟨first, List.mem_append_right _ List.mem_cons_self, hfirst⟩
    have hright : ∃ a ∈ right ++ post, own a = true := by
      have hends : left ++ foreign :: right = front ++ [last] := hlr.symm.trans htail
      rcases List.eq_nil_or_concat right with rfl | ⟨init, final, rfl⟩
      · obtain ⟨-, heq⟩ := List.append_inj' hends rfl
        obtain ⟨rfl, -⟩ := List.cons.inj heq
        exact Bool.noConfusion (hneither.1.symm.trans hlast)
      · rw [List.concat_eq_append, ← List.cons_append, ← List.append_assoc] at hends
        obtain ⟨-, heq⟩ := List.append_inj' hends rfl
        obtain ⟨rfl, -⟩ := List.cons.inj heq
        exact ⟨final, by simp, hlast⟩
    have hput : ∀ a ∈ [foreign].head?, own a = false ∧ loose a = false := fun a ha => by
      obtain rfl := Option.some.inj ha
      exact hneither
    have hcut := cut_interleaved hleft hright hput (List.cons_ne_nil _ _)
    have hsame : before ++ left ++ [foreign] ++ (right ++ post) = before ++ (core ++ post) := by
      rw [hlr]
      simp
    rw [← hsame, hcut]
  · rw [if_neg hforeign]
    have hpiece : ∀ a ∈ core, (own a || loose a) = true := by
      intro a ha
      have hnot := List.any_eq_false.1 ((Bool.not_eq_true _).mp hforeign) a ha
      cases hown : own a <;> cases hloose : loose a <;> simp_all
    have hsection : IsSection own loose before (core ++ post.takeWhile loose)
        (post.dropWhile loose) := by
      refine ⟨h.none_before, ⟨first, rest ++ _, by rw [hhead, List.cons_append], hfirst⟩,
        List.forall_mem_append.2 ⟨hpiece, fun a ha => ?_⟩,
        fun a ha => h.none_post a ((List.dropWhile_sublist _).mem ha), fun a ha => ?_⟩
      · rw [List.mem_takeWhile_imp ha, Bool.or_true]
      · have hnot := List.head?_dropWhile_not loose post
        rwa [Option.mem_def.1 ha] at hnot
    have hcut := hsection.cut
    rwa [List.append_assoc, List.append_assoc, List.takeWhile_append_dropWhile] at hcut

end Sections
