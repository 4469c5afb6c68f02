/-
# Edits of keyed entries

A store of entries by key, each with a rank: of two entries of one key the one of
higher rank stays, and the later one of equal rank.  An `Edit` is what a batch
does to one key: it may take out what is there, and then puts in the best entry it
brings.  Edits compose (`Edit.act_comp`) and the composition is associative
(`Edit.comp_assoc`), so batches may be merged in any grouping.

`put` and `best` are the same at the level of lists of entries: what a list leaves
of a store is, key by key, its best entry put in (`foldl_put`).
-/

import Mathlib.Data.Nat.Basic
import Mathlib.Data.List.Basic
import Mathlib.Data.List.Induction
import Mathlib.Logic.Function.Basic

namespace Edits

variable {α κ : Type*} (rank : α → ℕ)

/-- Of two entries the later one, unless the earlier has a higher rank. -/
def later (a b : α) : α := if rank b < rank a then a else b

theorem later_assoc (a b c : α) :
    later rank (later rank a b) c = later rank a (later rank b c) := by
  unfold later
  split_ifs <;> first | rfl | omega

/-- An entry is put in where another may be. -/
def newer : Option α → Option α → Option α
  | x, none => x
  | none, some b => some b
  | some a, some b => some (later rank a b)

@[simp] theorem newer_none (x : Option α) : newer rank x none = x := by cases x <;> rfl

@[simp] theorem none_newer (y : Option α) : newer rank none y = y := by cases y <;> rfl

theorem newer_assoc (x y z : Option α) :
    newer rank (newer rank x y) z = newer rank x (newer rank y z) := by
  cases x with
  | none => simp
  | some a =>
      cases y with
      | none => simp
      | some b =>
          cases z with
          | none => rfl
          | some c =>
              show some _ = some _
              rw [later_assoc]

/-! ### Edits of one key -/

/-- What a batch does to the entry of one key. -/
structure Edit (α : Type*) where
  clears : Bool
  put : Option α
  deriving DecidableEq

namespace Edit

/-- The entry after an edit. -/
def act (e : Edit α) (x : Option α) : Option α := newer rank (if e.clears then none else x) e.put

/-- One edit and then another. -/
def comp (e e' : Edit α) : Edit α := if e'.clears then e' else ⟨e.clears, newer rank e.put e'.put⟩

/-- **Edits compose.** -/
theorem act_comp (e e' : Edit α) (x : Option α) :
    (e.comp rank e').act rank x = e'.act rank (e.act rank x) := by
  unfold comp act
  cases hclears : e'.clears with
  | true => simp [hclears]
  | false => simp [newer_assoc]

/-- **Edits may be grouped in any way.** -/
theorem comp_assoc (e₁ e₂ e₃ : Edit α) :
    (e₁.comp rank e₂).comp rank e₃ = e₁.comp rank (e₂.comp rank e₃) := by
  unfold comp
  cases h₃ : e₃.clears with
  | true => simp [h₃]
  | false =>
      cases h₂ : e₂.clears with
      | true => simp [h₂]
      | false => simp [newer_assoc]

/-- An edit that takes out what is there hides what was done before. -/
theorem comp_of_clears {e e' : Edit α} (h : e'.clears = true) : e.comp rank e' = e' := by
  unfold comp
  rw [if_pos h]

/-- The edit that does nothing. -/
def keep : Edit α := ⟨false, none⟩

@[simp] theorem keep_comp (e : Edit α) : keep.comp rank e = e := by
  unfold comp keep
  cases h : e.clears with
  | true => rfl
  | false => rw [if_neg Bool.false_ne_true, none_newer, ← h]

@[simp] theorem comp_keep (e : Edit α) : e.comp rank keep = e := by
  unfold comp keep
  rw [if_neg Bool.false_ne_true, newer_none]

@[simp] theorem keep_act (x : Option α) : keep.act rank x = x := by
  unfold act keep
  rw [if_neg Bool.false_ne_true, newer_none]

/-- The edits of a list, one after the other. -/
def all (f : κ → Edit α) (l : List κ) : Edit α := l.foldl (fun e a => e.comp rank (f a)) keep

theorem all_concat (f : κ → Edit α) (l : List κ) (a : κ) :
    all rank f (l ++ [a]) = (all rank f l).comp rank (f a) := by
  rw [all, List.foldl_append]
  rfl

theorem foldl_comp (f : κ → Edit α) (l : List κ) (e : Edit α) :
    l.foldl (fun e a => e.comp rank (f a)) e = e.comp rank (all rank f l) := by
  induction l using List.reverseRecOn with
  | nil => exact (comp_keep rank e).symm
  | append_singleton l a ih =>
      rw [List.foldl_append, ih, all_concat, List.foldl_cons, List.foldl_nil, comp_assoc]

theorem all_append (f : κ → Edit α) (l l' : List κ) :
    all rank f (l ++ l') = (all rank f l).comp rank (all rank f l') := by
  rw [all, List.foldl_append]
  exact foldl_comp ..

theorem all_cons (f : κ → Edit α) (a : κ) (l : List κ) :
    all rank f (a :: l) = (f a).comp rank (all rank f l) := by
  rw [all, List.foldl_cons, foldl_comp, keep_comp]

@[simp] theorem all_nil (f : κ → Edit α) : all rank f [] = keep := rfl

/-- **A list of steps** does to an entry what their edits do. -/
theorem act_all {ι : Type*} {f : κ → Edit α} {step : (ι → Option α) → κ → ι → Option α} {i : ι}
    (h : ∀ m a, step m a i = (f a).act rank (m i)) (l : List κ) (m : ι → Option α) :
    l.foldl step m i = (all rank f l).act rank (m i) := by
  induction l generalizing m with
  | nil => exact (keep_act rank (m i)).symm
  | cons a l ih => rw [List.foldl_cons, ih, h, all_cons, act_comp]

end Edit

/-! ### Lists of entries -/

section Lists

variable [DecidableEq κ] (key : α → κ)

/-- An entry put in a store. -/
def put (m : κ → Option α) (a : α) : κ → Option α :=
  Function.update m (key a) (newer rank (m (key a)) (some a))

theorem put_apply (m : κ → Option α) (a : α) (k : κ) :
    put rank key m a k = if key a = k then newer rank (m k) (some a) else m k := by
  unfold put
  by_cases hk : key a = k
  · subst hk
    rw [Function.update_self, if_pos rfl]
  · rw [Function.update_of_ne (Ne.symm hk), if_neg hk]

/-- The best entry of a key in a list. -/
def best (l : List α) (k : κ) : Option α := l.foldl (put rank key) (fun _ => none) k

/-- **A list of entries put in a store** leaves, key by key, its best. -/
theorem foldl_put (l : List α) (m : κ → Option α) (k : κ) :
    l.foldl (put rank key) m k = newer rank (m k) (best rank key l k) := by
  induction l using List.reverseRecOn with
  | nil => simp [best]
  | append_singleton l a ih =>
      have hbest : best rank key (l ++ [a]) k =
          put rank key (l.foldl (put rank key) fun _ => none) a k := by
        rw [best, List.foldl_append]
        rfl
      rw [List.foldl_append, List.foldl_cons, List.foldl_nil, put_apply, hbest, put_apply, ih]
      split
      · rw [newer_assoc]
        rfl
      · rfl

theorem best_append (l l' : List α) (k : κ) :
    best rank key (l ++ l') k = newer rank (best rank key l k) (best rank key l' k) := by
  rw [best, List.foldl_append, foldl_put]
  rfl

theorem best_nil (k : κ) : best rank key [] k = none := rfl

theorem best_cons (a : α) (l : List α) (k : κ) :
    best rank key (a :: l) k =
      newer rank (if key a = k then some a else none) (best rank key l k) := by
  have hsingle : best rank key [a] k = if key a = k then some a else none := by
    rw [best, List.foldl_cons, List.foldl_nil, put_apply, none_newer]
  rw [← List.singleton_append, best_append, hsingle]

/-- A key no entry has gets none. -/
theorem best_eq_none {l : List α} {k : κ} (h : ∀ a ∈ l, key a ≠ k) : best rank key l k = none := by
  induction l with
  | nil => rfl
  | cons a l ih =>
      rw [best_cons, if_neg (h a List.mem_cons_self), none_newer]
      exact ih fun b hb => h b (List.mem_cons_of_mem a hb)

/-- Where every key has one entry at most, that is the best. -/
theorem best_of_distinct {l : List α} (h : (l.map key).Nodup) {a : α} (ha : a ∈ l) :
    best rank key l (key a) = some a := by
  induction l with
  | nil => cases ha
  | cons b l ih =>
      rw [List.map_cons, List.nodup_cons] at h
      rw [best_cons]
      rcases List.mem_cons.1 ha with rfl | ha'
      · have hrest : best rank key l (key a) = none :=
          best_eq_none rank key fun c hc heq => h.1 (heq ▸ List.mem_map_of_mem hc)
        rw [if_pos rfl, hrest, newer_none]
      · have hne : key b ≠ key a := fun heq => h.1 (heq ▸ List.mem_map_of_mem ha')
        rw [if_neg hne, none_newer]
        exact ih h.2 ha'

/-- A key that an entry has gets one. -/
theorem best_ne_none {l : List α} {k : κ} {a : α} (ha : a ∈ l) (hkey : key a = k) :
    best rank key l k ≠ none := by
  induction l with
  | nil => simp at ha
  | cons b l ih =>
      rw [best_cons]
      rcases List.mem_cons.1 ha with rfl | ha
      · rw [if_pos hkey]
        cases best rank key l k <;> simp [newer]
      · have hrest := ih ha
        cases hbest : best rank key l k with
        | none => exact absurd hbest hrest
        | some c =>
            split <;> simp [newer]

/-- **The best entry of a key** is an entry of it, and none has a higher rank. -/
theorem best_eq_some {l : List α} {k : κ} {a : α} (h : best rank key l k = some a) :
    a ∈ l ∧ key a = k ∧ ∀ b ∈ l, key b = k → rank b ≤ rank a := by
  induction l using List.reverseRecOn generalizing a with
  | nil => simp [best_nil] at h
  | append_singleton l c ih =>
      have hsingle : best rank key [c] k = if key c = k then some c else none := by
        rw [best_cons, best_nil, newer_none]
      rw [best_append, hsingle] at h
      by_cases hc : key c = k
      · rw [if_pos hc] at h
        -- the entry that came last is the best, or the best one so far has a higher rank
        cases hbest : best rank key l k with
        | none =>
            have hca : c = a := by simpa [hbest] using h
            subst hca
            refine ⟨by simp, hc, ?_⟩
            intro b hb hkey
            rcases List.mem_append.1 hb with hb | hb
            · exact absurd hbest (best_ne_none rank key hb hkey)
            · simp [List.mem_singleton.1 hb]
        | some best' =>
            obtain ⟨hmem, hkey, hmax⟩ := ih hbest
            have hlater : later rank best' c = a := by simpa [hbest, newer] using h
            unfold later at hlater
            split at hlater
            · rename_i hlt
              subst hlater
              refine ⟨by simp [hmem], hkey, ?_⟩
              intro b hb hkey'
              rcases List.mem_append.1 hb with hb | hb
              · exact hmax b hb hkey'
              · rw [List.mem_singleton.1 hb]
                omega
            · rename_i hlt
              subst hlater
              refine ⟨by simp, hc, ?_⟩
              intro b hb hkey'
              rcases List.mem_append.1 hb with hb | hb
              · have hle := hmax b hb hkey'
                omega
              · simp [List.mem_singleton.1 hb]
      · rw [if_neg hc, newer_none] at h
        obtain ⟨hmem, hkey, hmax⟩ := ih h
        refine ⟨by simp [hmem], hkey, ?_⟩
        intro b hb hkey'
        rcases List.mem_append.1 hb with hb | hb
        · exact hmax b hb hkey'
        · rw [List.mem_singleton.1 hb] at hkey'
          exact absurd hkey' hc

/-- The best of two lists is the best of one of them. -/
theorem best_append_eq_some {l l' : List α} {k : κ} {a : α}
    (h : best rank key (l ++ l') k = some a) :
    best rank key l k = some a ∨ best rank key l' k = some a := by
  rw [best_append] at h
  cases hl : best rank key l k with
  | none =>
      right
      simpa [hl] using h
  | some b =>
      cases hl' : best rank key l' k with
      | none =>
          left
          simpa [hl, hl'] using h
      | some c =>
          have hlater : later rank b c = a := by simpa [hl, hl', newer] using h
          unfold later at hlater
          split at hlater
          · exact .inl (congrArg some hlater)
          · exact .inr (congrArg some hlater)

end Lists

end Edits
