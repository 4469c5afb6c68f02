/-
# Blocks laid end to end

A list of blocks of positive length, laid one after the other from a base
position: where each begins and ends (`layout`), that no two overlap
(`layout_pairwise`), and what is left when the blocks ending at or before a
position are dropped (`filter_layout_abuts`).  `Abuts` says of any list of
intervals that each ends where the next begins; such a list covers every
position it spans (`Abuts.exists_covering`).
-/

import Mathlib.Algebra.BigOperators.Group.List.Basic
import Mathlib.Data.List.Basic
import Mathlib.Tactic.Linarith

namespace Tiling

section Abuts

variable {τ : Type*} (start stop : τ → ℕ)

/-- Each interval of the list ends where the next begins, and the last ends at
`edge`. -/
def Abuts (edge : ℕ) : List τ → Prop
  | [] => True
  | [a] => stop a = edge
  | a :: b :: rest => stop a = start b ∧ Abuts edge (b :: rest)

variable {start stop}

/-- **Abutting intervals leave no gap:** every position after the first one's
start and up to the edge lies in one of them. -/
theorem Abuts.exists_covering {edge x : ℕ} :
    ∀ {l : List τ} {a : τ}, Abuts start stop edge (a :: l) → start a < x → x ≤ edge →
      ∃ g ∈ a :: l, start g < x ∧ x ≤ stop g
  | [], a, h, hx, hedge => ⟨a, List.mem_cons_self .., hx, by rw [show stop a = edge from h]; exact hedge⟩
  | b :: l, a, h, hx, hedge => by
      by_cases hin : x ≤ stop a
      · exact ⟨a, List.mem_cons_self .., hx, hin⟩
      · obtain ⟨g, hg, hlo, hhi⟩ := h.2.exists_covering (by rw [← h.1]; omega) hedge
        exact ⟨g, List.mem_cons_of_mem _ hg, hlo, hhi⟩

variable (start stop) in
/-- The first interval of the list holds `x`; when there is none, everything up
to `edge` ends by `x`. -/
def HoldsFirst (x edge : ℕ) : List τ → Prop
  | [] => edge ≤ x
  | a :: _ => start a ≤ x ∧ x < stop a

/-- `Abuts` only looks at the two ends of each interval. -/
theorem Abuts.map {σ : Type*} {start' stop' : σ → ℕ} {f : τ → σ} (hstart : ∀ a, start' (f a) = start a)
    (hstop : ∀ a, stop' (f a) = stop a) {edge : ℕ} :
    ∀ {l : List τ}, Abuts start stop edge l → Abuts start' stop' edge (l.map f)
  | [], _ => trivial
  | [a], h => (hstop a).trans h
  | a :: b :: l, h => ⟨by rw [hstop, hstart]; exact h.1, Abuts.map hstart hstop h.2⟩

/-- In a list sorted by where its intervals end, dropping from the front what
ends by `x` drops everything that ends by `x`. -/
theorem dropWhile_eq_filter (x : ℕ) {l : List τ} (h : l.Pairwise fun a b => stop a ≤ stop b) :
    (l.dropWhile fun a => stop a ≤ x) = l.filter fun a => x < stop a := by
  induction l with
  | nil => rfl
  | cons a l ih =>
      obtain ⟨hle, hl⟩ := List.pairwise_cons.1 h
      by_cases hx : stop a ≤ x
      · have hx' : ¬ x < stop a := by omega
        simpa [hx, hx'] using ih hl
      · have hx' : x < stop a := by omega
        have hall : ∀ b ∈ l, decide (x < stop b) = true := by
          intro b hb
          have := hle b hb
          simp only [decide_eq_true_eq]
          omega
        simp only [List.dropWhile_cons, List.filter_cons, hx, hx', decide_true, decide_false,
          if_true, Bool.false_eq_true, if_false, List.filter_eq_self.2 hall]

end Abuts

variable {β : Type*}

/-- A block in its place: where it ends and what it is. -/
structure Tile (β : Type*) where
  stop : ℕ
  block : β

variable (len : β → ℕ)

/-- Where a placed block begins. -/
def Tile.start (t : Tile β) : ℕ := t.stop - len t.block

/-- The blocks laid end to end from `base`. -/
def layout (base : ℕ) : List β → List (Tile β)
  | [] => []
  | b :: bs => ⟨base + len b, b⟩ :: layout (base + len b) bs

/-- The length of all blocks together. -/
def extent (bs : List β) : ℕ := (bs.map len).sum

@[simp] theorem extent_nil : extent len ([] : List β) = 0 := rfl

@[simp] theorem extent_cons (b : β) (bs : List β) :
    extent len (b :: bs) = len b + extent len bs := by simp [extent]

@[simp] theorem extent_append (bs cs : List β) :
    extent len (bs ++ cs) = extent len bs + extent len cs := by simp [extent]

/-- Of blocks of positive length, the ones that satisfy `p` take as long as the
ones that satisfy a weaker `q` exactly when they are the same ones. -/
theorem extent_filter_eq_iff (hpos : ∀ b, 0 < len b) {p q : β → Bool} :
    ∀ {bs : List β}, (∀ b ∈ bs, p b = true → q b = true) →
      (extent len (bs.filter p) ≤ extent len (bs.filter q) ∧
        (extent len (bs.filter p) = extent len (bs.filter q) ↔
          ∀ b ∈ bs, q b = true → p b = true))
  | [], _ => by simp
  | b :: bs, h => by
      obtain ⟨hle, hiff⟩ := extent_filter_eq_iff hpos fun c hc => h c (List.mem_cons_of_mem _ hc)
      have hb := h b (List.mem_cons_self ..)
      have hlen := hpos b
      cases hp : p b <;> cases hq : q b
      · simp [hp, hq, hle, hiff]
      · simp only [List.filter_cons, hp, hq, Bool.false_eq_true, if_false, if_true, extent_cons,
          List.forall_mem_cons, imp_false, not_true_eq_false, false_and, iff_false]
        omega
      · rw [hp, hq] at hb
        exact absurd (hb rfl) Bool.false_ne_true
      · simp [hp, hq, hle, hiff]

theorem layout_append (base : ℕ) (bs cs : List β) :
    layout len base (bs ++ cs) = layout len base bs ++ layout len (base + extent len bs) cs := by
  induction bs generalizing base with
  | nil => simp [layout]
  | cons b bs ih => simp [layout, ih, Nat.add_assoc]

variable {len}

/-- A placed block lies between the base and the end of the layout. -/
theorem mem_layout {base : ℕ} {bs : List β} {t : Tile β} (h : t ∈ layout len base bs) :
    base ≤ t.start len ∧ t.start len + len t.block = t.stop ∧
      t.stop ≤ base + extent len bs := by
  induction bs generalizing base with
  | nil => cases h
  | cons b bs ih =>
      rw [layout, List.mem_cons] at h
      rw [extent_cons]
      rcases h with rfl | h
      · refine ⟨?_, ?_, ?_⟩ <;> dsimp only [Tile.start] <;> omega
      · obtain ⟨hlo, hlen, hhi⟩ := ih h
        exact ⟨by omega, hlen, by omega⟩

/-- No two blocks of a layout overlap. -/
theorem layout_pairwise (base : ℕ) (bs : List β) :
    (layout len base bs).Pairwise (fun a b => a.stop ≤ b.start len) := by
  induction bs generalizing base with
  | nil => exact List.Pairwise.nil
  | cons b bs ih => exact List.Pairwise.cons (fun t ht => (mem_layout ht).1) (ih _)

theorem layout_abuts (base : ℕ) (bs : List β) :
    Abuts (Tile.start len) Tile.stop (base + extent len bs) (layout len base bs) := by
  induction bs generalizing base with
  | nil => trivial
  | cons b bs ih =>
      have h := ih (base + len b)
      rw [Nat.add_assoc, ← extent_cons] at h
      cases bs with
      | nil => simp [layout, Abuts]
      | cons c bs => exact ⟨by dsimp only [layout, Tile.start]; omega, h⟩

/-- Two blocks of a layout are one and the same, or do not overlap. -/
theorem layout_disjoint {base : ℕ} {bs : List β} {a b : Tile β} (ha : a ∈ layout len base bs)
    (hb : b ∈ layout len base bs) : a = b ∨ a.stop ≤ b.start len ∨ b.stop ≤ a.start len := by
  have h := @layout_pairwise _ len base bs
  refine List.Pairwise.forall_of_forall_of_flip
    (R := fun a b => a = b ∨ a.stop ≤ b.start len ∨ b.stop ≤ a.start len)
    (fun x _ => Or.inl rfl) (h.imp fun hab => Or.inr (Or.inl hab))
    (h.imp fun hab => Or.inr (Or.inr hab)) ha hb

/-- A layout lists its blocks by where they end. -/
theorem layout_sorted (base : ℕ) (bs : List β) :
    (layout len base bs).Pairwise (fun a b => a.stop ≤ b.stop) :=
  (layout_pairwise base bs).imp fun h => h.trans (Nat.sub_le _ _)

/-- **What a cut leaves.**  Of a layout that begins at or before `x`, the blocks
ending after `x` abut up to the end; the first of them holds `x`, and when
there is none the whole layout ends by `x`. -/
theorem filter_layout_abuts {x base : ℕ} (hbase : base ≤ x)
    (bs : List β) :
    Abuts (Tile.start len) Tile.stop (base + extent len bs)
        ((layout len base bs).filter fun t => x < t.stop) ∧
      HoldsFirst (Tile.start len) Tile.stop x (base + extent len bs)
        ((layout len base bs).filter fun t => x < t.stop) := by
  rw [← dropWhile_eq_filter x (layout_sorted base bs)]
  induction bs generalizing base with
  | nil => exact ⟨trivial, by simpa [layout, HoldsFirst] using hbase⟩
  | cons b bs ih =>
      by_cases hx : base + len b ≤ x
      · have h := ih hx
        rw [Nat.add_assoc, ← extent_cons] at h
        simpa only [layout, List.dropWhile_cons, hx, decide_true, if_true] using h
      · have h := @layout_abuts _ len base (b :: bs)
        simp only [layout, List.dropWhile_cons, hx, decide_false, Bool.false_eq_true, if_false] at h ⊢
        refine ⟨h, ?_, not_le.1 hx⟩
        dsimp only [Tile.start]
        omega

end Tiling
