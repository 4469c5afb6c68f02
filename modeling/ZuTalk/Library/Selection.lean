/-
# Choosing what fits

Items come one after the other, and of each it is decided what becomes of it.  What is decided may
depend on what came before: a log is settled (`Settled`) if each of its entries is as it had to be
after those before it, and a log grows entry by entry (`Settled.concat`).

Where only a part of an item fits, the longest part that does is found by bisection (`longest`):
it is right where no part fits that is longer than one that does not (`longest_spec`).
-/

import Mathlib.Data.List.Induction
import Mathlib.Data.List.Pairwise

namespace Selection

/-- What becomes of an item. -/
inductive Decision
  | duplicate
  | exceeded
  | included
  | cut (kept : ℕ)
  deriving DecidableEq

variable {α : Type*}

/-- Every entry is as it had to be after those before it. -/
def Settled (verdict : List α → α → Prop) (log : List α) : Prop :=
  ∀ before entry rest, log = before ++ entry :: rest → verdict before entry

theorem Settled.nil (verdict : List α → α → Prop) : Settled verdict [] := fun before entry rest h =>
  absurd h.symm (by simp)

/-- A log grows by an entry that is as it has to be. -/
theorem Settled.concat {verdict : List α → α → Prop} {log : List α} {entry : α}
    (h : Settled verdict log) (hentry : verdict log entry) : Settled verdict (log ++ [entry]) := by
  intro before other rest heq
  rcases List.eq_nil_or_concat rest with rfl | ⟨rest', last, rfl⟩
  · obtain ⟨rfl, hlast⟩ := List.append_inj' heq rfl
    rwa [← (List.cons.inj hlast).1]
  · rw [List.concat_eq_append, ← List.cons_append, ← List.append_assoc] at heq
    exact h before other rest' (List.append_inj' heq rfl).1

/-- Where entries are apart from those before them, they are apart two by two. -/
theorem Settled.pairwise {apart : α → α → Prop} {log : List α}
    (h : Settled (fun before entry => ∀ other ∈ before, apart other entry) log) :
    log.Pairwise apart := by
  induction log using List.reverseRecOn with
  | nil => exact List.Pairwise.nil
  | append_singleton log entry ih =>
      refine List.pairwise_append.2 ⟨ih fun before other rest heq => ?_,
        List.pairwise_singleton _ _, fun other hother last hlast => ?_⟩
      · exact h before other (rest ++ [entry]) (by rw [heq]; simp)
      · rw [List.mem_singleton.1 hlast]
        exact h log entry [] rfl other hother

theorem Settled.imp {verdict verdict' : List α → α → Prop} {log : List α}
    (himp : ∀ before entry, verdict before entry → verdict' before entry)
    (h : Settled verdict log) : Settled verdict' log :=
  fun before entry rest heq => himp before entry (h before entry rest heq)

/-- The bisection: of the lengths from `low` to `high` one that fits. -/
def longest (fits : ℕ → Bool) (low high : ℕ) : ℕ :=
  if low < high then
    if fits ((low + high + 1) / 2) then longest fits ((low + high + 1) / 2) high
    else longest fits low ((low + high + 1) / 2 - 1)
  else low
termination_by high - low

/-- **The longest part that fits is found**, where no part fits that is longer than one that does
not. -/
theorem longest_spec {fits : ℕ → Bool} {total : ℕ}
    (hanti : ∀ m n, 0 < m → m ≤ n → fits n → fits m) {low high : ℕ} (hle : low ≤ high)
    (hlow : 0 < low → fits low) (hhigh : ∀ n, high < n → n ≤ total → fits n = false) :
    low ≤ longest fits low high ∧ longest fits low high ≤ high ∧
      (0 < longest fits low high → fits (longest fits low high)) ∧
      ∀ n, longest fits low high < n → n ≤ total → fits n = false := by
  fun_induction longest fits low high with
  | case1 low high hlt hfits ih =>
      obtain ⟨hge, hle', hkeeps, hall⟩ := ih (by omega) (fun _ => hfits) hhigh
      exact ⟨by omega, hle', hkeeps, hall⟩
  | case2 low high hlt hfits ih =>
      obtain ⟨hge, hle', hkeeps, hall⟩ := ih (by omega) hlow fun n hn _ => by
        by_contra hnot
        exact hfits (hanti _ n (by omega) (by omega) (Bool.not_eq_false _ ▸ hnot))
      exact ⟨hge, by omega, hkeeps, hall⟩
  | case3 low high hlt =>
      obtain rfl : low = high := by omega
      exact ⟨Nat.le_refl _, Nat.le_refl _, hlow, hhigh⟩

end Selection
