/-
# Entries that stand group by group

Entries with numbers, in the order of their numbers: those of each number, one number after the
other, are all of them (`flatMap_filter`).
-/

import Mathlib.Data.List.Basic
import Mathlib.Tactic.Common

namespace Groups

variable {α : Type*} {entries : List (α × ℕ)}

/-- The entries of the first number stand before the others. -/
theorem filter_append_filter {first : ℕ} (horder : (entries.map Prod.snd).Pairwise (· ≤ ·))
    (hfirst : ∀ entry ∈ entries, first ≤ entry.2) :
    (entries.filter fun entry => entry.2 = first) ++
      (entries.filter fun entry => entry.2 ≠ first) = entries := by
  induction entries with
  | nil => rfl
  | cons entry entries ih =>
      rw [List.map_cons, List.pairwise_cons] at horder
      by_cases h : entry.2 = first
      · have hpos := List.filter_cons_of_pos (p := fun e : α × ℕ => decide (e.2 = first))
          (l := entries) (decide_eq_true h)
        have hneg := List.filter_cons_of_neg (p := fun e : α × ℕ => decide (e.2 ≠ first))
          (a := entry) (l := entries) (by simpa using h)
        rw [hpos, hneg, List.cons_append,
          ih horder.2 fun e he => hfirst e (List.mem_cons_of_mem _ he)]
      · have hlt : ∀ e ∈ entry :: entries, e.2 ≠ first := by
          have hentry := hfirst entry List.mem_cons_self
          refine List.forall_mem_cons.2 ⟨h, fun e he => ?_⟩
          have hle := horder.1 _ (List.mem_map_of_mem he)
          omega
        rw [List.filter_eq_nil_iff.2 fun e he => by simpa using hlt e he,
          List.filter_eq_self.2 fun e he => by simpa using hlt e he, List.nil_append]

theorem flatMap_filter_range' {start n : ℕ} (horder : (entries.map Prod.snd).Pairwise (· ≤ ·))
    (hrange : ∀ entry ∈ entries, start ≤ entry.2 ∧ entry.2 < start + n) :
    (List.range' start n).flatMap (fun i => entries.filter fun entry => entry.2 = i) =
      entries := by
  induction n generalizing start entries with
  | zero =>
      cases entries with
      | nil => rfl
      | cons entry entries =>
          have := hrange entry List.mem_cons_self
          omega
  | succ n ih =>
      have hsplit := filter_append_filter horder fun entry hentry => (hrange entry hentry).1
      have hsorted : ((entries.filter fun entry => entry.2 ≠ start).map Prod.snd).Pairwise
          (· ≤ ·) := horder.sublist (List.filter_sublist.map _)
      have hnext : ∀ entry ∈ entries.filter fun entry => entry.2 ≠ start,
          start + 1 ≤ entry.2 ∧ entry.2 < start + 1 + n := by
        intro entry hentry
        obtain ⟨hmem, hne⟩ := List.mem_filter.1 hentry
        have hne' : entry.2 ≠ start := by simpa using hne
        have := hrange entry hmem
        omega
      have hrest := ih hsorted hnext
      rw [List.range'_succ, List.flatMap_cons]
      conv_rhs => rw [← hsplit, ← hrest]
      refine congrArg _ (List.flatMap_congr fun i hi => ?_)
      have hlt := (List.mem_range'_1.1 hi).1
      rw [List.filter_filter]
      refine List.filter_congr fun entry _ => ?_
      rw [← Bool.decide_and]
      exact decide_eq_decide.2 ⟨fun h => ⟨h, by omega⟩, And.left⟩

/-- **Group by group, these are all the entries.** -/
theorem flatMap_filter {n : ℕ} (horder : (entries.map Prod.snd).Pairwise (· ≤ ·))
    (hrange : ∀ entry ∈ entries, entry.2 < n) :
    (List.range n).flatMap (fun i => entries.filter fun entry => entry.2 = i) = entries := by
  rw [List.range_eq_range']
  exact flatMap_filter_range' horder fun entry hentry =>
    ⟨Nat.zero_le _, (Nat.zero_add n).symm ▸ hrange entry hentry⟩

end Groups
