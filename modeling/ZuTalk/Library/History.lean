/-
# A store through numbered changes

A `History` is a store of keyed entries as it was after each of its numbered changes.
Changes with consecutive numbers make one batch (`across`).  A batch brings the store from
any state between the one before its first change and its last to its last
(`act_across`): what a batch says again of changes that are in already does no harm.  So
do batches each of which begins no later than where the ones before have come
(`foldl_chain`).
-/

import ZuTalk.Library.Edits

namespace Edits

variable {α κ ι : Type*} {rank : α → ℕ}

/-- **An edit done again** changes nothing more. -/
theorem Edit.act_act (e : Edit α) (x : Option α) :
    e.act rank (e.act rank x) = e.act rank x := by
  have hagain : ∀ y : Option α, newer rank (newer rank y e.put) e.put = newer rank y e.put := by
    intro y
    rw [newer_assoc]
    congr 1
    cases e.put with
    | none => rfl
    | some a => simp [newer, later]
  unfold Edit.act
  cases e.clears with
  | true => simp
  | false => exact hagain x

/-- An edit that takes out what was there leaves what it brings. -/
theorem Edit.act_of_clears {e : Edit α} (h : e.clears = true) (x : Option α) :
    e.act rank x = e.put := by
  unfold Edit.act
  rw [h, if_pos rfl, none_newer]

/-- A store after each of its changes, and what the changes do to each key. -/
structure History (α κ : Type*) (rank : α → ℕ) where
  state : ℕ → κ → Option α
  edit : ℕ → κ → Edit α
  act_edit : ∀ number key,
    (edit (number + 1) key).act rank (state number key) = state (number + 1) key

namespace History

/-- The store that changes make of an empty one. -/
def ofEdits (edit : ℕ → κ → Edit α) : History α κ rank where
  state := Nat.rec (fun _ => none) fun number state key =>
    (edit (number + 1) key).act rank (state key)
  edit := edit
  act_edit _ _ := rfl

variable (h : History α κ rank) {first middle last : ℕ} {key : κ}

/-- What the changes from `first` to `last` do to a key. -/
def across (first last : ℕ) (key : κ) : Edit α :=
  Edit.all rank (fun number => h.edit number key) (List.range' first (last + 1 - first))

/-- A batch is what comes before a change of it and what comes from that change on. -/
theorem across_append (hfirst : first ≤ middle + 1) (hlast : middle ≤ last) (key : κ) :
    h.across first last key =
      (h.across first middle key).comp rank (h.across (middle + 1) last key) := by
  have hrange : List.range' first (last + 1 - first) =
      List.range' first (middle + 1 - first) ++
        List.range' (middle + 1) (last + 1 - (middle + 1)) := by
    have hmiddle : middle + 1 = first + (middle + 1 - first) := by omega
    have hlength : last + 1 - first = (middle + 1 - first) + (last + 1 - (middle + 1)) := by omega
    rw [hlength, ← List.range'_append_1, ← hmiddle]
  unfold across
  rw [hrange, Edit.all_append]

/-- A batch of one change. -/
@[simp] theorem across_self (number : ℕ) (key : κ) :
    h.across number number key = h.edit number key := by
  simp [across, Edit.all_cons]

/-- The changes after a state bring the store from it to their last. -/
theorem act_across_succ (hlast : middle ≤ last) (key : κ) :
    (h.across (middle + 1) last key).act rank (h.state middle key) = h.state last key := by
  induction last, hlast using Nat.le_induction with
  | base =>
      have hnone : h.across (middle + 1) middle key = Edit.keep := by simp [across]
      rw [hnone, Edit.keep_act]
  | succ last hlast ih =>
      rw [h.across_append (by omega) (Nat.le_succ last), Edit.act_comp, ih, across_self, h.act_edit]

/-- **A batch brings the store to its last change**, also where some of it is in already. -/
theorem act_across (hpos : 0 < first) (hfirst : first ≤ middle + 1) (hlast : middle ≤ last)
    (key : κ) : (h.across first last key).act rank (h.state middle key) = h.state last key := by
  have hin : (h.across first middle key).act rank (h.state middle key) = h.state middle key := by
    obtain rfl | hle : first = middle + 1 ∨ first ≤ middle := by omega
    · have hnone : h.across (middle + 1) middle key = Edit.keep := by simp [across]
      rw [hnone, Edit.keep_act]
    · obtain ⟨before, rfl⟩ := Nat.exists_eq_succ_of_ne_zero (Nat.pos_iff_ne_zero.1 hpos)
      have hstate := h.act_across_succ (Nat.le_of_succ_le hle) key
      conv_lhs => rw [← hstate]
      rw [Edit.act_act, hstate]
  rw [h.across_append hfirst hlast, Edit.act_comp, hin, h.act_across_succ hlast]

/-! ### Batches one after the other -/

/-- Each batch begins no later than where the ones before have come, and goes on. -/
def Chain (first last : ι → ℕ) : ℕ → List ι → Prop
  | _, [] => True
  | reached, batch :: batches =>
      first batch ≤ reached + 1 ∧ reached ≤ last batch ∧ Chain first last (last batch) batches

/-- Where batches come to. -/
def reach (last : ι → ℕ) (reached : ℕ) (batches : List ι) : ℕ :=
  (batches.getLast?.map last).getD reached

theorem reach_cons (last : ι → ℕ) (reached : ℕ) (batch : ι) (batches : List ι) :
    reach last reached (batch :: batches) = reach last (last batch) batches := by
  cases batches with
  | nil => rfl
  | cons next batches => rfl

/-- Batches come to the last change of one of them, or nowhere. -/
theorem reach_le {last : ι → ℕ} {reached bound : ℕ} {batches : List ι} (hreached : reached ≤ bound)
    (hbatches : ∀ batch ∈ batches, last batch ≤ bound) : reach last reached batches ≤ bound := by
  unfold reach
  cases hlast : batches.getLast? with
  | none => exact hreached
  | some batch => exact hbatches batch (List.mem_of_getLast? hlast)

/-- A chain goes on from where it begins. -/
theorem Chain.le_reach {first last : ι → ℕ} {reached : ℕ} {batches : List ι}
    (h : Chain first last reached batches) : reached ≤ reach last reached batches := by
  induction batches generalizing reached with
  | nil => exact le_rfl
  | cons batch batches ih =>
      obtain ⟨-, hlast, hrest⟩ := h
      rw [reach_cons]
      exact Nat.le_trans hlast (ih hrest)

/-- **A chain of batches** brings the store to where it comes. -/
theorem foldl_chain {first last : ι → ℕ} {edit : ι → κ → Edit α}
    {step : (κ → Option α) → ι → κ → Option α} {batches : List ι} {reached : ℕ}
    (hstep : ∀ store, ∀ batch ∈ batches, ∀ key,
      step store batch key = (edit batch key).act rank (store key))
    (hedit : ∀ batch ∈ batches, 0 < first batch ∧
      ∀ key, edit batch key = h.across (first batch) (last batch) key)
    (hchain : Chain first last reached batches) :
    batches.foldl step (h.state reached) = h.state (reach last reached batches) := by
  induction batches generalizing reached with
  | nil => rfl
  | cons batch batches ih =>
      obtain ⟨hfirst, hlast, hrest⟩ := hchain
      obtain ⟨hpos, hover⟩ := hedit batch List.mem_cons_self
      have hbatch : step (h.state reached) batch = h.state (last batch) := by
        funext key
        rw [hstep _ batch List.mem_cons_self, hover, h.act_across hpos hfirst hlast]
      rw [List.foldl_cons, hbatch, reach_cons]
      exact ih (fun store next hnext => hstep store next (List.mem_cons_of_mem batch hnext))
        (fun next hnext => hedit next (List.mem_cons_of_mem batch hnext)) hrest

end History

end Edits
