/-
# A fold that goes on from the last state that is still right

Rows come in chunks, in the order of their chunks.  A fold over them keeps its state after each
chunk (`scan`), with a mark of the chunk.  When rows change, the states of the chunks before the
first that changed are still right (`Current`), and the fold goes on from there: `Current.refresh`
says that it comes to what the fold over all rows from the start comes to.

A step that treats the marked rows in another way than before leaves the states before the first
marked chunk right (`Current.change`).
-/

import Mathlib.Data.List.TakeWhile
import ZuTalk.Library.Bisect

namespace Checkpoints

variable {α β : Type*}

/-- The state of the fold after a chunk. -/
structure Checkpoint (β : Type*) where
  chunk : ℕ
  state : β
  marked : Bool
  deriving DecidableEq

/-- The states of the fold after each chunk of the rows. -/
def scan (chunkOf : α → ℕ) (step : β → α → β) (mark : α → Bool) (start : β) :
    List α → List (Checkpoint β)
  | [] => []
  | row :: rows =>
      let chunk := row :: rows.takeWhile fun other => chunkOf other = chunkOf row
      { chunk := chunkOf row, state := chunk.foldl step start, marked := chunk.any mark } ::
        scan chunkOf step mark (chunk.foldl step start)
          (rows.dropWhile fun other => chunkOf other = chunkOf row)
termination_by rows => rows.length
decreasing_by
  exact Nat.lt_succ_of_le (List.dropWhile_sublist _).length_le

/-- The state that the fold goes on from. -/
def resumed (start : β) (held : List (Checkpoint β)) : β :=
  (held.getLast?.map Checkpoint.state).getD start

/-- A chunk is before the first that is out of date. -/
def clean (dirtyFrom : Option ℕ) (chunk : ℕ) : Bool := dirtyFrom.all (chunk < ·)

/-- Chunks are out of date from `chunk` on, too. -/
def earliest (dirtyFrom : Option ℕ) (chunk : ℕ) : ℕ := min (dirtyFrom.getD chunk) chunk

@[simp] theorem clean_none (chunk : ℕ) : clean none chunk = true := rfl

@[simp] theorem clean_some (dirtyFrom chunk : ℕ) :
    clean (some dirtyFrom) chunk = decide (chunk < dirtyFrom) := rfl

theorem clean_earliest {dirtyFrom : Option ℕ} {first chunk : ℕ} :
    clean (some (earliest dirtyFrom first)) chunk = true ↔
      clean dirtyFrom chunk = true ∧ chunk < first := by
  cases dirtyFrom <;> simp [earliest]

section Scan

variable {chunkOf : α → ℕ} {step step' : β → α → β} {mark : α → Bool} {start : β}
  {before after rows : List α}

theorem takeWhile_append_of_not {p : α → Bool} (h : ∀ row ∈ after, p row = false) :
    (before ++ after).takeWhile p = before.takeWhile p := by
  induction before with
  | nil =>
      cases after with
      | nil => rfl
      | cons row rest => simp [h row List.mem_cons_self]
  | cons row rest ih => simp [List.takeWhile_cons, ih]

theorem dropWhile_append_of_not {p : α → Bool} (h : ∀ row ∈ after, p row = false) :
    (before ++ after).dropWhile p = before.dropWhile p ++ after := by
  induction before with
  | nil =>
      cases after with
      | nil => rfl
      | cons row rest => simp [h row List.mem_cons_self]
  | cons row rest ih =>
      simp only [List.cons_append, List.dropWhile_cons, ih]
      split <;> rfl

/-- Rows of later chunks are folded from the state after those before. -/
theorem scan_append (h : ∀ a ∈ before, ∀ b ∈ after, chunkOf a < chunkOf b) :
    scan chunkOf step mark start (before ++ after) =
      scan chunkOf step mark start before ++
        scan chunkOf step mark (before.foldl step start) after := by
  fun_induction scan chunkOf step mark start before with
  | case1 start => rfl
  | case2 start row rest chunk ih =>
      have hrest : ∀ b ∈ after, decide (chunkOf b = chunkOf row) = false := fun b hb => by
        simpa using Nat.ne_of_gt (h row List.mem_cons_self b hb)
      rw [List.cons_append, scan, takeWhile_append_of_not hrest, dropWhile_append_of_not hrest]
      have hsplit : (row :: rest).foldl step start =
          (rest.dropWhile fun other => chunkOf other = chunkOf row).foldl step
            (chunk.foldl step start) := by
        rw [← List.foldl_append, List.cons_append, List.takeWhile_append_dropWhile]
      rw [hsplit, List.cons_append]
      refine congrArg _ (ih fun a ha => h a (List.mem_cons_of_mem row ?_))
      exact (List.dropWhile_sublist _).subset ha

/-- **The last state is that of the fold over all rows.** -/
theorem resumed_scan :
    resumed start (scan chunkOf step mark start rows) = rows.foldl step start := by
  fun_induction scan chunkOf step mark start rows with
  | case1 start => rfl
  | case2 start row rest chunk ih =>
      have hsplit : (row :: rest).foldl step start =
          (rest.dropWhile fun other => chunkOf other = chunkOf row).foldl step
            (chunk.foldl step start) := by
        rw [← List.foldl_append, List.cons_append, List.takeWhile_append_dropWhile]
      rw [hsplit, ← ih]
      unfold resumed
      rw [List.getLast?_cons]
      cases (scan chunkOf step mark (chunk.foldl step start)
        (rest.dropWhile fun other => chunkOf other = chunkOf row)).getLast? <;> rfl

theorem exists_mem_of_mem_scan {checkpoint : Checkpoint β}
    (h : checkpoint ∈ scan chunkOf step mark start rows) :
    ∃ row ∈ rows, chunkOf row = checkpoint.chunk := by
  fun_induction scan chunkOf step mark start rows with
  | case1 start => cases h
  | case2 start row rest chunk ih =>
      rcases List.mem_cons.1 h with rfl | hrest
      · exact ⟨row, List.mem_cons_self, rfl⟩
      · obtain ⟨other, hother, heq⟩ := ih hrest
        exact ⟨other, List.mem_cons_of_mem row ((List.dropWhile_sublist _).subset hother), heq⟩

/-- A marked row marks its chunk. -/
theorem exists_marked {row : α} (hrow : row ∈ rows) (hmark : mark row = true) :
    ∃ checkpoint ∈ scan chunkOf step mark start rows,
      checkpoint.chunk = chunkOf row ∧ checkpoint.marked = true := by
  fun_induction scan chunkOf step mark start rows with
  | case1 start => cases hrow
  | case2 start first rest chunk ih =>
      have hall : row ∈ chunk ++ rest.dropWhile fun other => chunkOf other = chunkOf first := by
        rwa [List.cons_append, List.takeWhile_append_dropWhile]
      rcases List.mem_append.1 hall with hchunk | hrest
      · refine ⟨_, List.mem_cons_self, ?_, List.any_eq_true.2 ⟨row, hchunk, hmark⟩⟩
        rcases List.mem_cons.1 hchunk with rfl | htake
        · rfl
        · have htaken := List.mem_takeWhile_imp htake
          exact (of_decide_eq_true htaken).symm
      · obtain ⟨checkpoint, hmem, heq⟩ := ih hrest
        exact ⟨checkpoint, List.mem_cons_of_mem _ hmem, heq⟩

/-- Two folds that take the same steps have the same states. -/
theorem scan_congr (h : ∀ row ∈ rows, ∀ s, step s row = step' s row) :
    scan chunkOf step mark start rows = scan chunkOf step' mark start rows := by
  fun_induction scan chunkOf step mark start rows with
  | case1 start => rw [scan]
  | case2 start row rest chunk ih =>
      have hchunk : chunk.foldl step start = chunk.foldl step' start := by
        refine List.foldl_ext _ _ _ fun s other hother => h other ?_ s
        exact (List.Sublist.cons_cons row (List.takeWhile_sublist _)).subset hother
      rw [scan, ← hchunk]
      refine congrArg _ (ih fun other hother => h other (List.mem_cons_of_mem row ?_))
      exact (List.dropWhile_sublist _).subset hother

/-- The rows come in the order of their chunks. -/
def Ascending (chunkOf : α → ℕ) (rows : List α) : Prop :=
  rows.Pairwise fun a b => chunkOf a ≤ chunkOf b

/-- The states of some first chunks are those of the rows of these chunks. -/
theorem filter_scan_lt (h : Ascending chunkOf rows) (bound : ℕ) :
    (scan chunkOf step mark start rows).filter (·.chunk < bound) =
      scan chunkOf step mark start (rows.filter (chunkOf · < bound)) := by
  obtain ⟨below, above, rfl, hbelow, habove⟩ := Bisect.exists_append h bound
  rw [Bisect.filter_lt_append hbelow habove,
    scan_append fun a ha b hb => (hbelow a ha).trans_le (habove b hb), List.filter_append,
    List.filter_eq_self.2, List.filter_eq_nil_iff.2, List.append_nil]
  · intro checkpoint hmem
    obtain ⟨row, hrow, heq⟩ := exists_mem_of_mem_scan hmem
    simpa [← heq] using habove row hrow
  · intro checkpoint hmem
    obtain ⟨row, hrow, heq⟩ := exists_mem_of_mem_scan hmem
    simpa [← heq] using hbelow row hrow

theorem filter_scan (h : Ascending chunkOf rows) (dirtyFrom : Option ℕ) :
    (scan chunkOf step mark start rows).filter (clean dirtyFrom ·.chunk) =
      scan chunkOf step mark start (rows.filter (clean dirtyFrom <| chunkOf ·)) := by
  cases dirtyFrom with
  | none => simp
  | some bound => simpa using filter_scan_lt h bound

/-- The states come in the order of their chunks. -/
theorem pairwise_scan (h : Ascending chunkOf rows) :
    (scan chunkOf step mark start rows).Pairwise fun a b => a.chunk < b.chunk := by
  fun_induction scan chunkOf step mark start rows with
  | case1 start => exact List.Pairwise.nil
  | case2 start row rest chunk ih =>
      obtain ⟨hfirst, hrest⟩ := List.pairwise_cons.1 h
      have hlater : Ascending chunkOf
          (rest.dropWhile fun other => chunkOf other = chunkOf row) :=
        hrest.sublist (List.dropWhile_sublist _)
      refine List.pairwise_cons.2 ⟨fun checkpoint hmem => ?_, ih hlater⟩
      obtain ⟨other, hother, heq⟩ := exists_mem_of_mem_scan hmem
      rw [← heq]
      -- the first row that is dropped is of a later chunk, and those after it are not before it
      cases hdrop : rest.dropWhile fun other => chunkOf other = chunkOf row with
      | nil => rw [hdrop] at hother; cases hother
      | cons next others =>
          have hnext : chunkOf next ≠ chunkOf row := by
            have := List.head?_dropWhile_not
              (fun other => decide (chunkOf other = chunkOf row)) rest
            simpa [hdrop] using this
          have hnextmem : next ∈ rest :=
            (List.dropWhile_sublist _).subset (hdrop ▸ List.mem_cons_self)
          have hle : chunkOf row < chunkOf next :=
            lt_of_le_of_ne (hfirst next hnextmem) hnext.symm
          rw [hdrop] at hother hlater
          rcases List.mem_cons.1 hother with rfl | hlast
          · exact hle
          · exact hle.trans_le ((List.pairwise_cons.1 hlater).1 other hlast)

end Scan

section Current

variable {chunkOf : α → ℕ} {step step' : β → α → β} {mark : α → Bool} {start : β}
  {rows rows' : List α} {held : List (Checkpoint β)} {dirtyFrom : Option ℕ}

/-- What is held of the chunks before the first that is out of date is what the fold over the rows
has there. -/
structure Current (chunkOf : α → ℕ) (step : β → α → β) (mark : α → Bool) (start : β)
    (dirtyFrom : Option ℕ) (held : List (Checkpoint β)) (rows : List α) : Prop where
  ordered : held.Pairwise fun a b => a.chunk < b.chunk
  states : held.filter (clean dirtyFrom ·.chunk) =
    (scan chunkOf step mark start rows).filter (clean dirtyFrom ·.chunk)

/-- Nothing is held. -/
theorem current_nil : Current chunkOf step mark start (some 0) [] rows :=
  ⟨List.Pairwise.nil, by simp⟩

/-- The states of all chunks are held. -/
theorem current_scan (h : Ascending chunkOf rows) :
    Current chunkOf step mark start none (scan chunkOf step mark start rows) rows :=
  ⟨pairwise_scan h, rfl⟩

theorem filter_earliest (checkpoints : List (Checkpoint β)) (first : ℕ) :
    checkpoints.filter (clean (some (earliest dirtyFrom first)) ·.chunk) =
      (checkpoints.filter (clean dirtyFrom ·.chunk)).filter (·.chunk < first) := by
  rw [List.filter_filter]
  refine List.filter_congr fun checkpoint _ => ?_
  rw [Bool.eq_iff_iff, clean_earliest]
  simp [and_comm]

/-- **Rows change from a chunk on.** -/
theorem Current.rows_changed (h : Current chunkOf step mark start dirtyFrom held rows)
    (hrows : Ascending chunkOf rows) (hrows' : Ascending chunkOf rows') {first : ℕ}
    (hsame : rows.filter (chunkOf · < first) = rows'.filter (chunkOf · < first)) :
    Current chunkOf step mark start (some (earliest dirtyFrom first)) held rows' where
  ordered := h.ordered
  states := by
    rw [filter_earliest, h.states, filter_earliest, List.filter_comm, filter_scan_lt hrows, hsame,
      ← filter_scan_lt hrows', List.filter_comm]

/-- The first chunk that is out of date when the marked rows are taken in another way. -/
def dirtyFromMarked (dirtyFrom : Option ℕ) (held : List (Checkpoint β)) : Option ℕ :=
  match held.find? (·.marked) with
  | some checkpoint => some (earliest dirtyFrom checkpoint.chunk)
  | none => dirtyFrom

theorem clean_of_dirtyFromMarked {chunk : ℕ}
    (h : clean (dirtyFromMarked dirtyFrom held) chunk = true) : clean dirtyFrom chunk = true := by
  unfold dirtyFromMarked at h
  split at h
  · exact (clean_earliest.1 h).1
  · exact h

/-- No chunk before is marked. -/
theorem Current.not_marked (h : Current chunkOf step mark start dirtyFrom held rows) {row : α}
    (hrow : row ∈ rows) (hclean : clean (dirtyFromMarked dirtyFrom held) (chunkOf row) = true) :
    mark row = false := by
  rw [Bool.eq_false_iff]
  intro hmark
  have hmarks : ∃ checkpoint ∈ scan chunkOf step mark start rows,
      checkpoint.chunk = chunkOf row ∧ checkpoint.marked = true := exists_marked hrow hmark
  obtain ⟨checkpoint, hscan, hchunk, hmarked⟩ := hmarks
  have hheld : checkpoint ∈ held := by
    have hmem : checkpoint ∈ held.filter (clean dirtyFrom ·.chunk) := by
      rw [h.states, List.mem_filter, hchunk]
      exact ⟨hscan, clean_of_dirtyFromMarked hclean⟩
    exact (List.mem_filter.1 hmem).1
  unfold dirtyFromMarked at hclean
  split at hclean
  next first hfirst =>
    obtain ⟨-, before, after, heq, hbefore⟩ := List.find?_eq_some_iff_append.1 hfirst
    have hlt : checkpoint.chunk < first.chunk := hchunk ▸ (clean_earliest.1 hclean).2
    have hordered := h.ordered
    rw [heq] at hheld hordered
    rcases List.mem_append.1 hheld with hmem | hmem
    · have := hbefore checkpoint hmem
      simp [hmarked] at this
    · rcases List.mem_cons.1 hmem with rfl | hafter
      · exact lt_irrefl _ hlt
      · exact lt_asymm hlt ((List.pairwise_cons.1 (List.pairwise_append.1 hordered).2.1).1 _ hafter)
  next hnone =>
    have := List.find?_eq_none.1 hnone checkpoint hheld
    exact this hmarked

/-- **The marked rows are taken in another way.** -/
theorem Current.change (h : Current chunkOf step mark start dirtyFrom held rows)
    (hrows : Ascending chunkOf rows)
    (hstep : ∀ row, mark row = false → ∀ s, step s row = step' s row) :
    Current chunkOf step' mark start (dirtyFromMarked dirtyFrom held) held rows where
  ordered := h.ordered
  states := by
    have hsub : ∀ checkpoints : List (Checkpoint β),
        checkpoints.filter (clean (dirtyFromMarked dirtyFrom held) ·.chunk) =
          (checkpoints.filter (clean dirtyFrom ·.chunk)).filter
            (clean (dirtyFromMarked dirtyFrom held) ·.chunk) := fun checkpoints => by
      rw [List.filter_filter]
      refine List.filter_congr fun checkpoint _ => ?_
      rw [Bool.eq_iff_iff, Bool.and_eq_true]
      exact ⟨fun hclean => ⟨hclean, clean_of_dirtyFromMarked hclean⟩, And.left⟩
    rw [hsub held, h.states, ← hsub, filter_scan hrows, filter_scan hrows]
    refine scan_congr fun row hrow => hstep row ?_
    obtain ⟨hmem, hclean⟩ := List.mem_filter.1 hrow
    exact h.not_marked hmem hclean

/-- **The fold that goes on from what is held comes to the fold over all rows.** -/
theorem Current.refresh {first : ℕ} (h : Current chunkOf step mark start (some first) held rows)
    (hrows : Ascending chunkOf rows) :
    held.filter (·.chunk < first) ++
        scan chunkOf step mark (resumed start (held.filter (·.chunk < first)))
          (rows.filter (first ≤ chunkOf ·)) =
      scan chunkOf step mark start rows := by
  have hkept : held.filter (·.chunk < first) =
      scan chunkOf step mark start (rows.filter (chunkOf · < first)) := by
    rw [← filter_scan_lt hrows]
    exact h.states
  obtain ⟨below, above, rfl, hbelow, habove⟩ := Bisect.exists_append hrows first
  rw [hkept, Bisect.filter_lt_append hbelow habove, Bisect.filter_ge_append hbelow habove,
    resumed_scan, scan_append fun a ha b hb => (hbelow a ha).trans_le (habove b hb)]

end Current

end Checkpoints
