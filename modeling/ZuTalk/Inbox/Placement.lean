/-
# Where settlement puts a fact

`crates/vt-store/src/notebook_capture_store.rs`: `near_miss_translation_inbox_row_from_conn`,
`adjacent_translation_inbox_rows_from_conn`, `translation_inbox_placement_matches_from_conn` and
`translation_inbox_placement_order_from_conn`.

Two cascades of rules decide on their own what settlement offers and what the binder accepts:
the rows a fact overlaps, then a row it all but touches, then its nearest rows.  Which rows are
near misses (`IsNearMiss`) and which are nearest (`NearestRows`) is said without the queries;
the queries return these (`nearMissRow_spec`, `nearestRows_of_adjacentRows`).
`placementOrder_accepted`: what is offered is accepted, and nothing is offered only where
neither a near miss nor a nearest row could take the fact.
-/

import ZuTalk.Library.Checks
import ZuTalk.Inbox.Candidates
import Mathlib.Data.List.Destutter

namespace ZuTalk
namespace Inbox

open Capture Checks Table
open ZuTalk.Stream (u64Max satAdd satAdd_of_le)

/-- `ADJACENT_PLACEMENT_ROWS`. -/
def adjacentPlacementRows : ℕ := 4

/-- `NEAR_MISS_PLACEMENT_MS`. -/
def nearMissPlacementMs : ℕ := 400

/-- The `gap` closures: how far a row is from a fact. -/
def gap (startMs endMs : ℕ) (row : RealtimeUtterance) : ℕ :=
  match row.sourceStartMs, row.sourceEndMs with
  | some rowStart, some rowEnd => if rowEnd ≤ startMs then startMs - rowEnd else rowStart - endMs
  | _, _ => u64Max

/-- `Iterator::min_by`: of equal elements the first. -/
def minBy {α : Type*} (cmp : α → α → Ordering) : List α → Option α
  | [] => none
  | a :: rest => some (rest.foldl (fun x y => if cmp x y = .gt then y else x) a)

/-- Whether a row is in another language than the fact's target. -/
def otherLanguage (item : RealtimeTranslationInboxItem) (row : RealtimeUtterance) : Bool :=
  canonicalLanguage row.sourceLanguage ≠ canonicalLanguage item.key.targetLanguage

/-- The rows with both times within a window, in the order of their sequences. -/
def rowsWithin (store : NotebookCaptureStore) (sessionId : String) (fromMs throughMs : ℕ) :
    List RealtimeUtterance :=
  store.utterances sessionId fun u => match u.sourceStartMs, u.sourceEndMs with
    | some rowStart, some rowEnd => rowEnd ≥ fromMs && rowStart ≤ throughMs
    | _, _ => false

/-- The rows the query of `near_miss_translation_inbox_row_from_conn` returns. -/
def nearMissRows (store : NotebookCaptureStore) (item : RealtimeTranslationInboxItem)
    (startMs endMs : ℕ) : Except NotebookCaptureStoreError (List RealtimeUtterance) := do
  let fromMs ← u64ToI64 (startMs - nearMissPlacementMs) "near-miss start"
  let throughMs ← u64ToI64 (satAdd endMs nearMissPlacementMs) "near-miss end"
  return rowsWithin store item.key.sessionId fromMs throughMs

/-- `near_miss_translation_inbox_row_from_conn`. -/
def nearMissRow (store : NotebookCaptureStore) (item : RealtimeTranslationInboxItem) :
    Except NotebookCaptureStoreError (Option RealtimeUtterance) :=
  match item.sourceStartMs, item.sourceEndMs with
  | some startMs, some endMs => do
      let rows ← nearMissRows store item startMs endMs
      return minBy
        (fun left right => (compare (gap startMs endMs left) (gap startMs endMs right)).then
          (compare right.sequence left.sequence))
        ((rows.filter fun row => row.hasSourceFact && otherLanguage item row).filter fun row =>
          gap startMs endMs row ≤ nearMissPlacementMs)
  | _, _ => .ok none

/-- The rows before a fact, latest first. -/
def rowsBefore (store : NotebookCaptureStore) (sessionId : String) (startMs : ℕ)
    (settledOnly : Bool) : List RealtimeUtterance :=
  (select
    (fun u => u.sessionId = sessionId &&
      (match u.sourceStartMs, u.sourceEndMs with
        | some _, some rowEnd => decide (rowEnd ≤ startMs)
        | _, _ => false) && (!settledOnly || u.completion = .complete))
    (fun a b => (compare (b.sourceEndMs.getD 0) (a.sourceEndMs.getD 0)).then
      (compare b.sequence a.sequence) ≠ .gt)
    store.realtimeUtterances).take adjacentPlacementRows

/-- The rows after a fact, earliest first. -/
def rowsAfter (store : NotebookCaptureStore) (sessionId : String) (endMs : ℕ)
    (settledOnly : Bool) : List RealtimeUtterance :=
  (select
    (fun u => u.sessionId = sessionId &&
      (match u.sourceStartMs, u.sourceEndMs with
        | some rowStart, some _ => decide (rowStart ≥ endMs)
        | _, _ => false) && (!settledOnly || u.completion = .complete))
    (fun a b => (compare (a.sourceStartMs.getD 0) (b.sourceStartMs.getD 0)).then
      (compare a.sequence b.sequence) ≠ .gt)
    store.realtimeUtterances).take adjacentPlacementRows

/-- `adjacent_translation_inbox_rows_from_conn`. -/
def adjacentRows (store : NotebookCaptureStore) (item : RealtimeTranslationInboxItem)
    (sessionActive : Bool) : Except NotebookCaptureStoreError (List RealtimeUtterance) :=
  match item.sourceStartMs, item.sourceEndMs with
  | some startMs, some endMs => do
      let fromMs ← u64ToI64 startMs "translation source start"
      let before := rowsBefore store item.key.sessionId fromMs sessionActive
      let throughMs ← u64ToI64 endMs "translation source end"
      let after := rowsAfter store item.key.sessionId throughMs sessionActive
      let nearest : List (ℕ × ℕ × RealtimeUtterance) :=
        ((before.map fun row => (gap startMs endMs row, 0, row)) ++
          after.map fun row => (gap startMs endMs row, 1, row)).mergeSort
          fun left right =>
            ((compare left.1 right.1).then <| (compare left.2.1 right.2.1).then <|
              compare left.2.2.sequence right.2.2.sequence) ≠ Ordering.gt
      return ((nearest.destutter fun left right => left.2.2.id ≠ right.2.2.id).take
        adjacentPlacementRows).map fun entry => entry.2.2
  | _, _ => .ok []

section Placement

variable (toLowercase : Char → List Char)

/-- `translation_inbox_has_overlapping_row_from_conn`. -/
def hasOverlappingRow (store : NotebookCaptureStore) (item : RealtimeTranslationInboxItem) :
    Except NotebookCaptureStoreError Bool := do
  let rows ← candidates store item
  return rows.any fun row =>
    row.sourceStartMs.isSome && row.sourceEndMs.isSome && matchesUtterance toLowercase item row

/-- `translation_inbox_placement_matches_from_conn`. -/
def placementMatches (store : NotebookCaptureStore) (item : RealtimeTranslationInboxItem)
    (utterance : RealtimeUtterance) : Except NotebookCaptureStoreError Bool := do
  if matchesUtterance toLowercase item utterance then return true
  if item.sourceStartMs.isNone || item.sourceEndMs.isNone then return false
  if ← hasOverlappingRow toLowercase store item then return false
  let sessionActive ← store.captureSessionIsActive item.key.sessionId
  if sessionActive && item.completion ≠ some .complete then return false
  let nearMiss ← nearMissRow store item
  if nearMiss.any fun row => row.id = utterance.id then return true
  let adjacent ← adjacentRows store item sessionActive
  return adjacent.any fun row => row.id = utterance.id

/-- `translation_inbox_placement_order_from_conn`. -/
def placementOrder (store : NotebookCaptureStore) (item : RealtimeTranslationInboxItem) :
    Except NotebookCaptureStoreError (List ℕ) := do
  let rows ← candidates store item
  let ranked := (rankedCandidates toLowercase item rows).map Prod.snd
  if !ranked.isEmpty || item.sourceStartMs.isNone || item.sourceEndMs.isNone then return ranked
  if let some row ← nearMissRow store item then return [row.sequence]
  let sessionActive ← store.captureSessionIsActive item.key.sessionId
  if sessionActive then
    let nearest := (← adjacentRows store item false).find? (otherLanguage item)
    if nearest.any fun row => row.completion ≠ .complete then return []
  let adjacent ← adjacentRows store item sessionActive
  return (adjacent.filter (otherLanguage item)).map RealtimeUtterance.sequence

end Placement

/-! ### What the queries return -/

variable {toLowercase : Char → List Char} {store : NotebookCaptureStore}
  {item : RealtimeTranslationInboxItem} {row : RealtimeUtterance}

/-- A row of the session of a fact. -/
def IsRow (store : NotebookCaptureStore) (item : RealtimeTranslationInboxItem)
    (row : RealtimeUtterance) : Prop :=
  row ∈ store.realtimeUtterances ∧ row.sessionId = item.key.sessionId

theorem isRow_of_mem_utterances {selects : RealtimeUtterance → Bool}
    (h : row ∈ store.utterances item.key.sessionId selects) : IsRow store item row := by
  obtain ⟨hmem, hselects⟩ := mem_select.1 h
  exact ⟨hmem, of_decide_eq_true (Bool.and_eq_true_iff.1 hselects).1⟩

/-- What `min_by` returns is an element. -/
theorem mem_of_minBy {α : Type*} {cmp : α → α → Ordering} {l : List α} {a : α}
    (h : minBy cmp l = some a) : a ∈ l := by
  rcases l with _ | ⟨first, rest⟩
  · exact absurd h (by simp [minBy])
  · obtain rfl := Option.some.inj h
    have hfold : ∀ (rest : List α) (x : α),
        rest.foldl (fun x y => if cmp x y = .gt then y else x) x ∈ x :: rest := by
      intro rest
      induction rest with
      | nil => exact fun x => List.mem_cons_self
      | cons y rest ih =>
          intro x
          rw [List.foldl_cons]
          split
          · exact List.mem_cons_of_mem _ (ih y)
          · rcases List.mem_cons.1 (ih x) with heq | hmem
            · rw [heq]
              exact List.mem_cons_self
            · exact List.mem_cons_of_mem _ (List.mem_cons_of_mem _ hmem)
    exact hfold rest first

theorem minBy_eq_none {α : Type*} {cmp : α → α → Ordering} {l : List α} :
    minBy cmp l = none ↔ l = [] := by
  rcases l with _ | ⟨first, rest⟩ <;> simp [minBy]

/-- A row that a fact all but touches: no more than 400 ms before it or after it. -/
def IsNearMiss (startMs endMs : ℕ) (row : RealtimeUtterance) : Prop :=
  ∃ rowStart rowEnd, row.sourceStartMs = some rowStart ∧ row.sourceEndMs = some rowEnd ∧
    startMs ≤ rowEnd + nearMissPlacementMs ∧ rowStart ≤ endMs + nearMissPlacementMs

theorem gap_le_of_isNearMiss {startMs endMs : ℕ} (h : IsNearMiss startMs endMs row) :
    gap startMs endMs row ≤ nearMissPlacementMs := by
  obtain ⟨rowStart, rowEnd, hstart, hend, hbefore, hafter⟩ := h
  unfold gap
  rw [hstart, hend]
  dsimp only
  split
  · omega
  · omega

/-- **A near miss is a row of the session**, and where there is none, no row with a source fact
in another language is one. -/
theorem nearMissRow_spec {startMs endMs : ℕ} (hstart : item.sourceStartMs = some startMs)
    (hend : item.sourceEndMs = some endMs) {nearMiss : Option RealtimeUtterance}
    (h : nearMissRow store item = .ok nearMiss) :
    (∀ row ∈ nearMiss, IsRow store item row) ∧
      (nearMiss = none → ∀ row, IsRow store item row → row.hasSourceFact →
        otherLanguage item row → ¬IsNearMiss startMs endMs row) := by
  unfold nearMissRow at h
  rw [hstart, hend] at h
  obtain ⟨rows, hrows, hmin⟩ := bind_eq_ok.1 h
  have hmin := Except.ok.inj hmin
  obtain ⟨fromMs, hfrom, hrest⟩ := bind_eq_ok.1 hrows
  obtain ⟨throughMs, hthrough, hpure⟩ := bind_eq_ok.1 hrest
  obtain rfl := Except.ok.inj hpure
  refine ⟨fun row hrow => ?_, fun hnone row hrow hfact hother hnear => ?_⟩
  · rw [hrow] at hmin
    exact isRow_of_mem_utterances
      (List.mem_filter.1 (List.mem_filter.1 (mem_of_minBy hmin)).1).1
  · rw [hnone] at hmin
    have hgap := gap_le_of_isNearMiss hnear
    obtain ⟨rowStart, rowEnd, hrowStart, hrowEnd, hbefore, hafter⟩ := hnear
    have hwindow : row ∈ rowsWithin store item.key.sessionId fromMs throughMs := by
      have hfits := item.end_fits endMs hend
      refine mem_select.2 ⟨hrow.1, ?_⟩
      dsimp only
      rw [hrow.2, hrowStart, hrowEnd, u64ToI64_eq_ok hfrom, u64ToI64_eq_ok hthrough]
      have hmax : i64Max + nearMissPlacementMs ≤ u64Max := by
        norm_num [i64Max, u64Max, nearMissPlacementMs]
      rw [satAdd_of_le (by omega)]
      simp only [decide_true, Bool.true_and, Bool.and_eq_true, decide_eq_true_eq]
      omega
    have hmem : row ∈ ((rowsWithin store item.key.sessionId fromMs throughMs).filter fun row =>
        row.hasSourceFact && otherLanguage item row).filter
          fun row => decide (gap startMs endMs row ≤ nearMissPlacementMs) := by
      refine List.mem_filter.2 ⟨List.mem_filter.2 ⟨hwindow, ?_⟩, decide_eq_true hgap⟩
      rw [hfact, hother]
      rfl
    rw [minBy_eq_none.1 hmin] at hmem
    exact absurd hmem List.not_mem_nil

/-! ### Which rows are nearest -/

/-- The side of a fact a row is on. -/
inductive Side
  | before | after
  deriving DecidableEq, Repr

/-- Whether a row of the session is on a side of a fact, and settled if it has to be. -/
def Side.holds (side : Side) (item : RealtimeTranslationInboxItem) (settledOnly : Bool)
    (startMs endMs : ℕ) (row : RealtimeUtterance) : Bool :=
  row.sessionId = item.key.sessionId &&
    (match side, row.sourceStartMs, row.sourceEndMs with
      | .before, some _, some rowEnd => decide (rowEnd ≤ startMs)
      | .after, some rowStart, some _ => decide (rowStart ≥ endMs)
      | _, _, _ => false) && (!settledOnly || row.completion = .complete)

/-- Of two rows on one side the nearer: before a fact that which ends later, after it that
which starts sooner; of two at one moment, that with the later or the sooner sequence. -/
def Side.nearer : Side → RealtimeUtterance → RealtimeUtterance → Bool
  | .before, a, b => b.sourceEndMs.getD 0 < a.sourceEndMs.getD 0 ||
      (a.sourceEndMs.getD 0 = b.sourceEndMs.getD 0 && b.sequence < a.sequence)
  | .after, a, b => a.sourceStartMs.getD 0 < b.sourceStartMs.getD 0 ||
      (a.sourceStartMs.getD 0 = b.sourceStartMs.getD 0 && a.sequence < b.sequence)

/-- A neighbour of a fact: a row on one side of it than which fewer than four are nearer. -/
def IsNeighbour (store : NotebookCaptureStore) (item : RealtimeTranslationInboxItem)
    (settledOnly : Bool) (startMs endMs : ℕ) (neighbour : Side × RealtimeUtterance) : Prop :=
  neighbour.2 ∈ store.realtimeUtterances ∧
    neighbour.1.holds item settledOnly startMs endMs neighbour.2 = true ∧
    store.realtimeUtterances.countP (fun other =>
      neighbour.1.holds item settledOnly startMs endMs other &&
        neighbour.1.nearer other neighbour.2) < adjacentPlacementRows

/-- The order of neighbours: by distance, then those before the fact, then by sequence. -/
def Ahead (startMs endMs : ℕ) (m n : Side × RealtimeUtterance) : Prop :=
  gap startMs endMs m.2 < gap startMs endMs n.2 ∨
    gap startMs endMs m.2 = gap startMs endMs n.2 ∧
      ((m.1 = .before ∧ n.1 = .after) ∨ m.1 = n.1 ∧ m.2.sequence < n.2.sequence)

/-- The nearest rows of a fact, nearest first: its neighbours in their order, one that follows
itself left out, and of these the first four. -/
def NearestRows (store : NotebookCaptureStore) (item : RealtimeTranslationInboxItem)
    (settledOnly : Bool) (startMs endMs : ℕ) (rows : List RealtimeUtterance) : Prop :=
  ∃ neighbours : List (Side × RealtimeUtterance),
    (∀ neighbour, neighbour ∈ neighbours ↔
      IsNeighbour store item settledOnly startMs endMs neighbour) ∧
    neighbours.Pairwise (Ahead startMs endMs) ∧
    rows = ((neighbours.destutter fun m n => m.2.id ≠ n.2.id).take adjacentPlacementRows).map
      Prod.snd

theorem nodup_realtimeUtterances (store : NotebookCaptureStore) :
    store.realtimeUtterances.Nodup := List.Nodup.of_map _ store.ids

/-- A key in order, and what decides where it is the same. -/
theorem then_ne_gt {a b : ℕ} {rest : Ordering} :
    (compare a b).then rest ≠ .gt ↔ a < b ∨ a = b ∧ rest ≠ .gt := by
  rcases lt_trichotomy a b with h | rfl | h
  · rw [compare_lt_iff_lt.2 h]
    simp [h]
  · rw [compare_eq_iff_eq.2 rfl]
    simp
  · rw [compare_gt_iff_gt.2 h]
    simp [h.not_gt, h.ne']

theorem Side.holds_session {side : Side} {settledOnly : Bool} {startMs endMs : ℕ}
    (h : side.holds item settledOnly startMs endMs row = true) :
    row.sessionId = item.key.sessionId := by
  unfold Side.holds at h
  rw [Bool.and_eq_true_iff, Bool.and_eq_true_iff] at h
  exact of_decide_eq_true h.1.1

/-- Rows of one session are told apart by their sequences. -/
theorem sequence_ne {a b : RealtimeUtterance} (ha : IsRow store item a) (hb : IsRow store item b)
    (hne : a ≠ b) : a.sequence ≠ b.sequence := fun heq =>
  hne (eq_of_key_eq store.sequences ha.1 hb.1 (by rw [ha.2, hb.2, heq]))

/-- The first rows of a side, the nearer before the others, are the neighbours on it. -/
theorem mem_take_neighbours {side : Side} {selects : RealtimeUtterance → Bool}
    {before : RealtimeUtterance → RealtimeUtterance → Bool} {settledOnly : Bool}
    {startMs endMs : ℕ}
    (hselects : ∀ u, selects u = side.holds item settledOnly startMs endMs u)
    (hbefore : ∀ a b, before a b = !side.nearer b a) :
    row ∈ (select selects before store.realtimeUtterances).take adjacentPlacementRows ↔
      IsNeighbour store item settledOnly startMs endMs (side, row) := by
  obtain rfl := funext hselects
  obtain rfl := funext₂ hbefore
  refine mem_take_select (fun a b => by simp) (fun a b c => ?_) (fun a b => ?_)
    ((nodup_realtimeUtterances store).filter _) fun a ha b hb hsa hsb hne h => ?_
  · cases side <;> simp only [Side.nearer, Bool.not_eq_true', Bool.or_eq_false_iff,
      Bool.and_eq_false_iff, decide_eq_false_iff_not] <;> omega
  · cases side <;> simp only [Side.nearer, Bool.or_eq_true, Bool.not_eq_true',
      Bool.or_eq_false_iff, Bool.and_eq_false_iff, decide_eq_false_iff_not] <;> omega
  · have hseq := sequence_ne ⟨ha, Side.holds_session hsa⟩ ⟨hb, Side.holds_session hsb⟩ hne
    revert h
    cases side <;> simp only [Side.nearer, Bool.not_eq_true', Bool.or_eq_false_iff,
      Bool.and_eq_false_iff, decide_eq_false_iff_not, Bool.or_eq_true, Bool.and_eq_true,
      decide_eq_true_eq] <;> omega

/-- **The rows before a fact** are its neighbours there. -/
theorem mem_rowsBefore {settledOnly : Bool} {startMs endMs : ℕ} :
    row ∈ rowsBefore store item.key.sessionId startMs settledOnly ↔
      IsNeighbour store item settledOnly startMs endMs (.before, row) := by
  refine mem_take_neighbours (fun u => ?_) fun a b => ?_
  · unfold Side.holds
    rcases u.sourceStartMs with _ | _ <;> rcases u.sourceEndMs with _ | _ <;> rfl
  · rw [Bool.eq_iff_iff, decide_eq_true_eq, then_ne_gt, compare_le_iff_le]
    simp only [Side.nearer, Bool.not_eq_true', Bool.or_eq_false_iff, Bool.and_eq_false_iff,
      decide_eq_false_iff_not]
    omega

/-- **The rows after a fact** are its neighbours there. -/
theorem mem_rowsAfter {settledOnly : Bool} {startMs endMs : ℕ} :
    row ∈ rowsAfter store item.key.sessionId endMs settledOnly ↔
      IsNeighbour store item settledOnly startMs endMs (.after, row) := by
  refine mem_take_neighbours (fun u => ?_) fun a b => ?_
  · unfold Side.holds
    rcases u.sourceStartMs with _ | _ <;> rcases u.sourceEndMs with _ | _ <;> rfl
  · rw [Bool.eq_iff_iff, decide_eq_true_eq, then_ne_gt, compare_le_iff_le]
    simp only [Side.nearer, Bool.not_eq_true', Bool.or_eq_false_iff, Bool.and_eq_false_iff,
      decide_eq_false_iff_not]
    omega

/-- **The nearest rows a query returns are the nearest.** -/
theorem nearestRows_of_adjacentRows {settledOnly : Bool} {startMs endMs : ℕ}
    (hstart : item.sourceStartMs = some startMs) (hend : item.sourceEndMs = some endMs)
    {rows : List RealtimeUtterance} (h : adjacentRows store item settledOnly = .ok rows) :
    NearestRows store item settledOnly startMs endMs rows := by
  unfold adjacentRows at h
  rw [hstart, hend] at h
  obtain ⟨fromMs, hfrom, hrest⟩ := bind_eq_ok.1 h
  obtain ⟨throughMs, hthrough, hpure⟩ := bind_eq_ok.1 hrest
  rw [u64ToI64_eq_ok hfrom, u64ToI64_eq_ok hthrough] at hpure
  -- the entries of the source, and the neighbours they stand for
  set before := rowsBefore store item.key.sessionId startMs settledOnly with hbefore
  set after := rowsAfter store item.key.sessionId endMs settledOnly with hafter
  let side : ℕ × ℕ × RealtimeUtterance → Side × RealtimeUtterance := fun entry =>
    (if entry.2.1 = 0 then .before else .after, entry.2.2)
  let entries : List (ℕ × ℕ × RealtimeUtterance) :=
    (before.map fun row => (gap startMs endMs row, 0, row)) ++
      after.map fun row => (gap startMs endMs row, 1, row)
  have hshape : ∀ entry ∈ entries, entry.1 = gap startMs endMs entry.2.2 ∧
      (entry.2.1 = 0 ∧ entry.2.2 ∈ before ∨ entry.2.1 = 1 ∧ entry.2.2 ∈ after) := by
    intro entry hentry
    rcases List.mem_append.1 hentry with hentry | hentry
    · obtain ⟨u, hu, rfl⟩ := List.mem_map.1 hentry
      exact ⟨rfl, .inl ⟨rfl, hu⟩⟩
    · obtain ⟨u, hu, rfl⟩ := List.mem_map.1 hentry
      exact ⟨rfl, .inr ⟨rfl, hu⟩⟩
  have hneighbour : ∀ entry ∈ entries,
      IsNeighbour store item settledOnly startMs endMs (side entry) := by
    intro entry hentry
    rcases (hshape entry hentry).2 with ⟨hside, hmem⟩ | ⟨hside, hmem⟩
    · simpa only [side, hside, if_true] using mem_rowsBefore.1 hmem
    · simpa only [side, hside, one_ne_zero, if_false] using mem_rowsAfter.1 hmem
  have hnodup : entries.Nodup := by
    have hselected : ∀ {selects : RealtimeUtterance → Bool} {cmp},
        ((select selects cmp store.realtimeUtterances).take adjacentPlacementRows).Nodup :=
      fun {_ _} => ((List.mergeSort_perm _ _).nodup_iff.2
        ((nodup_realtimeUtterances store).filter _)).sublist (List.take_sublist _ _)
    refine List.nodup_append.2 ⟨hselected.map fun a b hab => (Prod.mk.inj (Prod.mk.inj hab).2).2,
      hselected.map fun a b hab => (Prod.mk.inj (Prod.mk.inj hab).2).2, fun a ha b hb hab => ?_⟩
    obtain ⟨u, -, rfl⟩ := List.mem_map.1 ha
    obtain ⟨v, -, rfl⟩ := List.mem_map.1 hb
    cases (Prod.mk.inj (Prod.mk.inj hab).2).1
  -- sorting the entries puts the neighbours in their order
  obtain ⟨sorted, hsorted, hperm, hle⟩ : ∃ sorted : List (ℕ × ℕ × RealtimeUtterance),
      ((sorted.destutter fun left right => left.2.2.id ≠ right.2.2.id).take
        adjacentPlacementRows).map (fun entry => entry.2.2) = rows ∧
      sorted.Perm entries ∧ sorted.Pairwise fun left right => left.1 < right.1 ∨
        left.1 = right.1 ∧ (left.2.1 < right.2.1 ∨ left.2.1 = right.2.1 ∧
          left.2.2.sequence ≤ right.2.2.sequence) := by
    refine ⟨_, Except.ok.inj hpure, List.mergeSort_perm _ _, ?_⟩
    refine (List.pairwise_mergeSort (fun a b c => ?_) (fun a b => ?_) _).imp fun h => ?_
    · simp only [decide_eq_true_eq, then_ne_gt, compare_le_iff_le]
      omega
    · simp only [Bool.or_eq_true, decide_eq_true_eq, then_ne_gt, compare_le_iff_le]
      omega
    · simpa only [decide_eq_true_eq, then_ne_gt, compare_le_iff_le] using h
  refine ⟨sorted.map side, fun neighbour => ⟨fun hmem => ?_, fun hmem => ?_⟩, ?_, ?_⟩
  · obtain ⟨entry, hentry, rfl⟩ := List.mem_map.1 hmem
    exact hneighbour entry (hperm.mem_iff.1 hentry)
  · obtain ⟨onSide, row⟩ := neighbour
    cases onSide with
    | before =>
        exact List.mem_map.2 ⟨(gap startMs endMs row, 0, row), hperm.mem_iff.2
          (List.mem_append_left _ (List.mem_map_of_mem (mem_rowsBefore.2 hmem))), rfl⟩
    | after =>
        exact List.mem_map.2 ⟨(gap startMs endMs row, 1, row), hperm.mem_iff.2
          (List.mem_append_right _ (List.mem_map_of_mem (mem_rowsAfter.2 hmem))), rfl⟩
  · refine List.pairwise_map.2 ((hle.and (hperm.nodup_iff.2 hnodup)).imp_of_mem
      fun {a b} ha hb hab => ?_)
    have ha := hperm.mem_iff.1 ha
    have hb := hperm.mem_iff.1 hb
    obtain ⟨hga, hsa⟩ := hshape a ha
    obtain ⟨hgb, hsb⟩ := hshape b hb
    have hrow : ∀ entry ∈ entries, IsRow store item entry.2.2 := fun entry hentry =>
      ⟨(hneighbour entry hentry).1, Side.holds_session (hneighbour entry hentry).2.1⟩
    have hsequence : a.1 = b.1 → a.2.1 = b.2.1 → a.2.2.sequence ≠ b.2.2.sequence :=
      fun hgap hside => sequence_ne (hrow a ha) (hrow b hb) fun heq =>
        hab.2 (Prod.ext hgap (Prod.ext hside heq))
    unfold Ahead
    simp only [side]
    rw [← hga, ← hgb]
    rcases hsa with ⟨hsa, -⟩ | ⟨hsa, -⟩ <;> rcases hsb with ⟨hsb, -⟩ | ⟨hsb, -⟩ <;>
      rw [hsa, hsb] at hab hsequence ⊢ <;> simp <;> omega
  · have hdestutter : (sorted.map side).destutter (fun m n => m.2.id ≠ n.2.id) =
        (sorted.destutter fun left right => left.2.2.id ≠ right.2.2.id).map side :=
      (List.map_destutter (f := side) fun _ _ _ _ => Iff.rfl).symm
    rw [← hsorted, hdestutter, ← List.map_take, List.map_map]
    rfl

/-- The nearest rows are rows of the session. -/
theorem isRow_of_mem_nearestRows {settledOnly : Bool} {startMs endMs : ℕ}
    {rows : List RealtimeUtterance} (h : NearestRows store item settledOnly startMs endMs rows)
    (hrow : row ∈ rows) : IsRow store item row := by
  obtain ⟨neighbours, hmem, -, rfl⟩ := h
  obtain ⟨neighbour, hneighbour, rfl⟩ := List.mem_map.1 hrow
  obtain ⟨hrow, hholds, -⟩ := (hmem neighbour).1
    ((List.destutter_sublist _ _).mem (List.mem_of_mem_take hneighbour))
  exact ⟨hrow, Side.holds_session hholds⟩

/-- A row of the session is found by its sequence. -/
theorem getMachineUtterance_of_isRow (h : IsRow store item row) :
    store.getMachineUtteranceBySessionSequence item.key.sessionId row.sequence =
      .ok (some (store.hydrate row)) := by
  obtain ⟨hmem, hsession⟩ := h
  unfold NotebookCaptureStore.getMachineUtteranceBySessionSequence
  rw [u64ToI64_of_le (store.fits row hmem)]
  have hfind : (store.realtimeUtterances.find? fun u =>
      u.sessionId = item.key.sessionId && u.sequence = row.sequence) = some row := by
    obtain ⟨found, hfound⟩ := Option.isSome_iff_exists.1 (List.find?_isSome.2
      ⟨row, hmem, by simp [hsession]⟩ : (store.realtimeUtterances.find? fun u =>
        u.sessionId = item.key.sessionId && u.sequence = row.sequence).isSome)
    have hkey := List.find?_some hfound
    rw [Bool.and_eq_true_iff, decide_eq_true_eq, decide_eq_true_eq] at hkey
    have hsame : found = row := eq_of_key_eq store.sequences (List.mem_of_find?_eq_some hfound) hmem
      (by rw [hkey.1, hkey.2, hsession])
    rw [hfound, hsame]
  change Except.ok (Option.map _ _) = _
  rw [hfind]
  rfl

/-! ### What is offered is accepted -/

/-- A row with a score is accepted. -/
theorem placementMatches_of_matches (h : matchesUtterance toLowercase item row) :
    placementMatches toLowercase store item row = .ok true := by
  unfold placementMatches
  rw [if_pos h]
  rfl

/-- A settled fact that no row overlaps is accepted by its near miss and by its nearest rows. -/
theorem placementMatches_of_nearest {nearMiss : Option RealtimeUtterance} {active : Bool}
    (htimed : item.sourceStartMs.isSome ∧ item.sourceEndMs.isSome)
    (hnone : hasOverlappingRow toLowercase store item = .ok false)
    (hactive : store.captureSessionIsActive item.key.sessionId = .ok active)
    (hsettled : active = true → item.completion = some .complete)
    (hnearMiss : nearMissRow store item = .ok nearMiss)
    (h : (∃ r, nearMiss = some r ∧ r.id = row.id) ∨
      ∃ rows, adjacentRows store item active = .ok rows ∧ ∃ r ∈ rows, r.id = row.id) :
    placementMatches toLowercase store item row = .ok true := by
  by_cases hmatches : matchesUtterance toLowercase item row = true
  · exact placementMatches_of_matches hmatches
  · obtain ⟨hstart, hend⟩ := htimed
    unfold placementMatches
    rw [if_neg hmatches, if_neg (by simp [← Option.not_isSome, hstart, hend]), hnone, hactive]
    have hopen : ¬(active && decide (item.completion ≠ some .complete)) = true := by
      rcases active with _ | _
      · simp
      · simp [hsettled rfl]
    simp only [bind, Except.bind, pure, Except.pure, Bool.false_eq_true, if_false, hopen, hnearMiss]
    rcases h with ⟨r, rfl, hid⟩ | ⟨rows, hrows, r, hr, hid⟩
    · rw [if_pos (by simp [hid])]
    · split
      · rfl
      · rw [hrows]
        dsimp only
        rw [List.any_eq_true.2 ⟨r, hr, decide_eq_true hid⟩]

/-- Where no candidate has a score, no row overlaps the fact. -/
theorem hasOverlappingRow_of_ranked_nil {rows : List RealtimeUtterance}
    (hrows : candidates store item = .ok rows)
    (h : rankedCandidates toLowercase item rows = []) :
    hasOverlappingRow toLowercase store item = .ok false := by
  unfold hasOverlappingRow
  rw [hrows]
  have hnone : (rows.any fun row => row.sourceStartMs.isSome && row.sourceEndMs.isSome &&
      matchesUtterance toLowercase item row) = false := by
    unfold rankedCandidates at h
    rw [List.map_eq_nil_iff] at h
    have hnil := (List.mergeSort_perm _ _).symm.trans (List.Perm.of_eq h)
    rw [List.perm_nil, List.filterMap_eq_nil_iff] at hnil
    refine List.any_eq_false.2 fun row hrow => ?_
    have hscore := hnil row hrow
    rw [Option.map_eq_none_iff] at hscore
    unfold matchesUtterance
    rw [hscore]
    simp
  change Except.ok _ = _
  rw [hnone]

/-- A ranked sequence is that of a candidate with a score. -/
theorem exists_of_mem_ranked {rows : List RealtimeUtterance} {sequence : ℕ}
    (h : sequence ∈ (rankedCandidates toLowercase item rows).map Prod.snd) :
    ∃ row ∈ rows, matchesUtterance toLowercase item row ∧ row.sequence = sequence := by
  obtain ⟨ranked, hranked, rfl⟩ := List.mem_map.1 h
  unfold rankedCandidates at hranked
  obtain ⟨⟨score, row⟩, hentry, rfl⟩ := List.mem_map.1 hranked
  obtain ⟨u, hu, hscore⟩ := List.mem_filterMap.1 (List.mem_mergeSort.1 hentry)
  obtain ⟨score', hscore', hpair⟩ := Option.map_eq_some_iff.1 hscore
  obtain ⟨rfl, rfl⟩ := Prod.mk.inj hpair
  refine ⟨u, hu, ?_, rfl⟩
  unfold matchesUtterance
  rw [hscore']
  rfl

/-- What `placementOrder` goes through: rows with a score, a near miss, or the nearest rows. -/
theorem placementOrder_cases {order : List ℕ}
    (h : placementOrder toLowercase store item = .ok order) :
    ∃ selects, candidates store item = .ok (store.utterances item.key.sessionId selects) ∧
      ((order = (rankedCandidates toLowercase item
          (store.utterances item.key.sessionId selects)).map Prod.snd ∧
          (order = [] → item.sourceStartMs.isNone ∨ item.sourceEndMs.isNone)) ∨
        (rankedCandidates toLowercase item (store.utterances item.key.sessionId selects) = [] ∧
          item.sourceStartMs.isSome ∧ item.sourceEndMs.isSome ∧
          ∃ nearMiss, nearMissRow store item = .ok nearMiss ∧
            ((∃ row, nearMiss = some row ∧ order = [row.sequence]) ∨
              nearMiss = none ∧ ∃ active,
                store.captureSessionIsActive item.key.sessionId = .ok active ∧
                ((active = true ∧ order = []) ∨
                  ∃ rows, adjacentRows store item active = .ok rows ∧
                    order = (rows.filter (otherLanguage item)).map
                      RealtimeUtterance.sequence)))) := by
  obtain ⟨selects, hcandidates, -⟩ := candidates_eq store item
  refine ⟨selects, hcandidates, ?_⟩
  unfold placementOrder at h
  rw [hcandidates] at h
  simp only [bind, Except.bind, pure, Except.pure] at h
  split at h
  · rename_i hdecided
    obtain rfl := Except.ok.inj h
    refine .inl ⟨rfl, fun hnil => ?_⟩
    rw [hnil] at hdecided
    simpa using hdecided
  · rename_i hopen
    rw [Bool.or_eq_true, Bool.or_eq_true, not_or, not_or] at hopen
    refine .inr ⟨by simpa using hopen.1.1, ?_, ?_, ?_⟩
    · exact Option.ne_none_iff_isSome.1 fun hnone => hopen.1.2 (by rw [hnone]; rfl)
    · exact Option.ne_none_iff_isSome.1 fun hnone => hopen.2 (by rw [hnone]; rfl)
    · rcases hnear : nearMissRow store item with error | nearMiss
      · rw [hnear] at h
        exact absurd h (by simp)
      · rw [hnear] at h
        refine ⟨nearMiss, rfl, ?_⟩
        rcases nearMiss with _ | row
        · refine .inr ⟨rfl, ?_⟩
          rcases hactive : store.captureSessionIsActive item.key.sessionId with error | active
          · rw [hactive] at h
            exact absurd h (by simp)
          · rw [hactive] at h
            refine ⟨active, rfl, ?_⟩
            rcases active with _ | _
            · rcases hadjacent : adjacentRows store item false with error | rows
              · simp [hadjacent] at h
              · simp only [hadjacent, Bool.false_eq_true, if_false] at h
                exact .inr ⟨rows, rfl, (Except.ok.inj h).symm⟩
            · rcases hfalse : adjacentRows store item false with error | all
              · simp [hfalse] at h
              · simp only [hfalse, if_true] at h
                split at h
                · exact .inl ⟨rfl, (Except.ok.inj h).symm⟩
                · rcases hadjacent : adjacentRows store item true with error | rows
                  · simp [hadjacent] at h
                  · simp only [hadjacent] at h
                    exact .inr ⟨rows, rfl, (Except.ok.inj h).symm⟩
        · exact .inl ⟨row, rfl, (Except.ok.inj h).symm⟩

/-- **Settlement only offers rows the binder accepts.**  For a fact that is complete, or whose
session is over, every sequence offered is that of a row the binder accepts in the same state;
and where a timed fact of a session that is over is offered nothing, no row in another language
with a source fact is among its near misses or its nearest rows. -/
theorem placementOrder_accepted (toLowercase : Char → List Char) (store : NotebookCaptureStore)
    (item : RealtimeTranslationInboxItem)
    (hsettled : item.completion = some .complete ∨
      store.captureSessionIsActive item.key.sessionId = .ok false) :
    ∀ order, placementOrder toLowercase store item = .ok order →
      (∀ sequence ∈ order, ∃ row,
        store.getMachineUtteranceBySessionSequence item.key.sessionId sequence = .ok (some row) ∧
        placementMatches toLowercase store item row = .ok true) ∧
      (order = [] → ∀ startMs endMs, item.sourceStartMs = some startMs →
        item.sourceEndMs = some endMs →
        store.captureSessionIsActive item.key.sessionId = .ok false →
        ∃ nearest, NearestRows store item false startMs endMs nearest ∧
          ∀ row ∈ store.realtimeUtterances, row.sessionId = item.key.sessionId →
            row.hasSourceFact → otherLanguage item row →
            ¬IsNearMiss startMs endMs row ∧ row ∉ nearest) := by
  intro order horder
  obtain ⟨selects, hcandidates, hcases⟩ := placementOrder_cases horder
  rcases hcases with ⟨rfl, hnil⟩ | ⟨hranked, hstart, hend, nearMiss, hnearMiss, hoffered⟩
  · -- rows the fact overlaps, or whose words it has
    refine ⟨fun sequence hsequence => ?_, fun hempty startMs endMs hstart hend => ?_⟩
    · obtain ⟨row, hrow, hmatches, rfl⟩ := exists_of_mem_ranked hsequence
      exact ⟨_, getMachineUtterance_of_isRow (isRow_of_mem_utterances hrow),
        placementMatches_of_matches (hmatches.trans rfl)⟩
    · have huntimed := hnil hempty
      rw [hstart, hend] at huntimed
      exact absurd huntimed (by simp)
  · have hnone := hasOverlappingRow_of_ranked_nil hcandidates hranked
    obtain ⟨startMs, hstartMs⟩ := Option.isSome_iff_exists.1 hstart
    obtain ⟨endMs, hendMs⟩ := Option.isSome_iff_exists.1 hend
    obtain ⟨hnearRow, hnearNone⟩ := nearMissRow_spec hstartMs hendMs hnearMiss
    have hcomplete : ∀ active, store.captureSessionIsActive item.key.sessionId = .ok active →
        active = true → item.completion = some .complete := by
      intro active hactive htrue
      rcases hsettled with hcomplete | hover
      · exact hcomplete
      · rw [hactive, htrue] at hover
        exact absurd (Except.ok.inj hover) (by simp)
    rcases hoffered with ⟨row, rfl, rfl⟩ | ⟨rfl, active, hactive, hrows⟩
    · -- the row it all but touches
      have hrow := hnearRow row rfl
      obtain ⟨active, hactive⟩ : ∃ active,
          store.captureSessionIsActive item.key.sessionId = .ok active := by
        have hrun := store.runs row hrow.1
        rw [hrow.2] at hrun
        obtain ⟨state, hstate⟩ := Option.isSome_iff_exists.1 hrun
        refine ⟨state.isActive, ?_⟩
        unfold NotebookCaptureStore.captureSessionIsActive
        rw [hstate]
      refine ⟨fun sequence hsequence => ?_, fun hempty => absurd hempty (List.cons_ne_nil _ _)⟩
      rw [List.mem_singleton.1 hsequence]
      exact ⟨_, getMachineUtterance_of_isRow hrow,
        placementMatches_of_nearest ⟨hstart, hend⟩ hnone hactive (hcomplete active hactive)
          hnearMiss (.inl ⟨row, rfl, rfl⟩)⟩
    · -- its nearest rows
      refine ⟨fun sequence hsequence => ?_, fun hempty start stop hstart' hend' hover => ?_⟩
      · rcases hrows with ⟨-, rfl⟩ | ⟨rows, hadjacent, rfl⟩
        · exact absurd hsequence List.not_mem_nil
        · obtain ⟨row, hmem, rfl⟩ := List.mem_map.1 hsequence
          have hmem := (List.mem_filter.1 hmem).1
          have hrow := isRow_of_mem_nearestRows
            (nearestRows_of_adjacentRows hstartMs hendMs hadjacent) hmem
          exact ⟨_, getMachineUtterance_of_isRow hrow,
            placementMatches_of_nearest ⟨hstart, hend⟩ hnone hactive (hcomplete active hactive)
              hnearMiss (.inr ⟨rows, hadjacent, row, hmem, rfl⟩)⟩
      · rw [hstartMs] at hstart'
        rw [hendMs] at hend'
        obtain rfl := Option.some.inj hstart'
        obtain rfl := Option.some.inj hend'
        rw [hover] at hactive
        obtain rfl := Except.ok.inj hactive
        rcases hrows with ⟨hfalse, -⟩ | ⟨rows, hadjacent, hordered⟩
        · exact absurd hfalse (by simp)
        · refine ⟨rows, nearestRows_of_adjacentRows hstartMs hendMs hadjacent,
            fun row hmem hsession hfact hother => ⟨?_, fun hrow => ?_⟩⟩
          · exact hnearNone rfl row ⟨hmem, hsession⟩ hfact hother
          · rw [hempty] at hordered
            have hnil := List.map_eq_nil_iff.1 hordered.symm
            have hmem := List.mem_filter.2 ⟨hrow, hother⟩
            rw [hnil] at hmem
            exact absurd hmem List.not_mem_nil

/-- A session with one row, ended at one second. -/
def oneRow : NotebookCaptureStore where
  realtimeUtterances := [⟨"u", "s", 5, "zh", "好", some 0, some 1000, .complete, []⟩]
  realtimeUtteranceVariants := []
  notebookCaptureRuns := [("s", .recording)]
  ids := List.nodup_singleton _
  sequences := List.nodup_singleton _
  fits := by simp [i64Max]
  start_fits := by simp
  end_fits := by simp [i64Max]
  runs := by simp

/-- A one-word reply heard a moment later. -/
def reply : RealtimeTranslationInboxItem where
  key := ⟨"s", 1, 0, 3, "en"⟩
  sourceLanguage := "zh"
  sourceText := "对"
  sourceStartMs := some 1200
  sourceEndMs := some 1300
  completion := some .complete
  start_fits := by simp [i64Max]
  end_fits := by simp [i64Max]

/-- The reply is offered the row it all but touches, and the binder takes it there. -/
theorem placementOrder_accepted_reply :
    ∃ row, oneRow.getMachineUtteranceBySessionSequence "s" 5 = .ok (some row) ∧
      placementMatches (fun c => [c]) oneRow reply row = .ok true :=
  (placementOrder_accepted (fun c => [c]) oneRow reply (.inl rfl) [5] (by decide +kernel)).1 5
    (List.mem_singleton_self 5)

end Inbox
end ZuTalk
