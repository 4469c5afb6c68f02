/-
# The stored rows of the client

`macos/ZuTalk/ZuTalk/Capture/ActiveBilingualTranscriptStore.swift`: the rows of the transcript
stand in the order of their sequences, and are entered one by one (`upsertOrderedUtterance`) or
taken over from a snapshot (`rebuiltUtteranceSnapshot`).

What entering a row does to the rows around it is said once (`upsert_cases`); that the order is
kept, which rows stay and what becomes of the highest revision are read off it.
-/

import Mathlib.Data.Finset.Dedup
import Mathlib.Data.Finset.Lattice.Basic
import Mathlib.Order.MinMax
import ZuTalk.Capture.AudienceFold
import ZuTalk.Library.Bisect

namespace ZuTalk
namespace Capture

/-- The rows stand in the order of their sequences. -/
def RowsOrdered (rows : List NotebookCaptureUtteranceDTO) : Prop :=
  rows.Pairwise fun a b => a.sequence < b.sequence

/-- `UpsertOutcome`. -/
inductive UpsertOutcome
  | unchanged
  | inserted
  | replaced (previous : NotebookCaptureUtteranceDTO)
  deriving DecidableEq, Repr

/-- `upsertOrderedUtterance`. -/
def upsertOrderedUtterance (update : NotebookCaptureUtteranceDTO)
    (rows : List NotebookCaptureUtteranceDTO) :
    List NotebookCaptureUtteranceDTO × UpsertOutcome :=
  if rows.getLast?.all (·.sequence < update.sequence) then (rows ++ [update], .inserted)
  else
    let lowerBound := Bisect.lowerBound (·.sequence) rows update.sequence
    match rows[lowerBound]? with
    | some row =>
        if row.sequence = update.sequence then
          if row.revision ≤ update.revision ∧ row ≠ update then
            (rows.set lowerBound update, .replaced row)
          else (rows, .unchanged)
        else (rows.insertIdx lowerBound update, .inserted)
    | none => (rows.insertIdx lowerBound update, .inserted)

/-- `prepareUtteranceUpdates`, of updates whose edited lanes are kept. -/
def prepareUtteranceUpdates (sessionId : Option String)
    (updates : List NotebookCaptureUtteranceDTO) : List NotebookCaptureUtteranceDTO :=
  updates.filter fun update => some update.sessionId = sessionId

/-- The rows after updates, one after the other. -/
def upsertAll (rows updates : List NotebookCaptureUtteranceDTO) :
    List NotebookCaptureUtteranceDTO :=
  updates.foldl (fun rows update => (upsertOrderedUtterance update rows).1) rows

/-- The update that is kept of a sequence: the later of two of the same revision. -/
def latestBySequence (latest : List (ℕ × NotebookCaptureUtteranceDTO))
    (update : NotebookCaptureUtteranceDTO) : List (ℕ × NotebookCaptureUtteranceDTO) :=
  if (latest.lookup update.sequence).any (update.revision < ·.revision) then latest
  else Slots.put update.sequence update latest

/-- `rebuiltUtteranceSnapshot`. -/
def rebuiltUtteranceSnapshot (sessionId : Option String)
    (updates : List NotebookCaptureUtteranceDTO) : List NotebookCaptureUtteranceDTO :=
  let latest := (prepareUtteranceUpdates sessionId updates).foldl latestBySequence []
  sortedBy (fun left right => left.sequence < right.sequence) (latest.map Prod.snd)

/-- The rows that a gap repair installs: a snapshot, and the deltas that came after it. -/
def repairedUtterances (sessionId : Option String) (snapshot : List NotebookCaptureUtteranceDTO)
    (replayDeltas : List (List ℕ × List NotebookCaptureUtteranceDTO)) :
    List NotebookCaptureUtteranceDTO :=
  replayDeltas.foldl
    (fun rows delta =>
      upsertAll (rows.filter fun row => !delta.1.contains row.sequence)
        (prepareUtteranceUpdates sessionId delta.2))
    (rebuiltUtteranceSnapshot sessionId snapshot)

/-- The rows that a withdrawal leaves. -/
def withoutWithdrawn (sessionId : Option String) (rows : List NotebookCaptureUtteranceDTO)
    (sequences : List ℕ) : List NotebookCaptureUtteranceDTO :=
  rows.filter fun row => !(some row.sessionId = sessionId && sequences.contains row.sequence)

/-- What entering a row does: it goes between those before it and those after it, in place of the
row of its sequence, or nothing changes. -/
inductive Upserts (update : NotebookCaptureUtteranceDTO) :
    List NotebookCaptureUtteranceDTO → List NotebookCaptureUtteranceDTO × UpsertOutcome → Prop
  | unchanged (rows : List NotebookCaptureUtteranceDTO) : Upserts update rows (rows, .unchanged)
  | inserted (below above : List NotebookCaptureUtteranceDTO)
      (hbelow : ∀ row ∈ below, row.sequence < update.sequence)
      (habove : ∀ row ∈ above, update.sequence < row.sequence) :
      Upserts update (below ++ above) (below ++ update :: above, .inserted)
  | replaced (below : List NotebookCaptureUtteranceDTO) (previous : NotebookCaptureUtteranceDTO)
      (above : List NotebookCaptureUtteranceDTO)
      (hbelow : ∀ row ∈ below, row.sequence < update.sequence)
      (hsame : previous.sequence = update.sequence)
      (habove : ∀ row ∈ above, update.sequence < row.sequence) :
      Upserts update (below ++ previous :: above) (below ++ update :: above, .replaced previous)

section Order

variable {rows : List NotebookCaptureUtteranceDTO} {update : NotebookCaptureUtteranceDTO}

theorem RowsOrdered.le (h : RowsOrdered rows) :
    rows.Pairwise fun a b => a.sequence ≤ b.sequence := h.imp Nat.le_of_lt

/-- Rows that end below a sequence are all below it. -/
theorem RowsOrdered.lt_of_last (h : RowsOrdered rows) {sequence : ℕ}
    (hlast : rows.getLast?.all (·.sequence < sequence) = true) :
    ∀ row ∈ rows, row.sequence < sequence := by
  intro row hrow
  rcases List.eq_nil_or_concat rows with rfl | ⟨before, last, rfl⟩
  · cases hrow
  · rw [List.concat_eq_append] at hrow hlast h
    have hlt : last.sequence < sequence := by simpa using hlast
    rcases List.mem_append.1 hrow with hbefore | hrow
    · exact ((List.pairwise_append.1 h).2.2 row hbefore last List.mem_cons_self).trans hlt
    · rwa [List.mem_singleton.1 hrow]

/-- **What entering a row does.** -/
theorem upsert_cases (h : RowsOrdered rows) :
    Upserts update rows (upsertOrderedUtterance update rows) := by
  unfold upsertOrderedUtterance
  split
  next hlast =>
    have happended : Upserts update (rows ++ []) (rows ++ [update], .inserted) :=
      .inserted rows [] (h.lt_of_last hlast) (by simp)
    rwa [List.append_nil] at happended
  next hlast =>
    obtain ⟨below, above, rfl, hbelow, habove⟩ := Bisect.exists_append h.le update.sequence
    rw [Bisect.lowerBound_append hbelow habove]
    cases above with
    | nil =>
        -- all rows are below, so the update would have been appended
        refine absurd ?_ hlast
        rw [List.append_nil]
        cases hgetLast : below.getLast? with
        | none => rfl
        | some last => simpa using hbelow last (List.mem_of_getLast? hgetLast)
    | cons row above =>
        have hlater := (List.pairwise_cons.1 (List.pairwise_append.1 h).2.1).1
        have hget : (below ++ row :: above)[below.length]? = some row := by simp
        dsimp only
        rw [hget]
        dsimp only
        split
        next hsame =>
          split
          · rw [List.set_append_right _ _ (Nat.le_refl _), Nat.sub_self, List.set_cons_zero]
            exact .replaced below row above hbelow hsame fun other hother =>
              hsame ▸ hlater other hother
          · exact .unchanged _
        next hdiffers =>
          have hlt : update.sequence < row.sequence :=
            lt_of_le_of_ne (habove row List.mem_cons_self) (Ne.symm hdiffers)
          rw [Bisect.insertIdx_append]
          exact .inserted below (row :: above) hbelow
            (List.forall_mem_cons.2 ⟨hlt, fun other hother => hlt.trans (hlater other hother)⟩)

theorem ordered_between {below above : List NotebookCaptureUtteranceDTO}
    (hbelow : ∀ row ∈ below, row.sequence < update.sequence)
    (habove : ∀ row ∈ above, update.sequence < row.sequence) (h : RowsOrdered below)
    (h' : RowsOrdered above) : RowsOrdered (below ++ update :: above) :=
  List.pairwise_append.2 ⟨h, List.pairwise_cons.2 ⟨habove, h'⟩, fun a ha b hb => by
    rcases List.mem_cons.1 hb with rfl | hb
    · exact hbelow a ha
    · exact (hbelow a ha).trans (habove b hb)⟩

/-- Entering a row keeps the order. -/
theorem RowsOrdered.upsert (h : RowsOrdered rows) (update : NotebookCaptureUtteranceDTO) :
    RowsOrdered (upsertOrderedUtterance update rows).1 := by
  have hcases : Upserts update rows (upsertOrderedUtterance update rows) := upsert_cases h
  generalize upsertOrderedUtterance update rows = result at hcases
  cases hcases with
  | unchanged => exact h
  | inserted below above hbelow habove =>
      obtain ⟨hfirst, hsecond, -⟩ := List.pairwise_append.1 h
      exact ordered_between hbelow habove hfirst hsecond
  | replaced below previous above hbelow hsame habove =>
      obtain ⟨hfirst, hsecond, -⟩ := List.pairwise_append.1 h
      exact ordered_between hbelow habove hfirst (List.pairwise_cons.1 hsecond).2

/-- The rows of other sequences stay as they are. -/
theorem filter_upsert (h : RowsOrdered rows) (update : NotebookCaptureUtteranceDTO) :
    (upsertOrderedUtterance update rows).1.filter (·.sequence ≠ update.sequence) =
      rows.filter (·.sequence ≠ update.sequence) := by
  have hcases : Upserts update rows (upsertOrderedUtterance update rows) := upsert_cases h
  generalize upsertOrderedUtterance update rows = result at hcases
  cases hcases with
  | unchanged => rfl
  | inserted below above hbelow habove => simp [List.filter_append]
  | replaced below previous above hbelow hsame habove => simp [List.filter_append, hsame]

theorem RowsOrdered.upsertAll (h : RowsOrdered rows) (updates : List NotebookCaptureUtteranceDTO) :
    RowsOrdered (upsertAll rows updates) := by
  unfold Capture.upsertAll
  induction updates generalizing rows with
  | nil => exact h
  | cons update updates ih => exact ih (h.upsert update)

theorem RowsOrdered.filter (h : RowsOrdered rows) (p : NotebookCaptureUtteranceDTO → Bool) :
    RowsOrdered (rows.filter p) := h.sublist List.filter_sublist

/-- The updates that are kept are one of each sequence. -/
theorem nodup_latestBySequence (updates : List NotebookCaptureUtteranceDTO) :
    ((updates.foldl latestBySequence []).map Prod.fst).Nodup ∧
      ∀ entry ∈ updates.foldl latestBySequence [], entry.1 = entry.2.sequence := by
  induction updates using List.reverseRecOn with
  | nil => simp
  | append_singleton updates update ih =>
      obtain ⟨hnodup, hkeys⟩ := ih
      rw [List.foldl_append, List.foldl_cons, List.foldl_nil, latestBySequence]
      split
      · exact ⟨hnodup, hkeys⟩
      · refine ⟨Slots.nodup_put hnodup, fun entry hentry => ?_⟩
        rcases Slots.mem_put hentry with rfl | hmem
        · rfl
        · exact hkeys entry hmem

/-- A snapshot stands in the order of its sequences. -/
theorem ordered_rebuiltUtteranceSnapshot (sessionId : Option String)
    (updates : List NotebookCaptureUtteranceDTO) :
    RowsOrdered (rebuiltUtteranceSnapshot sessionId updates) := by
  obtain ⟨hnodup, hkeys⟩ :=
    nodup_latestBySequence (prepareUtteranceUpdates sessionId updates)
  unfold rebuiltUtteranceSnapshot
  dsimp only
  generalize (prepareUtteranceUpdates sessionId updates).foldl latestBySequence [] = latest at *
  have hsequences : (latest.map Prod.snd).Pairwise fun a b => a.sequence ≠ b.sequence := by
    rw [List.pairwise_map]
    refine (List.pairwise_map.1 hnodup).imp_of_mem fun {a b} ha hb hne => ?_
    rwa [← hkeys a ha, ← hkeys b hb]
  have hsorted : (sortedBy (fun left right => left.sequence < right.sequence)
      (latest.map Prod.snd)).Pairwise fun a b => a.sequence ≤ b.sequence := by
    refine (List.pairwise_mergeSort (fun a b c hab hbc => ?_) (fun a b => ?_) _).imp fun hab => ?_
    · simp only [Bool.not_eq_true', decide_eq_false_iff_not, not_lt] at hab hbc ⊢
      exact hab.trans hbc
    · simp only [Bool.or_eq_true, Bool.not_eq_true', decide_eq_false_iff_not, not_lt]
      exact le_total _ _
    · simpa using hab
  have hdistinct : (sortedBy (fun left right => left.sequence < right.sequence)
      (latest.map Prod.snd)).Pairwise fun a b => a.sequence ≠ b.sequence :=
    hsequences.perm (List.mergeSort_perm _ _).symm fun hne => Ne.symm hne
  exact hsorted.imp₂ (fun _ _ hle hne => lt_of_le_of_ne hle hne) hdistinct

/-- What a repair installs stands in the order of its sequences. -/
theorem ordered_repairedUtterances (sessionId : Option String)
    (snapshot : List NotebookCaptureUtteranceDTO)
    (replayDeltas : List (List ℕ × List NotebookCaptureUtteranceDTO)) :
    RowsOrdered (repairedUtterances sessionId snapshot replayDeltas) := by
  unfold repairedUtterances
  induction replayDeltas using List.reverseRecOn with
  | nil => exact ordered_rebuiltUtteranceSnapshot sessionId snapshot
  | append_singleton deltas delta ih =>
      rw [List.foldl_append]
      exact (ih.filter _).upsertAll _

end Order

/-! ### What is derived from the rows -/

/-- The maximum of `highestFinalLaneProjectionRevision`. -/
def highestOf (rows : List NotebookCaptureUtteranceDTO) : ℕ :=
  rows.foldl (fun highest row => max highest row.highestFinalLaneProjectionRevision) 0

/-- The speakers of the rows. -/
def speakersOf (rows : List NotebookCaptureUtteranceDTO) : Finset String :=
  (rows.filterMap (·.sessionSpeakerId)).toFinset

/-- The row of a sequence, found by halving. -/
def rowAt (rows : List NotebookCaptureUtteranceDTO) (sequence : ℕ) :
    Option NotebookCaptureUtteranceDTO :=
  rows[Bisect.lowerBound (·.sequence) rows sequence]?.filter (·.sequence = sequence)

section Derived

variable {rows : List NotebookCaptureUtteranceDTO} {update : NotebookCaptureUtteranceDTO}

theorem highestOf_le_iff {bound : ℕ} :
    highestOf rows ≤ bound ↔ ∀ row ∈ rows, row.highestFinalLaneProjectionRevision ≤ bound := by
  have hfrom : ∀ start, rows.foldl
      (fun highest row => max highest row.highestFinalLaneProjectionRevision) start ≤ bound ↔
        start ≤ bound ∧ ∀ row ∈ rows, row.highestFinalLaneProjectionRevision ≤ bound := by
    induction rows with
    | nil => simp
    | cons row rest ih =>
        intro start
        rw [List.foldl_cons, ih, max_le_iff, List.forall_mem_cons, and_assoc]
  simpa [highestOf] using hfrom 0

/-- The maximum over rows and one more. -/
theorem highestOf_between (below above : List NotebookCaptureUtteranceDTO) :
    highestOf (below ++ update :: above) =
      max (highestOf (below ++ above)) update.highestFinalLaneProjectionRevision := by
  refine eq_of_forall_ge_iff fun bound => ?_
  rw [max_le_iff, highestOf_le_iff, highestOf_le_iff]
  simp only [List.mem_append, List.mem_cons]
  grind

theorem mem_speakersOf {speaker : String} :
    speaker ∈ speakersOf rows ↔ ∃ row ∈ rows, row.sessionSpeakerId = some speaker := by
  simp [speakersOf]

/-- **The row of a sequence is found** among rows in their order. -/
theorem rowAt_eq_some (h : RowsOrdered rows) {sequence : ℕ} {row : NotebookCaptureUtteranceDTO} :
    rowAt rows sequence = some row ↔ row ∈ rows ∧ row.sequence = sequence := by
  obtain ⟨below, above, rfl, hbelow, habove⟩ := Bisect.exists_append h.le sequence
  unfold rowAt
  rw [Bisect.lowerBound_append hbelow habove, List.getElem?_append_right (Nat.le_refl _),
    Nat.sub_self]
  have hnot : row ∈ below → row.sequence ≠ sequence := fun hmem => (hbelow row hmem).ne
  cases above with
  | nil =>
      simp only [List.getElem?_nil, Option.filter_none, List.append_nil, reduceCtorEq, false_iff]
      exact fun hmem => hnot hmem.1 hmem.2
  | cons first above =>
      have hlater := (List.pairwise_cons.1 (List.pairwise_append.1 h).2.1).1
      rw [List.getElem?_cons_zero, Option.filter_eq_some_iff, decide_eq_true_eq]
      constructor
      · rintro ⟨hfirst, hsequence⟩
        obtain rfl := Option.some.inj hfirst
        exact ⟨by simp, hsequence⟩
      · rintro ⟨hmem, hsequence⟩
        rcases List.mem_append.1 hmem with hbefore | hmem
        · exact absurd hsequence (hnot hbefore)
        · rcases List.mem_cons.1 hmem with rfl | hafter
          · exact ⟨rfl, hsequence⟩
          · have := hlater row hafter
            have := habove first List.mem_cons_self
            omega

end Derived

end Capture
end ZuTalk
