/-
# What the client derives from its rows

`macos/ZuTalk/ZuTalk/Capture/ActiveBilingualTranscriptStore.swift`: beside the rows the store keeps
their speakers, their highest final revision and the states of the audience fold, and brings them
up to date from the sequences that changed (`rowsDidChange`).

The revision and the candidates are right in every run (`Sound`).  The speakers are not: a change
only adds speakers, so the speaker of a row that was withdrawn or replaced stays until all rows are
assigned at once.  They are right in a run exactly if no merge and no withdrawal takes a speaker's
last row (`derived_iff_keepsSpeakers`).
-/

import Mathlib.Data.Finset.Sort
import Mathlib.Data.String.Basic
import ZuTalk.Capture.StoredRows
import ZuTalk.Library.Checkpoints
import ZuTalk.Library.Machine

namespace ZuTalk
namespace Capture

open Checkpoints Machine

/-- `TranscriptChunk.size`. -/
def TranscriptChunk.size : ℕ := 16

/-- `TranscriptChunk.chunkID`. -/
def TranscriptChunk.chunkID (sequence : ℕ) : ℕ := sequence / TranscriptChunk.size

/-- `AudienceFoldKey`. -/
structure AudienceFoldKey where
  sessionId : String
  languages : List String
  maximumRows : ℕ
  deriving DecidableEq

/-- `ActiveBilingualTranscriptStore`, its rows and what it derives from them. -/
structure TranscriptStore where
  sessionId : Option String
  rows : List NotebookCaptureUtteranceDTO
  utteranceSpeakerIds : List String
  cachedHighestFinalProjectionRevision : ℕ
  hasCachedHighestFinalProjectionRevision : Bool
  audienceFoldKey : Option AudienceFoldKey
  audienceFoldFallback : Option String
  audienceFoldCheckpoints : List (Checkpoint AudienceCandidateFold)
  /-- The first chunk whose fold state is stale. -/
  audienceFoldDirtyFrom : Option ℕ

/-- The chunk of a row. -/
def rowChunk (row : NotebookCaptureUtteranceDTO) : ℕ := TranscriptChunk.chunkID row.sequence

/-- What has become of the rows in a merge. -/
structure Merged where
  rows : List NotebookCaptureUtteranceDTO
  changed : List ℕ
  /-- The highest revision, unless it has to be looked for again. -/
  highest : Option ℕ

/-- One update of a merge. -/
def mergeUpdate (merged : Merged) (update : NotebookCaptureUtteranceDTO) : Merged :=
  let next := update.highestFinalLaneProjectionRevision
  match upsertOrderedUtterance update merged.rows with
  | (rows, .unchanged) => { merged with rows }
  | (rows, .inserted) =>
      { rows
        changed := merged.changed ++ [update.sequence]
        highest := merged.highest.map (max · next) }
  | (rows, .replaced previous) =>
      { rows
        changed := merged.changed ++ [update.sequence]
        highest := merged.highest.bind fun current =>
          if previous.highestFinalLaneProjectionRevision = current ∧ next < current then none
          else some (max current next) }

variable (lowercased : String → String)

/-- What the audience fold does with a row. -/
def foldRow (key : AudienceFoldKey) (fallbackLanguage : Option String)
    (fold : AudienceCandidateFold) (row : NotebookCaptureUtteranceDTO) : AudienceCandidateFold :=
  if row.sessionId = key.sessionId then
    fold.consume lowercased row key.languages fallbackLanguage key.maximumRows
  else fold

/-- A row of the session borrows its column. -/
def rowBorrows (key : AudienceFoldKey) (row : NotebookCaptureUtteranceDTO) : Bool :=
  row.sessionId = key.sessionId && AudienceCandidateFold.borrowsLanguage lowercased row

/-- The last rows of the session. -/
def globalTail (key : AudienceFoldKey) (rows : List NotebookCaptureUtteranceDTO) :
    List NotebookCaptureUtteranceDTO :=
  let own := rows.reverse.filter (·.sessionId = key.sessionId)
  (if key.maximumRows = 0 then own else own.take key.maximumRows).reverse

/-- The candidates that all rows, folded from the first one, come to. -/
def audienceCandidates (key : AudienceFoldKey) (fallbackLanguage : Option String)
    (rows : List NotebookCaptureUtteranceDTO) :
    List NotebookCaptureUtteranceDTO × List (String × ℕ) :=
  let fold := (rows.filter (·.sessionId = key.sessionId)).foldl
    (fun fold row => fold.consume lowercased row key.languages fallbackLanguage key.maximumRows)
    AudienceCandidateFold.empty
  fold.result (globalTail key rows) []

namespace TranscriptStore

/-- The store as it starts. -/
def start : TranscriptStore where
  sessionId := none
  rows := []
  utteranceSpeakerIds := []
  cachedHighestFinalProjectionRevision := 0
  hasCachedHighestFinalProjectionRevision := false
  audienceFoldKey := none
  audienceFoldFallback := none
  audienceFoldCheckpoints := []
  audienceFoldDirtyFrom := some 0

/-- The speakers after a change: those of the rows that it touched are added. -/
def refreshedSpeakers (store : TranscriptStore) : Option (List ℕ) → Finset String
  | some sequences =>
      sequences.foldl
        (fun ids sequence =>
          match (rowAt store.rows sequence).bind (·.sessionSpeakerId) with
          | some speaker => insert speaker ids
          | none => ids)
        store.utteranceSpeakerIds.toFinset
  | none => speakersOf store.rows

/-- `refreshUtteranceSpeakerIds`. -/
def refreshUtteranceSpeakerIds (store : TranscriptStore) (sequences : Option (List ℕ)) :
    TranscriptStore :=
  let sorted := (store.refreshedSpeakers sequences).sort
  if sorted ≠ store.utteranceSpeakerIds then { store with utteranceSpeakerIds := sorted }
  else store

/-- `rowsDidChange`. -/
def rowsDidChange (store : TranscriptStore) (sequences : Option (List ℕ)) : TranscriptStore :=
  let store := store.refreshUtteranceSpeakerIds sequences
  let firstChunk :=
    match sequences with
    | some sequences => (sequences.map TranscriptChunk.chunkID).min?
    | none => some 0
  { store with
    cachedHighestFinalProjectionRevision := 0
    hasCachedHighestFinalProjectionRevision := false
    audienceFoldDirtyFrom :=
      match firstChunk with
      | some firstChunk => some (earliest store.audienceFoldDirtyFrom firstChunk)
      | none => store.audienceFoldDirtyFrom }

/-- `utterances` is assigned. -/
def setUtterances (store : TranscriptStore) (rows : List NotebookCaptureUtteranceDTO) :
    TranscriptStore := { store with rows }.rowsDidChange none

/-- The updates of a merge, one after the other. -/
def merged (store : TranscriptStore) (updates : List NotebookCaptureUtteranceDTO) : Merged :=
  (prepareUtteranceUpdates store.sessionId updates).foldl mergeUpdate
    { rows := store.rows
      changed := []
      highest :=
        if store.hasCachedHighestFinalProjectionRevision then
          some store.cachedHighestFinalProjectionRevision
        else none }

/-- `merge`. -/
def merge (store : TranscriptStore) (updates : List NotebookCaptureUtteranceDTO) :
    TranscriptStore :=
  let merged := store.merged updates
  let store := { store with rows := merged.rows }
  if merged.changed.isEmpty then store
  else
    let store := store.rowsDidChange (some merged.changed)
    match merged.highest with
    | some highest =>
        { store with
          cachedHighestFinalProjectionRevision := highest
          hasCachedHighestFinalProjectionRevision := true }
    | none => store

/-- `removeUtterances`. -/
def removeUtterances (store : TranscriptStore) (sequences : List ℕ) : TranscriptStore :=
  if sequences.isEmpty then store
  else
    let before := store.rows.length
    let store :=
      { store with rows := withoutWithdrawn store.sessionId store.rows sequences }
    if store.rows.length = before then store else store.rowsDidChange (some sequences)

/-- `highestFinalProjectionRevision`. -/
def highestFinalProjectionRevision (store : TranscriptStore) : ℕ × TranscriptStore :=
  if store.hasCachedHighestFinalProjectionRevision then
    (store.cachedHighestFinalProjectionRevision, store)
  else
    (highestOf store.rows,
      { store with
        cachedHighestFinalProjectionRevision := highestOf store.rows
        hasCachedHighestFinalProjectionRevision := true })

/-- A fold under another key starts anew. -/
def useKey (store : TranscriptStore) (key : AudienceFoldKey) : TranscriptStore :=
  if store.audienceFoldKey ≠ some key then
    { store with
      audienceFoldKey := some key
      audienceFoldCheckpoints := []
      audienceFoldDirtyFrom := some 0 }
  else store

/-- A fold with another fallback starts anew where a row borrowed the former one. -/
def useFallback (store : TranscriptStore) (fallbackLanguage : Option String) : TranscriptStore :=
  if store.audienceFoldFallback ≠ fallbackLanguage then
    { store with
      audienceFoldFallback := fallbackLanguage
      audienceFoldDirtyFrom :=
        dirtyFromMarked store.audienceFoldDirtyFrom store.audienceFoldCheckpoints }
  else store

/-- The fold goes on from the first stale chunk. -/
def refold (store : TranscriptStore) (key : AudienceFoldKey) (fallbackLanguage : Option String) :
    TranscriptStore :=
  match store.audienceFoldDirtyFrom with
  | some dirtyFrom =>
      let kept := store.audienceFoldCheckpoints.filter (·.chunk < dirtyFrom)
      let firstSequence := dirtyFrom * TranscriptChunk.size
      let rows := store.rows.drop (Bisect.lowerBound (·.sequence) store.rows firstSequence)
      { store with
        audienceFoldCheckpoints :=
          kept ++ scan rowChunk (foldRow lowercased key fallbackLanguage)
            (rowBorrows lowercased key) (resumed AudienceCandidateFold.empty kept) rows
        audienceFoldDirtyFrom := none }
  | none => store

/-- `foldAudienceCandidates`. -/
def foldAudienceCandidates (store : TranscriptStore) (key : AudienceFoldKey)
    (fallbackLanguage : Option String) :
    (List NotebookCaptureUtteranceDTO × List (String × ℕ)) × TranscriptStore :=
  let store := ((store.useKey key).useFallback fallbackLanguage).refold lowercased key
    fallbackLanguage
  let fold := resumed AudienceCandidateFold.empty store.audienceFoldCheckpoints
  (fold.result (globalTail key store.rows) [], store)

end TranscriptStore

/-- What happens to the rows and what is read off them. -/
inductive RowsAct
  | merge (updates : List NotebookCaptureUtteranceDTO)
  | removeUtterances (sequences : List ℕ)
  | replaceUtterances (updates : List NotebookCaptureUtteranceDTO)
  | installRepair (snapshot : List NotebookCaptureUtteranceDTO)
      (replayDeltas : List (List ℕ × List NotebookCaptureUtteranceDTO))
  | clear
  | useSession (sessionId : Option String)
  | highestFinalProjectionRevision
  | foldAudienceCandidates (key : AudienceFoldKey) (fallbackLanguage : Option String)

/-- The store after an act. -/
def TranscriptStore.step (store : TranscriptStore) : RowsAct → Option TranscriptStore
  | .merge updates => some (store.merge updates)
  | .removeUtterances sequences => some (store.removeUtterances sequences)
  | .replaceUtterances updates =>
      some (store.setUtterances (rebuiltUtteranceSnapshot store.sessionId updates))
  | .installRepair snapshot replayDeltas =>
      some (store.setUtterances (repairedUtterances store.sessionId snapshot replayDeltas))
  | .clear => some (store.setUtterances [])
  | .useSession sessionId => some { store with sessionId }
  | .highestFinalProjectionRevision => some store.highestFinalProjectionRevision.2
  | .foldAudienceCandidates key fallbackLanguage =>
      some (store.foldAudienceCandidates lowercased key fallbackLanguage).2

/-! ### What the caches hold -/

section Sound

variable {lowercased} {store : TranscriptStore} {rows : List NotebookCaptureUtteranceDTO}

theorem RowsOrdered.ascending (h : RowsOrdered rows) : Ascending rowChunk rows :=
  h.imp fun hlt => Nat.div_le_div_right (Nat.le_of_lt hlt)

/-- The rows are in order, the revision is theirs if it is held, and the states of the fold are
those of the rows up to the first stale chunk. -/
structure Sound (lowercased : String → String) (store : TranscriptStore) : Prop where
  ordered : RowsOrdered store.rows
  highest : store.hasCachedHighestFinalProjectionRevision = true →
    store.cachedHighestFinalProjectionRevision = highestOf store.rows
  candidates : ∀ key, store.audienceFoldKey = some key →
    Current rowChunk (foldRow lowercased key store.audienceFoldFallback)
      (rowBorrows lowercased key) AudienceCandidateFold.empty store.audienceFoldDirtyFrom
      store.audienceFoldCheckpoints store.rows

theorem sound_start : Sound lowercased TranscriptStore.start :=
  ⟨List.Pairwise.nil, by simp [TranscriptStore.start], by simp [TranscriptStore.start]⟩

namespace TranscriptStore

theorem refreshUtteranceSpeakerIds_eq (store : TranscriptStore) (sequences : Option (List ℕ)) :
    store.refreshUtteranceSpeakerIds sequences =
      { store with utteranceSpeakerIds := (store.refreshedSpeakers sequences).sort } := by
  unfold refreshUtteranceSpeakerIds
  dsimp only
  split
  · rfl
  next hsame => rw [not_not.1 hsame]

@[simp] theorem rows_rowsDidChange (store : TranscriptStore) (sequences : Option (List ℕ)) :
    (store.rowsDidChange sequences).rows = store.rows := by
  unfold rowsDidChange
  rw [refreshUtteranceSpeakerIds_eq]

@[simp] theorem utteranceSpeakerIds_rowsDidChange (store : TranscriptStore)
    (sequences : Option (List ℕ)) :
    (store.rowsDidChange sequences).utteranceSpeakerIds =
      (store.refreshedSpeakers sequences).sort := by
  unfold rowsDidChange
  rw [refreshUtteranceSpeakerIds_eq]

end TranscriptStore

/-- Rows of chunks before all that were touched were not touched. -/
theorem filter_chunk_lt {sequences : List ℕ} {first : ℕ}
    (hfirst : (sequences.map TranscriptChunk.chunkID).min? = some first)
    (rows : List NotebookCaptureUtteranceDTO) :
    rows.filter (rowChunk · < first) =
      (rows.filter (·.sequence ∉ sequences)).filter (rowChunk · < first) := by
  rw [List.filter_filter]
  refine List.filter_congr fun row _ => ?_
  have hleast : row.sequence ∈ sequences → first ≤ rowChunk row := fun hmem =>
    (List.min?_eq_some_iff.1 hfirst).2 _ (List.mem_map_of_mem hmem)
  by_cases hlt : rowChunk row < first
  · have hnot : row.sequence ∉ sequences := fun hmem => absurd (hleast hmem) (Nat.not_le.2 hlt)
    simp [hlt, hnot]
  · simp [hlt]

/-- **A change of rows keeps the caches right**, if the rows that it does not name stay. -/
theorem Sound.rowsDidChange (h : Sound lowercased store) (hrows : RowsOrdered rows)
    {sequences : Option (List ℕ)} (hframe : ∀ touched, sequences = some touched →
      rows.filter (·.sequence ∉ touched) = store.rows.filter (·.sequence ∉ touched)) :
    Sound lowercased ({ store with rows }.rowsDidChange sequences) := by
  unfold TranscriptStore.rowsDidChange
  rw [TranscriptStore.refreshUtteranceSpeakerIds_eq]
  refine ⟨hrows, by simp, fun key hkey => ?_⟩
  have hcurrent := h.candidates key hkey
  dsimp only
  cases sequences with
  | none => exact hcurrent.rows_changed h.ordered.ascending hrows.ascending (by simp)
  | some touched =>
      have hsame := hframe touched rfl
      dsimp only
      cases hfirst : (touched.map TranscriptChunk.chunkID).min? with
      | none =>
          have hnil : touched = [] := List.map_eq_nil_iff.1 (List.min?_eq_none_iff.1 hfirst)
          subst hnil
          have heq : rows = store.rows := by simpa using hsame
          subst heq
          exact hcurrent
      | some first =>
          refine hcurrent.rows_changed h.ordered.ascending hrows.ascending ?_
          rw [filter_chunk_lt hfirst, ← hsame, ← filter_chunk_lt hfirst]

/-! ### Merges and withdrawals -/

/-- A merge of rows that is under way. -/
structure Merging (rows : List NotebookCaptureUtteranceDTO) (merged : Merged) : Prop where
  ordered : RowsOrdered merged.rows
  frame : merged.rows.filter (·.sequence ∉ merged.changed) =
    rows.filter (·.sequence ∉ merged.changed)
  highest : ∀ highest, merged.highest = some highest → highest = highestOf merged.rows

/-- Filters that also leave out one more sequence. -/
theorem filter_notMem_concat (rows : List NotebookCaptureUtteranceDTO) (changed : List ℕ)
    (sequence : ℕ) :
    rows.filter (·.sequence ∉ changed ++ [sequence]) =
      (rows.filter (·.sequence ≠ sequence)).filter (·.sequence ∉ changed) := by
  rw [List.filter_filter]
  refine List.filter_congr fun row _ => ?_
  simp [Bool.and_comm, not_or]

theorem Merging.update {merged : Merged} (h : Merging rows merged)
    (update : NotebookCaptureUtteranceDTO) : Merging rows (mergeUpdate merged update) := by
  have hordered := h.ordered.upsert update
  have hfilter := filter_upsert h.ordered update
  have hcases : Upserts update merged.rows (upsertOrderedUtterance update merged.rows) :=
    upsert_cases h.ordered
  have hframe : ∀ rows' : List NotebookCaptureUtteranceDTO,
      rows'.filter (·.sequence ≠ update.sequence) =
        merged.rows.filter (·.sequence ≠ update.sequence) →
      rows'.filter (·.sequence ∉ merged.changed ++ [update.sequence]) =
        rows.filter (·.sequence ∉ merged.changed ++ [update.sequence]) := by
    intro rows' hrows'
    rw [filter_notMem_concat, hrows', filter_notMem_concat, List.filter_comm, h.frame,
      List.filter_comm]
  unfold mergeUpdate
  dsimp only
  generalize upsertOrderedUtterance update merged.rows = result at hordered hfilter hcases
  generalize hheld : merged.rows = held at hcases hfilter hframe
  cases hcases with
  | unchanged =>
      subst hheld
      exact ⟨hordered, h.frame, h.highest⟩
  | inserted below above hbelow habove =>
      refine ⟨hordered, hframe _ hfilter, fun highest hhighest => ?_⟩
      obtain ⟨current, hcurrent, rfl⟩ := Option.map_eq_some_iff.1 hhighest
      rw [highestOf_between, h.highest current hcurrent, hheld]
  | replaced below previous above hbelow hsame habove =>
      refine ⟨hordered, hframe _ hfilter, fun highest hhighest => ?_⟩
      obtain ⟨current, hcurrent, hbound⟩ := Option.bind_eq_some_iff.1 hhighest
      have hmax := h.highest current hcurrent
      rw [hheld, highestOf_between] at hmax
      split at hbound
      · cases hbound
      · obtain rfl := Option.some.inj hbound
        rw [highestOf_between]
        -- unless the former row alone held the maximum, the other rows do
        omega

theorem Merging.all {merged : Merged} (h : Merging rows merged)
    (updates : List NotebookCaptureUtteranceDTO) :
    Merging rows (updates.foldl mergeUpdate merged) := by
  induction updates generalizing merged with
  | nil => exact h
  | cons update updates ih => exact ih (h.update update)

theorem rows_mergeUpdate (merged : Merged) (update : NotebookCaptureUtteranceDTO) :
    (mergeUpdate merged update).rows = (upsertOrderedUtterance update merged.rows).1 := by
  unfold mergeUpdate
  dsimp only
  split <;> simp_all

theorem rows_foldl_mergeUpdate (merged : Merged) (updates : List NotebookCaptureUtteranceDTO) :
    (updates.foldl mergeUpdate merged).rows = upsertAll merged.rows updates := by
  induction updates generalizing merged with
  | nil => rfl
  | cons update updates ih =>
      rw [List.foldl_cons, ih, rows_mergeUpdate]
      rfl

theorem rows_merged (updates : List NotebookCaptureUtteranceDTO) :
    (store.merged updates).rows =
      upsertAll store.rows (prepareUtteranceUpdates store.sessionId updates) :=
  rows_foldl_mergeUpdate _ _

theorem Sound.merging (h : Sound lowercased store) (updates : List NotebookCaptureUtteranceDTO) :
    Merging store.rows (store.merged updates) := by
  have hstart : Merging store.rows
      { rows := store.rows
        changed := []
        highest :=
          if store.hasCachedHighestFinalProjectionRevision then
            some store.cachedHighestFinalProjectionRevision
          else none } := by
    refine ⟨h.ordered, rfl, fun highest hhighest => ?_⟩
    dsimp only at hhighest
    split at hhighest
    next hcached =>
      obtain rfl := Option.some.inj hhighest
      exact h.highest hcached
    next => cases hhighest
  exact hstart.all _

/-- A merge that changes nothing leaves the rows as they are. -/
theorem Merging.rows_eq {merged : Merged} (h : Merging rows merged) (hnone : merged.changed = []) :
    merged.rows = rows := by
  simpa [hnone] using h.frame

theorem Sound.merge (h : Sound lowercased store) (updates : List NotebookCaptureUtteranceDTO) :
    Sound lowercased (store.merge updates) := by
  have hmerging := h.merging updates
  unfold TranscriptStore.merge
  dsimp only
  generalize store.merged updates = merged at hmerging
  split
  next hempty =>
    rw [hmerging.rows_eq (List.isEmpty_iff.1 hempty)]
    exact h
  next hchanged =>
    have hsound : Sound lowercased
        ({ store with rows := merged.rows }.rowsDidChange (some merged.changed)) :=
      h.rowsDidChange hmerging.ordered fun touched htouched =>
        Option.some.inj htouched ▸ hmerging.frame
    cases hhighest : merged.highest with
    | none => exact hsound
    | some highest =>
        refine ⟨hsound.ordered, fun _ => ?_, hsound.candidates⟩
        simpa using hmerging.highest highest hhighest

/-- A withdrawal leaves the rows of other sequences. -/
theorem filter_withoutWithdrawn (sessionId : Option String) (sequences : List ℕ) :
    (withoutWithdrawn sessionId rows sequences).filter (·.sequence ∉ sequences) =
      rows.filter (·.sequence ∉ sequences) := by
  unfold withoutWithdrawn
  rw [List.filter_filter]
  refine List.filter_congr fun row _ => ?_
  by_cases hmem : row.sequence ∈ sequences <;> simp [hmem]

theorem RowsOrdered.withoutWithdrawn (h : RowsOrdered rows) (sessionId : Option String)
    (sequences : List ℕ) : RowsOrdered (withoutWithdrawn sessionId rows sequences) := h.filter _

theorem Sound.removeUtterances (h : Sound lowercased store) (sequences : List ℕ) :
    Sound lowercased (store.removeUtterances sequences) := by
  unfold TranscriptStore.removeUtterances
  split
  · exact h
  · dsimp only
    split
    next hlength =>
      have hsame : withoutWithdrawn store.sessionId store.rows sequences = store.rows :=
        List.filter_eq_self.2 (List.length_filter_eq_length_iff.1 hlength)
      rw [hsame]
      exact h
    · refine h.rowsDidChange (h.ordered.withoutWithdrawn _ _) fun touched htouched => ?_
      obtain rfl := Option.some.inj htouched
      exact filter_withoutWithdrawn _ _

theorem Sound.setUtterances (h : Sound lowercased store) (hrows : RowsOrdered rows) :
    Sound lowercased (store.setUtterances rows) :=
  h.rowsDidChange hrows (by simp)

theorem Sound.highestFinalProjectionRevision (h : Sound lowercased store) :
    store.highestFinalProjectionRevision.1 = highestOf store.rows ∧
      Sound lowercased store.highestFinalProjectionRevision.2 := by
  unfold TranscriptStore.highestFinalProjectionRevision
  split
  next hcached => exact ⟨h.highest hcached, h⟩
  next => exact ⟨rfl, h.ordered, fun _ => rfl, h.candidates⟩

/-! ### The audience fold -/

/-- Only rows that borrow take another step with another fallback. -/
theorem foldRow_congr {key : AudienceFoldKey} {row : NotebookCaptureUtteranceDTO}
    (h : rowBorrows lowercased key row = false) (fallback fallback' : Option String)
    (fold : AudienceCandidateFold) :
    foldRow lowercased key fallback fold row = foldRow lowercased key fallback' fold row := by
  unfold foldRow
  split
  next hsession =>
    have hkeeps : AudienceCandidateFold.borrowsLanguage lowercased row = false := by
      simpa [rowBorrows, hsession] using h
    exact AudienceCandidateFold.consume_congr hkeeps ..
  · rfl

theorem Sound.useKey (h : Sound lowercased store) (key : AudienceFoldKey) :
    Sound lowercased (store.useKey key) ∧ (store.useKey key).audienceFoldKey = some key ∧
      (store.useKey key).rows = store.rows := by
  unfold TranscriptStore.useKey
  split
  · exact ⟨⟨h.ordered, h.highest, fun _ _ => current_nil⟩, rfl, rfl⟩
  next hkey => exact ⟨h, not_not.1 hkey, rfl⟩

theorem Sound.useFallback (h : Sound lowercased store) (fallback : Option String) :
    Sound lowercased (store.useFallback fallback) ∧
      (store.useFallback fallback).audienceFoldFallback = fallback ∧
      (store.useFallback fallback).audienceFoldKey = store.audienceFoldKey ∧
      (store.useFallback fallback).rows = store.rows := by
  unfold TranscriptStore.useFallback
  split
  · refine ⟨⟨h.ordered, h.highest, fun key hkey => ?_⟩, rfl, rfl, rfl⟩
    exact (h.candidates key hkey).change h.ordered.ascending
      fun row hrow fold => foldRow_congr hrow _ _ fold
  next hfallback => exact ⟨h, not_not.1 hfallback, rfl, rfl⟩

/-- The rows from the first sequence of a chunk on are those of the chunk and later ones. -/
theorem drop_lowerBound (h : RowsOrdered rows) (chunk : ℕ) :
    rows.drop (Bisect.lowerBound (·.sequence) rows (chunk * TranscriptChunk.size)) =
      rows.filter (chunk ≤ rowChunk ·) := by
  obtain ⟨below, above, rfl, hbelow, habove⟩ :=
    Bisect.exists_append h.le (chunk * TranscriptChunk.size)
  have hchunk : ∀ row : NotebookCaptureUtteranceDTO,
      chunk ≤ rowChunk row ↔ chunk * TranscriptChunk.size ≤ row.sequence := fun row =>
    Nat.le_div_iff_mul_le (by decide)
  rw [Bisect.lowerBound_append hbelow habove, List.drop_left]
  simp only [hchunk]
  rw [Bisect.filter_ge_append hbelow habove]

/-- **The states after a fold are those of all rows.** -/
theorem Sound.refold (h : Sound lowercased store) {key : AudienceFoldKey}
    (hkey : store.audienceFoldKey = some key) {fallback : Option String}
    (hfallback : store.audienceFoldFallback = fallback) :
    store.refold lowercased key fallback =
      { store with
        audienceFoldCheckpoints := scan rowChunk (foldRow lowercased key fallback)
          (rowBorrows lowercased key) AudienceCandidateFold.empty store.rows
        audienceFoldDirtyFrom := none } := by
  subst hfallback
  have hcurrent := h.candidates key hkey
  unfold TranscriptStore.refold
  cases hdirty : store.audienceFoldDirtyFrom with
  | none =>
      rw [hdirty] at hcurrent
      have hstates : store.audienceFoldCheckpoints = scan rowChunk
          (foldRow lowercased key store.audienceFoldFallback) (rowBorrows lowercased key)
          AudienceCandidateFold.empty store.rows := by simpa using hcurrent.states
      show store = _
      rw [← hstates, ← hdirty]
  | some dirtyFrom =>
      rw [hdirty] at hcurrent
      dsimp only
      rw [drop_lowerBound h.ordered, hcurrent.refresh h.ordered.ascending]

/-- **The candidates are those of all rows**, whatever key and fallback they are asked for
under. -/
theorem Sound.foldAudienceCandidates (h : Sound lowercased store) (key : AudienceFoldKey)
    (fallback : Option String) :
    (store.foldAudienceCandidates lowercased key fallback).1 =
        audienceCandidates lowercased key fallback store.rows ∧
      Sound lowercased (store.foldAudienceCandidates lowercased key fallback).2 ∧
      (store.foldAudienceCandidates lowercased key fallback).2.rows = store.rows := by
  obtain ⟨hsound, hkey, hrows⟩ := h.useKey key
  obtain ⟨hsound, hfallback, hkey', hrows'⟩ := hsound.useFallback fallback
  rw [hkey] at hkey'
  rw [hrows] at hrows'
  unfold TranscriptStore.foldAudienceCandidates
  rw [hsound.refold hkey' hfallback]
  refine ⟨?_, ⟨hsound.ordered, hsound.highest, fun other hother => ?_⟩, hrows'⟩
  · unfold audienceCandidates
    dsimp only
    rw [resumed_scan, hrows', List.foldl_filter]
    simp only [decide_eq_true_eq]
    rfl
  · obtain rfl := Option.some.inj (hother.symm.trans hkey')
    rw [hfallback]
    exact current_scan hsound.ordered.ascending

/-- **Every act keeps the caches right.** -/
theorem Sound.step (h : Sound lowercased store) {act : RowsAct} {store' : TranscriptStore}
    (hstep : store.step lowercased act = some store') : Sound lowercased store' := by
  cases act <;> obtain rfl := Option.some.inj hstep
  case merge updates => exact h.merge updates
  case removeUtterances sequences => exact h.removeUtterances sequences
  case replaceUtterances updates =>
    exact h.setUtterances (ordered_rebuiltUtteranceSnapshot store.sessionId updates)
  case installRepair snapshot replayDeltas =>
    exact h.setUtterances (ordered_repairedUtterances store.sessionId snapshot replayDeltas)
  case clear => exact h.setUtterances List.Pairwise.nil
  case useSession sessionId => exact ⟨h.ordered, h.highest, h.candidates⟩
  case highestFinalProjectionRevision => exact h.highestFinalProjectionRevision.2
  case foldAudienceCandidates key fallback => exact (h.foldAudienceCandidates key fallback).2.1

end Sound

/-! ### The speakers -/

/-- What is derived is what the rows give. -/
structure Derived (lowercased : String → String) (store : TranscriptStore) : Prop where
  speakers : store.utteranceSpeakerIds = (speakersOf store.rows).sort
  highest : store.highestFinalProjectionRevision.1 = highestOf store.rows
  candidates : ∀ key fallback, (store.foldAudienceCandidates lowercased key fallback).1 =
    audienceCandidates lowercased key fallback store.rows

/-- No speaker loses their last row. -/
def KeepsSpeakers (store : TranscriptStore) : RowsAct → Prop
  | .merge updates => speakersOf store.rows ⊆
      speakersOf (upsertAll store.rows (prepareUtteranceUpdates store.sessionId updates))
  | .removeUtterances sequences => speakersOf store.rows ⊆
      speakersOf (withoutWithdrawn store.sessionId store.rows sequences)
  | _ => True

section Speakers

variable {lowercased} {store : TranscriptStore} {rows : List NotebookCaptureUtteranceDTO}

theorem mem_refreshedSpeakers (h : RowsOrdered store.rows) {touched : List ℕ} {speaker : String} :
    speaker ∈ store.refreshedSpeakers (some touched) ↔
      speaker ∈ store.utteranceSpeakerIds ∨
        ∃ row ∈ store.rows, row.sequence ∈ touched ∧ row.sessionSpeakerId = some speaker := by
  unfold TranscriptStore.refreshedSpeakers
  rw [← List.mem_toFinset]
  dsimp only
  generalize store.utteranceSpeakerIds.toFinset = ids
  induction touched generalizing ids with
  | nil => simp
  | cons sequence touched ih =>
      rw [List.foldl_cons, ih]
      have hhere : speaker ∈ (match (rowAt store.rows sequence).bind (·.sessionSpeakerId) with
          | some speaker => insert speaker ids
          | none => ids) ↔ speaker ∈ ids ∨
            ∃ row ∈ store.rows, row.sequence = sequence ∧ row.sessionSpeakerId = some speaker := by
        have hfound : (rowAt store.rows sequence).bind (·.sessionSpeakerId) = some speaker ↔
            ∃ row ∈ store.rows, row.sequence = sequence ∧ row.sessionSpeakerId = some speaker := by
          simp only [Option.bind_eq_some_iff, rowAt_eq_some h, and_assoc]
        rw [← hfound]
        cases (rowAt store.rows sequence).bind (·.sessionSpeakerId) with
        | none => simp
        | some other => simp [or_comm, eq_comm]
      rw [hhere, or_assoc, ← exists_or]
      refine or_congr_right (exists_congr fun row => ?_)
      rw [List.mem_cons, or_and_right, and_or_left]

theorem sort_eq_sort_iff {ids ids' : Finset String} : ids.sort = ids'.sort ↔ ids = ids' := by
  refine ⟨fun h => ?_, fun h => h ▸ rfl⟩
  rw [← Finset.sort_toFinset ids (· ≤ ·), h, Finset.sort_toFinset]

/-- **Speakers that were right stay right exactly if none of them loses their last row.** -/
theorem speakers_rowsDidChange_iff (h : store.utteranceSpeakerIds = (speakersOf store.rows).sort)
    (hrows : RowsOrdered rows) {touched : List ℕ}
    (hframe : rows.filter (·.sequence ∉ touched) = store.rows.filter (·.sequence ∉ touched)) :
    ({ store with rows }.rowsDidChange (some touched)).utteranceSpeakerIds =
        (speakersOf rows).sort ↔ speakersOf store.rows ⊆ speakersOf rows := by
  have hrefreshed : { store with rows }.refreshedSpeakers (some touched) =
      speakersOf store.rows ∪ speakersOf rows := by
    ext speaker
    rw [mem_refreshedSpeakers hrows, Finset.mem_union]
    dsimp only
    rw [h, Finset.mem_sort]
    refine ⟨Or.imp_right fun ⟨row, hmem, _, hspeaker⟩ => mem_speakersOf.2 ⟨row, hmem, hspeaker⟩, ?_⟩
    rintro (hbefore | hafter)
    · exact .inl hbefore
    · obtain ⟨row, hmem, hspeaker⟩ := mem_speakersOf.1 hafter
      by_cases htouched : row.sequence ∈ touched
      · exact .inr ⟨row, hmem, htouched, hspeaker⟩
      · -- a row that was not touched was there before
        have hstays : row ∈ store.rows.filter (·.sequence ∉ touched) := by
          rw [← hframe, List.mem_filter]
          exact ⟨hmem, by simpa using htouched⟩
        exact .inl (mem_speakersOf.2 ⟨row, (List.mem_filter.1 hstays).1, hspeaker⟩)
  rw [TranscriptStore.utteranceSpeakerIds_rowsDidChange, hrefreshed, sort_eq_sort_iff,
    Finset.union_eq_right]

/-- The speakers after a merge. -/
theorem speakers_merge_iff (hsound : Sound lowercased store)
    (h : store.utteranceSpeakerIds = (speakersOf store.rows).sort)
    (updates : List NotebookCaptureUtteranceDTO) :
    (store.merge updates).utteranceSpeakerIds = (speakersOf (store.merge updates).rows).sort ↔
      KeepsSpeakers store (.merge updates) := by
  have hmerging := hsound.merging updates
  unfold KeepsSpeakers
  dsimp only
  rw [← rows_merged]
  unfold TranscriptStore.merge
  dsimp only
  generalize store.merged updates = merged at hmerging
  split
  next hempty =>
    rw [hmerging.rows_eq (List.isEmpty_iff.1 hempty)]
    exact iff_of_true h (Finset.Subset.refl _)
  next hchanged =>
    rw [← speakers_rowsDidChange_iff h hmerging.ordered hmerging.frame]
    cases merged.highest <;> simp

/-- The speakers after a withdrawal. -/
theorem speakers_removeUtterances_iff (hsound : Sound lowercased store)
    (h : store.utteranceSpeakerIds = (speakersOf store.rows).sort) (sequences : List ℕ) :
    (store.removeUtterances sequences).utteranceSpeakerIds =
        (speakersOf (store.removeUtterances sequences).rows).sort ↔
      KeepsSpeakers store (.removeUtterances sequences) := by
  unfold KeepsSpeakers TranscriptStore.removeUtterances
  split
  next hnone =>
    have hsame : withoutWithdrawn store.sessionId store.rows sequences = store.rows :=
      List.filter_eq_self.2 fun row _ => by simp [List.isEmpty_iff.1 hnone]
    dsimp only
    rw [hsame]
    exact iff_of_true h (Finset.Subset.refl _)
  next hsome =>
    dsimp only
    split
    next hlength =>
      have hsame : withoutWithdrawn store.sessionId store.rows sequences = store.rows :=
        List.filter_eq_self.2 (List.length_filter_eq_length_iff.1 hlength)
      rw [hsame]
      exact iff_of_true h (Finset.Subset.refl _)
    next hlength =>
      rw [TranscriptStore.rows_rowsDidChange]
      exact speakers_rowsDidChange_iff h (hsound.ordered.withoutWithdrawn _ _)
        (filter_withoutWithdrawn _ _)

/-- Whole assignments make the speakers anew. -/
theorem speakers_setUtterances :
    (store.setUtterances rows).utteranceSpeakerIds =
      (speakersOf (store.setUtterances rows).rows).sort := by
  unfold TranscriptStore.setUtterances
  rw [TranscriptStore.utteranceSpeakerIds_rowsDidChange, TranscriptStore.rows_rowsDidChange]
  rfl

theorem utteranceSpeakerIds_foldAudienceCandidates (key : AudienceFoldKey)
    (fallback : Option String) :
    (store.foldAudienceCandidates lowercased key fallback).2.utteranceSpeakerIds =
      store.utteranceSpeakerIds := by
  unfold TranscriptStore.foldAudienceCandidates TranscriptStore.refold TranscriptStore.useFallback
    TranscriptStore.useKey
  dsimp only
  split <;> split <;> split <;> rfl

/-- **One act keeps the speakers right exactly if no speaker loses their last row.** -/
theorem speakers_step_iff (hsound : Sound lowercased store)
    (h : store.utteranceSpeakerIds = (speakersOf store.rows).sort) {act : RowsAct}
    {store' : TranscriptStore} (hstep : store.step lowercased act = some store') :
    store'.utteranceSpeakerIds = (speakersOf store'.rows).sort ↔ KeepsSpeakers store act := by
  cases act <;> obtain rfl := Option.some.inj hstep
  case merge updates => exact speakers_merge_iff hsound h updates
  case removeUtterances sequences => exact speakers_removeUtterances_iff hsound h sequences
  case replaceUtterances updates => exact iff_of_true speakers_setUtterances trivial
  case installRepair snapshot replayDeltas => exact iff_of_true speakers_setUtterances trivial
  case clear => exact iff_of_true speakers_setUtterances trivial
  case useSession sessionId => exact iff_of_true h trivial
  case highestFinalProjectionRevision =>
    refine iff_of_true ?_ trivial
    unfold TranscriptStore.highestFinalProjectionRevision
    split <;> exact h
  case foldAudienceCandidates key fallback =>
    refine iff_of_true ?_ trivial
    rw [(hsound.foldAudienceCandidates key fallback).2.2]
    exact (utteranceSpeakerIds_foldAudienceCandidates key fallback).trans h

/-! ### Whole runs -/

/-- **What is derived in a run**: the highest revision and the candidates are right in every state
that is reached, -/
theorem sound_of_run {acts : List RowsAct}
    (h : run (TranscriptStore.step lowercased) TranscriptStore.start acts = some store) :
    Sound lowercased store :=
  run_invariant (fun _ _ _ hsound hstep => hsound.step hstep) sound_start h

/-- and with the speakers all that is derived. -/
theorem Sound.derived_iff_speakers (h : Sound lowercased store) :
    Derived lowercased store ↔ store.utteranceSpeakerIds = (speakersOf store.rows).sort :=
  ⟨Derived.speakers, fun hspeakers => ⟨hspeakers, h.highestFinalProjectionRevision.1,
    fun key fallback => (h.foldAudienceCandidates key fallback).1⟩⟩

end Speakers

/-- **All that is derived is right in every state of a run exactly if no merge and no withdrawal
takes a speaker's last row.** -/
theorem derived_iff_keepsSpeakers (lowercased : String → String) (acts : List RowsAct) :
    (∀ done, done <+: acts → ∀ store,
        run (TranscriptStore.step lowercased) TranscriptStore.start done = some store →
          Derived lowercased store) ↔
      Along (TranscriptStore.step lowercased) KeepsSpeakers TranscriptStore.start acts := by
  have hstart : Sound lowercased TranscriptStore.start ∧
      TranscriptStore.start.utteranceSpeakerIds =
        (speakersOf TranscriptStore.start.rows).sort :=
    ⟨sound_start, by simp [TranscriptStore.start, speakersOf]⟩
  have hsteps : ∀ store act store',
      (Sound lowercased store ∧ store.utteranceSpeakerIds = (speakersOf store.rows).sort) →
        store.step lowercased act = some store' →
        ((Sound lowercased store' ∧
          store'.utteranceSpeakerIds = (speakersOf store'.rows).sort) ↔
          KeepsSpeakers store act) := by
    rintro store act store' ⟨hsound, hspeakers⟩ hstep
    rw [← speakers_step_iff hsound hspeakers hstep]
    exact and_iff_right (hsound.step hstep)
  have htotal : ∀ store act, TranscriptStore.step lowercased store act = none →
      KeepsSpeakers store act := by
    intro store act hnone
    cases act <;> cases hnone
  rw [← forall_prefix_iff_along hsteps htotal hstart]
  refine forall₂_congr fun done _ => forall₂_congr fun store hrun => ?_
  have hsound := sound_of_run hrun
  rw [hsound.derived_iff_speakers]
  exact (and_iff_right hsound).symm

/-- A row of the speaker `a`. -/
def spokenRow : NotebookCaptureUtteranceDTO where
  id := "u"
  sequence := 1
  revision := 1
  sessionSpeakerId := some "a"
  sourceLanguage := "en"
  sourceText := "yes"
  sourceStartMs := none
  sourceEndMs := none
  translatedLanguage := none
  translatedText := none
  completion := "partial"
  alignment := ""
  sourceProjectionRevision := 0
  sourceEditRevision := 0
  languageVariants := []
  sessionId := "s"
  provisionalSourceLanguage := none

/-- The row of a speaker is merged and withdrawn, and the speaker stays. -/
theorem withdrawnSpeaker_stays :
    ∃ store, run (TranscriptStore.step id) TranscriptStore.start
        [.useSession (some "s"), .merge [spokenRow], .removeUtterances [1]] = some store ∧
      store.rows = [] ∧ store.utteranceSpeakerIds = ["a"] ∧ ¬ Derived id store := by
  refine ⟨_, rfl, ?_, ?_, fun h => ?_⟩
  · decide +kernel
  · decide +kernel
  · have := h.speakers
    revert this
    decide +kernel

end Capture
end ZuTalk
