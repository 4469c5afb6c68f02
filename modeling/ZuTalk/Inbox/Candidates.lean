/-
# Rows a translation fact may belong to

`crates/vt-store/src/notebook_capture_store.rs`: the rows and facts that placement reads,
`translation_inbox_alignment_score`, `ranked_translation_inbox_candidates`,
`unique_translation_inbox_candidate` and `translation_inbox_candidates_from_conn`;
`crates/vt-model/src/lib.rs`: `align_source_text`.

The candidate query leaves out the rows whose interval does not touch the fact's.  The scorer
decides overlap for itself, and gives none of those a score (`alignmentScore_of_not_window`), so
the query changes neither the ranking nor the row it singles out (`ranked_candidates_eq`).

Times, sequences and epochs are `u64` in the source and `i64` in the tables; here they are
natural numbers, and what comes from a table carries that it fits.  `char::to_lowercase` is a
parameter: nothing depends on what it does.
-/

import ZuTalk.Library.Table
import ZuTalk.Capture.Utterance
import ZuTalk.Capture.Event
import ZuTalk.Stream.Recovery
import Mathlib.Data.List.Infix

namespace ZuTalk
namespace Inbox

open Capture Table
open ZuTalk.Stream (u64Max satAdd)

/-! ### The store -/

/-- `i64::MAX`. -/
def i64Max : ℕ := 2 ^ 63 - 1

/-- `NotebookCaptureStoreError`. -/
inductive NotebookCaptureStoreError
  | validation (message : String)
  | notFound (message : String)
  | conflict (message : String)
  | corruptData (message : String)
  deriving DecidableEq, Repr

/-- `u64_to_i64`. -/
def u64ToI64 (value : ℕ) (field : String) : Except NotebookCaptureStoreError ℕ :=
  if value ≤ i64Max then .ok value
  else .error (.validation s!"{field} exceeds SQLite integer range")

/-- `UtteranceVariantRole`. -/
inductive UtteranceVariantRole
  | source | translation
  deriving DecidableEq, Repr

/-- `UtteranceVariantState`. -/
inductive UtteranceVariantState
  | waiting | ready | failed | unavailable
  deriving DecidableEq, Repr

/-- `RealtimeUtteranceVariant`, as far as placement reads it. -/
structure RealtimeUtteranceVariant where
  language : String
  role : UtteranceVariantRole
  text : Option String
  state : UtteranceVariantState
  completion : Option UtteranceCompletion
  deriving DecidableEq, Repr

/-- `RealtimeUtterance`, as far as placement reads it. -/
structure RealtimeUtterance where
  id : String
  sessionId : String
  sequence : ℕ
  sourceLanguage : String
  sourceText : String
  sourceStartMs : Option ℕ
  sourceEndMs : Option ℕ
  completion : UtteranceCompletion
  variants : List RealtimeUtteranceVariant
  deriving DecidableEq, Repr

/-- `RealtimeUtterance::has_source_fact`. -/
def RealtimeUtterance.hasSourceFact (u : RealtimeUtterance) : Bool :=
  u.completion = .complete || u.sourceText ≠ "" || u.sourceStartMs.isSome ||
    u.sourceEndMs.isSome || u.variants.any fun v =>
      v.role = .source && v.state = .ready && v.text.isSome && v.completion.isSome

/-- `RealtimeTranslationInboxKey`. -/
structure RealtimeTranslationInboxKey where
  sessionId : String
  laneIndex : ℕ
  groupEpoch : ℕ
  providerSequence : ℕ
  targetLanguage : String
  deriving DecidableEq, Repr

/-- `RealtimeTranslationInboxItem`, as far as placement reads it. -/
structure RealtimeTranslationInboxItem where
  key : RealtimeTranslationInboxKey
  sourceLanguage : String
  sourceText : String
  sourceStartMs : Option ℕ
  sourceEndMs : Option ℕ
  completion : Option UtteranceCompletion
  start_fits : ∀ ms ∈ sourceStartMs, ms ≤ i64Max
  end_fits : ∀ ms ∈ sourceEndMs, ms ≤ i64Max

/-- The tables placement reads, with what the schema keeps: ids are unique, so are sequences in
a session, and a row belongs to a run. -/
structure NotebookCaptureStore where
  realtimeUtterances : List RealtimeUtterance
  realtimeUtteranceVariants : List (String × RealtimeUtteranceVariant)
  notebookCaptureRuns : List (String × CaptureState)
  ids : Distinct RealtimeUtterance.id realtimeUtterances
  sequences : Distinct (fun u : RealtimeUtterance => (u.sessionId, u.sequence)) realtimeUtterances
  fits : ∀ u ∈ realtimeUtterances, u.sequence ≤ i64Max
  start_fits : ∀ u ∈ realtimeUtterances, ∀ ms ∈ u.sourceStartMs, ms ≤ i64Max
  end_fits : ∀ u ∈ realtimeUtterances, ∀ ms ∈ u.sourceEndMs, ms ≤ i64Max
  runs : ∀ u ∈ realtimeUtterances, (notebookCaptureRuns.lookup u.sessionId).isSome

namespace NotebookCaptureStore

/-- `UTTERANCE_SELECT ... WHERE session_id = ?1 AND ... ORDER BY sequence ASC`. -/
def utterances (store : NotebookCaptureStore) (sessionId : String)
    (selects : RealtimeUtterance → Bool) : List RealtimeUtterance :=
  select (fun u => u.sessionId = sessionId && selects u) (fun a b => a.sequence ≤ b.sequence)
    store.realtimeUtterances

/-- `hydrate_utterance_variants`. -/
def hydrate (store : NotebookCaptureStore) (u : RealtimeUtterance) : RealtimeUtterance :=
  { u with variants :=
      (store.realtimeUtteranceVariants.filter fun entry => entry.1 = u.id).map Prod.snd }

/-- `get_machine_utterance_by_session_sequence_from_conn`. -/
def getMachineUtteranceBySessionSequence (store : NotebookCaptureStore) (sessionId : String)
    (sequence : ℕ) : Except NotebookCaptureStoreError (Option RealtimeUtterance) := do
  let sequence ← u64ToI64 sequence "sequence"
  return (store.realtimeUtterances.find? fun u =>
    u.sessionId = sessionId && u.sequence = sequence).map store.hydrate

/-- `capture_session_is_active_from_conn`. -/
def captureSessionIsActive (store : NotebookCaptureStore) (sessionId : String) :
    Except NotebookCaptureStoreError Bool :=
  match store.notebookCaptureRuns.lookup sessionId with
  | some state => .ok state.isActive
  | none => .error (.notFound s!"capture session {sessionId}")

end NotebookCaptureStore

/-- `canonical_language`. -/
def canonicalLanguage (value : String) : String :=
  Text.toAsciiLowercase (Text.trimStr (Text.beforeAny ['-'] (Text.trimStr value)))

/-! ### The words of a fact and of a row -/

/-- `SourceTextAlignment`. -/
inductive SourceTextAlignment
  | exact
  | contained (canonicalChars : ℕ)
  | unrelated
  deriving DecidableEq, Repr

/-- `MINIMUM_CONTAINED_ALIGNMENT_CHARS`. -/
def minimumContainedAlignmentChars : ℕ := 2

/-- `char::is_ascii_punctuation`. -/
def isAsciiPunctuation (c : Char) : Bool :=
  let n := c.toNat
  (0x21 ≤ n && n ≤ 0x2F) || (0x3A ≤ n && n ≤ 0x40) || (0x5B ≤ n && n ≤ 0x60) ||
    (0x7B ≤ n && n ≤ 0x7E)

/-- `is_alignment_noise`. -/
def isAlignmentNoise (c : Char) : Bool :=
  let n := c.toNat
  if Text.isWhitespace c then true
  else if n < 0x80 then isAsciiPunctuation c
  else
    n = 0x00A1 || n = 0x00A7 || n = 0x00B6 || n = 0x00B7 || n = 0x00BF ||
      (0x2000 ≤ n && n ≤ 0x206F) || (0x3000 ≤ n && n ≤ 0x303F) || (0xFF01 ≤ n && n ≤ 0xFF0F) ||
      (0xFF1A ≤ n && n ≤ 0xFF20) || (0xFF3B ≤ n && n ≤ 0xFF40) || (0xFF5B ≤ n && n ≤ 0xFF65)

section Alignment

variable (toLowercase : Char → List Char)

/-- `normalized_alignment_text`. -/
def normalizedAlignmentText (value : String) : List Char :=
  (value.toList.filter fun c => !isAlignmentNoise c).flatMap toLowercase

/-- `align_source_text`. -/
def alignSourceText (auxiliary canonical : String) : SourceTextAlignment :=
  let auxiliary := normalizedAlignmentText toLowercase auxiliary
  if auxiliary.isEmpty then .unrelated
  else
    let canonical := normalizedAlignmentText toLowercase canonical
    if auxiliary = canonical then .exact
    else if minimumContainedAlignmentChars ≤ auxiliary.length ∧ auxiliary <:+: canonical then
      .contained canonical.length
    else .unrelated

/-! ### The score of a row -/

/-- `TranslationInboxAlignmentScore`. -/
structure TranslationInboxAlignmentScore where
  exactSourceText : Bool
  containedSourceText : Bool
  canonicalTextChars : ℕ
  overlapPerMille : ℕ
  sourceLanguageMatches : Bool
  midpointDistanceMs : ℕ
  sequence : ℕ
  deriving DecidableEq, Repr

/-- `u64::abs_diff`. -/
def absDiff (a b : ℕ) : ℕ := max a b - min a b

/-- `translation_inbox_alignment_score`. -/
def alignmentScore (item : RealtimeTranslationInboxItem) (utterance : RealtimeUtterance) :
    Option TranslationInboxAlignmentScore :=
  let alignment := alignSourceText toLowercase item.sourceText utterance.sourceText
  let exactSourceText := decide (alignment = .exact)
  let containedSourceText := match alignment with
    | .contained _ => true
    | _ => false
  let canonicalTextChars := match alignment with
    | .contained canonicalChars => canonicalChars
    | _ => u64Max
  let score : TranslationInboxAlignmentScore :=
    { exactSourceText := exactSourceText
      containedSourceText := containedSourceText
      canonicalTextChars := canonicalTextChars
      overlapPerMille := 0
      sourceLanguageMatches :=
        canonicalLanguage item.sourceLanguage = canonicalLanguage utterance.sourceLanguage
      midpointDistanceMs := u64Max
      sequence := utterance.sequence }
  match item.sourceStartMs, item.sourceEndMs, utterance.sourceStartMs, utterance.sourceEndMs with
  | some leftStart, some leftEnd, some rightStart, some rightEnd =>
      if leftEnd < leftStart ∨ rightEnd < rightStart then none
      else
        let intersectionStart := max leftStart rightStart
        let intersectionEnd := min leftEnd rightEnd
        let bothHaveDuration := leftEnd > leftStart ∧ rightEnd > rightStart
        if intersectionEnd < intersectionStart ∨
            (bothHaveDuration ∧ intersectionEnd = intersectionStart) then none
        else
          let factMs := leftEnd - leftStart
          some { score with
            midpointDistanceMs :=
              absDiff (satAdd leftStart leftEnd) (satAdd rightStart rightEnd) / 2,
            overlapPerMille :=
              if factMs = 0 then 1000
              else min ((intersectionEnd - intersectionStart) * 1000 / factMs) 1000 }
  | _, _, _, _ => if exactSourceText || containedSourceText then some score else none

/-- `translation_inbox_matches_utterance`. -/
def matchesUtterance (item : RealtimeTranslationInboxItem) (utterance : RealtimeUtterance) : Bool :=
  (alignmentScore toLowercase item utterance).isSome

/-- `translation_inbox_evidence_eq`. -/
def evidenceEq (left right : TranslationInboxAlignmentScore) : Bool :=
  left.exactSourceText = right.exactSourceText &&
    left.containedSourceText = right.containedSourceText &&
    left.canonicalTextChars = right.canonicalTextChars &&
    left.overlapPerMille = right.overlapPerMille &&
    left.sourceLanguageMatches = right.sourceLanguageMatches &&
    left.midpointDistanceMs = right.midpointDistanceMs

/-- `is_live_home`. -/
def isLiveHome (score : TranslationInboxAlignmentScore) : Bool :=
  score.exactSourceText || score.containedSourceText || score.overlapPerMille ≥ 500

/-- The comparison `ranked_translation_inbox_candidates` sorts by. -/
def compareScores (left right : TranslationInboxAlignmentScore) : Ordering :=
  (compare right.exactSourceText left.exactSourceText).then <|
  (compare right.containedSourceText left.containedSourceText).then <|
  (compare left.canonicalTextChars right.canonicalTextChars).then <|
  (compare right.overlapPerMille left.overlapPerMille).then <|
  (compare right.sourceLanguageMatches left.sourceLanguageMatches).then <|
  (compare left.midpointDistanceMs right.midpointDistanceMs).then <|
  compare left.sequence right.sequence

/-- `ranked_translation_inbox_candidates`. -/
def rankedCandidates (item : RealtimeTranslationInboxItem) (candidates : List RealtimeUtterance) :
    List (TranslationInboxAlignmentScore × ℕ) :=
  ((candidates.filterMap fun candidate =>
      (alignmentScore toLowercase item candidate).map fun score => (score, candidate)).mergeSort
    fun left right => compareScores left.1 right.1 ≠ .gt).map
    fun (score, candidate) => (score, candidate.sequence)

/-- `unique_translation_inbox_candidate`. -/
def uniqueCandidate (item : RealtimeTranslationInboxItem) (candidates : List RealtimeUtterance)
    (live : Bool) : Option ℕ :=
  let ranked := rankedCandidates toLowercase item candidates
  match ranked with
  | [] => none
  | (best, sequence) :: _ =>
      if live && !isLiveHome best then none
      else
        let equallySupported :=
          ((ranked.takeWhile fun entry => evidenceEq best entry.1).map Prod.snd).dedup
        if equallySupported.length = 1 then some sequence else none

end Alignment

/-! ### The candidate query -/

/-- The rows the interval filter of the candidate query lets through. -/
def inWindow (startMs endMs : ℕ) (u : RealtimeUtterance) : Bool :=
  match u.sourceStartMs, u.sourceEndMs with
  | some rowStart, some rowEnd => rowStart ≤ endMs && rowEnd ≥ startMs
  | _, _ => true

/-- `translation_inbox_candidates_from_conn`. -/
def candidates (store : NotebookCaptureStore) (item : RealtimeTranslationInboxItem) :
    Except NotebookCaptureStoreError (List RealtimeUtterance) :=
  match item.sourceStartMs, item.sourceEndMs with
  | some startMs, some endMs =>
      if endMs ≥ startMs then do
        let startMs ← u64ToI64 startMs "translation source start"
        let endMs ← u64ToI64 endMs "translation source end"
        return store.utterances item.key.sessionId (inWindow startMs endMs)
      else .ok (store.utterances item.key.sessionId fun _ => true)
  | _, _ => .ok (store.utterances item.key.sessionId fun _ => true)

theorem u64ToI64_eq_ok {value kept : ℕ} {field : String} (h : u64ToI64 value field = .ok kept) :
    kept = value := by
  unfold u64ToI64 at h
  split at h
  · exact (Except.ok.inj h).symm
  · cases h

theorem u64ToI64_of_le {value : ℕ} (h : value ≤ i64Max) (field : String) :
    u64ToI64 value field = .ok value := if_pos h

variable {toLowercase : Char → List Char} {store : NotebookCaptureStore}
  {item : RealtimeTranslationInboxItem} {u : RealtimeUtterance}

/-- Sequences are unique in a session. -/
theorem NotebookCaptureStore.nodup_sequence (store : NotebookCaptureStore) (sessionId : String)
    (selects : RealtimeUtterance → Bool) :
    ((store.realtimeUtterances.filter fun u => u.sessionId = sessionId && selects u).map
      RealtimeUtterance.sequence).Nodup := by
  have hkeys := List.pairwise_map.1 (store.sequences.sublist ((List.filter_sublist
    (p := fun u : RealtimeUtterance => u.sessionId = sessionId && selects u)).map _))
  refine List.pairwise_map.2 (hkeys.imp_of_mem fun {a b} ha hb hne heq => hne ?_)
  have hsession : ∀ u ∈ store.realtimeUtterances.filter
      (fun u => u.sessionId = sessionId && selects u), u.sessionId = sessionId :=
    fun u hu => of_decide_eq_true (Bool.and_eq_true_iff.1 (List.mem_filter.1 hu).2).1
  rw [hsession a ha, hsession b hb, heq]

/-- The rows one query selects, among all rows of the session. -/
theorem NotebookCaptureStore.utterances_eq_filter (store : NotebookCaptureStore)
    (sessionId : String) (selects : RealtimeUtterance → Bool) :
    store.utterances sessionId selects =
      (store.utterances sessionId fun _ => true).filter selects := by
  unfold NotebookCaptureStore.utterances
  rw [filter_select (store.nodup_sequence sessionId fun _ => true)]
  simp only [Bool.and_true]

/-- A row whose interval does not touch the fact's has no score. -/
theorem alignmentScore_of_not_inWindow {startMs endMs : ℕ}
    (hstart : item.sourceStartMs = some startMs) (hend : item.sourceEndMs = some endMs)
    (h : inWindow startMs endMs u = false) : alignmentScore toLowercase item u = none := by
  unfold inWindow at h
  unfold alignmentScore
  rw [hstart, hend]
  rcases hrowStart : u.sourceStartMs with _ | rowStart
  · rw [hrowStart] at h
    exact absurd h (by simp)
  · rcases hrowEnd : u.sourceEndMs with _ | rowEnd
    · rw [hrowStart, hrowEnd] at h
      exact absurd h (by simp)
    · rw [hrowStart, hrowEnd] at h
      dsimp only at h ⊢
      have hapart : endMs < rowStart ∨ rowEnd < startMs := by
        by_contra hboth
        rw [not_or, not_lt, not_lt] at hboth
        rw [decide_eq_true hboth.1, decide_eq_true hboth.2] at h
        exact absurd h (by simp)
      split
      · rfl
      · rename_i hordered
        rw [if_pos (.inl (by omega))]

/-- The candidates are rows of the session, and every row they leave out has no score. -/
theorem candidates_eq (store : NotebookCaptureStore) (item : RealtimeTranslationInboxItem) :
    ∃ selects, candidates store item = .ok (store.utterances item.key.sessionId selects) ∧
      ∀ toLowercase u, selects u = false → alignmentScore toLowercase item u = none := by
  unfold candidates
  rcases hstart : item.sourceStartMs with _ | startMs
  · exact ⟨fun _ => true, rfl, fun _ _ h => absurd h (by simp)⟩
  · rcases hend : item.sourceEndMs with _ | endMs
    · exact ⟨fun _ => true, rfl, fun _ _ h => absurd h (by simp)⟩
    · dsimp only
      split
      · refine ⟨inWindow startMs endMs, ?_, fun _ _ h =>
          alignmentScore_of_not_inWindow hstart hend h⟩
        rw [u64ToI64_of_le (item.start_fits _ hstart), u64ToI64_of_le (item.end_fits _ hend)]
        rfl
      · exact ⟨fun _ => true, rfl, fun _ _ h => absurd h (by simp)⟩

/-- Rows without a score do not change the ranking. -/
theorem rankedCandidates_filter {selects : RealtimeUtterance → Bool}
    (h : ∀ u, selects u = false → alignmentScore toLowercase item u = none)
    (rows : List RealtimeUtterance) :
    rankedCandidates toLowercase item (rows.filter selects) =
      rankedCandidates toLowercase item rows := by
  unfold rankedCandidates
  congr 2
  rw [List.filterMap_filter]
  congr 1
  funext u
  rcases hselects : selects u with _ | _
  · rw [h u hselects]
    rfl
  · rfl

/-- **The windowed query agrees with the scan.**  Ranking the candidates the query returns is
ranking every row of the session, and it singles out the same row, live or settled. -/
theorem ranked_candidates_eq (toLowercase : Char → List Char) (store : NotebookCaptureStore)
    (item : RealtimeTranslationInboxItem) :
    ∃ rows, candidates store item = .ok rows ∧
      rankedCandidates toLowercase item rows =
        rankedCandidates toLowercase item
          (store.utterances item.key.sessionId fun _ => true) ∧
      ∀ live, uniqueCandidate toLowercase item rows live =
        uniqueCandidate toLowercase item
          (store.utterances item.key.sessionId fun _ => true) live := by
  obtain ⟨selects, hcandidates, hnone⟩ := candidates_eq store item
  have hranked := rankedCandidates_filter (hnone toLowercase)
    (store.utterances item.key.sessionId fun _ => true)
  rw [← NotebookCaptureStore.utterances_eq_filter] at hranked
  refine ⟨_, hcandidates, hranked, fun live => ?_⟩
  unfold uniqueCandidate
  rw [hranked]

end Inbox
end ZuTalk
