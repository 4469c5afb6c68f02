/-
# The tables the lane writer works on

`crates/vt-store/src/notebook_capture_store.rs`: rows, translation facts, runs and user edits, and
the queries over them; `crates/vt-store/src/migration.rs`: what their keys and references keep.

A statement that sets columns is a function on what is not key, so keys stay distinct; deleting a
row takes its lanes with it and unbinds its facts, as the foreign keys do.
-/

import ZuTalk.Library.Transactions
import ZuTalk.Lanes.Row
import ZuTalk.Text.Provider

namespace ZuTalk
namespace Lanes

open Capture (UtteranceCompletion CaptureState NewRealtimeUtterance)
open Inbox (NotebookCaptureStoreError UtteranceVariantRole UtteranceVariantState i64Max
  RealtimeTranslationInboxKey)
open Table Transactions

/-- `NotebookCaptureStoreError`: what the code says, or a constraint of the schema. -/
inductive StoreError
  | sqlite
  | capture (error : NotebookCaptureStoreError)
  deriving DecidableEq, Repr

/-- `NotebookCaptureStoreError::NotFound`. -/
def StoreError.notFound (message : String) : StoreError := .capture (.notFound message)

/-- `NotebookCaptureStoreError::Conflict`. -/
def StoreError.conflict (message : String) : StoreError := .capture (.conflict message)

/-- `NotebookCaptureStoreError::Validation`. -/
def StoreError.validation (message : String) : StoreError := .capture (.validation message)

/-- `NotebookCaptureStoreError::CorruptData`. -/
def StoreError.corruptData (message : String) : StoreError := .capture (.corruptData message)

/-- `NotebookCaptureStoreError::Conflict(_)`. -/
def StoreError.isConflict : StoreError → Bool
  | .capture (.conflict _) => true
  | _ => false

/-! ### Facts -/

/-- The primary key of `realtime_translation_inbox`. -/
structure FactKey where
  sessionId : String
  groupEpoch : ℕ
  providerSequence : ℕ
  targetLanguage : Language
  deriving DecidableEq

/-- The columns of a fact that statements set.  A present fact has a translation and its
completion, a withdrawn one has neither. -/
structure FactBody where
  laneIndex : ℕ
  sourceLanguage : Language
  sourceText : String
  sourceStartMs : Option I64
  sourceEndMs : Option I64
  translation : Option (String × UtteranceCompletion)
  revision : ℕ
  binding : Option (String × I64)
  deriving DecidableEq

/-- `RealtimeTranslationInboxItem`. -/
structure Fact extends FactKey, FactBody where
  deriving DecidableEq

namespace Fact

/-- `withdrawn`. -/
def withdrawn (f : Fact) : Bool := f.translation.isNone

/-- `completion`. -/
def completion (f : Fact) : Option UtteranceCompletion := f.translation.map Prod.snd

/-- `bound_utterance_id`. -/
def boundUtteranceId (f : Fact) : Option String := f.binding.map Prod.fst

/-- `bound_sequence`. -/
def boundSequence (f : Fact) : Option I64 := f.binding.map Prod.snd

/-- `RealtimeTranslationInboxItem::key`. -/
def key (f : Fact) : RealtimeTranslationInboxKey :=
  ⟨f.sessionId, f.laneIndex, f.groupEpoch, f.providerSequence, f.targetLanguage.code⟩

/-- What placement reads of a fact. -/
def placed (f : Fact) : Inbox.RealtimeTranslationInboxItem where
  key := f.key
  sourceLanguage := f.sourceLanguage.code
  sourceText := f.sourceText
  sourceStartMs := f.sourceStartMs.map Subtype.val
  sourceEndMs := f.sourceEndMs.map Subtype.val
  completion := f.completion
  start_fits ms hms := by
    obtain ⟨value, -, rfl⟩ := Option.mem_map.1 hms
    exact value.2
  end_fits ms hms := by
    obtain ⟨value, -, rfl⟩ := Option.mem_map.1 hms
    exact value.2

/-- `ORDER BY group_epoch, lane_index, provider_sequence, target_language`. -/
def listed (a b : Fact) : Bool :=
  (compare a.groupEpoch b.groupEpoch).then ((compare a.laneIndex b.laneIndex).then
    ((compare a.providerSequence b.providerSequence).then
      (compare a.targetLanguage.code b.targetLanguage.code))) ≠ .gt

/-- `ORDER BY group_epoch, provider_sequence, lane_index`. -/
def spoken (a b : Fact) : Bool :=
  (compare a.groupEpoch b.groupEpoch).then ((compare a.providerSequence b.providerSequence).then
    (compare a.laneIndex b.laneIndex)) ≠ .gt

end Fact

/-- The key a statement is given for a fact. -/
def FactKey.of (key : RealtimeTranslationInboxKey) : Except NotebookCaptureStoreError FactKey := do
  let groupEpoch ← u64ToI64 key.groupEpoch "translation group epoch"
  let providerSequence ← u64ToI64 key.providerSequence "translation provider sequence"
  return ⟨key.sessionId, groupEpoch, providerSequence, Language.of key.targetLanguage⟩

/-! ### Runs and edits -/

/-- `SONIOX_PROVIDER_ID`. -/
def sonioxProviderId : String := "soniox"

/-- `SONIOX_STT_RT_V5_MODEL_ID`. -/
def sonioxSttRtV5ModelId : String := "stt-rt-v5"

/-- The columns of a run that statements set. -/
structure RunBody where
  id : String
  captureState : CaptureState
  realtimeProviderId : Option String
  realtimeModelId : Option String
  desiredRevision : ℕ
  appliedRevision : ℕ
  deriving DecidableEq

/-- What the lanes need of `NotebookCaptureRun`. -/
structure Run extends RunBody where
  sessionId : String
  deriving DecidableEq

/-- `UtteranceLane`. -/
inductive UtteranceLane
  | source | translated
  deriving DecidableEq, Repr

/-- `UtteranceLane::as_str`. -/
def UtteranceLane.asStr : UtteranceLane → String
  | source => "source"
  | translated => "translated"

/-- A row of `realtime_utterance_overrides`. -/
structure Override where
  utteranceId : String
  lane : UtteranceLane
  laneLanguage : Language
  text : String
  machineUtteranceRevision : ℕ
  machineVariantRevision : ℕ
  editRevision : ℕ
  deriving DecidableEq

/-- `NotebookProjectionMutation`: an edit on its way. -/
structure Mutation where
  id : String
  sessionId : String
  utteranceId : String
  lane : UtteranceLane
  laneLanguage : Language
  expectedRevision : ℕ
  expectedVariantRevision : ℕ
  targetText : String
  deriving DecidableEq

/-! ### The tables -/

/-- The tables. -/
@[ext]
structure CaptureStore where
  utterances : List Utterance
  inbox : List Fact
  runs : List Run
  sessionSpeakers : List (String × String)
  overrides : List Override
  mutations : List Mutation
  purgeJobs : List String
  ids : Distinct (fun u : Utterance => u.id) utterances
  sequences : Distinct (fun u : Utterance => (u.sessionId, u.sequence)) utterances
  facts : Distinct Fact.toFactKey inbox
  sessions : Distinct Run.sessionId runs
  captured : ∀ u ∈ utterances, ∃ run ∈ runs, run.sessionId = u.sessionId

namespace CaptureStore

/-- `UPDATE realtime_utterances SET ... WHERE ...`. -/
def editUtterances (selects : Utterance → Bool) (set : UtteranceBody → UtteranceBody)
    (s : CaptureStore) : CaptureStore :=
  { s with
    utterances := update selects
      (fun u => { u with toUtteranceBody := set u.toUtteranceBody }) s.utterances
    ids := s.ids.update fun _ => rfl
    sequences := s.sequences.update fun _ => rfl
    captured := forall_update s.captured fun _ _ _ h => h }

/-- `UPDATE realtime_utterances SET ... WHERE id = ?1`, or the like for its lanes. -/
def editUtterance (id : String) (set : UtteranceBody → UtteranceBody) (s : CaptureStore) :
    CaptureStore :=
  s.editUtterances (fun u => u.id = id) set

/-- `INSERT INTO realtime_utterances`. -/
def insertUtterance (u : Utterance) (s : CaptureStore) : Except StoreError CaptureStore :=
  if h : u.id ∉ s.utterances.map (fun u => u.id) ∧
      (u.sessionId, u.sequence) ∉ s.utterances.map (fun u => (u.sessionId, u.sequence)) ∧
      ∃ run ∈ s.runs, run.sessionId = u.sessionId then
    .ok { s with
      utterances := s.utterances ++ [u]
      ids := s.ids.concat h.1
      sequences := s.sequences.concat h.2.1
      captured := List.forall_mem_append.2 ⟨s.captured, List.forall_mem_singleton.2 h.2.2⟩ }
  else .error .sqlite

/-- `UPDATE realtime_translation_inbox SET ... WHERE ...`. -/
def editFacts (selects : Fact → Bool) (set : FactBody → FactBody) (s : CaptureStore) :
    CaptureStore :=
  { s with
    inbox := update selects (fun f => { f with toFactBody := set f.toFactBody }) s.inbox
    facts := s.facts.update fun _ => rfl }

/-- `DELETE FROM realtime_utterances WHERE id = ?1`. -/
def deleteUtterance (id : String) (s : CaptureStore) : CaptureStore :=
  { s.editFacts (fun f => f.boundUtteranceId = some id) fun f => { f with binding := none } with
    utterances := delete (fun u => u.id = id) s.utterances
    overrides := delete (fun o => o.utteranceId = id) s.overrides
    mutations := delete (fun m => m.utteranceId = id) s.mutations
    ids := s.ids.delete
    sequences := s.sequences.delete
    captured := fun u hu => s.captured u (mem_of_mem_delete hu) }

/-- `INSERT INTO realtime_translation_inbox ... ON CONFLICT DO UPDATE`. -/
def upsertFact (key : FactKey) (new : FactBody) (set : FactBody → FactBody) (s : CaptureStore) :
    CaptureStore :=
  if h : key ∈ s.inbox.map Fact.toFactKey then s.editFacts (fun f => f.toFactKey = key) set
  else
    { s with
      inbox := s.inbox ++ [⟨key, new⟩]
      facts := s.facts.concat h }

/-- `UPDATE notebook_capture_runs SET ... WHERE session_id = ?1 AND ...`. -/
def editRuns (selects : Run → Bool) (set : RunBody → RunBody) (s : CaptureStore) : CaptureStore :=
  let edited := fun run : Run => { run with toRunBody := set run.toRunBody }
  { s with
    runs := update selects edited s.runs
    sessions := s.sessions.update fun _ => rfl
    captured := fun u hu => exists_key_update
      (fun run => (rfl : (edited run).sessionId = run.sessionId)) (s.captured u hu) }

/-! ### Queries -/

/-- `UTTERANCE_SELECT WHERE id = ?1`, with its lanes. -/
def utteranceById (s : CaptureStore) (id : String) : Option Utterance :=
  s.utterances.find? (·.id = id)

/-- `UTTERANCE_SELECT WHERE session_id = ?1 AND sequence = ?2`, with its lanes. -/
def utteranceBySequence (s : CaptureStore) (sessionId : String) (sequence : I64) :
    Option Utterance :=
  s.utterances.find? fun u => u.sessionId = sessionId && u.sequence = sequence

/-- The fact of a key. -/
def fact (s : CaptureStore) (key : FactKey) : Option Fact := s.inbox.find? (·.toFactKey = key)

/-- `list_translation_inbox_from_conn`. -/
def listTranslationInbox (s : CaptureStore) (sessionId : String) : List Fact :=
  select (fun f => f.sessionId = sessionId) Fact.listed s.inbox

/-- `list_translation_inbox_bound_to_from_conn`. -/
def boundTo (s : CaptureStore) (utteranceId : String) : List Fact :=
  select (fun f => f.boundUtteranceId = some utteranceId) Fact.listed s.inbox

/-- Whether the audio of a fact touches a window, or it has none. -/
def nearWindow (window : Option (I64 × I64)) (f : Fact) : Bool :=
  match f.sourceStartMs, f.sourceEndMs, window with
  | some startMs, some endMs, some (fromMs, throughMs) =>
      startMs.1 ≤ throughMs.1 && endMs.1 ≥ fromMs.1
  | some _, some _, none => false
  | _, _, _ => true

/-- `list_unbound_translation_inbox_near_from_conn`. -/
def unboundNear (s : CaptureStore) (sessionId : String) (window : Option (I64 × I64)) :
    List Fact :=
  select (fun f => f.sessionId = sessionId && !f.withdrawn && f.binding.isNone &&
    nearWindow window f) Fact.listed s.inbox

/-- The run of a session. -/
def run (s : CaptureStore) (sessionId : String) : Option Run :=
  s.runs.find? (·.sessionId = sessionId)

/-- `capture_session_is_active_from_conn`. -/
def captureSessionIsActive (s : CaptureStore) (sessionId : String) : Except StoreError Bool :=
  match s.run sessionId with
  | some run => .ok run.captureState.isActive
  | none => .error (.notFound s!"capture session {sessionId}")

/-- The provenance of a run. -/
def ensureProvenance (run : Run) : Except StoreError Unit :=
  match run.realtimeProviderId, run.realtimeModelId with
  | some provider, some model =>
      if provider = sonioxProviderId ∧ model = sonioxSttRtV5ModelId then .ok ()
      else .error (.corruptData "realtime utterance has unsupported provider provenance")
  | none, none => .error (.conflict "realtime utterance requires claimed provider provenance")
  | _, _ => .error (.corruptData "realtime utterance has partial provider provenance")

/-- `ensure_realtime_session_provenance`. -/
def ensureRealtimeSessionProvenance (s : CaptureStore) (sessionId : String) :
    Except StoreError Unit :=
  match s.run sessionId with
  | none => .error (.notFound s!"capture session {sessionId}")
  | some run => ensureProvenance run

/-- `ensure_active_realtime_session`. -/
def ensureActiveRealtimeSession (s : CaptureStore) (sessionId : String) : Except StoreError Unit :=
  match s.run sessionId with
  | none => .error (.notFound s!"capture session {sessionId}")
  | some run =>
      if run.captureState.isActive then ensureProvenance run
      else .error (.conflict "utterances are read-only after capture finalization")

/-- `utterance_has_user_state_from_conn`. -/
def utteranceHasUserState (s : CaptureStore) (utteranceId : String) : Bool :=
  s.overrides.any (·.utteranceId = utteranceId) || s.mutations.any (·.utteranceId = utteranceId)

/-- The tables as placement reads them. -/
def placement (s : CaptureStore) : Inbox.NotebookCaptureStore where
  realtimeUtterances := s.utterances.map Utterance.placed
  realtimeUtteranceVariants := []
  notebookCaptureRuns := s.runs.map fun run => (run.sessionId, run.captureState)
  ids := by
    unfold Distinct
    rw [List.map_map]
    exact s.ids
  sequences := by
    have hkeys : (fun u : Utterance => (u.sessionId, u.sequence.1)) =
        (fun key : String × I64 => (key.1, key.2.1)) ∘ fun u => (u.sessionId, u.sequence) := rfl
    have hinjective : Function.Injective fun key : String × I64 => (key.1, key.2.1) := by
      rintro ⟨session, sequence⟩ ⟨session', sequence'⟩ h
      obtain ⟨hsession, hsequence⟩ := Prod.mk.inj h
      exact Prod.ext hsession (Subtype.ext hsequence)
    unfold Distinct
    rw [List.map_map]
    change (s.utterances.map fun u : Utterance => (u.sessionId, u.sequence.1)).Nodup
    rw [hkeys, ← List.map_map]
    exact List.Nodup.map hinjective s.sequences
  fits u hu := by
    obtain ⟨v, -, rfl⟩ := List.mem_map.1 hu
    exact v.sequence.2
  start_fits u hu ms hms := by
    obtain ⟨v, -, rfl⟩ := List.mem_map.1 hu
    obtain ⟨value, -, rfl⟩ := Option.mem_map.1 hms
    exact value.2
  end_fits u hu ms hms := by
    obtain ⟨v, -, rfl⟩ := List.mem_map.1 hu
    obtain ⟨value, -, rfl⟩ := Option.mem_map.1 hms
    exact value.2
  runs u hu := by
    obtain ⟨v, hv, rfl⟩ := List.mem_map.1 hu
    obtain ⟨run, hrun, heq⟩ := s.captured v hv
    rw [List.lookup_isSome_iff]
    exact ⟨_, List.mem_map_of_mem hrun, beq_iff_eq.2 heq.symm⟩

end CaptureStore

end Lanes
end ZuTalk
