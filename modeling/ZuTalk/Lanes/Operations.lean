/-
# The capture store

`crates/vt-store/src/notebook_capture_store.rs`: the public operations of `NotebookCaptureStore`
that write rows, lanes, facts, bindings, receipts and edits.  Each is one transaction.

`CaptureStore.step` performs one of them; an operation that ends in an error leaves the tables as
they were.
-/

import ZuTalk.Lanes.Binding

namespace ZuTalk
namespace Lanes

open Capture (UtteranceCompletion CaptureState NewRealtimeUtterance)
open Inbox (NotebookCaptureStoreError RealtimeTranslationInboxKey UtteranceVariantState
  canonicalLanguage i64Max)
open Table Transactions Machine

/-! ### Runs -/

/-- `valid_capture_transition`. -/
def validCaptureTransition : CaptureState → CaptureState → Bool
  | .recording, .paused | .paused, .recording | .recording, .draining | .paused, .draining
  | .recording, .interrupted | .paused, .interrupted | .draining, .interrupted
  | .recording, .failed | .paused, .failed | .draining, .failed
  | .draining, .completed => true
  | _, _ => false

/-- `CaptureState::as_str`. -/
def captureStateStr : CaptureState → String
  | .recording => "recording"
  | .paused => "paused"
  | .draining => "draining"
  | .completed => "completed"
  | .interrupted => "interrupted"
  | .failed => "failed"

/-- The row `create_run` inserts. -/
def newRun (id sessionId : String) : Run :=
  { id := id
    sessionId := sessionId
    captureState := .recording
    realtimeProviderId := none
    realtimeModelId := none
    desiredRevision := 0
    appliedRevision := 0 }

/-- The row `create_completed_import_run` inserts. -/
def importedRun (id sessionId : String) : Run :=
  { newRun id sessionId with captureState := .completed }

/-- `INSERT INTO notebook_capture_runs`, under its unique indices: ids, sessions, and one row at
most that is active. -/
def CaptureStore.insertRun (run : Run) (s : CaptureStore) : Except StoreError CaptureStore :=
  if h : run.sessionId ∈ s.runs.map Run.sessionId then .error .sqlite
  else if s.runs.any (·.id = run.id) then .error .sqlite
  else if run.captureState.isActive && s.runs.any (·.captureState.isActive) then .error .sqlite
  else .ok { s with
    runs := s.runs ++ [run]
    sessions := s.sessions.concat h
    captured := fun u hu =>
      (s.captured u hu).imp fun _ h => ⟨List.mem_append_left _ h.1, h.2⟩ }

/-- A statement that may violate a constraint. -/
def execute (statement : CaptureStore → Except StoreError CaptureStore) : Tx PUnit := do
  let s ← get
  let t ← check (statement s)
  set t

/-- A run is inserted. -/
def insertsRun (run : Run) : Tx PUnit := do
  checked (requireNonempty "id" run.id)
  checked (requireNonempty "session_id" run.sessionId)
  execute (·.insertRun run)

/-- `create_run`, under the profile it was authorized by. -/
def createRun (id sessionId : String) : Tx PUnit := insertsRun (newRun id sessionId)

/-- `create_completed_import_run`. -/
def createCompletedImportRun (id sessionId : String) : Tx PUnit :=
  insertsRun (importedRun id sessionId)

/-- `claim_provider_provenance`, for the realtime role. -/
def claimRealtimeProvenance (sessionId providerId modelId : String) : Tx PUnit := do
  checked (requireNonempty "session_id" sessionId)
  checked (requireNonempty "provider_id" providerId)
  checked (requireNonempty "model_id" modelId)
  refuse (providerId ≠ sonioxProviderId || modelId ≠ sonioxSttRtV5ModelId)
    (.validation s!"unsupported capture provider/model pair {providerId}/{modelId}")
  let s ← get
  let run ← require (s.run sessionId) (.notFound s!"capture session {sessionId}")
  refuse (s.purgeJobs.contains sessionId)
    (.conflict s!"session {sessionId} is pending permanent deletion")
  refuse (!run.captureState.isActive)
    (.conflict <| s!"session {sessionId} cannot claim Realtime provider provenance while " ++
      s!"capture is {captureStateStr run.captureState}")
  match run.realtimeProviderId, run.realtimeModelId with
  | some provider, some model =>
      refuse (provider ≠ providerId || model ≠ modelId)
        (.conflict s!"session {sessionId} already claimed different Realtime provider provenance")
  | none, none =>
      modify (·.editRuns (·.sessionId = sessionId) fun run =>
        { run with realtimeProviderId := some providerId, realtimeModelId := some modelId })
  | _, _ => throw (.corruptData s!"session {sessionId} has partial Realtime provider provenance")

/-- `transition_capture`. -/
def transitionCapture (runId : String) (expected next : CaptureState) : Tx PUnit := do
  refuse (!validCaptureTransition expected next) (.validation
    s!"invalid capture transition {captureStateStr expected} -> {captureStateStr next}")
  let s ← get
  let selects := fun run : Run => run.id = runId && run.captureState = expected
  refuse (!s.runs.any selects) (.conflict s!"run {runId} is not {captureStateStr expected}")
  modify (·.editRuns selects fun run => { run with captureState := next })

/-- `recover_unfinished_runs`. -/
def recoverUnfinishedRuns : Tx PUnit :=
  modify (·.editRuns (·.captureState.isActive) fun run =>
    { run with captureState := .interrupted })

/-- `recover_detached_unfinished_run`. -/
def recoverDetachedUnfinishedRun (runId : String) : Tx PUnit := do
  checked (requireNonempty "run_id" runId)
  modify (·.editRuns (fun run => run.id = runId && run.captureState.isActive) fun run =>
    { run with captureState := .interrupted })
  let s ← get
  refuse (!s.runs.any (·.id = runId)) (.notFound s!"capture run {runId}")

/-- A run is interrupted in one of the states it may be interrupted in. -/
def interruptFrom (permitted : List CaptureState) (unpermitted unmatched : String)
    (runId : String) (expected : CaptureState) : Tx PUnit := do
  refuse (!permitted.contains expected) (.validation unpermitted)
  let s ← get
  let selects := fun run : Run => run.id = runId && run.captureState = expected
  refuse (!s.runs.any selects) (.conflict unmatched)
  modify (·.editRuns selects fun run => { run with captureState := .interrupted })

/-- `interrupt_capture`. -/
def interruptCapture (runId : String) (expected : CaptureState) : Tx PUnit :=
  interruptFrom [.recording, .paused]
    s!"capture interruption requires recording or paused, found {captureStateStr expected}"
    s!"run {runId} cannot be atomically interrupted from {captureStateStr expected}" runId expected

/-- `interrupt_local_persistence`. -/
def interruptLocalPersistence (runId : String) (expected : CaptureState) : Tx PUnit :=
  interruptFrom [.recording, .paused, .draining]
    ("local persistence interruption requires recording, paused, or draining; " ++
      s!"found {captureStateStr expected}")
    (s!"run {runId} cannot be interrupted from {captureStateStr expected} " ++
      "after local persistence failure") runId expected

/-- `ack_realtime_loro_projection`. -/
def ackRealtimeLoroProjection (sessionId : String) (revision : ℕ) : Tx PUnit := do
  let revision ← checked (u64ToI64 revision "realtime Loro projection revision")
  let s ← get
  let run ← require (s.run sessionId) (.notFound s!"capture session {sessionId}")
  refuse (run.desiredRevision < revision.val) (.conflict <|
    s!"realtime Loro projection {sessionId} cannot acknowledge revision {revision.val} " ++
      s!"beyond desired revision {run.desiredRevision}")
  modify (·.editRuns (·.sessionId = sessionId) fun run =>
    { run with appliedRevision := max run.appliedRevision revision.val })

/-! ### Speakers -/

/-- `ensure_session_speaker`, for a label that is new. -/
def insertSessionSpeaker (id sessionId : String) : Tx PUnit := do
  let s ← get
  refuse (s.run sessionId).isNone (.notFound s!"capture session {sessionId}")
  refuse (s.sessionSpeakers.any fun speaker => speaker.1 = id) .sqlite
  modify fun s => { s with sessionSpeakers := s.sessionSpeakers ++ [(id, sessionId)] }

/-- A speaker is deleted, and no row is theirs any more. -/
def CaptureStore.withoutSpeaker (id : String) (s : CaptureStore) : CaptureStore :=
  { s.editUtterances (fun u => u.sessionSpeakerId = some id) fun b =>
      { b with sessionSpeakerId := none } with
    sessionSpeakers := delete (fun speaker => speaker.1 = id) s.sessionSpeakers }

/-- `delete_session_speaker`. -/
def deleteSessionSpeaker (id : String) : Tx PUnit := do
  checked (requireNonempty "session_speaker_id" id)
  modify (·.withoutSpeaker id)

/-- The speaker of a row is one of its session. -/
def checkSpeaker (s : CaptureStore) (sessionId : String) :
    Option String → Except StoreError Unit
  | none => .ok ()
  | some speakerId =>
      match s.sessionSpeakers.find? (·.1 = speakerId) with
      | none => .error (.notFound s!"session speaker {speakerId}")
      | some speaker =>
          if speaker.2 = sessionId then .ok ()
          else .error (.validation
            s!"session speaker {speakerId} belongs to a different capture session")

/-! ### The canonical source -/

/-- `validate_utterance`. -/
def validateUtterance (input : NewRealtimeUtterance) : Except NotebookCaptureStoreError Unit := do
  requireNonempty "utterance id" input.id
  requireNonempty "session id" input.sessionId
  requireNonempty "source language" input.sourceLanguage
  validateLanguage input.sourceLanguage
  input.translatedLanguage.forM validateLanguage
  if input.translatedLanguage.isSome ≠ input.translatedText.isSome then
    throw (.validation "translated language and text must be present together")
  if input.translatedLanguage.any fun language =>
      canonicalLanguage language = canonicalLanguage input.sourceLanguage then
    throw (.validation "translated language must differ from the source language")
  if decide (input.alignment = .paired) ≠ input.translatedText.isSome then
    throw (.validation "only paired utterances may contain a translated lane")
  match input.sourceStartMs, input.sourceEndMs with
  | some startMs, some endMs =>
      if endMs < startMs then throw (.validation "source timestamp range is reversed")
  | _, _ => pure ()

/-- `machine_utterance_matches_input`, for an input without a translation. -/
def machineUtteranceMatchesInput (u : Utterance) (input : NewRealtimeUtterance) : Bool :=
  let incoming := Language.of input.sourceLanguage
  let sourceLanguageMatches :=
    u.sourceLanguage = incoming || u.sourceLanguage = und || incoming = und
  u.id = input.id && u.sessionId = input.sessionId && u.sequence.val = input.sequence &&
    u.sessionSpeakerId = input.sessionSpeakerId && sourceLanguageMatches &&
    u.sourceText = input.sourceText && u.sourceStartMs.map Subtype.val = input.sourceStartMs &&
    u.sourceEndMs.map Subtype.val = input.sourceEndMs && u.completion = input.completion

/-- The language a source revision leaves a row with: one without a claim keeps what is known. -/
def learnedLanguage (input : NewRealtimeUtterance) (existing : Option Utterance) : Language :=
  let incoming := Language.of input.sourceLanguage
  if incoming = und then (existing.map (·.sourceLanguage)).getD incoming else incoming

/-- The row a source inserts. -/
def newUtterance (input : NewRealtimeUtterance) (sequence : I64) (sourceLanguage : Language)
    (startMs endMs : Option I64) : Utterance :=
  { id := input.id
    sessionId := input.sessionId
    sequence := sequence
    sessionSpeakerId := input.sessionSpeakerId
    sourceLanguage := sourceLanguage
    sourceText := input.sourceText
    sourceStartMs := startMs
    sourceEndMs := endMs
    revision := 0
    completion := input.completion
    sourceProjectionRevision := 0
    variants := [] }

/-- The columns a source revises. -/
def UtteranceBody.revised (input : NewRealtimeUtterance) (sourceLanguage : Language)
    (startMs endMs : Option I64) (b : UtteranceBody) : UtteranceBody :=
  { b with
    sessionSpeakerId := input.sessionSpeakerId
    sourceLanguage := sourceLanguage
    sourceText := input.sourceText
    sourceStartMs := startMs
    sourceEndMs := endMs
    revision := b.revision + 1
    completion := input.completion }

/-- The row of a source, inserted or revised: `match expected_revision`. -/
def writeUtterance (input : NewRealtimeUtterance) (expectedRevision : Option ℕ) (sequence : I64)
    (existing : Option Utterance) (sourceLanguage : Language) : Tx PUnit := do
  let startMs ← checked (optionU64ToI64 input.sourceStartMs "source_start_ms")
  let endMs ← checked (optionU64ToI64 input.sourceEndMs "source_end_ms")
  match expectedRevision with
  | none => execute (·.insertUtterance (newUtterance input sequence sourceLanguage startMs endMs))
  | some revision => do
      let revision ← checked (u64ToI64 revision "expected_revision")
      let u ← require (existing.filter (·.revision = revision.val)) (.conflict
        s!"utterance {input.sessionId}:{input.sequence} expected revision {revision.val}")
      modify (·.editUtterance u.id (·.revised input sourceLanguage startMs endMs))

/-- The lanes of a source. -/
def writeSourceLane (input : NewRealtimeUtterance) (u : Utterance) (coalesces : Bool) :
    Tx PUnit := do
  modify (·.editUtterance u.id fun b =>
    if coalesces then b.coalesceSource else b.replaceSource input.sourceText input.completion)
  if input.completion = .complete && !coalesces then
    let projectionRevision ← bumpRealtimeLoroDesiredRevision input.sessionId
    modify (·.editUtterance u.id (·.projectSource projectionRevision))

/-- A source revision of a row that is not Final. -/
def reviseSource (input : NewRealtimeUtterance) (expectedRevision : Option ℕ) (sequence : I64)
    (existing : Option Utterance) : Tx Utterance := do
  let place := s!"{input.sessionId}:{input.sequence}"
  let sourceLanguage := learnedLanguage input existing
  let lanes := existing.elim [] (·.variants)
  refuse (lanes.any fun v => v.role = .source && v.payload.isSettled)
    (.conflict s!"final machine source variant {place} is immutable")
  let coalesces := lanes.any fun v => v.isFinalTranslation && v.language = sourceLanguage
  writeUtterance input expectedRevision sequence existing sourceLanguage
  let s ← get
  let u ← require (s.utteranceBySequence input.sessionId sequence) (.notFound s!"utterance {place}")
  writeSourceLane input u coalesces
  pure u

/-- What follows a source revision: the facts of the row are looked at again. -/
def recomposeRow (toLowercase : Char → List Char) (input : NewRealtimeUtterance) (sequence : I64)
    (utteranceId : String) : Tx Utterance := do
  let place := s!"{input.sessionId}:{input.sequence}"
  revalidateBoundItems toLowercase utteranceId sequence
  let stands ← applyBoundItems utteranceId sequence
  refuse (!stands) (.corruptData s!"source update unexpectedly collected utterance {place}")
  let s ← get
  let u ← require (s.utteranceBySequence input.sessionId sequence) (.notFound s!"utterance {place}")
  visible u

/-- `upsert_utterance`. -/
def upsertUtterance (toLowercase : Char → List Char) (input : NewRealtimeUtterance)
    (expectedRevision : Option ℕ) : Tx Utterance := do
  checked (validateUtterance input)
  refuse (input.translatedLanguage.isSome || input.translatedText.isSome) (.validation
    "source upsert cannot own a translation lane; use upsert_translation_variant")
  let s ← get
  check (s.ensureActiveRealtimeSession input.sessionId)
  check (checkSpeaker s input.sessionId input.sessionSpeakerId)
  let sequence ← checked (u64ToI64 input.sequence "sequence")
  match (s.utteranceBySequence input.sessionId sequence).filter (·.sourceFactIsComplete) with
  | some u => do
      refuse (!machineUtteranceMatchesInput u input) (.conflict
        s!"final machine source fact {input.sessionId}:{input.sequence} is immutable")
      visible u
  | none => do
      let u ← reviseSource input expectedRevision sequence
        (s.utteranceBySequence input.sessionId sequence)
      recomposeRow toLowercase input sequence u.id

/-- `RealtimeTranslationLaneUpdate`. -/
structure LaneUpdate where
  language : String
  text : Option String
  state : UtteranceVariantState
  completion : Option UtteranceCompletion
  deriving DecidableEq, Repr

/-- A lane update that is well formed. -/
def LaneUpdate.validated (update : LaneUpdate) :
    Except NotebookCaptureStoreError (Language × Payload) := do
  validateLanguage update.language
  let payload ← validateVariantPayload update.text update.state update.completion
  return (Language.of update.language, payload)

/-- The source of a row that has one is withdrawn, in `remove_partial_utterance`. -/
def withdrawSource (u : Utterance) : Tx PUnit :=
  if u.hasSourceFact then do
    if u.hasSourceLane then
      let removed := u.variants.countP (·.role = .source)
      refuse (removed ≠ 1) (.corruptData
        s!"utterance {u.sessionId}:{u.sequence.val} has {removed} source variants")
      modify (·.editUtterance u.id (·.deleteVariants (·.role = .source)))
    modify (·.editUtterance u.id (·.withdrawSource))
  else pure ⟨⟩

/-- The end of `remove_partial_utterance`: a row with a translation stands, any other goes. -/
def keepOrDelete (id : String) : Tx (Option Utterance) := do
  let s ← get
  let u ← require (s.utteranceById id) (.notFound s!"utterance {id}")
  if u.variants.any Variant.isReadyTranslation then some <$> visible u
  else
    refuse (u.completion = .complete) (.conflict
      s!"utterance {u.sessionId}:{u.sequence.val} changed before partial removal")
    modify (·.deleteUtterance u.id)
    pure none

/-- The lane that comes with a withdrawal: `match translation_update`. -/
def updateWithdrawn (sessionId : String) (sequence : I64) (u : Utterance) :
    Option (Language × Payload) → Tx Utterance
  | some (language, payload) =>
      upsertTranslationVariant sessionId sequence language payload .finalIsImmutable
  | none => do
      let s ← get
      require (s.utteranceById u.id) (.notFound s!"utterance {u.id}")

/-- What follows a withdrawal: the facts of the row are applied, and those near it offered. -/
def recomposeWithdrawn (toLowercase : Char → List Char) (sessionId : String) (sequence : I64)
    (u : Utterance) : Tx (Option Utterance) := do
  let stands ← applyBoundItems u.id sequence
  if !stands then pure none
  else
    let s ← get
    let window := u.sourceStartMs.bind fun startMs =>
      u.sourceEndMs.map fun endMs => (startMs, endMs)
    let _ ← reconcileItems toLowercase sessionId (s.unboundNear sessionId window)
    keepOrDelete u.id

/-- `remove_partial_utterance`. -/
def removePartialUtterance (toLowercase : Char → List Char) (sessionId : String)
    (sequence expectedRevision : ℕ) (update : Option LaneUpdate) : Tx (Option Utterance) := do
  checked (requireNonempty "session_id" sessionId)
  let update ← checked (update.mapM LaneUpdate.validated)
  let s ← get
  check (s.ensureActiveRealtimeSession sessionId)
  let place := s!"{sessionId}:{sequence}"
  let sequence ← checked (u64ToI64 sequence "sequence")
  match s.utteranceBySequence sessionId sequence with
  | none => pure none
  | some u => do
      refuse (u.revision ≠ expectedRevision)
        (.conflict s!"utterance {place} expected revision {expectedRevision}")
      refuse u.sourceFactIsComplete
        (.conflict s!"final machine source fact {place} is immutable")
      withdrawSource u
      let v ← updateWithdrawn sessionId sequence u update
      recomposeWithdrawn toLowercase sessionId sequence v

/-! ### Translation lanes -/

/-- `upsert_translation_variant` and `upsert_inline_translation_variant`. -/
def upsertLane (write : TranslationLaneWrite) (sessionId : String) (sequence : ℕ)
    (update : LaneUpdate) : Tx Utterance := do
  checked (requireNonempty "session_id" sessionId)
  let (language, payload) ← checked update.validated
  let s ← get
  check (s.ensureActiveRealtimeSession sessionId)
  let sequence ← checked (u64ToI64 sequence "sequence")
  upsertTranslationVariant sessionId sequence language payload write

/-- The translation lanes of a session that wait, by sequence and language. -/
def CaptureStore.waiting (s : CaptureStore) (sessionId : String) : List (I64 × Language) :=
  ((s.utterances.filter (·.sessionId = sessionId)).flatMap fun u =>
    (u.variants.filter fun v => v.role = .translation && v.payload = .waiting).map fun v =>
      (u.sequence, v.language)).mergeSort fun a b =>
        (compare a.1.val b.1.val).then (compare a.2.code b.2.code) ≠ .gt

/-- `mark_waiting_translation_variants_unavailable`. -/
def markWaitingUnavailable (sessionId : String) : Tx PUnit := do
  checked (requireNonempty "session_id" sessionId)
  let s ← get
  check (s.ensureRealtimeSessionProvenance sessionId)
  (s.waiting sessionId).forM fun entry => do
    let _ ← upsertTranslationVariant sessionId entry.1 entry.2 .unavailable .finalIsImmutable
    pure ⟨⟩

/-! ### Facts -/

section Placing

variable (toLowercase : Char → List Char)

/-- `upsert_translation_inbox_item`. -/
def upsertTranslationInboxItem (input : NewRealtimeTranslationInboxItem) : Tx Persistence := do
  let translation ← checked (validateTranslationInboxInput input)
  let s ← get
  check (s.ensureActiveRealtimeSession input.key.sessionId)
  upsertInboxItem toLowercase input translation

/-- `bind_translation_inbox_item`. -/
def bindTranslationInboxItem (key : RealtimeTranslationInboxKey) (canonicalSequence : ℕ) :
    Tx (Option Utterance) := do
  checked (validateTranslationInboxKey key)
  let s ← get
  check (s.ensureActiveRealtimeSession key.sessionId)
  bindWithinSavepoint toLowercase key canonicalSequence

/-- `bind_translation_inbox_item_if_unique`. -/
def bindIfUnique (key : RealtimeTranslationInboxKey) : Tx (Option Binding) := do
  checked (validateTranslationInboxKey key)
  let s ← get
  check (s.ensureActiveRealtimeSession key.sessionId)
  let factKey ← checked (FactKey.of key)
  let f ← require (s.fact factKey) (.notFound s!"translation inbox {shownKey key}")
  if f.withdrawn then pure none
  else
    let candidates ← checked (Inbox.candidates s.placement f.placed)
    match f.boundSequence.elim
        (Inbox.uniqueCandidate toLowercase f.placed candidates true) (some ·.val) with
    | none => pure none
    | some sequence => do
        match ← attempt (bindWithinSavepoint toLowercase key sequence) with
        | .ok utterance => pure (some ⟨f.key, sequence, utterance⟩)
        | .error e => if e.isConflict then pure none else throw e

/-- `reconcile_active_translation_inbox`. -/
def reconcileActive (sessionId : String) : Tx (List Binding) := do
  checked (requireNonempty "session_id" sessionId)
  let s ← get
  check (s.ensureActiveRealtimeSession sessionId)
  reconcileItems toLowercase sessionId (s.listTranslationInbox sessionId)

/-- The bounds of a window, as a query is given them. -/
def windowToI64 (window : ℕ × ℕ) : Except NotebookCaptureStoreError (I64 × I64) := do
  let startMs ← u64ToI64 window.1 "translation window start"
  let endMs ← u64ToI64 window.2 "translation window end"
  return (startMs, endMs)

/-- `reconcile_active_translation_inbox_near`. -/
def reconcileActiveNear (sessionId : String) (window : Option (ℕ × ℕ)) : Tx (List Binding) := do
  checked (requireNonempty "session_id" sessionId)
  let s ← get
  check (s.ensureActiveRealtimeSession sessionId)
  let window ← checked (window.mapM windowToI64)
  reconcileItems toLowercase sessionId (s.unboundNear sessionId window)

/-- The facts that fell behind the canonical lane between two of its positions. -/
def CaptureStore.settledBetween (s : CaptureStore) (sessionId : String)
    (afterEndMs throughEndMs : ℕ) : List Fact :=
  select (fun f => f.sessionId = sessionId && !f.withdrawn && f.binding.isNone &&
      f.completion = some .complete &&
      f.sourceEndMs.any fun endMs => afterEndMs < endMs.val && endMs.val ≤ throughEndMs)
    (fun a b =>
      (compare (a.sourceEndMs.map Subtype.val) (b.sourceEndMs.map Subtype.val)).then
        ((compare a.groupEpoch b.groupEpoch).then
          ((compare a.providerSequence b.providerSequence).then
            (compare a.targetLanguage.code b.targetLanguage.code))) ≠ .gt)
    s.inbox

/-- `settle_active_translation_inbox_through`. -/
def settleActiveThrough (sessionId : String) (afterEndMs throughEndMs : ℕ) :
    Tx (List Binding) := do
  checked (requireNonempty "session_id" sessionId)
  if throughEndMs ≤ afterEndMs then pure []
  else
    let s ← get
    check (s.ensureActiveRealtimeSession sessionId)
    let afterEndMs ← checked (u64ToI64 afterEndMs "settlement start")
    settleItems toLowercase (s.settledBetween sessionId afterEndMs (min throughEndMs i64Max))

/-- `settle_active_translation_inbox_near`. -/
def settleActiveNear (sessionId : String) (window : ℕ × ℕ) (throughEndMs : ℕ) :
    Tx (List Binding) := do
  checked (requireNonempty "session_id" sessionId)
  if throughEndMs = 0 then pure []
  else
    let s ← get
    check (s.ensureActiveRealtimeSession sessionId)
    let window ← checked (windowToI64 window)
    settleItems toLowercase ((s.unboundNear sessionId (some window)).filter fun f =>
      f.completion = some .complete && f.sourceEndMs.any (·.val ≤ throughEndMs))

/-- The facts of some keys that are complete. -/
def CaptureStore.completeFacts (s : CaptureStore) (keys : List RealtimeTranslationInboxKey) :
    Except NotebookCaptureStoreError (List Fact) := do
  let factKeys ← keys.mapM FactKey.of
  return (factKeys.filterMap s.fact).filter (·.completion = some .complete)

/-- `settle_active_translation_inbox_items`. -/
def settleActiveItems (sessionId : String) (keys : List RealtimeTranslationInboxKey) :
    Tx (List Binding) := do
  checked (requireNonempty "session_id" sessionId)
  if keys.isEmpty then pure []
  else
    let s ← get
    check (s.ensureActiveRealtimeSession sessionId)
    let items ← checked (s.completeFacts keys)
    settleItems toLowercase items

/-- The rows that facts are bound to, in order. -/
def boundRows (items : List Fact) : List (String × I64) :=
  ((items.filterMap (·.binding)).dedup).mergeSort fun a b =>
    (compare a.1 b.1).then (compare a.2.val b.2.val) ≠ .gt

/-- One row in `reconcile_translation_inbox_after_recovery`: a row whose lanes cannot be rebuilt
keeps what it has. -/
def replayBoundRow (items : List Fact) (row : String × I64) : Tx PUnit := do
  match ← attempt (applyBoundSnapshot items row.1 row.2) with
  | .ok _ => pure ⟨⟩
  | .error e => if e.isConflict then pure ⟨⟩ else throw e

/-- `reconcile_translation_inbox_after_recovery`. -/
def reconcileAfterRecovery (sessionId : String) : Tx ℕ := do
  checked (requireNonempty "session_id" sessionId)
  let s ← get
  check (s.ensureRealtimeSessionProvenance sessionId)
  let inbox := s.listTranslationInbox sessionId
  if inbox.isEmpty then pure 0
  else
    (boundRows inbox).forM (replayBoundRow inbox)
    let reconciled ← reconcileItems toLowercase sessionId inbox
    let s ← get
    let leftover := (s.listTranslationInbox sessionId).filter Fact.isOffered
    let settled ← settleItems toLowercase leftover
    pure (reconciled.length + settled.length)

end Placing

/-! ### What the user edits -/

/-- `ensure_utterance_lane_is_editable`. -/
def ensureLaneIsEditable (s : CaptureStore) (sessionId : String) (v : Variant) :
    Except StoreError Unit :=
  if !v.payload.isSettled then
    .error (.conflict "provisional utterance lanes remain machine-owned")
  else
    match s.run sessionId with
    | none => .error (.notFound s!"capture session {sessionId}")
    | some run =>
        if v.projectionRevision = 0 ∨ run.appliedRevision < v.projectionRevision then
          .error (.conflict
            "Final utterance lanes are editable only after their Loro projection is durable")
        else .ok ()

/-- `get_lane_edit_revision`. -/
def CaptureStore.laneEditRevision (s : CaptureStore) (utteranceId : String)
    (language : Language) : ℕ :=
  (s.overrides.find? fun o => o.utteranceId = utteranceId && o.laneLanguage = language).elim 0
    Override.editRevision

/-- The lane an edit is of. -/
def laneOf (v : Variant) : UtteranceLane :=
  match v.role with
  | .source => .source
  | .translation => .translated

/-- `stage_utterance_variant_replacement`; `mutationId` is the identifier that is drawn. -/
def stageReplacement (mutationId utteranceId language targetText : String)
    (expectedRevision : ℕ) : Tx PUnit := do
  checked (requireNonempty "utterance_id" utteranceId)
  checked (validateLanguage language)
  let language := Language.of language
  let s ← get
  let u ← require (s.utteranceById utteranceId) (.notFound s!"utterance {utteranceId}")
  let v ← require (u.variant language)
    (.conflict s!"utterance {utteranceId} has no {language.code} variant")
  refuse (!v.payload.isSettled) (.conflict
    s!"utterance {utteranceId} variant {language.code} is not Final and ready for editing")
  check (ensureLaneIsEditable s u.sessionId v)
  refuse (s.purgeJobs.contains u.sessionId)
    (.conflict s!"session {u.sessionId} is pending permanent deletion")
  let current := s.laneEditRevision utteranceId language
  refuse (current ≠ expectedRevision)
    (.conflict <| s!"utterance {utteranceId} lane {language.code} expected edit revision " ++
      s!"{expectedRevision}, found {current}")
  let staged : Mutation :=
    { id := mutationId
      sessionId := u.sessionId
      utteranceId := u.id
      lane := laneOf v
      laneLanguage := language
      expectedRevision := expectedRevision
      expectedVariantRevision := v.revision
      targetText := targetText }
  match s.mutations.find? fun m => m.utteranceId = utteranceId && m.laneLanguage = language with
  | some existing =>
      refuse ({ existing with id := mutationId } ≠ staged)
        (.conflict s!"utterance {utteranceId} already has a pending projection mutation")
  | none => do
      refuse (s.mutations.any (·.id = mutationId)) .sqlite
      modify fun s => { s with mutations := s.mutations ++ [staged] }

/-- `INSERT INTO realtime_utterance_overrides ... ON CONFLICT DO UPDATE`. -/
def upsertOverride (o : Override) (overrides : List Override) : List Override :=
  let matchesKey := fun p : Override =>
    decide (p.utteranceId = o.utteranceId ∧ p.laneLanguage = o.laneLanguage)
  if overrides.any matchesKey then update matchesKey (fun _ => o) overrides
  else overrides ++ [o]

/-- The override a mutation becomes. -/
def Mutation.committed (m : Mutation) (u : Utterance) (v : Variant) (editRevision : ℕ) :
    Override :=
  { utteranceId := m.utteranceId
    lane := m.lane
    laneLanguage := m.laneLanguage
    text := m.targetText
    machineUtteranceRevision := u.revision
    machineVariantRevision := v.revision
    editRevision := editRevision }

/-- `commit_projection_mutation`. -/
def commitMutation (mutationId : String) : Tx Utterance := do
  checked (requireNonempty "mutation_id" mutationId)
  let s ← get
  let m ← require (s.mutations.find? (·.id = mutationId))
    (.notFound s!"projection mutation {mutationId}")
  refuse (s.purgeJobs.contains m.sessionId)
    (.conflict s!"session {m.sessionId} is pending permanent deletion")
  let u ← require (s.utteranceById m.utteranceId) (.notFound s!"utterance {m.utteranceId}")
  refuse (u.sessionId ≠ m.sessionId)
    (.corruptData s!"projection mutation {mutationId} crosses capture sessions")
  let v ← require (u.variant m.laneLanguage)
    (.conflict s!"utterance {m.utteranceId} has no {m.laneLanguage.code} variant")
  refuse (laneOf v ≠ m.lane || !v.payload.isSettled || v.revision ≠ m.expectedVariantRevision)
    (.conflict
      s!"utterance {m.utteranceId} Final variant {m.laneLanguage.code} changed before commit")
  check (ensureLaneIsEditable s m.sessionId v)
  let current := s.laneEditRevision m.utteranceId m.laneLanguage
  refuse (current ≠ m.expectedRevision) (.conflict <|
    s!"utterance {m.utteranceId} lane {m.laneLanguage.code} expected edit revision " ++
      s!"{m.expectedRevision}, found {current}")
  modify fun s =>
    { s with
      overrides := upsertOverride (m.committed u v (current + 1)) s.overrides
      mutations := delete (·.id = mutationId) s.mutations }
  reloaded m.utteranceId

/-- `cancel_projection_mutation`. -/
def cancelMutation (mutationId : String) : Tx PUnit := do
  checked (requireNonempty "mutation_id" mutationId)
  modify fun s => { s with mutations := delete (·.id = mutationId) s.mutations }

/-! ### Deletion -/

/-- `begin_session_purge`. -/
def beginSessionPurge (sessionId : String) : Tx PUnit := do
  checked (requireNonempty "session_id" sessionId)
  let s ← get
  if s.purgeJobs.contains sessionId then pure ⟨⟩
  else do
    refuse ((s.run sessionId).any (·.captureState.isActive))
      (.conflict s!"capture session {sessionId} is still active")
    modify fun s => { s with purgeJobs := s.purgeJobs ++ [sessionId] }

/-- `complete_session_purge_job`. -/
def completeSessionPurgeJob (sessionId : String) : Tx PUnit := do
  checked (requireNonempty "session_id" sessionId)
  modify fun s => { s with purgeJobs := delete (· = sessionId) s.purgeJobs }

/-- What `purge_session_artifacts` leaves. -/
def CaptureStore.withoutSession (sessionId : String) (s : CaptureStore) : CaptureStore :=
  let gone := (s.utterances.filter (·.sessionId = sessionId)).map (·.id)
  let unbound := fun f : Fact => { f with binding := none }
  { s with
    utterances := delete (·.sessionId = sessionId) s.utterances
    inbox := delete (·.sessionId = sessionId)
      (update (fun f => f.boundUtteranceId.any gone.contains) unbound s.inbox)
    runs := delete (·.sessionId = sessionId) s.runs
    sessionSpeakers := delete (fun speaker => speaker.2 = sessionId) s.sessionSpeakers
    overrides := delete (fun o => gone.contains o.utteranceId) s.overrides
    mutations := delete (fun m => m.sessionId = sessionId || gone.contains m.utteranceId)
      s.mutations
    ids := s.ids.delete
    sequences := s.sequences.delete
    facts := (s.facts.update fun f => (rfl : (unbound f).toFactKey = f.toFactKey)).delete
    sessions := s.sessions.delete
    captured := by
      intro u hu
      obtain ⟨run, hrun, heq⟩ := s.captured u (mem_of_mem_delete hu)
      have hsession : (!decide (u.sessionId = sessionId)) = true := (List.mem_filter.1 hu).2
      have hrun' : (!decide (run.sessionId = sessionId)) = true := heq.symm ▸ hsession
      exact ⟨run, List.mem_filter.2 ⟨hrun, hrun'⟩, heq⟩ }

/-- `purge_session_artifacts`. -/
def purgeSessionArtifacts (sessionId : String) : Tx PUnit := do
  checked (requireNonempty "session_id" sessionId)
  modify (·.withoutSession sessionId)

end Lanes
end ZuTalk
