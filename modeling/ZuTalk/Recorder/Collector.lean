/-
# The collector of a stream group

`crates/vt-ffi/src/notebook_capture_api.rs`: the loop of `collect_stream_events_until_closed`.
The lanes of a group send it their events, each tagged with the connection it comes from.
An event of a connection that the lane has replaced, or that has failed, is dropped; the
first event of a later connection brings the lane back.

What the capture store and the collector's caches of it do is given from outside
(`CaptureStore`).  A pass over the store may set marks in the assemblers of the lanes, and
that is all it does to them; a pass that fails ends the group, so that what it set then is
not kept.  The controls the collector sends to the providers, the end of a line and the
watchdog of a long one, change nothing here and are left out.
-/

import ZuTalk.Capture.Assembler
import ZuTalk.Library.Machine
import ZuTalk.Library.Table
import ZuTalk.Recorder.Fanout

namespace ZuTalk
namespace Recorder

open Capture (RealtimeUtteranceAssembler AssembledRealtimeUtterance NotebookCaptureUtterance
  TranslationCue LaneHealth CaptureStatus RemoteHealth FinalizeBoundary)
open ZuTalk.Stream (SttStreamEvent SttStreamError)
open Machine (when)

/-- `ProviderFailure`, without the request id that is only shown. -/
structure ProviderFailure where
  errorType : String
  deriving DecidableEq, Repr

/-- `PersistedCaptureChanges`, the rows as they are sent. -/
structure PersistedCaptureChanges where
  utterances : List NotebookCaptureUtterance
  removedSequences : List ℕ
  translationCues : List TranslationCue
  deriving DecidableEq, Repr

/-- `PersistedCaptureChanges::default`. -/
def PersistedCaptureChanges.default : PersistedCaptureChanges := ⟨[], [], []⟩

/-- Whether there is nothing to send. -/
def PersistedCaptureChanges.isEmpty (changes : PersistedCaptureChanges) : Bool :=
  changes.utterances.isEmpty && changes.removedSequences.isEmpty && changes.translationCues.isEmpty

/-- `TaggedStreamEvent`. -/
structure TaggedStreamEvent where
  laneIndex : ℕ
  generation : ℕ
  event : SttStreamEvent
  deriving DecidableEq, Repr

/-! ### Lanes -/

/-- `StreamAggregationLane`. -/
structure StreamAggregationLane where
  descriptor : RemoteStreamLane
  assembler : RealtimeUtteranceAssembler
  providerSessionEpoch : ℕ
  groupEpoch : ℕ
  awaitingReconnect : Bool
  connected : Bool
  everConnected : Bool
  failed : Bool
  inputDiscontinuous : Bool
  finalAudioProcMs : Option ℕ
  totalAudioProcMs : Option ℕ
  lagMs : Option ℕ
  providerAcceptedConfiguration : Bool
  disconnectedAtFrame : Option ℕ
  generation : ℕ
  translationSettledThroughMs : ℕ
  deriving DecidableEq, Repr

namespace StreamAggregationLane

/-- `record_provider_connected`. -/
def recordProviderConnected (lane : StreamAggregationLane) : StreamAggregationLane :=
  if lane.awaitingReconnect then
    { lane with
      providerSessionEpoch := lane.providerSessionEpoch + 1
      awaitingReconnect := false }
  else lane

/-- The first event of a later connection brings the lane back. -/
def revived (lane : StreamAggregationLane) (generation groupEpoch : ℕ) : StreamAggregationLane :=
  { lane with
    generation := generation
    failed := false
    inputDiscontinuous := false
    providerSessionEpoch := lane.providerSessionEpoch + 1
    groupEpoch := groupEpoch
    assembler := lane.assembler.advance }

/-- `lane_health_snapshot`, one lane. -/
def health (lane : StreamAggregationLane) : LaneHealth where
  targetLanguage := lane.descriptor.targetLanguage
  state := if lane.failed then "failed" else if lane.connected then "live" else "connecting"
  groupEpoch := lane.groupEpoch
  finalAudioProcMs := lane.finalAudioProcMs
  totalAudioProcMs := lane.totalAudioProcMs
  lagMs := lane.lagMs
  inputDiscontinuous := lane.inputDiscontinuous

/-- Where an outage of the lane begins: at its last final, if it has one. -/
def gapStartsAt (lane : StreamAggregationLane) (captureNow : ℕ) : ℕ :=
  match lane.finalAudioProcMs.map fun ms => ms * sampleRate / 1000 with
  | some frame => min frame captureNow
  | none => captureNow

end StreamAggregationLane

/-- `REALTIME_CONTINUITY_WINDOW_MS`. -/
def realtimeContinuityWindowMs : ℕ := 15000

/-- `outage_is_continuous`. -/
def outageIsContinuous (outageMs : ℕ) : Bool := outageMs ≤ realtimeContinuityWindowMs

/-- `sanitize_provider_metadata`. -/
def sanitizeProviderMetadata (value fallback : String) : String :=
  let sanitized := String.ofList ((value.toList.take 128).map fun character =>
    if character.isAlphanum || character = '-' || character = '_' || character = '.' then character
    else '_')
  if sanitized = "" then fallback else sanitized

/-- `provider_failure`. -/
def providerFailure : SttStreamError → ProviderFailure
  | .provider error => ⟨sanitizeProviderMetadata error.errorType "provider_error"⟩
  | .transport .. => ⟨"transport"⟩
  | .protocol _ => ⟨"protocol"⟩
  | .timeout .. => ⟨"timeout"⟩
  | .closed .. => ⟨"closed"⟩

/-- An event that ends its connection. -/
def isTerminal : SttStreamEvent → Bool
  | .inputDiscontinuity | .error _ => true
  | _ => false

/-- `provider_accepted_configuration`. -/
def acceptsConfiguration : SttStreamEvent → Bool
  | .tokens _ | .audioProgress .. | .recoveryStarted _ | .endpoint | .finalized | .finished => true
  | _ => false

/-- `publishes_canonical_preview`, of the canonical lane. -/
def publishesCanonicalPreview : SttStreamEvent → Bool
  | .tokens _ | .endpoint | .finalized | .finished | .reconnecting .. | .error _ => true
  | _ => false

/-- `publishes_lane_state`, or `publishes_lane_progress`. -/
def publishesLane : SttStreamEvent → Bool
  | .connected | .reconnecting .. | .inputDiscontinuity | .error _ | .audioProgress .. => true
  | _ => false

/-! ### The store -/

/-- What a pass over the store sets in the assembler of a lane. -/
inductive Mark
  | recordPersisted (id : String) (revision : ℕ)
  | recordTranslationPersisted (id : String) (language : Option String)
  | relinquishInlineTranslationLane (id language : String)
  | recordPartialRemoved (id : String)
  | retireSourceSegment (id : String)
  deriving DecidableEq, Repr

/-- An assembler with a mark set. -/
def Mark.set (a : RealtimeUtteranceAssembler) : Mark → RealtimeUtteranceAssembler
  | .recordPersisted id revision => a.recordPersisted id revision
  | .recordTranslationPersisted id language => a.recordTranslationPersisted id language
  | .relinquishInlineTranslationLane id language => a.relinquishInlineTranslationLane id language
  | .recordPartialRemoved id => a.recordPartialRemoved id
  | .retireSourceSegment id => a.retireSourceSegment id

/-- What a pass over the store gives back: marks, each for a lane, how far the canonical
lane has settled the translations, and what is to be sent. -/
structure StorePass where
  marks : List (ℕ × Mark)
  settledThroughMs : ℕ
  changes : PersistedCaptureChanges
  deriving DecidableEq, Repr

/-- The capture store, with what the collector remembers of it. -/
structure CaptureStore (σ : Type) where
  getRun : σ → Option CaptureStatus
  persistStreamLaneUpdates : List StreamAggregationLane → ℕ → List AssembledRealtimeUtterance →
    EStateM ProviderFailure σ StorePass
  settleTranslationsBehindCanonical : List StreamAggregationLane →
    EStateM ProviderFailure σ StorePass
  markContextApplied : String → EStateM ProviderFailure σ PUnit
  updateRemoteHealth : RemoteHealth → Option ProviderFailure →
    EStateM ProviderFailure σ CaptureStatus
  preserveNetworkTranscriptGap : ℕ → ℕ → EStateM ProviderFailure σ PUnit

/-- What a fact is known by: the lane and the epochs it is recorded under, and its number. -/
structure FactKey where
  laneIndex : ℕ
  groupEpoch : ℕ
  providerSessionEpoch : ℕ
  sequence : ℕ
  deriving DecidableEq, Repr

/-- What is sent to the client. -/
inductive Publication
  | delta (status : CaptureStatus) (changes : PersistedCaptureChanges)
  | laneTransition (status : CaptureStatus) (laneHealth : List LaneHealth)
  | realtimeProgress (status : CaptureStatus) (lagMs : ℕ)
  | livePreview (utterances : List AssembledRealtimeUtterance)
      (translationCues : List TranslationCue) (laneHealth : List LaneHealth)
  deriving DecidableEq, Repr

/-- The state of `collect_stream_events_until_closed`.  `facts` are the keys of all facts
that were handed to the store, and `ended` is how the group ended, if it did. -/
structure Collector (σ : Type) where
  lanes : List StreamAggregationLane
  nextGroupEpoch : ℕ
  contextApplied : Bool
  liveTranslationCues : List TranslationCue
  groupCancelled : Bool
  store : σ
  published : List Publication
  facts : List FactKey
  ended : Option ProviderFailure

/-! ### Live cues -/

/-- `LIVE_TRANSLATION_CUES_PER_LANGUAGE`. -/
def liveTranslationCuesPerLanguage : ℕ := 8

/-- A change to the live cues. -/
def reconcileLiveTranslationCue (current : List TranslationCue) (cue : TranslationCue) :
    List TranslationCue :=
  if (current.find? (·.key = cue.key)).any fun existing => cue.revision < existing.revision then
    current
  else if cue.withdrawn then Table.delete (fun existing => existing.key = cue.key) current
  else if cue.text ≠ "" then
    Table.delete (fun existing => existing.key = cue.key) current ++ [cue]
  else current

/-- The order of the live cues of one language; no two have one epoch and sequence. -/
def isLaterCue (cue other : TranslationCue) : Bool :=
  cue.groupEpoch < other.groupEpoch ||
    (cue.groupEpoch = other.groupEpoch && cue.providerSequence < other.providerSequence)

/-- `reconcile_live_translation_cues`: each language keeps its last cues. -/
def reconcileLiveTranslationCues (current changes : List TranslationCue) : List TranslationCue :=
  let cues := changes.foldl reconcileLiveTranslationCue current
  cues.filter fun cue =>
    cues.countP (fun other => other.targetLanguage = cue.targetLanguage && isLaterCue cue other) <
      liveTranslationCuesPerLanguage

/-- `live_translation_cue_snapshot`. -/
def liveTranslationCueSnapshot (current : List TranslationCue) : List TranslationCue :=
  current.mergeSort fun cue other =>
    cue.targetLanguage < other.targetLanguage ||
      (cue.targetLanguage = other.targetLanguage && !isLaterCue other cue)

/-- `live_previews`. -/
def livePreviews (a : RealtimeUtteranceAssembler) : List AssembledRealtimeUtterance :=
  ((a.segments.filter fun segment => !segment.complete && !segment.isEmpty).map fun segment =>
    Capture.assembleSegment a.profile segment false false).filter fun assembled =>
      assembled.utterance.sourceText ≠ ""

/-! ### The loop -/

/-- Code of the collector: it changes its state and may end the group. -/
abbrev CollectM (σ : Type) := EStateM ProviderFailure (Collector σ)

/-- What is fixed for a group. -/
structure CollectorConfig where
  canonicalLaneIndex : ℕ
  contextDigest : Option String
  isAlphabetic : Char → Bool

section Loop

variable {σ : Type} (store : CaptureStore σ) (config : CollectorConfig)

/-- A call to the store. -/
def onStore {α : Type} (call : EStateM ProviderFailure σ α) : CollectM σ α := fun c =>
  match call c.store with
  | .ok value s => .ok value { c with store := s }
  | .error failure s => .error failure { c with store := s }

/-- Changes one lane. -/
def modifyLane (laneIndex : ℕ) (f : StreamAggregationLane → StreamAggregationLane) :
    CollectM σ PUnit :=
  modify fun c => { c with lanes := c.lanes.modify laneIndex f }

/-- Sends something to the client. -/
def publish (publication : Collector σ → Option Publication) : CollectM σ PUnit :=
  modify fun c => { c with published := c.published ++ (publication c).toList }

/-- `emit_capture_delta`, if the run can be read. -/
def emitCaptureDelta (changes : PersistedCaptureChanges) : CollectM σ PUnit :=
  publish fun c => (store.getRun c.store).map fun status => .delta status changes

/-- `emit_capture_lane_transition`, once the health of the run is persisted. -/
def laneTransition (health : RemoteHealth) (failure : Option ProviderFailure) :
    CollectM σ PUnit := do
  let status ← onStore (store.updateRemoteHealth health failure)
  publish fun c => some (.laneTransition status (c.lanes.map (·.health)))

/-- The marks of a pass. -/
def setMarks (lanes : List StreamAggregationLane) (marks : List (ℕ × Mark)) :
    List StreamAggregationLane :=
  marks.foldl (fun lanes mark => lanes.modify mark.1 fun lane =>
    { lane with assembler := mark.2.set lane.assembler }) lanes

/-- What a pass over the store leaves behind. -/
def absorbPass (pass : StorePass) : CollectM σ PersistedCaptureChanges := do
  modify fun c => { c with
    lanes := (setMarks c.lanes pass.marks).modify config.canonicalLaneIndex fun lane =>
      { lane with translationSettledThroughMs := pass.settledThroughMs } }
  return pass.changes

/-- What the assembler of a lane gives, and the collector that has noted the facts. -/
def Collector.assembleLane (c : Collector σ) (laneIndex : ℕ)
    (assemble : RealtimeUtteranceAssembler →
      RealtimeUtteranceAssembler × List AssembledRealtimeUtterance) :
    List AssembledRealtimeUtterance × Collector σ :=
  match c.lanes[laneIndex]? with
  | none => ([], c)
  | some lane =>
      let assembled := assemble lane.assembler
      (assembled.2, { c with
        lanes := c.lanes.set laneIndex { lane with assembler := assembled.1 }
        facts := c.facts ++ assembled.2.map fun update =>
          ⟨laneIndex, lane.groupEpoch, lane.providerSessionEpoch, update.utterance.sequence⟩ })

/-- `persist_stream_lane_updates` of what the assembler of a lane gives. -/
def persistUpdates (laneIndex : ℕ)
    (assemble : RealtimeUtteranceAssembler →
      RealtimeUtteranceAssembler × List AssembledRealtimeUtterance) :
    CollectM σ PersistedCaptureChanges := do
  let updates ← modifyGet fun c : Collector σ => c.assembleLane laneIndex assemble
  let pass ← onStore (store.persistStreamLaneUpdates (← get).lanes laneIndex updates)
  absorbPass config pass

/-- The rows of a lane are completed, and it goes on with new ones. -/
def finalizeLane (laneIndex : ℕ) (boundary : FinalizeBoundary) :
    CollectM σ PersistedCaptureChanges := do
  let persisted ← persistUpdates store config laneIndex (·.finalize boundary)
  modifyLane laneIndex fun lane => { lane with assembler := lane.assembler.advance }
  return persisted

/-- `CancellationToken::cancel` of the group. -/
def cancelGroup : CollectM σ PUnit := modify fun c => { c with groupCancelled := true }

/-- `SttStreamEvent::Connected`. -/
def handleConnected (laneIndex : ℕ) : CollectM σ PersistedCaptureChanges := do
  modifyLane laneIndex fun lane =>
    { lane.recordProviderConnected with connected := true, everConnected := true, lagMs := none }
  let c ← get
  when (c.lanes.all fun lane => lane.failed || lane.connected)
    (laneTransition store (if c.lanes.any (·.failed) then .degraded else .live) none)
  return .default

/-- The canonical lane lost its connection for too long: a gap is recorded. -/
def preserveGap (laneIndex capturedFrames : ℕ) (disconnectedAtFrame : Option ℕ) :
    CollectM σ PUnit :=
  match disconnectedAtFrame with
  | none => pure ()
  | some startFrame =>
      when (laneIndex = config.canonicalLaneIndex && startFrame < capturedFrames)
        (onStore (store.preserveNetworkTranscriptGap startFrame capturedFrames))

/-- `SttStreamEvent::RecoveryStarted`. -/
def handleRecoveryStarted (laneIndex capturedFrames outageMs : ℕ) :
    CollectM σ PersistedCaptureChanges := do
  match (← get).lanes[laneIndex]? with
  | none => return .default
  | some lane =>
      modifyLane laneIndex (·.recordProviderConnected)
      when lane.awaitingReconnect do
        modifyLane laneIndex fun lane => { lane with disconnectedAtFrame := none }
        when (!outageIsContinuous outageMs) do
          preserveGap store config laneIndex capturedFrames lane.disconnectedAtFrame
          modify fun c => { c with
            nextGroupEpoch := c.nextGroupEpoch + 1
            lanes := c.lanes.modify laneIndex fun lane =>
              { lane with groupEpoch := c.nextGroupEpoch + 1 } }
      return .default

/-- `SttStreamEvent::Reconnecting`. -/
def handleReconnecting (laneIndex capturedFrames : ℕ) (planned : Bool) :
    CollectM σ PersistedCaptureChanges := do
  modifyLane laneIndex fun lane => { lane with
    disconnectedAtFrame := lane.disconnectedAtFrame.or (some (lane.gapStartsAt capturedFrames)) }
  let persisted ← finalizeLane store config laneIndex .connectionClosing
  modifyLane laneIndex fun lane => { lane with awaitingReconnect := true }
  when (!planned) do
    modifyLane laneIndex fun lane => { lane with connected := false }
    laneTransition store
      (if laneIndex = config.canonicalLaneIndex then .connecting else .degraded) none
  return persisted

/-- `SttStreamEvent::AudioProgress`. -/
def handleAudioProgress (laneIndex finalMs totalMs lagMs : ℕ) :
    CollectM σ PersistedCaptureChanges := do
  modifyLane laneIndex fun lane => { lane with
    finalAudioProcMs := some finalMs, totalAudioProcMs := some totalMs, lagMs := some lagMs }
  if laneIndex = config.canonicalLaneIndex then
    publish fun c => (store.getRun c.store).map fun status => .realtimeProgress status lagMs
    let pass ← onStore (store.settleTranslationsBehindCanonical (← get).lanes)
    absorbPass config pass
  else return .default

/-- `SttStreamEvent::InputDiscontinuity`. -/
def handleInputDiscontinuity (laneIndex : ℕ) : CollectM σ PersistedCaptureChanges := do
  if (← get).lanes[laneIndex]?.any (·.failed) then
    modifyLane laneIndex fun lane => { lane with inputDiscontinuous := true }
    return .default
  else
    let persisted ← finalizeLane store config laneIndex .connectionClosing
    modifyLane laneIndex fun lane =>
      { lane with connected := false, failed := true, inputDiscontinuous := true }
    let canonicalFailed : Bool := laneIndex = config.canonicalLaneIndex
    when canonicalFailed cancelGroup
    laneTransition store (if canonicalFailed then .unavailable else .degraded)
      (some ⟨"audio_backpressure"⟩)
    return persisted

/-- `SttStreamEvent::Error`. -/
def handleError (laneIndex : ℕ) (error : SttStreamError) : CollectM σ PersistedCaptureChanges := do
  let persisted ← finalizeLane store config laneIndex .connectionClosing
  modifyLane laneIndex fun lane => { lane with connected := false, failed := true }
  let canonicalFailed : Bool := laneIndex = config.canonicalLaneIndex
  let everConnected := (← get).lanes.any (·.everConnected)
  when canonicalFailed cancelGroup
  laneTransition store (if canonicalFailed && !everConnected then .unavailable else .degraded)
    (some (providerFailure error))
  return persisted

/-- The event itself. -/
def handleEvent (laneIndex capturedFrames : ℕ) : SttStreamEvent → CollectM σ PersistedCaptureChanges
  | .connected => handleConnected store laneIndex
  | .recoveryStarted outageMs =>
      handleRecoveryStarted store config laneIndex capturedFrames outageMs
  | .reconnecting _ _ planned => handleReconnecting store config laneIndex capturedFrames planned
  | .tokens tokens =>
      persistUpdates store config laneIndex (·.applyTokens config.isAlphabetic tokens)
  | .audioProgress finalMs totalMs lagMs =>
      handleAudioProgress store config laneIndex finalMs totalMs lagMs
  | .endpoint | .finalized => finalizeLane store config laneIndex .providerBoundary
  | .finished => finalizeLane store config laneIndex .connectionClosing
  | .inputDiscontinuity => handleInputDiscontinuity store config laneIndex
  | .error error => handleError store config laneIndex error

/-- Whether the Context can be marked as applied: each lane has accepted its configuration
or has failed, and at least one has accepted it. -/
def Collector.contextIsDue (c : Collector σ) : Bool :=
  !c.contextApplied && c.lanes.all (fun lane => lane.providerAcceptedConfiguration || lane.failed) &&
    c.lanes.any (·.providerAcceptedConfiguration) && config.contextDigest.isSome

/-- The Context is marked as applied. -/
def applyContext : CollectM σ PUnit := do
  when ((← get).contextIsDue config) do
    onStore (store.markContextApplied (config.contextDigest.getD ""))
    modify fun c => { c with contextApplied := true }
    emitCaptureDelta store .default

/-- What is sent after an event. -/
def publishAfter (laneIndex : ℕ) (event : SttStreamEvent) (persisted : PersistedCaptureChanges) :
    CollectM σ PUnit := do
  when (!persisted.translationCues.isEmpty) <| modify fun c => { c with
    liveTranslationCues :=
      reconcileLiveTranslationCues c.liveTranslationCues persisted.translationCues }
  when (!persisted.isEmpty) (emitCaptureDelta store persisted)
  when ((laneIndex = config.canonicalLaneIndex && publishesCanonicalPreview event) ||
      publishesLane event || !persisted.translationCues.isEmpty)
    (publish fun c => c.lanes[config.canonicalLaneIndex]?.map fun canonical =>
      .livePreview (livePreviews canonical.assembler)
        (liveTranslationCueSnapshot c.liveTranslationCues) (c.lanes.map (·.health)))

/-- An event of the connection the lane listens to. -/
def handle (laneIndex capturedFrames : ℕ) (event : SttStreamEvent) : CollectM σ PUnit := do
  when (acceptsConfiguration event)
    (modifyLane laneIndex fun lane => { lane with providerAcceptedConfiguration := true })
  applyContext store config
  let persisted ← handleEvent store config laneIndex capturedFrames event
  publishAfter store config laneIndex event persisted

/-- A lane comes back under the next epoch of the group. -/
def Collector.revive (c : Collector σ) (laneIndex generation : ℕ) : Collector σ :=
  { c with
    nextGroupEpoch := c.nextGroupEpoch + 1
    lanes := c.lanes.modify laneIndex (·.revived generation (c.nextGroupEpoch + 1)) }

/-- One round of the loop. -/
def collect (tagged : TaggedStreamEvent) (capturedFrames : ℕ) : CollectM σ PUnit := do
  match (← get).lanes[tagged.laneIndex]? with
  | none =>
      cancelGroup
      throw ⟨"invalid_stream_lane"⟩
  | some lane =>
      if tagged.generation < lane.generation then pure ()
      else if lane.generation < tagged.generation then
        modify fun c => c.revive tagged.laneIndex tagged.generation
        handle store config tagged.laneIndex capturedFrames tagged.event
      else if lane.failed && tagged.event ≠ .inputDiscontinuity then pure ()
      else handle store config tagged.laneIndex capturedFrames tagged.event

/-- What `collect_stream_events_until_closed` returns with, once a round has ended it. -/
def Collector.settle : EStateM.Result ProviderFailure (Collector σ) PUnit → Collector σ
  | .ok _ c => c
  | .error failure c => { c with ended := some failure, groupCancelled := true }

/-- An event and the frames captured by then. -/
structure CollectorInput where
  tagged : TaggedStreamEvent
  capturedFrames : ℕ

/-- A round, unless the group has ended. -/
def Collector.step (c : Collector σ) (input : CollectorInput) : Collector σ :=
  if c.ended.isSome then c
  else Collector.settle (collect store config input.tagged input.capturedFrames c)

/-- Rounds, one after the other. -/
def Collector.run (c : Collector σ) (inputs : List CollectorInput) : Collector σ :=
  inputs.foldl (Collector.step store config) c

/-- A lane when its group starts, its rows numbered from the origin (`continuing_at`). -/
def StreamAggregationLane.start (descriptor : RemoteStreamLane) (profile : Capture.AssemblerProfile)
    (nextSequence groupEpoch providerSessionEpoch : ℕ) : StreamAggregationLane where
  descriptor := descriptor
  assembler :=
    { profile := profile, nextSequence := nextSequence, segments := []
      latestOriginalSegment := none, latestTranslationSegment := none
      unattachedTranslationTokens := 0 }
  providerSessionEpoch := providerSessionEpoch
  groupEpoch := groupEpoch
  awaitingReconnect := false
  connected := false
  everConnected := false
  failed := false
  inputDiscontinuous := false
  finalAudioProcMs := none
  totalAudioProcMs := none
  lagMs := none
  providerAcceptedConfiguration := false
  disconnectedAtFrame := none
  generation := 0
  translationSettledThroughMs := 0

/-- `RemoteGroupOrigin`. -/
structure RemoteGroupOrigin where
  captureOriginMs : ℕ
  nextSequence : ℕ
  groupEpoch : ℕ
  providerSessionEpoch : ℕ
  deriving DecidableEq, Repr

/-- What the store has of a session: the numbers of its rows, and the epochs of its auxiliary facts
and of its speakers. -/
structure RealtimeRows where
  sequences : List ℕ
  groupEpochs : List ℕ
  providerSessionEpochs : List ℕ
  deriving DecidableEq, Repr

/-- `COALESCE(MAX(value) + 1, 0)` -/
def maxAddOne (values : List ℕ) : ℕ := values.foldr (fun value next => max (value + 1) next) 0

/-- `realtime_resume_point`: where a group is started again.  A recording opens with a session
that has none of these. -/
def realtimeResumePoint (rows : RealtimeRows) (captureOriginMs : ℕ) : RemoteGroupOrigin where
  captureOriginMs := captureOriginMs
  nextSequence := maxAddOne rows.sequences
  groupEpoch := maxAddOne rows.groupEpochs
  providerSessionEpoch := maxAddOne rows.providerSessionEpochs

/-- A group when it starts: its lanes, each with the profile it assembles by, and the cues
of the facts that are in the store. -/
def Collector.start (s : σ) (plan : List (RemoteStreamLane × Capture.AssemblerProfile))
    (origin : RemoteGroupOrigin) (rehydrated : List TranslationCue) : Collector σ where
  lanes := plan.map fun entry =>
    .start entry.1 entry.2 origin.nextSequence origin.groupEpoch origin.providerSessionEpoch
  nextGroupEpoch := origin.groupEpoch
  contextApplied := false
  liveTranslationCues :=
    rehydrated.foldl (fun cues cue => reconcileLiveTranslationCues cues [cue]) []
  groupCancelled := false
  store := s
  published := []
  facts := []
  ended := none

end Loop

end Recorder
end ZuTalk
