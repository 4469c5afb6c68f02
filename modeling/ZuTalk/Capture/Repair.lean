/-
# The repair of a gap

`macos/ZuTalk/ZuTalk/Capture/ActiveBilingualTranscriptStore.swift`: what the client does when
a delta leaves revisions out (`reconcileUtterances`, `beginUtteranceGapRepair`,
`runUtteranceGapRepair`).  The delta is shown at once; a snapshot is read, and the deltas
that came since are put on it again.

Deltas, reads that come back, and reads that fail come in any order.  A read that a repair
asked for is of no use to the next.
-/

import ZuTalk.Capture.Client
import ZuTalk.Library.Machine
import ZuTalk.Library.Ordered

namespace ZuTalk
namespace Capture

open Edits

/-- `UtteranceGapRepair.maximumBufferedDeltaCount`. -/
def maximumBufferedDeltaCount : ℕ := 256

/-- `UtteranceGapRepair`. -/
structure UtteranceGapRepair where
  id : ℕ
  generation : Option ℕ
  targetEventRevision : ℕ
  /-- By revision, the oldest first. -/
  bufferedDeltas : List (ℕ × NotebookCaptureEvent)

namespace UtteranceGapRepair

/-- `observe`. -/
def observe (repair : UtteranceGapRepair) (event : NotebookCaptureEvent) : UtteranceGapRepair :=
  if event.isFullSnapshot || event.eventRevision = 0 then repair
  else
    let deltas := Ordered.set event.eventRevision event repair.bufferedDeltas
    { repair with
      targetEventRevision := max repair.targetEventRevision event.eventRevision
      bufferedDeltas := deltas.drop (deltas.length - maximumBufferedDeltaCount) }

/-- The deltas to put on a checkpoint. -/
def replayDeltas (repair : UtteranceGapRepair) (checkpointRevision : ℕ) :
    List NotebookCaptureEvent :=
  (repair.bufferedDeltas.map (·.2)).filter (checkpointRevision < ·.eventRevision)

end UtteranceGapRepair

/-- `continuousThroughRevision`: how far the deltas go on from a checkpoint. -/
def continuousThrough : ℕ → List NotebookCaptureEvent → ℕ
  | revision, [] => revision
  | revision, delta :: deltas =>
      if delta.coversFrom ≤ revision + 1 ∧ revision + 1 ≤ delta.eventRevision then
        continuousThrough delta.eventRevision deltas
      else revision

/-- The client with its repair.  Callbacks come for one generation of captures. -/
structure RepairingClient where
  client : CaptureClient
  utteranceGapRepair : Option UtteranceGapRepair
  acceptedCallbackGeneration : Option ℕ
  /-- `callbackSessionId` is the session. -/
  callbackSession : Bool
  /-- How many repairs there have been. -/
  repairs : ℕ
  /-- The snapshots being read: for which repair, and its target when it asked. -/
  reads : List (ℕ × ℕ)

/-- What can happen next. -/
inductive RepairAct
  /-- An event is handed to `apply`. -/
  | apply (event : NotebookCaptureEvent)
  /-- The repair asks for a snapshot. -/
  | read
  /-- A read fails. -/
  | failed (id : ℕ)
  /-- A read comes back. -/
  | arrived (id : ℕ) (snapshot : NotebookCaptureEvent)

namespace RepairingClient

/-- A client that has seen nothing of the session. -/
def start (status : CaptureStatus) (acceptedCallbackGeneration : Option ℕ)
    (callbackSession : Bool) : RepairingClient where
  client :=
    { rows := fun _ => none
      translationCues := fun _ => none
      status := status
      realtimeLoroAppliedRevision := 0
      laneHealth := []
      contextReceipt := none
      lastAppliedEventRevision := none
      repairing := false }
  utteranceGapRepair := none
  acceptedCallbackGeneration := acceptedCallbackGeneration
  callbackSession := callbackSession
  repairs := 0
  reads := []

/-- An event is not applied at all: a delta older than what was applied last. -/
def Stale (c : RepairingClient) (event : NotebookCaptureEvent) : Prop :=
  (!event.isFullSnapshot && c.client.lastAppliedEventRevision.any (event.eventRevision < ·)) = true

instance (c : RepairingClient) (event : NotebookCaptureEvent) : Decidable (c.Stale event) :=
  inferInstanceAs (Decidable (_ = true))

/-- `beginUtteranceGapRepair`. -/
def beginUtteranceGapRepair (c : RepairingClient) (event : NotebookCaptureEvent) :
    UtteranceGapRepair :=
  UtteranceGapRepair.observe
    { id := c.repairs
      generation := c.acceptedCallbackGeneration
      targetEventRevision := event.eventRevision
      bufferedDeltas := [] } event

/-- `reconcileUtterances`, of the repair. -/
def reconcileRepair (c : RepairingClient) (event : NotebookCaptureEvent) : RepairingClient :=
  if event.isFullSnapshot then { c with utteranceGapRepair := none }
  else if c.client.lastAppliedEventRevision = some event.eventRevision then c
  else
    match c.utteranceGapRepair with
    | some repair => { c with utteranceGapRepair := some (repair.observe event) }
    | none =>
        if c.client.hasGap event then
          { c with
            utteranceGapRepair := some (c.beginUtteranceGapRepair event)
            repairs := c.repairs + 1 }
        else c

/-- `invalidateCaptureCallback`. -/
def invalidateCaptureCallback (c : RepairingClient) : RepairingClient :=
  { c with
    client := { c.client with repairing := false }
    utteranceGapRepair := none
    acceptedCallbackGeneration := none
    callbackSession := false }

/-- `enterLocalTerminal`: callbacks of the session end with it. -/
def enterLocalTerminal (c : RepairingClient) : RepairingClient :=
  if c.callbackSession then c.invalidateCaptureCallback else c

/-- `apply`. -/
def apply (c : RepairingClient) (event : NotebookCaptureEvent) : RepairingClient :=
  if c.Stale event then c
  else
    let c := { c.reconcileRepair event with client := c.client.apply event }
    if event.status.captureState.isActive then c else c.enterLocalTerminal

/-- `currentUtteranceGapRepair`. -/
def currentUtteranceGapRepair (c : RepairingClient) (id : ℕ) : Option UtteranceGapRepair :=
  c.utteranceGapRepair.filter fun repair =>
    repair.id = id && repair.generation = c.acceptedCallbackGeneration &&
      (repair.generation.isNone || c.callbackSession)

/-- `checkpointRevision`: revision zero says nothing, and the snapshot was read when the
repair had the target it asked with. -/
def checkpointRevision (requestedTargetEventRevision : ℕ) (snapshot : NotebookCaptureEvent) : ℕ :=
  if snapshot.eventRevision = 0 then requestedTargetEventRevision else snapshot.eventRevision

/-- The rows of a checkpoint with deltas put on them. -/
def repairedUtterances (snapshot : NotebookCaptureEvent)
    (replayDeltas : List NotebookCaptureEvent) : ℕ → Option NotebookCaptureUtterance :=
  replayDeltas.foldl
    (fun rows delta =>
      CaptureClient.merge (CaptureClient.removeUtterances rows delta.removedSequences)
        delta.utterances)
    (CaptureClient.merge (fun _ => none) snapshot.utterances)

/-- The cues and lanes of an event. -/
def reconcileRest (c : CaptureClient) (event : NotebookCaptureEvent) : CaptureClient :=
  (c.reconcileTranslationCues event).reconcileLaneHealth event

/-- The turn of `runUtteranceGapRepair` that a read comes back to. -/
def arrive (c : RepairingClient) (id requestedTargetEventRevision : ℕ)
    (snapshot : NotebookCaptureEvent) : RepairingClient :=
  match c.currentUtteranceGapRepair id with
  | none => c
  | some current =>
      if !snapshot.isFullSnapshot then c
      else
        let checkpoint := checkpointRevision requestedTargetEventRevision snapshot
        let replayDeltas := current.replayDeltas checkpoint
        let replayedMaximumRevision :=
          (replayDeltas.getLast?.map (·.eventRevision)).getD checkpoint
        let covered :=
          decide (current.targetEventRevision ≤ continuousThrough checkpoint replayDeltas)
        { c with
          client :=
            { replayDeltas.foldl reconcileRest (reconcileRest c.client snapshot) with
              rows := repairedUtterances snapshot replayDeltas
              lastAppliedEventRevision := some (max (c.client.lastAppliedEventRevision.getD 0)
                (max checkpoint replayedMaximumRevision))
              repairing := !covered }
          utteranceGapRepair :=
            if covered then none
            else some { current with
              bufferedDeltas := current.bufferedDeltas.filter (checkpoint < ·.1) } }

/-- A step of the client: nothing where it is not possible. -/
def step (c : RepairingClient) : RepairAct → Option RepairingClient
  | .apply event => some (c.apply event)
  | .read =>
      c.utteranceGapRepair.bind fun repair =>
        if (c.currentUtteranceGapRepair repair.id).isSome ∧
            ∀ read ∈ c.reads, read.1 ≠ repair.id then
          some { c with reads := c.reads ++ [(repair.id, repair.targetEventRevision)] }
        else none
  | .failed id =>
      (c.reads.find? (·.1 = id)).map fun _ => { c with reads := c.reads.filter (·.1 ≠ id) }
  | .arrived id snapshot =>
      (c.reads.find? (·.1 = id)).map fun read =>
        { c.arrive id read.2 snapshot with reads := c.reads.filter (·.1 ≠ id) }

end RepairingClient

end Capture
end ZuTalk
