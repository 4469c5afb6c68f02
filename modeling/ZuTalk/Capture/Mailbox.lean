/-
# The event mailbox

`crates/vt-ffi/src/notebook_capture_api.rs`: `CaptureCallbackSink`, the mailbox of
one capture.  It holds one event at most.  Every event gets a revision and is
refreshed from the store before it is queued; one that is queued while another
waits is merged with it.

`mailbox_hides_nothing`: the events that are delivered cover ranges of revisions
one after the other, each has merged in it exactly the events of its range, and
every revision that was lost lies between two ranges.  A full snapshot holds what
the store held when it was stamped, as long as its cues could be read and no event
that was refused carried the health of the lanes.
-/

import ZuTalk.Capture.Coalesce
import ZuTalk.Library.Machine

namespace ZuTalk
namespace Capture

open Edits

/-- What the store holds of the session. -/
structure SessionRecord where
  status : CaptureStatus
  run : CaptureRunFacts
  realtimeLoroAppliedRevision : ℕ
  contextReceipt : Option ContextReceipt
  utterances : List NotebookCaptureUtterance
  translationInbox : List TranslationCue
  deriving DecidableEq

/-- `list_present_translation_cues`. -/
def SessionRecord.presentCues (record : SessionRecord) : List TranslationCue :=
  record.translationInbox.filter fun cue => !cue.withdrawn

/-- `CaptureRemoteTruthOverlay`. -/
structure RemoteTruthOverlay where
  health : RemoteHealth
  errorType : String
  requestId : Option String
  deriving DecidableEq, Repr

/-- `apply_remote_truth_overlay`. -/
def applyRemoteTruthOverlay (event : NotebookCaptureEvent) :
    Option RemoteTruthOverlay → NotebookCaptureEvent
  | none => event
  | some overlay =>
      { event with
        status := { event.status with
          remoteHealth := overlay.health
          providerErrorType := some overlay.errorType
          providerRequestId := overlay.requestId } }

/-- `PendingCaptureCallbacks`. -/
structure PendingCaptureCallbacks where
  event : Option NotebookCaptureEvent
  remoteTruth : Option RemoteTruthOverlay
  laneHealth : List LaneHealth
  continuityBroken : Bool

/-- `CaptureCallbackMailbox`. -/
structure CaptureCallbackMailbox where
  pending : PendingCaptureCallbacks
  closed : Bool
  nextRevision : ℕ
  lastEnqueuedAppliedRevision : ℕ

/-- `CaptureCallbackSink::new`. -/
def CaptureCallbackMailbox.new : CaptureCallbackMailbox where
  pending := ⟨none, none, [], false⟩
  closed := false
  nextRevision := 1
  lastEnqueuedAppliedRevision := 0

/-- How `load_capture_callback_snapshot` ends, and whether the cues of a snapshot
are read after it. -/
inductive LoadOutcome
  | read (cuesRead : Bool)
  | missing
  | failed
  deriving DecidableEq, Repr

/-- `event_from_run`, of a snapshot. -/
def snapshotEvent (record : SessionRecord) (cuesRead : Bool) : NotebookCaptureEvent where
  eventRevision := 0
  isFullSnapshot := true
  status := record.status
  run := record.run
  realtimeLoroAppliedRevision := record.realtimeLoroAppliedRevision
  utterances := record.utterances
  removedSequences := []
  translationCues := if cuesRead then record.presentCues else []
  laneHealth := []
  contextReceipt := record.contextReceipt
  coversFromRevision := none
  present := fun _ cue hcue => by
    split at hcue
    · simpa using (List.mem_filter.1 hcue).2
    · cases hcue

/-- `event_from_run`, of a delta with the rows of some sequences. -/
def deltaEvent (record : SessionRecord) (sequences removedSequences : List ℕ)
    (translationCues : List TranslationCue) : NotebookCaptureEvent where
  eventRevision := 0
  isFullSnapshot := false
  status := record.status
  run := record.run
  realtimeLoroAppliedRevision := record.realtimeLoroAppliedRevision
  utterances := record.utterances.filter fun row => sequences.contains row.sequence
  removedSequences := removedSequences
  translationCues := translationCues
  laneHealth := []
  contextReceipt := record.contextReceipt
  coversFromRevision := none
  present := fun h => by cases h

/-- The refresh of an event that is sent. -/
def refreshEvent (record : SessionRecord) (event : NotebookCaptureEvent) (cuesRead : Bool) :
    NotebookCaptureEvent :=
  let refreshed :=
    if event.isFullSnapshot then snapshotEvent record cuesRead
    else deltaEvent record (event.utterances.map (·.sequence)) event.removedSequences
      event.translationCues
  { refreshed with
    status := { refreshed.status with realtimeLagMs := event.status.realtimeLagMs } }

namespace CaptureCallbackMailbox

variable (m : CaptureCallbackMailbox)

/-- A revision is handed out for an event that is not queued. -/
def refuse : CaptureCallbackMailbox :=
  { m with
    nextRevision := m.nextRevision + 1
    pending := { m.pending with continuityBroken := true } }

/-- What a live event and a terminal one leave of the process-local state. -/
def attach (refreshed : NotebookCaptureEvent) (laneHealth : List LaneHealth) :
    PendingCaptureCallbacks × NotebookCaptureEvent :=
  if !refreshed.status.captureState.isActive then
    ({ m.pending with remoteTruth := none, laneHealth := [] }, { refreshed with laneHealth := [] })
  else
    let lanes := if laneHealth = [] then m.pending.laneHealth else laneHealth
    ({ m.pending with laneHealth := lanes },
      { applyRemoteTruthOverlay refreshed m.pending.remoteTruth with laneHealth := lanes })

/-- The event that waits after another was queued. -/
def enqueue (pending : PendingCaptureCallbacks) (event : NotebookCaptureEvent) :
    NotebookCaptureEvent :=
  match pending.event with
  | some queued =>
      if pending.continuityBroken then event else coalesceCaptureEvents queued event
  | none => event

/-- The event a send queues. -/
def sentEvent (record : SessionRecord) (event : NotebookCaptureEvent) (cuesRead : Bool) :
    NotebookCaptureEvent :=
  { (m.attach (refreshEvent record event cuesRead) event.laneHealth).2 with
    eventRevision := m.nextRevision }

/-- `send_with_refresh_hook`. -/
def send (record : SessionRecord) (event : NotebookCaptureEvent) (load : LoadOutcome) :
    CaptureCallbackMailbox :=
  if m.closed then m.refuse
  else
    match load with
    | .missing | .failed => m.refuse
    | .read cuesRead =>
        let refreshed := m.sentEvent record event cuesRead
        let pending := (m.attach (refreshEvent record event cuesRead) event.laneHealth).1
        { m with
          nextRevision := m.nextRevision + 1
          lastEnqueuedAppliedRevision :=
            max m.lastEnqueuedAppliedRevision refreshed.realtimeLoroAppliedRevision
          pending := { pending with
            event := some (enqueue pending refreshed)
            continuityBroken := false } }

/-- `send_preview`, as far as it changes events. -/
def sendPreview (laneHealth : List LaneHealth) : CaptureCallbackMailbox :=
  if m.closed || laneHealth = [] then m
  else
    { m with pending := { m.pending with
        laneHealth := laneHealth
        event := m.pending.event.map fun event =>
          if event.status.captureState.isActive then { event with laneHealth := laneHealth }
          else event } }

/-- `set_remote_truth_overlay`. -/
def setRemoteTruthOverlay (overlay : RemoteTruthOverlay) : CaptureCallbackMailbox :=
  { m with pending := { m.pending with
      event := m.pending.event.map fun event => applyRemoteTruthOverlay event (some overlay)
      remoteTruth := some overlay } }

/-- `clear_remote_truth_overlay`. -/
def clearRemoteTruthOverlay : CaptureCallbackMailbox :=
  { m with pending := { m.pending with remoteTruth := none } }

/-- The event `commit_projection_ack` queues when none waits: the run as it was read
before. -/
def ackEvent (record : SessionRecord) (appliedRevision : ℕ) : NotebookCaptureEvent :=
  let event := applyRemoteTruthOverlay (deltaEvent record [] [] []) m.pending.remoteTruth
  { event with
    realtimeLoroAppliedRevision := max event.realtimeLoroAppliedRevision appliedRevision
    eventRevision := m.nextRevision }

/-- `commit_projection_ack`: `loaded` says whether the run could be read, `ack` what
the commit answered, if it did not fail. -/
def commitProjectionAck (record : SessionRecord) (loaded : Bool) (ack : Option (Bool × ℕ)) :
    CaptureCallbackMailbox :=
  if !m.closed && m.pending.event.isNone && !loaded then m
  else
    match ack with
    | none | some (false, _) => m
    | some (true, appliedRevision) =>
        if m.closed then m
        else
          match m.pending.event with
          | some event =>
              let applied := max event.realtimeLoroAppliedRevision appliedRevision
              { m with
                lastEnqueuedAppliedRevision := max m.lastEnqueuedAppliedRevision appliedRevision
                pending := { m.pending with
                  event := some { event with realtimeLoroAppliedRevision := applied } } }
          | none =>
              let event := m.ackEvent record appliedRevision
              { m with
                nextRevision := m.nextRevision + 1
                lastEnqueuedAppliedRevision :=
                  max m.lastEnqueuedAppliedRevision event.realtimeLoroAppliedRevision
                pending := { m.pending with event := some event } }

/-- `full_snapshot_with_remote_truth`, when the store can be read. -/
def fullSnapshot (record : SessionRecord) : CaptureCallbackMailbox × NotebookCaptureEvent :=
  let attached := m.attach (snapshotEvent record true) []
  ({ m with pending := attached.1 }, { attached.2 with eventRevision := m.nextRevision - 1 })

end CaptureCallbackMailbox

/-! ### Runs -/

/-- An event with a revision, and what it was stamped at: what the store held then,
and the health of the lanes as it was last told. -/
structure StampedEvent where
  event : NotebookCaptureEvent
  record : SessionRecord
  lanes : List LaneHealth

/-- An event and the events that are merged in it. -/
structure MergedEvent where
  event : NotebookCaptureEvent
  parts : List StampedEvent

/-- A mailbox with the store beside it, and what has become of it. -/
structure MailboxWorld where
  mailbox : CaptureCallbackMailbox
  record : SessionRecord
  /-- The events merged in the one that waits. -/
  parts : List StampedEvent
  delivered : List MergedEvent
  snapshots : List StampedEvent
  /-- The health of the lanes as it was last told of a live capture. -/
  lanes : List LaneHealth

/-- A step: the store is written, a call of the sink, the worker takes the event
that waits, or the dispatcher ends. -/
inductive MailboxStep
  | write (record : SessionRecord)
  | send (event : NotebookCaptureEvent) (load : LoadOutcome)
  | sendPreview (laneHealth : List LaneHealth)
  | setRemoteTruthOverlay (overlay : RemoteTruthOverlay)
  | clearRemoteTruthOverlay
  | commitProjectionAck (loaded : Bool) (ack : Option (Bool × ℕ))
  | drain
  | fullSnapshot
  | close
  deriving DecidableEq

namespace MailboxWorld

/-- A new mailbox. -/
def start (record : SessionRecord) : MailboxWorld where
  mailbox := .new
  record := record
  parts := []
  delivered := []
  snapshots := []
  lanes := []

variable (w : MailboxWorld)

/-- The lanes after an event tells of them. -/
def lanesAfter (laneHealth : List LaneHealth) : List LaneHealth :=
  if !w.record.status.captureState.isActive then []
  else if laneHealth = [] then w.lanes else laneHealth

/-- A send that is refused. -/
def refused (event : NotebookCaptureEvent) (load : LoadOutcome) : MailboxWorld where
  mailbox := w.mailbox.send w.record event load
  record := w.record
  parts := w.parts
  delivered := w.delivered
  snapshots := w.snapshots
  lanes :=
    if w.record.status.captureState.isActive && !event.laneHealth.isEmpty then event.laneHealth
    else w.lanes

/-- A send that is queued. -/
def queued (event : NotebookCaptureEvent) (cuesRead : Bool) : MailboxWorld :=
  let sent := w.mailbox.sentEvent w.record event cuesRead
  let part : StampedEvent := ⟨sent, w.record, w.lanesAfter event.laneHealth⟩
  { w with
    mailbox := w.mailbox.send w.record event (.read cuesRead)
    parts :=
      if w.mailbox.pending.event.isSome && !w.mailbox.pending.continuityBroken then
        w.parts ++ [part]
      else [part]
    lanes := w.lanesAfter event.laneHealth }

/-- One step. -/
def step : MailboxStep → MailboxWorld
  | .write record => { w with record := record }
  | .send event (.read cuesRead) =>
      if w.mailbox.closed then w.refused event (.read cuesRead) else w.queued event cuesRead
  | .send event load => w.refused event load
  | .sendPreview laneHealth =>
      { w with
        mailbox := w.mailbox.sendPreview laneHealth
        lanes := if w.mailbox.closed || laneHealth.isEmpty then w.lanes else laneHealth }
  | .setRemoteTruthOverlay overlay =>
      { w with mailbox := w.mailbox.setRemoteTruthOverlay overlay }
  | .clearRemoteTruthOverlay => { w with mailbox := w.mailbox.clearRemoteTruthOverlay }
  | .commitProjectionAck loaded ack =>
      let mailbox := w.mailbox.commitProjectionAck w.record loaded ack
      { w with
        mailbox := mailbox
        parts :=
          if w.mailbox.pending.event.isNone then
            mailbox.pending.event.toList.map fun event => ⟨event, w.record, w.lanes⟩
          else w.parts }
  | .drain =>
      match w.mailbox.pending.event with
      | none => w
      | some event =>
          { w with
            mailbox := { w.mailbox with pending := { w.mailbox.pending with event := none } }
            parts := []
            delivered := w.delivered ++ [⟨event, w.parts⟩] }
  | .fullSnapshot =>
      let read := w.mailbox.fullSnapshot w.record
      let lanes := if w.record.status.captureState.isActive then w.lanes else []
      { w with
        mailbox := read.1
        snapshots := w.snapshots ++ [⟨read.2, w.record, lanes⟩]
        lanes := lanes }
  | .close => { w with mailbox := { w.mailbox with closed := true } }

/-- Every step is possible in every state. -/
def next (w : MailboxWorld) (s : MailboxStep) : Option MailboxWorld := some (w.step s)

end MailboxWorld

/-! ### Merged events -/

/-- The edit of a row by some events, one after the other. -/
abbrev rowEdits (sequence : ℕ) (parts : List StampedEvent) : Edit NotebookCaptureUtterance :=
  Edit.all (·.revision) (fun part => part.event.rowEdit sequence) parts

/-- The edit of a cue by some events, one after the other. -/
abbrev partCueEdits (key : CueKey) (parts : List StampedEvent) : Edit TranslationCue :=
  Edit.all (·.revision) (fun part => part.event.cueEdit key) parts

/-- **An event carries its parts:** they have the revisions of its range, one each
and in order, and it does to every row and cue what they do in turn. -/
structure Carries (event : NotebookCaptureEvent) (parts : List StampedEvent) : Prop where
  range : event.coversFrom ≤ event.eventRevision
  revisions : parts.map (·.event.eventRevision) =
    List.range' event.coversFrom (event.eventRevision + 1 - event.coversFrom)
  rowEdit : ∀ sequence, event.rowEdit sequence = rowEdits sequence parts
  cueEdit : ∀ key, event.cueEdit key = partCueEdits key parts

namespace Carries

variable {event : NotebookCaptureEvent} {parts : List StampedEvent}

/-- What an event carries does not depend on the status it tells. -/
theorem congr {event' : NotebookCaptureEvent} (h : Carries event parts)
    (hrevision : event'.eventRevision = event.eventRevision)
    (hcovers : event'.coversFromRevision = event.coversFromRevision)
    (hrow : ∀ sequence, event'.rowEdit sequence = event.rowEdit sequence)
    (hcue : ∀ key, event'.cueEdit key = event.cueEdit key) : Carries event' parts := by
  have hfrom : event'.coversFrom = event.coversFrom := by
    unfold NotebookCaptureEvent.coversFrom
    rw [hrevision, hcovers]
  exact ⟨by rw [hfrom, hrevision]; exact h.range, by rw [hfrom, hrevision]; exact h.revisions,
    fun sequence => (hrow sequence).trans (h.rowEdit sequence),
    fun key => (hcue key).trans (h.cueEdit key)⟩

/-- An event that is only itself. -/
theorem single {part : StampedEvent} (h : part.event.coversFromRevision = none) :
    Carries part.event [part] := by
  have hfrom : part.event.coversFrom = part.event.eventRevision := by
    unfold NotebookCaptureEvent.coversFrom
    rw [h, Option.getD_none]
  refine ⟨Nat.le_of_eq hfrom, ?_, fun sequence => ?_, fun key => ?_⟩
  · rw [hfrom, Nat.add_sub_cancel_left]
    rfl
  · rw [rowEdits, Edit.all_cons, Edit.all_nil, Edit.comp_keep]
  · rw [partCueEdits, Edit.all_cons, Edit.all_nil, Edit.comp_keep]

/-- The next event is merged in. -/
theorem concat (h : Carries event parts) {part : StampedEvent}
    (hnone : part.event.coversFromRevision = none)
    (hnext : part.event.eventRevision = event.eventRevision + 1) :
    Carries (coalesceCaptureEvents event part.event) (parts ++ [part]) := by
  have hfrom : part.event.coversFrom = event.eventRevision + 1 := by
    unfold NotebookCaptureEvent.coversFrom
    rw [hnone, Option.getD_none, hnext]
  have hcontiguous : event.Contiguous part.event := Nat.le_of_eq hfrom
  have hjoins : event.Joins part.event := .inr (.inr hcontiguous)
  have hrange := h.range
  have hmerged : (coalesceCaptureEvents event part.event).coversFrom = event.coversFrom := by
    rw [coversFrom_coalesce, if_pos hcontiguous, hfrom]
    omega
  refine ⟨?_, ?_, fun sequence => ?_, fun key => ?_⟩
  · rw [hmerged, eventRevision_coalesce, hnext]
    omega
  · have hlength : event.eventRevision + 1 + 1 - event.coversFrom =
        (event.eventRevision + 1 - event.coversFrom) + 1 := by omega
    have hlast : event.coversFrom + (event.eventRevision + 1 - event.coversFrom) =
        event.eventRevision + 1 := by omega
    rw [hmerged, eventRevision_coalesce, hnext, hlength, List.range'_concat, List.map_append,
      h.revisions, Nat.one_mul, hlast, List.map_singleton, hnext]
  · rw [rowEdit_coalesce hjoins, h.rowEdit]
    exact (Edit.all_concat ..).symm
  · rw [cueEdit_coalesce hjoins, h.cueEdit]
    exact (Edit.all_concat ..).symm

end Carries

/-! ### What no run loses -/

/-- A full snapshot holds what the store held when it was stamped, and the health of
the lanes as it was last told. -/
structure StampedEvent.Exact (part : StampedEvent) : Prop where
  isFullSnapshot : part.event.isFullSnapshot = true
  captureState : part.event.status.captureState = part.record.status.captureState
  utterances : part.event.utterances = part.record.utterances
  translationCues : part.event.translationCues = part.record.presentCues
  laneHealth : part.event.laneHealth = part.lanes
  appliedRevision :
    part.event.realtimeLoroAppliedRevision = part.record.realtimeLoroAppliedRevision
  contextReceipt : part.event.contextReceipt = part.record.contextReceipt

/-- A full snapshot is an exact one and the events that followed it. -/
def Whole (event : NotebookCaptureEvent) (parts : List StampedEvent) : Prop :=
  event.isFullSnapshot = true →
    ∃ before snapshot after, parts = before ++ snapshot :: after ∧ snapshot.Exact

/-- The condition on a step: a full snapshot has its cues read, and no news of the
lanes of a live capture is in an event that is refused. -/
def MailboxStep.Faithful (w : MailboxWorld) : MailboxStep → Prop
  | .send event load =>
      (w.mailbox.closed = false → load = .read false → event.isFullSnapshot = true →
        w.record.presentCues = []) ∧
      (w.mailbox.closed = true ∨ load = .missing ∨ load = .failed →
        w.record.status.captureState.isActive = true →
        event.laneHealth = [] ∨ event.laneHealth = w.lanes)
  | _ => True

/-- **Nothing is hidden.** -/
structure MailboxWorld.Sound (w : MailboxWorld) : Prop where
  /-- A revision has been kept for nothing yet. -/
  started : 0 < w.mailbox.nextRevision
  /-- The ranges of the events delivered, and of the one that waits, lie one behind
  the other. -/
  ordered : (w.delivered.map (·.event) ++ w.mailbox.pending.event.toList).Pairwise
    fun earlier later => earlier.eventRevision < later.coversFrom
  /-- An event that is delivered has been given its revision, and in it is merged every
  event of its range. -/
  delivered : ∀ d ∈ w.delivered, Carries d.event d.parts ∧ Whole d.event d.parts ∧
    d.event.eventRevision < w.mailbox.nextRevision
  /-- So it is for the event that waits. -/
  waiting : ∀ event ∈ w.mailbox.pending.event, Carries event w.parts ∧ Whole event w.parts ∧
    event.eventRevision < w.mailbox.nextRevision
  /-- If no revision was lost since, the event that waits has the last one. -/
  unbroken : ∀ event ∈ w.mailbox.pending.event, w.mailbox.pending.continuityBroken = false →
    event.eventRevision + 1 = w.mailbox.nextRevision
  /-- A snapshot that is read is exact, and stamped with a revision that was given. -/
  snapshots : ∀ s ∈ w.snapshots, s.Exact ∧ s.event.eventRevision < w.mailbox.nextRevision
  lanes : w.mailbox.pending.laneHealth = w.lanes

section Sent

variable (m : CaptureCallbackMailbox) (record : SessionRecord) (event : NotebookCaptureEvent)
  (cuesRead : Bool)

@[simp] theorem refreshEvent_captureState :
    (refreshEvent record event cuesRead).status.captureState = record.status.captureState := by
  unfold refreshEvent
  split <;> rfl

@[simp] theorem refreshEvent_isFullSnapshot :
    (refreshEvent record event cuesRead).isFullSnapshot = event.isFullSnapshot := by
  unfold refreshEvent
  cases h : event.isFullSnapshot <;> rfl

@[simp] theorem refreshEvent_coversFromRevision :
    (refreshEvent record event cuesRead).coversFromRevision = none := by
  unfold refreshEvent
  split <;> rfl

/-- What is attached to an event changes its health and that of its lanes only. -/
theorem attach_snd (refreshed : NotebookCaptureEvent) (laneHealth : List LaneHealth) :
    ∃ status lanes, (m.attach refreshed laneHealth).2 =
        { refreshed with status := status, laneHealth := lanes } ∧
      status.captureState = refreshed.status.captureState := by
  unfold CaptureCallbackMailbox.attach
  split
  · exact ⟨refreshed.status, [], rfl, rfl⟩
  · cases m.pending.remoteTruth with
    | none => exact ⟨refreshed.status, _, rfl, rfl⟩
    | some overlay => exact ⟨_, _, rfl, rfl⟩

/-- The event that waits is left as it is. -/
theorem attach_fst_event (refreshed : NotebookCaptureEvent) (laneHealth : List LaneHealth) :
    (m.attach refreshed laneHealth).1.event = m.pending.event ∧
      (m.attach refreshed laneHealth).1.continuityBroken = m.pending.continuityBroken := by
  unfold CaptureCallbackMailbox.attach
  split <;> exact ⟨rfl, rfl⟩

/-- An event carries the health of the lanes that is kept. -/
theorem attach_laneHealth (refreshed : NotebookCaptureEvent) (laneHealth : List LaneHealth) :
    (m.attach refreshed laneHealth).2.laneHealth = (m.attach refreshed laneHealth).1.laneHealth := by
  unfold CaptureCallbackMailbox.attach
  split <;> rfl

@[simp] theorem sentEvent_eventRevision :
    (m.sentEvent record event cuesRead).eventRevision = m.nextRevision := rfl

theorem sentEvent_coversFromRevision :
    (m.sentEvent record event cuesRead).coversFromRevision = none := by
  obtain ⟨status, lanes, h, -⟩ :=
    attach_snd m (refreshEvent record event cuesRead) event.laneHealth
  unfold CaptureCallbackMailbox.sentEvent
  rw [h]
  exact refreshEvent_coversFromRevision record event cuesRead

theorem sentEvent_isFullSnapshot :
    (m.sentEvent record event cuesRead).isFullSnapshot = event.isFullSnapshot := by
  obtain ⟨status, lanes, h, -⟩ :=
    attach_snd m (refreshEvent record event cuesRead) event.laneHealth
  unfold CaptureCallbackMailbox.sentEvent
  rw [h]
  exact refreshEvent_isFullSnapshot record event cuesRead

/-- The cues of a snapshot, if they could be read. -/
theorem snapshotEvent_translationCues (h : cuesRead = false → record.presentCues = []) :
    (snapshotEvent record cuesRead).translationCues = record.presentCues := by
  cases cuesRead with
  | true => rfl
  | false => exact (h rfl).symm

end Sent

namespace MailboxWorld

variable {w : MailboxWorld}

theorem attach_lanes (h : w.mailbox.pending.laneHealth = w.lanes)
    (refreshed : NotebookCaptureEvent)
    (hstate : refreshed.status.captureState = w.record.status.captureState)
    (laneHealth : List LaneHealth) :
    (w.mailbox.attach refreshed laneHealth).1.laneHealth = w.lanesAfter laneHealth := by
  unfold CaptureCallbackMailbox.attach lanesAfter
  rw [hstate, h]
  split <;> rfl

/-- A full snapshot that is sent is exact. -/
theorem exact_sentEvent (h : w.mailbox.pending.laneHealth = w.lanes)
    {event : NotebookCaptureEvent} {cuesRead : Bool} (hfull : event.isFullSnapshot = true)
    (hcues : cuesRead = false → w.record.presentCues = []) :
    StampedEvent.Exact ⟨w.mailbox.sentEvent w.record event cuesRead, w.record,
      w.lanesAfter event.laneHealth⟩ := by
  have hstate := refreshEvent_captureState w.record event cuesRead
  have hlanes := attach_lanes h _ hstate event.laneHealth
  rw [← attach_laneHealth] at hlanes
  obtain ⟨status, lanes, hattach, hstatus⟩ :=
    attach_snd w.mailbox (refreshEvent w.record event cuesRead) event.laneHealth
  have hsnapshot : (refreshEvent w.record event cuesRead) =
      { snapshotEvent w.record cuesRead with
        status := { w.record.status with realtimeLagMs := event.status.realtimeLagMs } } := by
    unfold refreshEvent
    rw [if_pos hfull]
    rfl
  constructor
  · exact (sentEvent_isFullSnapshot ..).trans hfull
  · show (w.mailbox.attach _ _).2.status.captureState = _
    rw [hattach]
    exact hstatus.trans hstate
  · show (w.mailbox.attach _ _).2.utterances = _
    rw [hattach, hsnapshot]
    rfl
  · show (w.mailbox.attach _ _).2.translationCues = _
    rw [hattach, hsnapshot]
    exact snapshotEvent_translationCues _ _ hcues
  · exact hlanes
  · show (w.mailbox.attach _ _).2.realtimeLoroAppliedRevision = _
    rw [hattach, hsnapshot]
    rfl
  · show (w.mailbox.attach _ _).2.contextReceipt = _
    rw [hattach, hsnapshot]
    rfl

/-- A full snapshot that is read is exact. -/
theorem exact_fullSnapshot (h : w.mailbox.pending.laneHealth = w.lanes) :
    StampedEvent.Exact ⟨(w.mailbox.fullSnapshot w.record).2, w.record,
      if w.record.status.captureState.isActive then w.lanes else []⟩ := by
  have hlanes := attach_lanes h (snapshotEvent w.record true) rfl []
  rw [← attach_laneHealth] at hlanes
  obtain ⟨status, lanes, hattach, hstatus⟩ :=
    attach_snd w.mailbox (snapshotEvent w.record true) []
  constructor
  · show (w.mailbox.attach _ _).2.isFullSnapshot = _
    rw [hattach]
    rfl
  · show (w.mailbox.attach _ _).2.status.captureState = _
    rw [hattach]
    exact hstatus
  · show (w.mailbox.attach _ _).2.utterances = _
    rw [hattach]
    rfl
  · show (w.mailbox.attach _ _).2.translationCues = _
    rw [hattach]
    rfl
  · refine hlanes.trans ?_
    unfold lanesAfter
    cases w.record.status.captureState.isActive <;> rfl
  · show (w.mailbox.attach _ _).2.realtimeLoroAppliedRevision = _
    rw [hattach]
    rfl
  · show (w.mailbox.attach _ _).2.contextReceipt = _
    rw [hattach]
    rfl

/-! ### One step -/

/-- The same event in all but what it tells of the capture as it is now. -/
structure Retold (event event' : NotebookCaptureEvent) : Prop where
  eventRevision : event'.eventRevision = event.eventRevision
  coversFromRevision : event'.coversFromRevision = event.coversFromRevision
  isFullSnapshot : event'.isFullSnapshot = event.isFullSnapshot
  utterances : event'.utterances = event.utterances
  removedSequences : event'.removedSequences = event.removedSequences
  translationCues : event'.translationCues = event.translationCues

namespace Retold

variable {event event' : NotebookCaptureEvent} {parts : List StampedEvent}

theorem coversFrom (h : Retold event event') : event'.coversFrom = event.coversFrom := by
  unfold NotebookCaptureEvent.coversFrom
  rw [h.eventRevision, h.coversFromRevision]

theorem carries (h : Retold event event') (hcarries : Carries event parts) :
    Carries event' parts := by
  refine hcarries.congr h.eventRevision h.coversFromRevision (fun sequence => ?_) fun key => ?_
  · unfold NotebookCaptureEvent.rowEdit
    rw [h.isFullSnapshot, h.utterances, h.removedSequences]
  · unfold NotebookCaptureEvent.cueEdit
    rw [h.isFullSnapshot, h.translationCues]

theorem whole (h : Retold event event') (hwhole : Whole event parts) : Whole event' parts :=
  fun hfull => hwhole (h.isFullSnapshot ▸ hfull)

theorem remoteTruth (event : NotebookCaptureEvent) (overlay : Option RemoteTruthOverlay) :
    Retold event (applyRemoteTruthOverlay event overlay) := by
  cases overlay <;> exact ⟨rfl, rfl, rfl, rfl, rfl, rfl⟩

end Retold

/-- Telling the event that waits anew hides nothing. -/
theorem Sound.retold {w' : MailboxWorld} (h : w.Sound)
    (retell : NotebookCaptureEvent → NotebookCaptureEvent) (hretell : ∀ e, Retold e (retell e))
    (hevent : w'.mailbox.pending.event = w.mailbox.pending.event.map retell)
    (hnext : w'.mailbox.nextRevision = w.mailbox.nextRevision)
    (hbroken : w'.mailbox.pending.continuityBroken = w.mailbox.pending.continuityBroken)
    (hparts : w'.parts = w.parts) (hdelivered : w'.delivered = w.delivered)
    (hsnapshots : w'.snapshots = w.snapshots)
    (hlanes : w'.mailbox.pending.laneHealth = w'.lanes) : w'.Sound := by
  have hwaiting : ∀ e' ∈ w'.mailbox.pending.event,
      ∃ e ∈ w.mailbox.pending.event, e' = retell e := by
    intro e' he'
    rw [hevent, Option.mem_def, Option.map_eq_some_iff] at he'
    obtain ⟨e, he, hmap⟩ := he'
    exact ⟨e, he, hmap.symm⟩
  constructor
  · rw [hnext]
    exact h.started
  · have hordered := h.ordered
    rw [hdelivered, hevent]
    rw [List.pairwise_append] at hordered ⊢
    refine ⟨hordered.1, ?_, fun e he e' he' => ?_⟩
    · cases w.mailbox.pending.event <;> simp
    · rw [Option.mem_toList, Option.map_eq_some_iff] at he'
      obtain ⟨e', he', rfl⟩ := he'
      rw [(hretell e').coversFrom]
      exact hordered.2.2 e he e' (Option.mem_toList.2 he')
  · rw [hdelivered, hnext]
    exact h.delivered
  · intro e' he'
    obtain ⟨e, he, rfl⟩ := hwaiting e' he'
    obtain ⟨hcarries, hwhole, hlt⟩ := h.waiting e he
    rw [hparts, hnext, (hretell e).eventRevision]
    exact ⟨(hretell e).carries hcarries, (hretell e).whole hwhole, hlt⟩
  · intro e' he' hunbroken
    obtain ⟨e, he, rfl⟩ := hwaiting e' he'
    rw [hnext, (hretell e).eventRevision]
    exact h.unbroken e he (hbroken ▸ hunbroken)
  · rw [hsnapshots, hnext]
    exact h.snapshots
  · exact hlanes

/-- An event that was refused left a revision behind. -/
theorem Sound.refuse (h : w.Sound) : MailboxWorld.Sound { w with mailbox := w.mailbox.refuse } where
  started := Nat.succ_pos _
  ordered := h.ordered
  delivered := fun d hd =>
    let ⟨hcarries, hwhole, hlt⟩ := h.delivered d hd
    ⟨hcarries, hwhole, Nat.lt_succ_of_lt hlt⟩
  waiting := fun e he =>
    let ⟨hcarries, hwhole, hlt⟩ := h.waiting e he
    ⟨hcarries, hwhole, Nat.lt_succ_of_lt hlt⟩
  unbroken := fun _ _ hunbroken => by cases hunbroken
  snapshots := fun s hs => ⟨(h.snapshots s hs).1, Nat.lt_succ_of_lt (h.snapshots s hs).2⟩
  lanes := h.lanes

theorem send_refused {m : CaptureCallbackMailbox} {load : LoadOutcome}
    (h : m.closed = true ∨ load = .missing ∨ load = .failed) (record : SessionRecord)
    (event : NotebookCaptureEvent) : m.send record event load = m.refuse := by
  unfold CaptureCallbackMailbox.send
  rcases h with h | rfl | rfl
  · rw [if_pos h]
  · split <;> rfl
  · split <;> rfl

/-- A send that is refused hides nothing if it had no news of the lanes. -/
theorem Sound.refused (h : w.Sound) {event : NotebookCaptureEvent} {load : LoadOutcome}
    (hrefused : w.mailbox.closed = true ∨ load = .missing ∨ load = .failed)
    (hfaithful : MailboxStep.Faithful w (.send event load)) : (w.refused event load).Sound := by
  have hlanes : (w.refused event load).lanes = w.lanes := by
    unfold MailboxWorld.refused
    cases hactive : w.record.status.captureState.isActive with
    | false => rfl
    | true =>
        rcases hfaithful.2 hrefused hactive with hnone | hsame
        · simp [hnone]
        · simp [hsame]
  have heq : w.refused event load = { w with mailbox := w.mailbox.refuse } := by
    have hsend := send_refused hrefused w.record event
    unfold MailboxWorld.refused at hlanes ⊢
    rw [hsend]
    dsimp only at hlanes
    rw [hlanes]
  rw [heq]
  exact h.refuse

/-- The events merged in the one that waits, after another was queued. -/
def partsAfter (part : StampedEvent) : List StampedEvent :=
  if w.mailbox.pending.event.isSome && !w.mailbox.pending.continuityBroken then w.parts ++ [part]
  else [part]

/-- The event that waits after another was queued carries what it has to, and covers
nothing that was delivered before. -/
theorem Sound.enqueue (h : w.Sound) {part : StampedEvent}
    (hnone : part.event.coversFromRevision = none)
    (hrevision : part.event.eventRevision = w.mailbox.nextRevision)
    (hexact : part.event.isFullSnapshot = true → part.Exact)
    {pending : PendingCaptureCallbacks} (hevent : pending.event = w.mailbox.pending.event)
    (hbroken : pending.continuityBroken = w.mailbox.pending.continuityBroken) :
    let event := CaptureCallbackMailbox.enqueue pending part.event
    Carries event (w.partsAfter part) ∧ Whole event (w.partsAfter part) ∧
      event.eventRevision = w.mailbox.nextRevision ∧
      ∀ d ∈ w.delivered, d.event.eventRevision < event.coversFrom := by
  have hfrom : part.event.coversFrom = w.mailbox.nextRevision := by
    unfold NotebookCaptureEvent.coversFrom
    rw [hnone, Option.getD_none, hrevision]
  have hfresh : Carries part.event [part] ∧ Whole part.event [part] ∧
      part.event.eventRevision = w.mailbox.nextRevision ∧
      ∀ d ∈ w.delivered, d.event.eventRevision < part.event.coversFrom := by
    refine ⟨Carries.single hnone, fun hfull => ⟨[], part, [], rfl, hexact hfull⟩, hrevision, ?_⟩
    intro d hd
    rw [hfrom]
    exact (h.delivered d hd).2.2
  unfold CaptureCallbackMailbox.enqueue MailboxWorld.partsAfter
  rw [hevent, hbroken]
  cases hqueued : w.mailbox.pending.event with
  | none => exact hfresh
  | some queued =>
      cases hunbroken : w.mailbox.pending.continuityBroken with
      | true => exact hfresh
      | false =>
          have hlast := h.unbroken queued hqueued hunbroken
          obtain ⟨hcarries, hwhole, -⟩ := h.waiting queued hqueued
          have hcontiguous : queued.Contiguous part.event := by
            unfold NotebookCaptureEvent.Contiguous
            omega
          have hrange := hcarries.range
          show Carries (coalesceCaptureEvents queued part.event) (w.parts ++ [part]) ∧
            Whole (coalesceCaptureEvents queued part.event) (w.parts ++ [part]) ∧
            (coalesceCaptureEvents queued part.event).eventRevision = w.mailbox.nextRevision ∧
            ∀ d ∈ w.delivered,
              d.event.eventRevision < (coalesceCaptureEvents queued part.event).coversFrom
          refine ⟨hcarries.concat hnone (by omega), fun hfull => ?_, ?_, fun d hd => ?_⟩
          · rw [isFullSnapshot_coalesce, Bool.or_eq_true, Bool.and_eq_true] at hfull
            rcases hfull with hpart | hbefore
            · exact ⟨w.parts, part, [], rfl, hexact hpart⟩
            · obtain ⟨before, snapshot, after, hparts, hsnapshot⟩ := hwhole hbefore.1
              exact ⟨before, snapshot, after ++ [part], by simp [hparts], hsnapshot⟩
          · exact (eventRevision_coalesce queued part.event).trans hrevision
          · have hordered := (List.pairwise_append.1 h.ordered).2.2 d.event
              (List.mem_map_of_mem hd) queued (Option.mem_toList.2 hqueued)
            have hmerged : (coalesceCaptureEvents queued part.event).coversFrom =
                queued.coversFrom := by
              rw [coversFrom_coalesce, if_pos hcontiguous, hfrom]
              omega
            rw [hmerged]
            exact hordered

/-- An event that is queued hides nothing. -/
theorem Sound.enqueued (h : w.Sound) {w' : MailboxWorld} (part : StampedEvent)
    (hnone : part.event.coversFromRevision = none)
    (hrevision : part.event.eventRevision = w.mailbox.nextRevision)
    (hexact : part.event.isFullSnapshot = true → part.Exact)
    (pending : PendingCaptureCallbacks) (hpending : pending.event = w.mailbox.pending.event)
    (hbroken : pending.continuityBroken = w.mailbox.pending.continuityBroken)
    (hevent : w'.mailbox.pending.event =
      some (CaptureCallbackMailbox.enqueue pending part.event))
    (hnext : w'.mailbox.nextRevision = w.mailbox.nextRevision + 1)
    (hparts : w'.parts = w.partsAfter part) (hdelivered : w'.delivered = w.delivered)
    (hsnapshots : w'.snapshots = w.snapshots)
    (hlanes : w'.mailbox.pending.laneHealth = w'.lanes) : w'.Sound := by
  obtain ⟨hcarries, hwhole, hlast, hbehind⟩ := h.enqueue hnone hrevision hexact hpending hbroken
  constructor
  · rw [hnext]
    exact Nat.succ_pos _
  · rw [hdelivered, hevent, List.pairwise_append]
    refine ⟨(List.pairwise_append.1 h.ordered).1, List.pairwise_singleton .., ?_⟩
    intro e he e' he'
    obtain ⟨d, hd, rfl⟩ := List.mem_map.1 he
    obtain rfl := List.mem_singleton.1 he'
    exact hbehind d hd
  · intro d hd
    rw [hdelivered] at hd
    obtain ⟨hcarries, hwhole, hlt⟩ := h.delivered d hd
    exact ⟨hcarries, hwhole, by omega⟩
  · intro e he
    rw [hevent, Option.mem_some] at he
    subst he
    rw [hparts, hnext, hlast]
    exact ⟨hcarries, hwhole, Nat.lt_succ_self _⟩
  · intro e he _
    rw [hevent, Option.mem_some] at he
    subst he
    rw [hnext, hlast]
  · intro s hs
    rw [hsnapshots] at hs
    have := (h.snapshots s hs).2
    exact ⟨(h.snapshots s hs).1, by omega⟩
  · exact hlanes

/-- A send that is queued hides nothing. -/
theorem Sound.queued (h : w.Sound) {event : NotebookCaptureEvent} {cuesRead : Bool}
    (hopen : w.mailbox.closed = false)
    (hfaithful : MailboxStep.Faithful w (.send event (.read cuesRead))) :
    (w.queued event cuesRead).Sound := by
  have hsend : w.mailbox.send w.record event (.read cuesRead) =
      { w.mailbox with
        nextRevision := w.mailbox.nextRevision + 1
        lastEnqueuedAppliedRevision := max w.mailbox.lastEnqueuedAppliedRevision
          (w.mailbox.sentEvent w.record event cuesRead).realtimeLoroAppliedRevision
        pending :=
          { (w.mailbox.attach (refreshEvent w.record event cuesRead) event.laneHealth).1 with
            event := some (CaptureCallbackMailbox.enqueue
              (w.mailbox.attach (refreshEvent w.record event cuesRead) event.laneHealth).1
              (w.mailbox.sentEvent w.record event cuesRead))
            continuityBroken := false } } := by
    unfold CaptureCallbackMailbox.send
    rw [if_neg (by simp [hopen])]
  have hfst := attach_fst_event w.mailbox (refreshEvent w.record event cuesRead) event.laneHealth
  refine h.enqueued
    ⟨w.mailbox.sentEvent w.record event cuesRead, w.record, w.lanesAfter event.laneHealth⟩
    (sentEvent_coversFromRevision ..) rfl (fun hfull => ?_) _ hfst.1 hfst.2 ?_ ?_ rfl rfl rfl ?_
  · refine exact_sentEvent h.lanes ((sentEvent_isFullSnapshot ..).symm.trans hfull) fun hunread => ?_
    exact hfaithful.1 hopen (by rw [hunread])
      ((sentEvent_isFullSnapshot ..).symm.trans hfull)
  · show (w.mailbox.send _ _ _).pending.event = _
    rw [hsend]
  · show (w.mailbox.send _ _ _).nextRevision = _
    rw [hsend]
  · show (w.mailbox.send _ _ _).pending.laneHealth = _
    rw [hsend]
    exact attach_lanes h.lanes _ (refreshEvent_captureState ..) event.laneHealth

/-- The event that waits is delivered. -/
theorem Sound.drain (h : w.Sound) {event : NotebookCaptureEvent}
    (hevent : w.mailbox.pending.event = some event) :
    MailboxWorld.Sound { w with
      mailbox := { w.mailbox with pending := { w.mailbox.pending with event := none } }
      parts := []
      delivered := w.delivered ++ [⟨event, w.parts⟩] } := by
  constructor
  · exact h.started
  · have hordered := h.ordered
    rw [hevent] at hordered
    simpa using hordered
  · intro d hd
    rcases List.mem_append.1 hd with hd | hd
    · exact h.delivered d hd
    · obtain rfl := List.mem_singleton.1 hd
      exact h.waiting event hevent
  · intro e he
    cases he
  · intro e he
    cases he
  · exact h.snapshots
  · exact h.lanes

/-- A snapshot that is read. -/
theorem Sound.fullSnapshot (h : w.Sound) : (w.step .fullSnapshot).Sound := by
  have hexact := exact_fullSnapshot h.lanes
  obtain ⟨hevent, hbroken⟩ := attach_fst_event w.mailbox (snapshotEvent w.record true) []
  have hlanes := attach_lanes h.lanes (snapshotEvent w.record true) rfl []
  have hstarted := h.started
  constructor
  · exact h.started
  · show List.Pairwise _ (_ ++ (w.mailbox.attach _ _).1.event.toList)
    rw [hevent]
    exact h.ordered
  · exact h.delivered
  · intro e he
    exact h.waiting e (hevent ▸ he)
  · intro e he hunbroken
    exact h.unbroken e (hevent ▸ he) (hbroken ▸ hunbroken)
  · intro s hs
    rcases List.mem_append.1 hs with hs | hs
    · exact h.snapshots s hs
    · obtain rfl := List.mem_singleton.1 hs
      refine ⟨hexact, ?_⟩
      show w.mailbox.nextRevision - 1 < w.mailbox.nextRevision
      omega
  · refine hlanes.trans ?_
    unfold lanesAfter
    show _ = if w.record.status.captureState.isActive then w.lanes else []
    cases w.record.status.captureState.isActive <;> rfl

/-- A projection that is acknowledged. -/
theorem Sound.commitProjectionAck (h : w.Sound) (loaded : Bool) (ack : Option (Bool × ℕ)) :
    (w.step (.commitProjectionAck loaded ack)).Sound := by
  have hsame : MailboxWorld.Sound { w with
      parts := if w.mailbox.pending.event.isNone then
        w.mailbox.pending.event.toList.map fun event => ⟨event, w.record, w.lanes⟩
        else w.parts } := by
    cases hevent : w.mailbox.pending.event with
    | some event => exact h
    | none =>
        refine ⟨h.started, h.ordered, h.delivered, fun e he => ?_, h.unbroken, h.snapshots, h.lanes⟩
        rw [hevent] at he
        cases he
  unfold MailboxWorld.step CaptureCallbackMailbox.commitProjectionAck
  dsimp only
  split
  · exact hsame
  · cases ack with
    | none => exact hsame
    | some ack =>
        obtain ⟨advanced, appliedRevision⟩ := ack
        cases advanced with
        | false => exact hsame
        | true =>
            cases hclosed : w.mailbox.closed with
            | true => exact hsame
            | false =>
                cases hevent : w.mailbox.pending.event with
                | some event =>
                    -- Only the watermark of the event that waits is raised.
                    refine h.retold (fun e => { e with
                      realtimeLoroAppliedRevision :=
                        max e.realtimeLoroAppliedRevision appliedRevision })
                      (fun e => ⟨rfl, rfl, rfl, rfl, rfl, rfl⟩) ?_ rfl rfl rfl rfl rfl h.lanes
                    rw [hevent]
                    rfl
                | none =>
                    have hretold := Retold.remoteTruth (deltaEvent w.record [] [] [])
                      w.mailbox.pending.remoteTruth
                    refine h.enqueued
                      ⟨w.mailbox.ackEvent w.record appliedRevision, w.record, w.lanes⟩
                      hretold.coversFromRevision rfl (fun hfull => ?_) w.mailbox.pending rfl rfl ?_ rfl ?_ rfl rfl h.lanes
                    · have hdelta : (w.mailbox.ackEvent w.record appliedRevision).isFullSnapshot =
                          false := hretold.isFullSnapshot
                      rw [hdelta] at hfull
                      cases hfull
                    · unfold CaptureCallbackMailbox.enqueue
                      rw [hevent]
                      rfl
                    · unfold MailboxWorld.partsAfter
                      rw [hevent]
                      rfl

/-- **A step hides nothing**, if it is taken under its condition. -/
theorem Sound.step (h : w.Sound) {s : MailboxStep} (hfaithful : s.Faithful w) :
    (w.step s).Sound := by
  cases s with
  | write record | clearRemoteTruthOverlay | close =>
      exact ⟨h.started, h.ordered, h.delivered, h.waiting, h.unbroken, h.snapshots, h.lanes⟩
  | send event load =>
      cases load with
      | missing => exact h.refused (.inr (.inl rfl)) hfaithful
      | failed => exact h.refused (.inr (.inr rfl)) hfaithful
      | read cuesRead =>
          cases hclosed : w.mailbox.closed with
          | true =>
              have hstep : w.step (.send event (.read cuesRead)) =
                  w.refused event (.read cuesRead) := if_pos hclosed
              rw [hstep]
              exact h.refused (.inl hclosed) hfaithful
          | false =>
              have hstep : w.step (.send event (.read cuesRead)) = w.queued event cuesRead :=
                if_neg (by simp [hclosed])
              rw [hstep]
              exact h.queued hclosed hfaithful
  | sendPreview laneHealth =>
      by_cases hnone : w.mailbox.closed = true ∨ laneHealth = []
      · have hstep : w.step (.sendPreview laneHealth) = w := by
          unfold MailboxWorld.step CaptureCallbackMailbox.sendPreview
          rcases hnone with hclosed | rfl
          · simp [hclosed]
          · simp
        rw [hstep]
        exact h
      · obtain ⟨hopen, hlanes⟩ := not_or.1 hnone
        refine h.retold (fun e =>
          if e.status.captureState.isActive then { e with laneHealth := laneHealth } else e)
          (fun e => ?_) ?_ ?_ ?_ rfl rfl rfl ?_
        · split <;> exact ⟨rfl, rfl, rfl, rfl, rfl, rfl⟩
        all_goals simp [MailboxWorld.step, CaptureCallbackMailbox.sendPreview, hopen, hlanes]
  | setRemoteTruthOverlay overlay =>
      exact h.retold _ (fun e => Retold.remoteTruth e (some overlay)) rfl rfl rfl rfl rfl rfl h.lanes
  | commitProjectionAck loaded ack => exact h.commitProjectionAck loaded ack
  | drain =>
      unfold MailboxWorld.step
      cases hevent : w.mailbox.pending.event with
      | none => exact h
      | some event => exact h.drain hevent
  | fullSnapshot => exact h.fullSnapshot

/-- A new mailbox has hidden nothing. -/
theorem sound_start (record : SessionRecord) : (start record).Sound where
  started := Nat.one_pos
  ordered := List.Pairwise.nil
  delivered := fun _ hd => by cases hd
  waiting := fun _ he => by cases he
  unbroken := fun _ he => by cases he
  snapshots := fun _ hs => by cases hs
  lanes := rfl

end MailboxWorld

/-! ### Whole runs -/

/-- The last revision of the events delivered. -/
def lastRevision (delivered : List MergedEvent) : ℕ :=
  (delivered.getLast?.map (·.event.eventRevision)).getD 0

/-- Every revision in the range of an event is one that is merged in it. -/
theorem Carries.exists_part {event : NotebookCaptureEvent} {parts : List StampedEvent}
    (h : Carries event parts) {revision : ℕ} (hfrom : event.coversFrom ≤ revision)
    (hto : revision ≤ event.eventRevision) :
    ∃ part ∈ parts, part.event.eventRevision = revision := by
  have hmem : revision ∈ parts.map (·.event.eventRevision) := by
    rw [h.revisions, List.mem_range'_1]
    omega
  obtain ⟨part, hpart, hrevision⟩ := List.mem_map.1 hmem
  exact ⟨part, hpart, hrevision⟩

/-- A revision shows as a gap: it lies behind the events delivered before another, and
before the range of that one. -/
def ShowsGap (delivered : List MergedEvent) (revision : ℕ) : Prop :=
  ∃ before d after, delivered = before ++ d :: after ∧
    lastRevision before < revision ∧ revision < d.event.coversFrom

/-- A revision up to the last that was delivered is merged, or shows as a gap. -/
theorem merged_or_showsGap {delivered : List MergedEvent}
    (h : ∀ d ∈ delivered, Carries d.event d.parts) {revision : ℕ} (hpos : 0 < revision)
    (hlast : revision ≤ lastRevision delivered) :
    (∃ d ∈ delivered, ∃ part ∈ d.parts, part.event.eventRevision = revision) ∨
      ShowsGap delivered revision := by
  induction delivered using List.reverseRecOn with
  | nil =>
      have hzero : revision ≤ 0 := hlast
      omega
  | append_singleton before d ih =>
      have hrevision : lastRevision (before ++ [d]) = d.event.eventRevision := by
        simp [lastRevision]
      rw [hrevision] at hlast
      by_cases hbefore : revision ≤ lastRevision before
      · rcases ih (fun d' hd' => h d' (List.mem_append_left _ hd')) hbefore with hmerged | hgap
        · obtain ⟨d', hd', hparts⟩ := hmerged
          exact .inl ⟨d', List.mem_append_left _ hd', hparts⟩
        · obtain ⟨first, d', rest, rfl, hgap⟩ := hgap
          exact .inr ⟨first, d', rest ++ [d], by simp, hgap⟩
      · have hbehind : lastRevision before < revision := by omega
        by_cases hcovered : d.event.coversFrom ≤ revision
        · have hd : d ∈ before ++ [d] := by simp
          exact .inl ⟨d, hd, (h d hd).exists_part hcovered hlast⟩
        · exact .inr ⟨before, d, [], rfl, hbehind, by omega⟩

/-- **What a client is not kept from seeing.** -/
structure MailboxWorld.HidesNothing (w : MailboxWorld) : Prop where
  /-- The ranges of the events delivered lie one behind the other. -/
  increasing : (w.delivered.map (·.event)).Pairwise
    fun earlier later => earlier.eventRevision < later.coversFrom
  /-- An event has merged in it every event of its range, in order, and no other. -/
  carried : ∀ d ∈ w.delivered, Carries d.event d.parts
  /-- A revision that is merged in no event is in the range of none; one up to the last
  delivered shows as a gap. -/
  lost : ∀ revision, 0 < revision →
    (∀ d ∈ w.delivered, ∀ part ∈ d.parts, part.event.eventRevision ≠ revision) →
    (∀ d ∈ w.delivered, ¬ (d.event.coversFrom ≤ revision ∧ revision ≤ d.event.eventRevision)) ∧
      (revision ≤ lastRevision w.delivered → ShowsGap w.delivered revision)
  /-- The revisions delivered have been given. -/
  given : ∀ d ∈ w.delivered, d.event.eventRevision < w.mailbox.nextRevision
  /-- A full snapshot that is delivered is an exact one, and what followed it. -/
  whole : ∀ d ∈ w.delivered, Whole d.event d.parts
  /-- A full snapshot that is read is exact, and stamped with a revision that was given. -/
  snapshots : ∀ s ∈ w.snapshots, s.Exact ∧ s.event.eventRevision < w.mailbox.nextRevision

/-- What holds of the events that wait holds of those that are delivered. -/
theorem MailboxWorld.Sound.hidesNothing {w : MailboxWorld} (h : w.Sound) : w.HidesNothing where
  increasing := (List.pairwise_append.1 h.ordered).1
  carried := fun d hd => (h.delivered d hd).1
  lost := by
    intro revision hpos hlost
    constructor
    · intro d hd hrange
      obtain ⟨part, hpart, hrevision⟩ := (h.delivered d hd).1.exists_part hrange.1 hrange.2
      exact hlost d hd part hpart hrevision
    · intro hlast
      rcases merged_or_showsGap (fun d hd => (h.delivered d hd).1) hpos hlast with hmerged | hgap
      · obtain ⟨d, hd, part, hpart, hrevision⟩ := hmerged
        exact absurd hrevision (hlost d hd part hpart)
      · exact hgap
  given := fun d hd => (h.delivered d hd).2.2
  whole := fun d hd => (h.delivered d hd).2.1
  snapshots := h.snapshots

/-- **The mailbox hides no lost revision**, in any run in which the full snapshots that
are sent have their cues read and no refused event has news of the lanes. -/
theorem mailbox_hides_nothing {record : SessionRecord} {steps : List MailboxStep}
    {w : MailboxWorld}
    (hfaithful : Machine.Along MailboxWorld.next MailboxStep.Faithful (.start record) steps)
    (hrun : Machine.run MailboxWorld.next (.start record) steps = some w) : w.HidesNothing := by
  have hsound : w.Sound := by
    refine hfaithful.invariant (I := MailboxWorld.Sound) ?_ (MailboxWorld.sound_start record) hrun
    intro before s after hbefore hstep hnext
    obtain rfl := Option.some.inj hnext
    exact hbefore.step hstep
  exact hsound.hidesNothing

/-- A cue that is present. -/
def TranslationCue.plain (providerSequence revision : ℕ) : TranslationCue where
  targetLanguage := "de"
  groupEpoch := 0
  providerSequence := providerSequence
  sourceLanguage := "en"
  sourceStartMs := none
  sourceEndMs := none
  text := "Wort"
  completion := "complete"
  withdrawn := false
  revision := revision

/-- A session with a row and a cue. -/
def SessionRecord.plain : SessionRecord where
  status := .running
  run := ⟨none, [], none, none, none, none, none⟩
  realtimeLoroAppliedRevision := 0
  contextReceipt := none
  utterances := [.plain 5 1]
  translationInbox := [.plain 3 1]

/-- A lane that has failed. -/
def LaneHealth.lost : LaneHealth where
  targetLanguage := some "de"
  state := "failed"
  groupEpoch := 0
  finalAudioProcMs := none
  totalAudioProcMs := none
  lagMs := none
  inputDiscontinuous := true

/-- A run with a snapshot, a refused event, two merged ones and a read. -/
def mailboxRun : List MailboxStep :=
  [.send (.plain 0 true [] []) (.read true), .drain, .send (.plain 0 false [.plain 5 1] []) .failed,
    .send (.plain 0 false [.plain 5 1] []) (.read true),
    .send (.plain 0 false [] [4]) (.read true), .drain, .fullSnapshot]

/-- The events of that run cover the revisions 1, and 3 and 4: the gap shows. -/
theorem mailbox_hides_nothing_mailboxRun :
    ((mailboxRun.foldl MailboxWorld.step (.start .plain)).delivered.map
        fun d => (d.event.coversFrom, d.event.eventRevision)) = [(1, 1), (3, 4)] ∧
      (mailboxRun.foldl MailboxWorld.step (.start .plain)).HidesNothing := by
  have hfaithful : Machine.Along MailboxWorld.next MailboxStep.Faithful (.start .plain)
      mailboxRun := by
    simp [mailboxRun, Machine.Along, MailboxWorld.next, MailboxStep.Faithful,
      NotebookCaptureEvent.plain]
  exact ⟨by decide +kernel, mailbox_hides_nothing hfaithful rfl⟩

/-- A full snapshot whose cues could not be read is sent without them, and one that is
read after an event with news of a lane was refused has none of it. -/
theorem mailbox_hides :
    (∀ w, Machine.run MailboxWorld.next (.start .plain)
        [.send (.plain 0 true [] []) (.read false), .drain] = some w → ¬ w.HidesNothing) ∧
    (∀ w, Machine.run MailboxWorld.next (.start .plain)
        [.send { NotebookCaptureEvent.plain 0 false [] [] with laneHealth := [.lost] } .failed,
          .fullSnapshot] = some w → ¬ w.HidesNothing) := by
  constructor
  · intro w hrun hnothing
    obtain rfl := Option.some.inj hrun
    obtain ⟨before, snapshot, after, hparts, hexact⟩ :=
      hnothing.whole _ (List.mem_singleton.2 rfl) rfl
    have hmem : snapshot ∈ before ++ snapshot :: after := by simp
    rw [← hparts] at hmem
    obtain rfl := List.mem_singleton.1 hmem
    have hcues := hexact.translationCues
    revert hcues
    decide +kernel
  · intro w hrun hnothing
    obtain rfl := Option.some.inj hrun
    obtain ⟨hexact, -⟩ := hnothing.snapshots _ (List.mem_singleton.2 rfl)
    have hlanes := hexact.laneHealth
    revert hlanes
    decide +kernel

end Capture
end ZuTalk
