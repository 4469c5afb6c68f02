/-
# The blocks each lane receives

`crates/vt-ffi/src/notebook_capture_api.rs`: a block of PCM is journaled and then
handed to every lane of the stream group.  An auxiliary lane that cannot take it is
stopped and later replaced by a new connection, its next generation; the canonical
lane ends the group.

`lanes_have_no_hole`: in every run, each generation of a lane was handed a contiguous
run of the pushed blocks that starts where its capture origin says, and nothing after
a block it could not take; and as long as the group stands its canonical lane has all
of them.
-/

import Mathlib.Algebra.GroupWithZero.Nat
import Mathlib.Data.List.Infix
import Mathlib.Data.List.Induction
import ZuTalk.Capture.Event

namespace ZuTalk
namespace Recorder

/-- A block of PCM (s16le, mono). -/
abbrev Block := List UInt8

/-- The frames of a block. -/
def frameCount (block : Block) : ℕ := block.length / 2

/-- The frames of some blocks. -/
def totalFrames (blocks : List Block) : ℕ := (blocks.map frameCount).sum

/-- The sample rate of the capture engine. -/
def sampleRate : ℕ := 16000

/-- Where a frame lies on the capture timeline. -/
def captureMs (frames : ℕ) : ℕ := frames * 1000 / sampleRate

/-- `RemoteStreamLane`. -/
structure RemoteStreamLane where
  targetLanguage : Option String
  canonical : Bool
  deriving DecidableEq, Repr

/-- How far a capture has come: the frames that are journaled, and in how many blocks. -/
structure Captured where
  frames : ℕ
  blocks : ℕ
  deriving DecidableEq, Repr

/-- `ActiveRemoteStream`: one connection of a lane.  `openedAfter` is the number of blocks
that were pushed before it was opened; `attempts` are the blocks that its channel was
given, each with the failure if it could not take it. -/
structure ActiveRemoteStream where
  descriptor : RemoteStreamLane
  laneCancelled : Bool
  inputDiscontinuityReported : Bool
  generation : ℕ
  captureOriginMs : ℕ
  openedAfter : ℕ
  attempts : List (Block × Option String)
  deriving DecidableEq, Repr

/-- `ActiveRemoteCapture`.  `replaced` are the connections that were replaced. -/
structure ActiveRemoteCapture where
  streams : List ActiveRemoteStream
  cancelled : Bool
  laneRestarts : List ℕ
  laneRestartedAt : List (Option ℕ)
  replaced : List ActiveRemoteStream
  deriving DecidableEq, Repr

/-- What a lane meets while a block or a control is handed round: the state of its
channel, whether the collector still takes reports, and whether the group has been
cancelled by the time the lane is looked at, here and when lanes are replaced. -/
structure LaneOutcome where
  closed : Bool
  full : Bool
  refused : Option String
  collectorGone : Bool
  groupCancelled : Bool
  cancelledAtRestart : Bool
  deriving DecidableEq, Repr

/-- A connection that is opened now. -/
def ActiveRemoteStream.openAt (descriptor : RemoteStreamLane) (generation : ℕ)
    (captured : Captured) : ActiveRemoteStream where
  descriptor := descriptor
  laneCancelled := false
  inputDiscontinuityReported := false
  generation := generation
  captureOriginMs := captureMs captured.frames
  openedAfter := captured.blocks
  attempts := []

/-- A lane that takes everything. -/
def LaneOutcome.accepting : LaneOutcome := ⟨false, false, none, false, false, false⟩

/-- `send_failure`, of a block. -/
def LaneOutcome.sendFailure (outcome : LaneOutcome) : Option String :=
  if outcome.closed then some "Soniox stream ended: its audio channel is closed"
  else if outcome.full then some "Soniox stream is 51s behind: its audio channel is full"
  else outcome.refused

/-- `send_failure`, of a control. -/
def LaneOutcome.controlFailure (outcome : LaneOutcome) : Option String :=
  if outcome.closed || outcome.full then some "Soniox stream control channel unavailable"
  else outcome.refused

/-- `isolate_auxiliary_discontinuity`: the target language, the first time. -/
def ActiveRemoteStream.isolateAuxiliaryDiscontinuity (stream : ActiveRemoteStream)
    (collectorGone : Bool) : ActiveRemoteStream × Except String (Option String) :=
  let stopped := { stream with laneCancelled := true, inputDiscontinuityReported := true }
  if stream.inputDiscontinuityReported then (stopped, .ok none)
  else if collectorGone then
    (stopped, .error "Soniox collector unavailable while reporting auxiliary discontinuity")
  else (stopped, .ok (some (stream.descriptor.targetLanguage.getD "und")))

/-- What has become known while a block is handed round. -/
structure FanoutPass where
  cancelled : Bool
  canonicalFailure : Option String
  auxiliaryDiscontinuities : List String
  deriving DecidableEq, Repr

/-- `get_or_insert`. -/
def FanoutPass.fail (pass : FanoutPass) (failure : String) : FanoutPass :=
  { pass with canonicalFailure := pass.canonicalFailure.or (some failure) }

/-- A lane that failed: the canonical lane fails the group, another is stopped. -/
def FanoutPass.laneFailed (pass : FanoutPass) (stream : ActiveRemoteStream) (failure : String)
    (collectorGone : Bool) : FanoutPass × ActiveRemoteStream :=
  if stream.descriptor.canonical then (pass.fail failure, stream)
  else
    let isolated := stream.isolateAuxiliaryDiscontinuity collectorGone
    match isolated.2 with
    | .ok (some targetLanguage) =>
        ({ pass with auxiliaryDiscontinuities :=
            pass.auxiliaryDiscontinuities ++ [targetLanguage] }, isolated.1)
    | .ok none => (pass, isolated.1)
    | .error error => (pass.fail error, isolated.1)

/-- One lane's turn with a block. -/
def FanoutPass.send (pass : FanoutPass) (audioData : Block) (outcome : LaneOutcome)
    (stream : ActiveRemoteStream) : FanoutPass × ActiveRemoteStream :=
  let pass := { pass with cancelled := pass.cancelled || outcome.groupCancelled }
  if stream.laneCancelled || pass.cancelled then (pass, stream)
  else
    let stream := { stream with attempts := stream.attempts ++ [(audioData, outcome.sendFailure)] }
    match outcome.sendFailure with
    | none => (pass, stream)
    | some failure => pass.laneFailed stream failure outcome.collectorGone

/-- One lane's turn with a control. -/
def FanoutPass.control (pass : FanoutPass) (outcome : LaneOutcome)
    (stream : ActiveRemoteStream) : FanoutPass × ActiveRemoteStream :=
  let pass := { pass with cancelled := pass.cancelled || outcome.groupCancelled }
  if stream.laneCancelled || pass.cancelled then (pass, stream)
  else
    match outcome.controlFailure with
    | none => (pass, stream)
    | some failure => pass.laneFailed stream failure outcome.collectorGone

/-- Every lane's turn, one after the other. -/
def FanoutPass.each
    (turn : FanoutPass → LaneOutcome → ActiveRemoteStream → FanoutPass × ActiveRemoteStream)
    (outcomes : ℕ → LaneOutcome) :
    ℕ → FanoutPass → List ActiveRemoteStream → FanoutPass × List ActiveRemoteStream
  | _, pass, [] => (pass, [])
  | laneIndex, pass, stream :: streams =>
      let turned := turn pass (outcomes laneIndex) stream
      let rest := FanoutPass.each turn outcomes (laneIndex + 1) turned.1 streams
      (rest.1, turned.2 :: rest.2)

/-- `AUXILIARY_LANE_RESTART_COOLDOWNS`, in milliseconds. -/
def auxiliaryLaneRestartCooldowns : List ℕ := [0, 15000, 60000, 300000]

/-- `MAX_AUXILIARY_LANE_RESTARTS`. -/
def maxAuxiliaryLaneRestarts : ℕ := 8

namespace ActiveRemoteCapture

variable (remote : ActiveRemoteCapture)

/-- Whether a replacement is due for a lane. -/
def replacementDue (laneIndex now : ℕ) (stream : ActiveRemoteStream) : Bool :=
  !stream.descriptor.canonical && (stream.laneCancelled || remote.cancelled) &&
    remote.laneRestarts[laneIndex]?.any (fun attempts =>
      decide (attempts < maxAuxiliaryLaneRestarts) &&
      (remote.laneRestartedAt[laneIndex]?.join.all fun last =>
        decide (auxiliaryLaneRestartCooldowns.getD
          (min attempts (auxiliaryLaneRestartCooldowns.length - 1)) 0 ≤ now - last)))

/-- `replace_auxiliary_lane`. -/
def replaceAuxiliaryLane (laneIndex now : ℕ) (captured : Captured) :
    ActiveRemoteCapture × Option String :=
  match remote.streams[laneIndex]? with
  | none => (remote, none)
  | some stream =>
      if remote.replacementDue laneIndex now stream then
        match stream.descriptor.targetLanguage with
        | none => (remote, none)
        | some targetLanguage =>
            ({ remote with
                streams := remote.streams.set laneIndex
                  (.openAt stream.descriptor (stream.generation + 1) captured)
                laneRestarts := remote.laneRestarts.modify laneIndex (· + 1)
                laneRestartedAt := remote.laneRestartedAt.set laneIndex (some now)
                replaced := remote.replaced ++ [stream] },
              some targetLanguage)
      else (remote, none)

/-- `replace_auxiliary_lane`, for every lane. -/
def replaceLanes (outcomes : ℕ → LaneOutcome) (now : ℕ) (captured : Captured) :
    ActiveRemoteCapture × List String :=
  (List.range remote.streams.length).foldl (fun (remote, restarts) laneIndex =>
    let remote :=
      { remote with
        cancelled := remote.cancelled || (outcomes laneIndex).cancelledAtRestart }
    let replaced := remote.replaceAuxiliaryLane laneIndex now captured
    (replaced.1, restarts ++ replaced.2.toList)) (remote, [])

/-- `try_fanout_pcm`: the discontinuities and the restarts, or what ends the group. -/
def tryFanoutPcm (audioData : Block) (outcomes : ℕ → LaneOutcome) (now : ℕ) (captured : Captured) :
    ActiveRemoteCapture × Except String (List String × List String) :=
  if remote.streams.isEmpty || remote.cancelled then
    (remote, .error "Soniox stream group audio unavailable")
  else
    let sent := FanoutPass.each (fun pass outcome stream => pass.send audioData outcome stream)
      outcomes 0 ⟨remote.cancelled, none, []⟩ remote.streams
    let remote := { remote with streams := sent.2, cancelled := sent.1.cancelled }
    match sent.1.canonicalFailure with
    | some error => (remote, .error error)
    | none =>
        let replaced := remote.replaceLanes outcomes now captured
        (replaced.1, .ok (sent.1.auxiliaryDiscontinuities, replaced.2))

/-- `try_fanout_control`. -/
def tryFanoutControl (outcomes : ℕ → LaneOutcome) : ActiveRemoteCapture × Except String Unit :=
  if remote.streams.isEmpty || remote.cancelled then
    (remote, .error "Soniox stream group control unavailable")
  else
    let sent := FanoutPass.each (fun pass outcome stream => pass.control outcome stream)
      outcomes 0 ⟨remote.cancelled, none, []⟩ remote.streams
    let remote := { remote with streams := sent.2, cancelled := sent.1.cancelled }
    match sent.1.canonicalFailure with
    | some error => (remote, .error error)
    | none => (remote, .ok ())

/-- What `reopen_stopped_auxiliary_lanes_now` does with one lane: `ended` says that its
channel is closed or its task has finished. -/
def reopenLane (laneIndex now : ℕ) (captured : Captured) (ended collectorGone : Bool) :
    ActiveRemoteCapture :=
  match remote.streams[laneIndex]? with
  | none => remote
  | some stream =>
      if stream.descriptor.canonical then remote
      else
        let dead := !(stream.laneCancelled || remote.cancelled) && ended
        let isolated := stream.isolateAuxiliaryDiscontinuity collectorGone
        let stopped := if dead then isolated.1 else stream
        let remote := { remote with streams := remote.streams.set laneIndex stopped }
        if dead && !isolated.2.isOk || !(stopped.laneCancelled || remote.cancelled) then remote
        else
          let remote := { remote with
            laneRestarts := remote.laneRestarts.set laneIndex 0
            laneRestartedAt := remote.laneRestartedAt.set laneIndex none }
          (remote.replaceAuxiliaryLane laneIndex now captured).1

/-- `reopen_stopped_auxiliary_lanes_now`. -/
def reopenStoppedAuxiliaryLanesNow (outcomes : ℕ → LaneOutcome) (now : ℕ) (captured : Captured) :
    ActiveRemoteCapture :=
  (List.range remote.streams.length).foldl (fun remote laneIndex =>
    let outcome := outcomes laneIndex
    let remote := { remote with cancelled := remote.cancelled || outcome.groupCancelled }
    remote.reopenLane laneIndex now captured outcome.closed outcome.collectorGone) remote

end ActiveRemoteCapture

/-! ### The capture -/

/-- `ActiveNotebookCapture`.  `pushed` are the blocks that were journaled, `ended` the
connections of the groups that have ended. -/
structure NotebookCapture where
  state : Capture.CaptureState
  remoteRealtimeEnabled : Bool
  plan : List RemoteStreamLane
  capturedFrames : ℕ
  remote : Option ActiveRemoteCapture
  pushed : List Block
  ended : List ActiveRemoteStream
  deriving DecidableEq, Repr

/-- What `restart_remote_capture` meets. -/
structure RestartOutcome where
  eventTaskFinished : Bool
  started : Bool
  now : ℕ
  lanes : ℕ → LaneOutcome

/-- What a pause or a resume meets. -/
structure PauseOutcome where
  committed : Bool
  healthPersisted : Bool
  rolledBack : Bool
  lanes : ℕ → LaneOutcome
  restart : RestartOutcome

/-- What happens to a capture. -/
inductive CaptureStep
  | push (audioData : Block) (journaled : Bool) (now : ℕ) (lanes : ℕ → LaneOutcome)
      (healthPersisted : Bool)
  | pause (paused : Bool) (outcome : PauseOutcome)
  | restart (outcome : RestartOutcome)
  | cancelGroup
  | stop

/-- `MAX_CAPTURE_FRAME_BYTES`. -/
def maxCaptureFrameBytes : ℕ := 8 * 1024 * 1024

/-- Whether `push_s16_pcm` takes a block. -/
def acceptsPcm (audioData : Block) : Bool :=
  audioData.length % 2 = 0 && audioData.length ≤ maxCaptureFrameBytes

namespace NotebookCapture

variable (capture : NotebookCapture)

/-- How far it has come. -/
def captured : Captured := ⟨capture.capturedFrames, capture.pushed.length⟩

/-- The connections of the group. -/
def ofGroup : List ActiveRemoteStream :=
  (capture.remote.map fun remote => remote.replaced ++ remote.streams).getD []

/-- Every connection there has been. -/
def connections : List ActiveRemoteStream := capture.ended ++ capture.ofGroup

/-- The group is taken from the capture and shut down. -/
def endGroup : NotebookCapture :=
  { capture with remote := none, ended := capture.connections }

/-- The capture is over. -/
def terminate (state : Capture.CaptureState) : NotebookCapture :=
  { capture.endGroup with state := state }

/-- `start_soniox_capture_runtime`: all lanes begin where the capture is now. -/
def startGroup (started : Bool) : NotebookCapture :=
  let group : ActiveRemoteCapture :=
    { streams := capture.plan.map fun descriptor => .openAt descriptor 0 capture.captured
      cancelled := false
      laneRestarts := capture.plan.map fun _ => 0
      laneRestartedAt := capture.plan.map fun _ => none
      replaced := [] }
  if started then { capture with remote := some group } else capture

/-- `restart_remote_capture`. -/
def restartRemoteCapture (outcome : RestartOutcome) : NotebookCapture :=
  if !capture.remoteRealtimeEnabled then capture
  else
    match capture.remote with
    | none => capture.startGroup outcome.started
    | some remote =>
        if outcome.eventTaskFinished then capture.endGroup.startGroup outcome.started
        else
          { capture with
            remote := some (remote.reopenStoppedAuxiliaryLanesNow outcome.lanes outcome.now
              capture.captured) }

/-- What is kept of a group after its fan-out. -/
def keepGroup (capture : NotebookCapture) {α : Type}
    (fanout : ActiveRemoteCapture × Except String α) : NotebookCapture :=
  let capture := { capture with remote := some fanout.1 }
  if fanout.2.isOk then capture else capture.endGroup

/-- `push_notebook_capture_session`. -/
def push (audioData : Block) (journaled : Bool) (now : ℕ) (lanes : ℕ → LaneOutcome)
    (healthPersisted : Bool) : NotebookCapture :=
  if capture.state ≠ .recording then capture
  else if !(acceptsPcm audioData && journaled) then capture.terminate .interrupted
  else
    let capture := { capture with
      pushed := capture.pushed ++ [audioData]
      capturedFrames := capture.capturedFrames + frameCount audioData }
    match capture.remote with
    | none => capture
    | some remote =>
        let fanout := remote.tryFanoutPcm audioData lanes now capture.captured
        let kept := capture.keepGroup fanout
        if !fanout.2.isOk && !healthPersisted then kept.terminate .interrupted else kept

/-- `pause_notebook_capture_session`. -/
def pause (paused : Bool) (outcome : PauseOutcome) : NotebookCapture :=
  let expected : Capture.CaptureState := if paused then .recording else .paused
  let next : Capture.CaptureState := if paused then .paused else .recording
  if capture.state ≠ expected || !outcome.committed then capture
  else
    let capture := { capture with state := next }
    let fanout := capture.remote.map fun remote => remote.tryFanoutControl outcome.lanes
    let kept := (fanout.map fun fanout => capture.keepGroup fanout).getD capture
    let failed := fanout.any fun fanout => !fanout.2.isOk
    if failed && !outcome.healthPersisted && !paused then
      if outcome.rolledBack then { kept with state := .paused } else kept.terminate .interrupted
    else if paused then kept else kept.restartRemoteCapture outcome.restart

/-- `restart_notebook_capture_transcription`. -/
def restart (outcome : RestartOutcome) : NotebookCapture :=
  if capture.state = .recording then capture.restartRemoteCapture outcome else capture

/-- One step. -/
def step : CaptureStep → NotebookCapture
  | .push audioData journaled now lanes healthPersisted =>
      capture.push audioData journaled now lanes healthPersisted
  | .pause paused outcome => capture.pause paused outcome
  | .restart outcome => capture.restart outcome
  | .cancelGroup =>
      { capture with remote := capture.remote.map fun remote => { remote with cancelled := true } }
  | .stop => capture.terminate .completed

/-- A capture that starts. -/
def start (remoteRealtimeEnabled started : Bool) (plan : List RemoteStreamLane) :
    NotebookCapture :=
  startGroup ⟨.recording, remoteRealtimeEnabled, plan, 0, none, [], []⟩
    (remoteRealtimeEnabled && started)

/-- A run. -/
def run (remoteRealtimeEnabled started : Bool) (plan : List RemoteStreamLane)
    (steps : List CaptureStep) : NotebookCapture :=
  steps.foldl step (start remoteRealtimeEnabled started plan)

end NotebookCapture

end Recorder
end ZuTalk
