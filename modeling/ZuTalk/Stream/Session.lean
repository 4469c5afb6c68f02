/-
# One connection of a lane

`crates/vt-stt/src/soniox_stream.rs`: `run_stream_session` and the helpers it
sends with (`send_event`, `send_message`, `send_control`, `drain_queued_audio`,
`begin_drain`, `emit_response_events`).

Every `await` that can fail is a `?` in the source and a `throw` here: the
action stops with what the session returns and keeps the state reached, which
is what the `&mut` arguments of the source keep.  What the outside world answers
is an argument: `none` for a send that succeeded, `some e` for one that failed.
-/

import ZuTalk.Library.Machine
import ZuTalk.Stream.Lane

namespace ZuTalk
namespace Stream

open Machine (when)

/-- How `run_stream_session` returns before its loop is over. -/
inductive Stop
  | ok
  | err (failure : StreamFailure)

/-- Code of a session: it changes the lane and may return early. -/
abbrev LaneM := EStateM Stop Lane

/-- Why `send_message` failed. -/
inductive SendError
  | timedOut
  | failed (message : String)
  deriving DecidableEq, Repr

/-- The failure `send_message` returns. -/
def SendError.failure (operation : String) (limit : Duration) : SendError → StreamFailure
  | .timedOut => .timeout operation limit
  | .failed message => .transport operation message

/-- `send_message`. -/
def sendMessage (operation : String) (limit : Duration) : Option SendError → LaneM Unit
  | none => pure ()
  | some e => throw (.err (e.failure operation limit))

/-- `send_control`. -/
def sendControl (t : StreamTimeouts) : Option SendError → LaneM Unit :=
  sendMessage "Soniox stream control send" t.write

/-- `send_event`. -/
def sendEvent (e : SttStreamEvent) : LaneM Unit := do
  if (← get).listening then modify fun lane => { lane with events := lane.events ++ [e] }
  else throw (.err .receiverClosed)

/-- Changes the recovery state alone. -/
def modifyRecovery (f : StreamRecoveryState → StreamRecoveryState) : LaneM Unit :=
  modify fun lane => { lane with recovery := f lane.recovery }

/-- Changes the session's own variables alone. -/
def modifySession (f : Session → Session) : LaneM Unit :=
  modify fun lane => { lane with session := f lane.session }

/-- Changes the session's own variables, looking at the lane. -/
def modifySessionBy (f : Lane → Session → Session) : LaneM Unit :=
  modify fun lane => { lane with session := f lane lane.session }

namespace History

/-- A block was taken off the audio channel. -/
def take (h : History) (pcm : Pcm) (paused : Bool) (fate : Fate) : History :=
  { h with taken := h.taken ++ [⟨pcm, paused, fate⟩] }

/-- A block was counted onto the timeline. -/
def count (h : History) (pcm : Pcm) (sent : Bool) : History :=
  { h with counted := h.counted ++ [⟨pcm, sent⟩] }

/-- The lane re-anchored at `edgeMs`. -/
def reAnchor (h : History) (edgeMs : ℕ) : History :=
  { h with anchorMs := edgeMs, counted := [] }

end History

/-- A block taken off the channel went out: `record_sent`. -/
def Lane.recordSent (lane : Lane) (pcm : Pcm) : Lane :=
  { lane with recovery := lane.recovery.recordSent pcm
              history := (lane.history.take pcm lane.paused .sent).count pcm true }

/-- A block taken off the channel is discarded: `note_discarded`. -/
def Lane.noteDiscarded (lane : Lane) (pcm : Pcm) : Lane :=
  { lane with recovery := lane.recovery.noteDiscarded pcm.length
              history := (lane.history.take pcm lane.paused .shed).count pcm false }

/-- A block taken off the channel is neither sent nor counted. -/
def Lane.forget (lane : Lane) (pcm : Pcm) (fate : Fate) : Lane :=
  { lane with history := lane.history.take pcm lane.paused fate }

/-- `re_anchor_to_live_edge`. -/
def Lane.reAnchorToLiveEdge (lane : Lane) : Lane :=
  { lane with recovery := lane.recovery.reAnchorToLiveEdge
              history := lane.history.reAnchor lane.recovery.nextAudioMs }

/-- `prepare_replay`, which forgets the timeline when the outage was too long
to bridge. -/
def Lane.prepareReplay (lane : Lane) (outage : Duration) : Lane :=
  { lane with recovery := (lane.recovery.prepareReplay outage).1
              history := if outage > continuityWindow then
                lane.history.reAnchor lane.recovery.nextAudioMs else lane.history }

theorem Lane.prepareReplay_of_lt {outage : Duration} (h : continuityWindow < outage)
    (lane : Lane) : lane.prepareReplay outage = lane.reAnchorToLiveEdge := by
  unfold Lane.prepareReplay Lane.reAnchorToLiveEdge
  rw [if_pos h, StreamRecoveryState.prepareReplay_of_lt h]

theorem Lane.prepareReplay_of_le {outage : Duration} (h : outage ≤ continuityWindow)
    (lane : Lane) :
    lane.prepareReplay outage = { lane with recovery := (lane.recovery.prepareReplay outage).1 } := by
  unfold Lane.prepareReplay
  rw [if_neg (not_lt.2 h)]

/-- `finalize` goes out: the control message, then `note_finalize_sent`. -/
def sendFinalize (t : StreamTimeouts) (answer : Option SendError) : LaneM Unit := do
  sendControl t answer
  modifyRecovery (·.noteFinalizeSent)

/-- What the outside world does during one `drain_queued_audio`: the replay
block whose send fails, the queued blocks that go out, and the one that does
not. -/
structure Drain where
  replayFails : Option (ℕ × SendError)
  queued : List Pcm
  lost : Option (Pcm × SendError)

/-- An empty channel. -/
def Drain.empty : Drain := ⟨none, [], none⟩

/-- `count` replayed blocks go out one after the other, unless one fails. -/
def sendReplayed (t : StreamTimeouts) (count : ℕ) (fails : Option (ℕ × SendError)) :
    LaneM Unit :=
  fails.forM fun fail => when (fail.1 < count)
    (throw (.err (fail.2.failure "Soniox stream recovery audio send" t.write)))

/-- The first loop of `drain_queued_audio`: the replay still to be caught up. -/
def drainReplay (t : StreamTimeouts) (fails : Option (ℕ × SendError)) : LaneM Bool := do
  let replay := (← get).session.catchUp.replay
  modifySession fun s => { s with catchUp := ⟨false, []⟩ }
  sendReplayed t replay.length fails
  return !replay.isEmpty

/-- A block taken off the channel whose send failed. -/
def loseBlock (t : StreamTimeouts) (operation : String) (lost : Pcm × SendError) :
    LaneM Unit := do
  modify (·.forget lost.1 .lost)
  throw (.err (lost.2.failure operation t.write))

/-- `drain_queued_audio`. -/
def drainQueuedAudio (t : StreamTimeouts) (d : Drain) : LaneM Bool := do
  let replayed ← drainReplay t d.replayFails
  d.queued.forM fun pcm => modify (·.recordSent pcm)
  d.lost.forM (loseBlock t "Soniox stream queued audio fence")
  return replayed || !d.queued.isEmpty

/-- `sent_audio |= drain_queued_audio(..)?`. -/
def drainAndNote (t : StreamTimeouts) (d : Drain) : LaneM Unit := do
  let sent ← drainQueuedAudio t d
  modifySession fun s => { s with sentAudio := s.sentAudio || sent }

/-- `begin_drain`. -/
def beginDrain (t : StreamTimeouts) (answer : Option SendError) : LaneM Unit := do
  when (!(← get).session.draining) do
    sendMessage "Soniox stream finish send" t.write answer
    modifySessionBy fun lane s => { s with draining := true, drainAt := lane.now + t.drain }

/-- `begin_drain(..)?; handing_over = true`. -/
def handOver (t : StreamTimeouts) (answer : Option SendError) : LaneM Unit := do
  beginDrain t answer
  modifySession fun s => { s with handingOver := true }

/-- What the outside world does while a connection opens: the replay block
whose send fails, the blocks dropped from the queue after a long outage, and
the fences of a pause and of a stop heard meanwhile. -/
structure Opening where
  replayFails : Option (ℕ × SendError)
  discarded : List Pcm
  pauseDrain : Drain
  pauseFinalize : Option SendError
  finishDrain : Drain
  finishSend : Option SendError

/-- `reconnect_outage`, or what a lane that cut itself uses for it. -/
def effectiveOutage (r : StreamRecoveryState) (outage : Duration) (skips : Bool) : Duration :=
  if skips then
    max (max outage r.sentBacklog) (continuityWindow + Duration.ofMillis 1)
  else outage

/-- The `RecoveryStarted` and `AudioProgress` a replacement connection opens
with. -/
def announceRecovery (outage : Duration) : LaneM Unit := do
  sendEvent (.recoveryStarted outage.asMillis)
  let acknowledgedMs := (← get).recovery.acknowledgedMs
  sendEvent (.audioProgress acknowledgedMs acknowledgedMs outage.asMillis)

/-- The branch of a clean hand-over. -/
def openAfterHandover (outage : Duration) : LaneM Unit := do
  modify (·.reAnchorToLiveEdge)
  announceRecovery outage

/-- The replay goes out at once, or is left to the session loop. -/
def sendReplay (t : StreamTimeouts) (outage : Duration) (replay : List ReplayAudioFrame)
    (fails : Option (ℕ × SendError)) : LaneM Unit := do
  if outage > t.fastReconnectWindow ∧ outage ≤ continuityWindow then
    modifySession fun s => { s with catchUp := ⟨true, replay.map (·.pcm)⟩ }
  else
    sendReplayed t replay.length fails
    modifySession fun s => { s with sentAudio := s.sentAudio || !replay.isEmpty }

/-- The branch of every other reconnect. -/
def openAfterOutage (t : StreamTimeouts) (o : Opening) (outage : Duration) (skips : Bool) :
    LaneM Unit := do
  let outage := effectiveOutage (← get).recovery outage skips
  announceRecovery outage
  let replay := ((← get).recovery.prepareReplay outage).2
  modify (·.prepareReplay outage)
  modifySessionBy fun lane s =>
    { s with replaySuppression := .afterReplay lane.recovery.replayDuplicateUntilProviderMs }
  sendReplay t outage replay o.replayFails
  when (outage > continuityWindow) do
    o.discarded.forM fun pcm => modify (·.noteDiscarded pcm)
    modify (·.reAnchorToLiveEdge)

/-- The branch of a lane's first connection. -/
def openFirst : LaneM Unit :=
  modifyRecovery fun r =>
    StreamRecoveryState.beginProviderClock { r with connectionOriginMs := r.nextAudioMs }

/-- `clean_handover`. -/
def cleanHandover (outage : Option Duration) (afterHandover : Bool) : Bool :=
  afterHandover && outage.any fun outage => outage ≤ continuityWindow

/-- Where the new connection starts on the capture timeline, and what it is
sent again. -/
def openTimeline (t : StreamTimeouts) (o : Opening) (outage : Option Duration)
    (skips afterHandover : Bool) : LaneM Unit :=
  match outage with
  | none => openFirst
  | some outage =>
      if cleanHandover (some outage) afterHandover then openAfterHandover outage
      else openAfterOutage t o outage skips

/-- The lane is asked to stop: the queue goes out, then the empty frame.  A
connection that never carried audio has no tail to wait for. -/
def onFinish (t : StreamTimeouts) (d : Drain) (answer : Option SendError) : LaneM Unit := do
  drainAndNote t d
  when (!(← get).session.sentAudio) do
    sendEvent .finished
    throw .ok
  beginDrain t answer

/-- A pause heard while there was no connection. -/
def openPaused (t : StreamTimeouts) (o : Opening) : LaneM Unit := do
  when (← get).paused do
    drainAndNote t o.pauseDrain
    when (← get).session.sentAudio (sendFinalize t o.pauseFinalize)

/-- A stop heard while there was no connection. -/
def openFinishing (t : StreamTimeouts) (o : Opening) : LaneM Unit := do
  when (← get).finishRequested (onFinish t o.finishDrain o.finishSend)

/-- `Duration::from_secs(365 * 24 * 60 * 60)`. -/
def farFuture : Duration := Duration.ofSecs (365 * 24 * 60 * 60)

/-- The session's variables before anything was sent. -/
def Session.start (handover : Option HandoverSchedule) : Session where
  replaySuppression := .default
  catchUp := ⟨false, []⟩
  sentAudio := false
  draining := false
  audioOpen := true
  controlOpen := true
  waitingForPause := false
  handingOver := false
  longUtterance := .startingAt 0
  handover := handover
  keepaliveAt := 0
  drainAt := 0
  receiveIdleAt := 0
  handoverAt := 0
  catchUpAt := 0

/-- The timers, once the connection is up. -/
def armTimers (t : StreamTimeouts) : LaneM Unit :=
  modifySessionBy fun lane s => { s with
    keepaliveAt := lane.now + if lane.paused then t.keepalive else farFuture
    drainAt := lane.now + farFuture
    receiveIdleAt := lane.now + t.receiveIdle
    handoverAt := match s.handover with
      | some schedule => schedule.watchFrom
      | none => lane.now + farFuture
    longUtterance := .startingAt lane.recovery.nextAudioMs
    catchUpAt := lane.now }

/-- `run_stream_session` from the accepted configuration to its loop. -/
def openSession (t : StreamTimeouts) (o : Opening) (handover : Option HandoverSchedule)
    (outage : Option Duration) (skips afterHandover : Bool) : LaneM Unit := do
  modifySession fun _ => Session.start handover
  openTimeline t o outage skips afterHandover
  openPaused t o
  sendEvent .connected
  armTimers t
  openFinishing t o

/-- A message off the socket. -/
inductive WsMessage
  | text (parsed : Except String SonioxStreamResponse)
  | close (code : Option ℕ)
  | other
  | error (message : String)
  | none

/-- Which branch of the `select!` is taken, and what the outside world answers
while it runs.  `queuedBlocks` is `audio_rx.len()`. -/
inductive Branch
  | cancelled
  | control (c : Option SttStreamControl) (d : Drain) (answer : Option SendError)
  | message (m : WsMessage) (queuedBlocks : ℕ) (d : Drain) (answer : Option SendError)
  | catchUp (queued : Option Pcm) (answer : Option SendError)
  | audio (pcm : Option Pcm) (answer : Option SendError) (quiet : Bool)
      (finalizeAnswer drainAnswer : Option SendError)
  | keepalive (answer : Option SendError)
  | drainElapsed
  | handover (d : Drain) (answer : Option SendError)
  | receiveIdle

/-- The guard of a branch: its `if`, and for a timer that it has elapsed. -/
def Branch.enabled (lane : Lane) : Branch → Bool
  | .cancelled => true
  | .control _ _ _ => lane.session.controlOpen && !lane.session.draining
  | .message _ _ _ _ => true
  | .catchUp _ _ =>
      lane.session.catchUp.active && !lane.session.draining &&
        decide (lane.session.catchUpAt ≤ lane.now)
  | .audio _ _ _ _ _ =>
      lane.session.audioOpen && !lane.session.draining && !lane.session.catchUp.active
  | .keepalive _ =>
      lane.paused && !lane.session.draining && decide (lane.session.keepaliveAt ≤ lane.now)
  | .drainElapsed => lane.session.draining && decide (lane.session.drainAt ≤ lane.now)
  | .handover _ _ =>
      lane.session.handover.isSome && !lane.session.draining &&
        decide (lane.session.handoverAt ≤ lane.now)
  | .receiveIdle =>
      !lane.session.draining && !lane.paused && decide (lane.session.receiveIdleAt ≤ lane.now)

/-- The control branch. -/
def onControl (t : StreamTimeouts) (c : Option SttStreamControl) (d : Drain)
    (answer : Option SendError) : LaneM Unit :=
  match c with
  | some .finalize => do
      drainAndNote t d
      sendFinalize t answer
  | some .pause => do
      drainAndNote t d
      sendFinalize t answer
      modify fun lane => { lane with paused := true }
      modifySessionBy fun lane s => { s with keepaliveAt := lane.now + t.keepalive }
  | some .resume => do
      modify fun lane => { lane with paused := false }
      modifySessionBy fun lane s => { s with receiveIdleAt := lane.now + t.receiveIdle }
  | some .keepalive => sendControl t answer
  | some .finish => onFinish t d answer
  | none => do
      modifySession fun s => { s with controlOpen := false }
      onFinish t d answer

/-- `emit_response_events`. -/
def emitResponseEvents (tokens : List SonioxStreamTokenWire) : LaneM Unit := do
  let r := (← get).recovery
  let placed := tokens.map fun token => { token with
    startMs := token.startMs.map r.captureMs, endMs := token.endMs.map r.captureMs }
  let isControl := fun (token : SonioxStreamTokenWire) =>
    decide (token.text = "<end>" ∨ token.text = "<fin>")
  let batch := (placed.filter fun token => !isControl token).map (·.toToken)
  when (!batch.isEmpty) (sendEvent (.tokens batch))
  (placed.filter isControl).forM fun token =>
    sendEvent (if token.text = "<end>" then .endpoint else .finalized)

/-- The failure an error frame ends the session with. -/
def errorFrameFailure (errorCode : ℕ) (errorType : Option String) : StreamFailure :=
  if endsAtSessionDurationCap errorCode errorType then .sessionDurationCap errorCode
  else .provider ⟨errorCode, canonicalSonioxErrorType errorCode errorType⟩

/-- The provider's progress: the finalize it answers, what it acknowledges. -/
def onProgress (response : SonioxStreamResponse) (queuedBlocks totalAudioProcMs : ℕ) :
    LaneM Unit := do
  when (response.tokens.any fun token => token.text = "<fin>")
    (modifyRecovery (·.noteFinalizeAnswered totalAudioProcMs))
  modifyRecovery (·.acknowledge totalAudioProcMs)
  let r := (← get).recovery
  let (acknowledgedMs, sentLagMs) := r.acknowledgement
  sendEvent (.audioProgress
    (min (r.captureMs (response.finalAudioProcMs.getD 0)) acknowledgedMs)
    acknowledgedMs (satAdd sentLagMs (queuedBlocks * 100)))

/-- `ended_at`: where the provider ended the utterance a response closes. -/
def endedAt (r : StreamRecoveryState) (response : SonioxStreamResponse) : ℕ :=
  match response.finalAudioProcMs with
  | some ms => min (r.captureMs ms) r.nextAudioMs
  | none => r.nextAudioMs

/-- What a response does after its tokens have been emitted. -/
def afterResponse (t : StreamTimeouts) (finished reachedPause : Bool) (d : Drain)
    (answer : Option SendError) : LaneM Unit := do
  let s := (← get).session
  when finished do
    when s.handingOver (throw (.err .handedOver))
    when s.draining do
      sendEvent .finished
      throw .ok
    throw (.err .finishedMidstream)
  when (reachedPause && !s.draining) do
    when s.catchUp.active (drainAndNote t d)
    handOver t answer

/-- A parsed response. -/
def onResponse (t : StreamTimeouts) (response : SonioxStreamResponse) (queuedBlocks : ℕ)
    (d : Drain) (answer : Option SendError) : LaneM Unit := do
  response.errorCode.forM fun errorCode =>
    throw (.err (errorFrameFailure errorCode response.errorType))
  response.totalAudioProcMs.forM (onProgress response queuedBlocks)
  let filtered :=
    (← get).session.replaySuppression.filter response.tokens response.finalAudioProcMs
  let tokens := filtered.2
  modifySession fun s => { s with replaySuppression := filtered.1 }
  when (tokens.any fun token => token.text = "<end>" ∨ token.text = "<fin>")
    (modifySessionBy fun lane s =>
      { s with longUtterance := s.longUtterance.boundary (endedAt lane.recovery response) })
  let reachedPause := (← get).session.waitingForPause &&
    tokens.any fun token => token.text = "<end>"
  emitResponseEvents tokens
  afterResponse t response.finished reachedPause d answer

/-- The branch that reads the socket. -/
def onMessage (t : StreamTimeouts) (m : WsMessage) (queuedBlocks : ℕ) (d : Drain)
    (answer : Option SendError) : LaneM Unit := do
  modifySessionBy fun lane s => { s with receiveIdleAt := lane.now + t.receiveIdle }
  match m with
  | .text (.ok response) => onResponse t response queuedBlocks d answer
  | .text (.error message) => throw (.err (.protocol message))
  | .close code => throw (.err (.closed code))
  | .other => pure ()
  | .error message => throw (.err (.transport "Soniox stream response receive" message))
  | .none => throw (.err (.closed none))

/-- After a catch-up block: the next one is due when half its length has
passed (`CATCH_UP_SPEED`). -/
def paceCatchUp (pcm : Pcm) : LaneM Unit :=
  modifySessionBy fun lane s => { s with
    sentAudio := true
    catchUpAt := lane.now + Duration.ofMillis (durationMs pcm.length) / 2 }

/-- The catch-up branch: the replay first, then the queue. -/
def onCatchUp (t : StreamTimeouts) (queued : Option Pcm) (answer : Option SendError) :
    LaneM Unit := do
  match (← get).session.catchUp.replay with
  | pcm :: replay =>
      modifySession fun s => { s with catchUp := { s.catchUp with replay := replay } }
      sendMessage "Soniox stream catch-up audio send" t.write answer
      paceCatchUp pcm
  | [] =>
      match queued, answer with
      | none, _ => modifySession fun s => { s with catchUp := { s.catchUp with active := false } }
      | some pcm, some e => loseBlock t "Soniox stream catch-up audio send" (pcm, e)
      | some pcm, none => do
          modify (·.recordSent pcm)
          paceCatchUp pcm

/-- `long_utterance.sent(..)` and the finalize it asks for. -/
def closeLongUtterance (t : StreamTimeouts) (quiet : Bool) (pcm : Pcm)
    (answer : Option SendError) : LaneM Unit := do
  let lane ← get
  let closer := lane.session.longUtterance.sent quiet (durationMs pcm.length)
    lane.recovery.nextAudioMs lane.recovery.acknowledgedMs
  modifySession fun s => { s with longUtterance := closer.1 }
  when closer.2 (sendFinalize t answer)

/-- The lane cuts itself once the provider is too far behind. -/
def cutBehindLiveEdge (t : StreamTimeouts) : LaneM Unit := do
  let backlog := (← get).recovery.sentBacklog
  when (backlog > t.liveEdgeMaxBacklog) (throw (.err (.behindLiveEdge backlog)))

/-- A block of a lane that is not paused, once it has been sent and counted. -/
def afterAudio (t : StreamTimeouts) (closeLong : Bool) (pcm : Pcm) (quiet : Bool)
    (finalizeAnswer drainAnswer : Option SendError) : LaneM Unit := do
  modifySession fun s => { s with sentAudio := true }
  when (closeLong && !(← get).session.waitingForPause)
    (closeLongUtterance t quiet pcm finalizeAnswer)
  if (← get).session.waitingForPause && quiet then handOver t drainAnswer
  else cutBehindLiveEdge t

/-- The audio branch.  `closeLong` is `close_long_utterances_at_pauses`. -/
def onAudio (t : StreamTimeouts) (closeLong : Bool) (pcm : Option Pcm) (answer : Option SendError)
    (quiet : Bool) (finalizeAnswer drainAnswer : Option SendError) : LaneM Unit := do
  match pcm with
  | none => modifySession fun s => { s with audioOpen := false }
  | some pcm =>
      if (← get).paused then modify (·.forget pcm .dropped)
      else
        match answer with
        | some e => loseBlock t "Soniox stream audio send" (pcm, e)
        | none => do
            modify (·.recordSent pcm)
            afterAudio t closeLong pcm quiet finalizeAnswer drainAnswer

/-- The hand-over timer. -/
def onHandover (t : StreamTimeouts) (d : Drain) (answer : Option SendError) : LaneM Unit := do
  let s := (← get).session
  if s.waitingForPause then do
    when s.catchUp.active (drainAndNote t d)
    handOver t answer
  else s.handover.forM fun schedule => modifySession fun s =>
    { s with waitingForPause := true, handoverAt := schedule.handOverBy }

/-- One turn of the session loop. -/
def select (t : StreamTimeouts) (closeLong : Bool) : Branch → LaneM Unit
  | .cancelled => throw .ok
  | .control c d answer => onControl t c d answer
  | .message m queuedBlocks d answer => onMessage t m queuedBlocks d answer
  | .catchUp queued answer => onCatchUp t queued answer
  | .audio pcm answer quiet finalizeAnswer drainAnswer =>
      onAudio t closeLong pcm answer quiet finalizeAnswer drainAnswer
  | .keepalive answer => do
      sendControl t answer
      modifySessionBy fun lane s => { s with keepaliveAt := lane.now + t.keepalive }
  | .drainElapsed => do
      when (← get).session.handingOver (throw (.err (.handoverUnconfirmed t.drain)))
      throw (.err (.timeout "Soniox stream drain" t.drain))
  | .handover d answer => onHandover t d answer
  | .receiveIdle => throw (.err (.timeout "Soniox stream response receive" t.receiveIdle))

end Stream
end ZuTalk
