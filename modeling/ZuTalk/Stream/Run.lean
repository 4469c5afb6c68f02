/-
# The life of a lane

`crates/vt-stt/src/soniox_stream.rs`: `run_stream`, `wait_for_reconnect`,
`reconnect_delay` and the dial of `run_stream_session`.

`step` takes a lane from one `await` to the next.  The inputs are what the lane
cannot know in advance: the clock, how a dial ends, which branch of a `select!`
is ready and what the network answers.  `none` means that the input cannot
happen in that state, so that `Machine.run (step t closeLong)` is every run of
`run_stream`.
-/

import ZuTalk.Library.Machine
import ZuTalk.Stream.Session

namespace ZuTalk
namespace Stream

/-- How a dial ends. -/
inductive Dialed
  | connectTimedOut
  | connectFailed (message : String)
  | configurationLost (error : SendError)
  | configured (o : Opening)

/-- What happens while a lane waits to reconnect. -/
inductive Wait
  | cancelled
  | control (c : Option SttStreamControl)
  | audio (pcm : Option Pcm)
  | elapsed

/-- What can happen to a lane. -/
inductive Input
  /-- whoever listens to its events goes away -/
  | hangUp
  /-- `run_stream` starts a session -/
  | attempt
  /-- the credential source refuses -/
  | refused (e : CredentialError)
  /-- the credential source, if asked, answers `minted`; the dial begun at
  `dialedAt` ends -/
  | dial (minted : LaneCredential) (dialedAt : Instant) (outcome : Dialed)
  /-- the session loop takes a branch -/
  | select (b : Branch)
  /-- `run_stream` looks at the error a session returned; `measuredAt` is when
  it reads `outage_so_far` -/
  | settle (measuredAt : Instant)
  /-- `wait_for_reconnect` takes a branch -/
  | wait (w : Wait)

/-- `StreamRecoveryState::starting_at` and the other variables `run_stream`
starts with. -/
def Lane.start (captureOriginMs : ℕ) : Lane where
  recovery := .startingAt captureOriginMs
  paused := false
  reconnectAttempt := 0
  disconnectedAt := none
  skipToLiveEdge := false
  handedOver := false
  finishRequested := false
  unpresentedCredential := none
  session := .start none
  phase := .idle
  now := 0
  listening := true
  events := []
  history := ⟨[], captureOriginMs, []⟩
  dialsSinceCut := none

/-- `reconnect_delay`; the exponent stops at `RECONNECT_MAX_DELAY_EXPONENT`. -/
def reconnectDelay (base : Duration) (attempt : ℕ) : Duration := base * 2 ^ min (attempt - 1) 3

/-- The lane's task is done; an error is reported as its last event. -/
def Lane.finish (lane : Lane) (result : Except StreamFailure Unit) : Lane :=
  let lane := { lane with phase := .ended result }
  match result with
  | .error f =>
      if lane.listening then { lane with events := lane.events ++ [.error f.eventError] } else lane
  | .ok _ => lane

/-- The top of the loop of `run_stream`. -/
def Lane.attempt (lane : Lane) : Lane :=
  { lane with
    phase := .dialing (lane.disconnectedAt.map (lane.now - ·)) lane.skipToLiveEdge
      lane.handedOver lane.now
    skipToLiveEdge := false
    handedOver := false
    dialsSinceCut := lane.dialsSinceCut.map (· + 1) }

/-- A session returned: `Stop.ok` ends the lane, an error goes back to
`run_stream`. -/
def Lane.returned (connected : Bool) (startedAt : Instant) (lane : Lane) : Stop → Lane
  | .ok => lane.finish (.ok ())
  | .err f => { lane with phase := .failed connected startedAt f }

/-- The lane after an action of its session. -/
def Lane.after (startedAt : Instant) : EStateM.Result Stop Lane Unit → Lane
  | .ok _ lane => { lane with phase := .live startedAt }
  | .error stop lane => lane.returned true startedAt stop

/-- `run_stream_session` up to its loop. -/
def Lane.dial (t : StreamTimeouts) (lane : Lane) (outage : Option Duration)
    (skips afterHandover : Bool) (startedAt : Instant) (minted : LaneCredential)
    (dialedAt : Instant) : Dialed → Lane :=
  let credential :=
    (lane.unpresentedCredential.bind (·.intoStillRedeemable dialedAt)).getD minted
  let kept := { lane with unpresentedCredential := some ⟨credential, lane.now⟩ }
  let spent := { lane with unpresentedCredential := none }
  fun
  | .connectTimedOut =>
      kept.returned false startedAt (.err (.timeout "Soniox stream connect" t.connect))
  | .connectFailed message =>
      kept.returned false startedAt (.err (.transport "Soniox stream connect" message))
  | .configurationLost e =>
      spent.returned false startedAt
        (.err (e.failure "Soniox stream configuration send" t.write))
  | .configured o =>
      Lane.after startedAt (openSession t o
        (credential.sessionCap.map fun cap => .forCap dialedAt cap t)
        outage skips afterHandover spent)

/-- The variables `run_stream` sets from a retryable failure, read off the
clock again at `measuredAt`. -/
def Lane.noteFailure (lane : Lane) (connected : Bool) (failure : StreamFailure)
    (measuredAt : Instant) : Lane :=
  { lane with
    skipToLiveEdge := failure.skipsToLiveEdge
    handedOver := failure.rollover = Rollover.handedOver
    disconnectedAt := some (if connected then lane.now else lane.disconnectedAt.getD lane.now)
    reconnectAttempt := if connected then 0 else lane.reconnectAttempt
    now := measuredAt
    dialsSinceCut := if failure.skipsToLiveEdge then some 0
      else if connected then none else lane.dialsSinceCut }

/-- `outage_so_far`. -/
def Lane.outageSoFar (lane : Lane) : Duration := lane.now - lane.disconnectedAt.getD lane.now

/-- `rolls_over_now`. -/
def Lane.rollsOverNow (t : StreamTimeouts) (lane : Lane) (connected : Bool) (startedAt : Instant)
    (failure : StreamFailure) : Bool :=
  decide (failure.rollover ≠ Rollover.none) && connected &&
    decide (lane.now - startedAt ≥ t.immediateRolloverMinSession)

/-- `shed_audio`. -/
def Lane.shedsAudio (lane : Lane) : Bool :=
  decide (lane.outageSoFar > continuityWindow) || lane.skipToLiveEdge

/-- `run_stream` from the next attempt's number to `wait_for_reconnect`. -/
def Lane.reconnect (t : StreamTimeouts) (lane : Lane) (rollsOverNow : Bool) : Lane :=
  let attempt := min (lane.reconnectAttempt + 1) 255
  let delay := if rollsOverNow then 0 else reconnectDelay t.reconnectBaseDelay attempt
  match sendEvent (.reconnecting attempt delay.asMillis rollsOverNow)
      { lane with reconnectAttempt := attempt } with
  | .ok _ lane => { lane with phase := .waiting (lane.now + delay) lane.shedsAudio true }
  | .error (.err f) lane => lane.finish (.error f)
  | .error .ok lane => lane.finish (.ok ())

/-- What `run_stream` does with the error of a session. -/
def Lane.settle (t : StreamTimeouts) (lane : Lane) (connected : Bool) (startedAt : Instant)
    (failure : StreamFailure) (measuredAt : Instant) : Lane :=
  if !failure.isRetryable then lane.finish (.error failure)
  else
    let lane := lane.noteFailure connected failure measuredAt
    if t.reconnectOutageBudget.any fun budget => lane.outageSoFar ≥ budget then
      lane.finish (.error failure)
    else lane.reconnect t (lane.rollsOverNow t connected startedAt failure)

/-- One turn of `wait_for_reconnect`. -/
def Lane.wait (lane : Lane) (wakeAt : Instant) (shedAudio audioOpen : Bool) : Wait → Option Lane
  | .cancelled => some (lane.finish (.ok ()))
  | .control c =>
      if lane.finishRequested then none
      else match c with
        | some .pause => some { lane with paused := true }
        | some .resume => some { lane with paused := false }
        | some .finish | none => some { lane with finishRequested := true, phase := .idle }
        | some .finalize | some .keepalive => some lane
  | .audio pcm =>
      if shedAudio && audioOpen then
        match pcm with
        | some pcm => some (lane.noteDiscarded pcm)
        | none => some { lane with phase := .waiting wakeAt shedAudio false }
      else none
  | .elapsed => if wakeAt ≤ lane.now then some { lane with phase := .idle } else none

/-- **One step of a lane** at the instant `at`. -/
def step (t : StreamTimeouts) (closeLong : Bool) (lane : Lane) (input : Instant × Input) :
    Option Lane :=
  if lane.now ≤ input.1 then
    let lane := { lane with now := input.1 }
    match lane.phase, input.2 with
    | .ended _, _ => none
    | _, .hangUp => some { lane with listening := false }
    | .idle, .attempt => some lane.attempt
    | .dialing _ _ _ startedAt, .refused e =>
        if (lane.unpresentedCredential.bind (·.intoStillRedeemable lane.now)).isSome then none
        else some ({ lane with unpresentedCredential := none }.returned false startedAt
          (.err (.credential e)))
    | .dialing outage skips afterHandover startedAt, .dial minted dialedAt outcome =>
        if startedAt ≤ dialedAt ∧ dialedAt ≤ lane.now then
          some (lane.dial t outage skips afterHandover startedAt minted dialedAt outcome)
        else none
    | .live startedAt, .select b =>
        if b.enabled lane then some (Lane.after startedAt (select t closeLong b lane)) else none
    | .failed connected startedAt failure, .settle measuredAt =>
        if lane.now ≤ measuredAt then
          some (lane.settle t connected startedAt failure measuredAt)
        else none
    | .waiting wakeAt shedAudio audioOpen, .wait w => lane.wait wakeAt shedAudio audioOpen w
    | _, _ => none
  else none

/-- The lane that started at `captureOriginMs` is in state `lane` after the
inputs `is`. -/
def Reaches (t : StreamTimeouts) (closeLong : Bool) (captureOriginMs : ℕ)
    (is : List (Instant × Input)) (lane : Lane) : Prop :=
  Machine.run (step t closeLong) (Lane.start captureOriginMs) is = some lane

end Stream
end ZuTalk
