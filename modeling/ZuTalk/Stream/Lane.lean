/-
# One provider lane: what it holds and how a connection ends

`crates/vt-stt/src/soniox_stream.rs`: `StreamTimeouts`, `StreamFailure`,
`ReplaySuppression`, `LongUtteranceCloser`, `HandoverSchedule`, `CatchUp`,
the events and controls of a lane, and the variables of `run_stream` and
`run_stream_session` gathered in `Lane`.

The network, the clock and the tasks around the lane appear as inputs: which
branch of a `select!` is ready, which block the audio channel yields, whether a
send succeeds.  The block's loudness (`QuietBlockDetector`, floating point) is
such an input too.  `Lane.history` is a history variable: nothing the lane does
depends on it.
-/

import ZuTalk.Library.Text
import ZuTalk.Stream.Recovery
import Mathlib.Data.List.Infix

namespace ZuTalk
namespace Stream

/-- `StreamTimeouts`. -/
structure StreamTimeouts where
  connect : Duration
  write : Duration
  receiveIdle : Duration
  keepalive : Duration
  drain : Duration
  reconnectBaseDelay : Duration
  reconnectOutageBudget : Option Duration
  liveEdgeMaxBacklog : Duration
  immediateRolloverMinSession : Duration
  handoverLead : Duration
  handoverDeadlineMargin : Duration
  fastReconnectWindow : Duration

/-- `StreamTimeouts::default`. -/
def StreamTimeouts.default : StreamTimeouts where
  connect := Duration.ofSecs 10
  write := Duration.ofSecs 10
  receiveIdle := Duration.ofSecs (5 * 60)
  keepalive := Duration.ofSecs 10
  drain := Duration.ofSecs 5
  reconnectBaseDelay := Duration.ofSecs 1
  reconnectOutageBudget := none
  liveEdgeMaxBacklog := continuityWindow
  immediateRolloverMinSession := Duration.ofSecs 30
  handoverLead := Duration.ofSecs 60
  handoverDeadlineMargin := Duration.ofSecs 15
  fastReconnectWindow := Stream.fastReconnectWindow

/-- `SttStreamControl`. -/
inductive SttStreamControl
  | finalize | pause | resume | keepalive | finish
  deriving DecidableEq, Repr

/-- `SttStreamProviderError`, without the texts that are only shown. -/
structure SttStreamProviderError where
  errorCode : ℕ
  errorType : String
  deriving DecidableEq, Repr

/-- `SttStreamError`. -/
inductive SttStreamError
  | provider (error : SttStreamProviderError)
  | transport (operation message : String)
  | protocol (message : String)
  | timeout (operation : String) (elapsedMs : ℕ)
  | closed (code : Option ℕ) (reason : String)
  deriving DecidableEq, Repr

/-- `Rollover`. -/
inductive Rollover
  | none | atCap | handedOver
  deriving DecidableEq, Repr

/-- `StreamFailure`, without the `task_error` the lane itself never reads. -/
structure StreamFailure where
  eventError : SttStreamError
  skipsToLiveEdge : Bool
  rollover : Rollover
  deriving DecidableEq, Repr

/-- What `credential_for_connection` can fail with, by how
`StreamFailure::credential` classifies it; each carries its `Display` text. -/
inductive CredentialError
  | quotaExhausted (display : String)
  | auth (display : String)
  | other (display : String)

namespace StreamFailure

/-- A failure that is neither a skip nor a rollover. -/
def plain (e : SttStreamError) : StreamFailure := ⟨e, false, Rollover.none⟩

/-- `StreamFailure::transport`. -/
def transport (operation message : String) : StreamFailure :=
  plain (.transport operation message)

/-- `StreamFailure::protocol`. -/
def protocol (message : String) : StreamFailure := plain (.protocol message)

/-- `StreamFailure::timeout`. -/
def timeout (operation : String) (elapsed : Duration) : StreamFailure :=
  plain (.timeout operation elapsed.asMillis)

/-- `StreamFailure::provider`. -/
def provider (error : SttStreamProviderError) : StreamFailure := plain (.provider error)

/-- `StreamFailure::session_duration_cap`. -/
def sessionDurationCap (errorCode : ℕ) : StreamFailure :=
  ⟨.provider ⟨errorCode, "session_duration_cap"⟩, false, Rollover.atCap⟩

/-- `StreamFailure::handed_over`. -/
def handedOver : StreamFailure :=
  ⟨.closed none "lane handed over to a fresh connection before its session cap", false,
    Rollover.handedOver⟩

/-- `StreamFailure::handover_unconfirmed`. -/
def handoverUnconfirmed (elapsed : Duration) : StreamFailure :=
  ⟨.timeout "Soniox stream hand-over" elapsed.asMillis, false, Rollover.atCap⟩

/-- `StreamFailure::finished_midstream`. -/
def finishedMidstream : StreamFailure :=
  plain (.closed none "provider finished the session while capture was live")

/-- `StreamFailure::closed`. -/
def closed (code : Option ℕ) : StreamFailure :=
  plain (.closed code (if code.isSome then "provider closed the stream before finished"
    else "provider stream ended before finished"))

/-- `StreamFailure::credential`. -/
def credential : CredentialError → StreamFailure
  | .quotaExhausted _ => plain (.provider ⟨402, "invite_time_exhausted"⟩)
  | .auth _ => plain (.provider ⟨401, "unauthenticated"⟩)
  | .other display =>
      plain (.transport "Soniox lane credential" ("Soniox lane credential: " ++ display))

/-- `StreamFailure::behind_live_edge`. -/
def behindLiveEdge (backlog : Duration) : StreamFailure :=
  ⟨.transport "Soniox live-edge backlog" ("provider fell " ++ toString (backlog / 1000000000) ++
    "s behind the audio this lane sent"), true, Rollover.none⟩

/-- The failure `send_event` returns once nobody listens. -/
def receiverClosed : StreamFailure :=
  plain (.transport "Soniox stream event delivery" "event receiver closed")

/-- `StreamFailure::is_retryable`. -/
def isRetryable (f : StreamFailure) : Bool :=
  if f.rollover ≠ Rollover.none then true
  else match f.eventError with
    | .transport _ _ => true
    | .timeout operation _ => operation ≠ "Soniox stream drain"
    | .closed code _ => !(code.any fun code => code ∈ [1008, 4001, 4003])
    | .provider error =>
        error.errorCode ∈ [408, 413, 429, 503] ||
          error.errorType ∈ ["rate_limited", "service_unavailable"]
    | .protocol _ => false

end StreamFailure

/-- `str::contains`. -/
def containsText (text part : String) : Bool := decide (part.toList <:+: text.toList)

/-- `canonical_soniox_error_type`. -/
def canonicalSonioxErrorType (status : ℕ) (raw : Option String) : String :=
  let normalized := (raw.getD "").map Char.toLower
  if status ∈ [401, 403] || containsText normalized "auth" || containsText normalized "api_key" ||
      containsText normalized "unauthor" || containsText normalized "credential" then
    "authentication_error"
  else if status = 402 || containsText normalized "quota" ||
      containsText normalized "balance_exhausted" ||
      containsText normalized "budget_exhausted" then "quota_exhausted"
  else if status = 429 || containsText normalized "rate" ||
      containsText normalized "limit_exceeded" then "rate_limited"
  else if status = 400 || containsText normalized "invalid_request" then "invalid_request"
  else if status ≥ 500 || containsText normalized "service_unavailable" then
    "service_unavailable"
  else "provider_error"

/-- `ends_at_session_duration_cap`. -/
def endsAtSessionDurationCap (errorCode : ℕ) (errorType : Option String) : Bool :=
  match errorType.map fun t => String.ofList (Text.trim t.toList) with
  | some t => t ∈ ["temp_api_key_session_expired", "max_duration_reached"]
  | none => errorCode = 413

/-- `SonioxStreamTokenWire`, without the confidence (a float no code here
reads). -/
structure SonioxStreamTokenWire where
  text : String
  startMs : Option ℕ
  endMs : Option ℕ
  isFinal : Bool
  translationStatus : Option String
  language : Option String
  sourceLanguage : Option String
  speaker : Option String
  deriving DecidableEq, Repr

/-- `SttStreamTranslationStatus`. -/
inductive SttStreamTranslationStatus
  | none | original | translation | unknown (value : String)
  deriving DecidableEq, Repr

/-- `SttStreamTranslationStatus::from_provider`. -/
def SttStreamTranslationStatus.fromProvider : Option String → SttStreamTranslationStatus
  | .none => .none
  | .some value =>
      if value = "none" then .none
      else if value = "original" then .original
      else if value = "translation" then .translation
      else .unknown value

/-- `SttStreamToken`. -/
structure SttStreamToken where
  text : String
  startMs : Option ℕ
  endMs : Option ℕ
  isFinal : Bool
  translationStatus : SttStreamTranslationStatus
  language : Option String
  sourceLanguage : Option String
  speaker : Option String
  deriving DecidableEq, Repr

/-- `impl From<SonioxStreamTokenWire> for SttStreamToken`. -/
def SonioxStreamTokenWire.toToken (t : SonioxStreamTokenWire) : SttStreamToken where
  text := t.text
  startMs := t.startMs
  endMs := t.endMs
  isFinal := t.isFinal
  translationStatus := .fromProvider t.translationStatus
  language := t.language
  sourceLanguage := t.sourceLanguage
  speaker := t.speaker

/-- `SonioxStreamResponse`. -/
structure SonioxStreamResponse where
  tokens : List SonioxStreamTokenWire
  finished : Bool
  errorCode : Option ℕ
  errorType : Option String
  finalAudioProcMs : Option ℕ
  totalAudioProcMs : Option ℕ
  deriving DecidableEq, Repr

/-- `SttStreamEvent`. -/
inductive SttStreamEvent
  | connected
  | reconnecting (attempt delayMs : ℕ) (planned : Bool)
  | recoveryStarted (outageMs : ℕ)
  | audioProgress (finalAudioProcMs totalAudioProcMs lagMs : ℕ)
  | tokens (tokens : List SttStreamToken)
  | endpoint
  | finalized
  | finished
  | inputDiscontinuity
  | error (error : SttStreamError)
  deriving DecidableEq, Repr

/-- `ReplaySuppression`. -/
structure ReplaySuppression where
  untilProviderMs : ℕ
  lastFinalSourceReplayed : Bool
  deriving DecidableEq, Repr

namespace ReplaySuppression

/-- `ReplaySuppression::default`. -/
def default : ReplaySuppression := ⟨0, false⟩

/-- `ReplaySuppression::after_replay`. -/
def afterReplay (untilProviderMs : ℕ) : ReplaySuppression := ⟨untilProviderMs, true⟩

/-- The `retain` of `filter`: the tokens kept, and `last_final_replayed` after
the last of them. -/
def retain (untilMs : ℕ) (lastReplayed lastFinalReplayed : Bool) :
    List SonioxStreamTokenWire → List SonioxStreamTokenWire × Bool
  | [] => ([], lastFinalReplayed)
  | token :: rest =>
      if token.translationStatus = some "translation" then
        let (kept, last) := retain untilMs lastReplayed lastFinalReplayed rest
        (if lastReplayed then kept else token :: kept, last)
      else
        let replayed := token.endMs.any fun endMs => endMs ≤ untilMs
        let (kept, last) :=
          retain untilMs replayed (if token.isFinal then replayed else lastFinalReplayed) rest
        (if replayed then kept else token :: kept, last)

/-- `ReplaySuppression::filter`: the state it leaves and the tokens it keeps. -/
def filter (s : ReplaySuppression) (tokens : List SonioxStreamTokenWire)
    (finalAudioProcMs : Option ℕ) : ReplaySuppression × List SonioxStreamTokenWire :=
  if s.untilProviderMs = 0 then (s, tokens)
  else
    let (kept, last) := retain s.untilProviderMs s.lastFinalSourceReplayed
      s.lastFinalSourceReplayed tokens
    if (finalAudioProcMs.any fun processed => processed ≥ s.untilProviderMs) && !last then
      (default, kept)
    else ({ s with lastFinalSourceReplayed := last }, kept)

end ReplaySuppression

/-- `LongUtteranceCloser`. -/
structure LongUtteranceCloser where
  openFromMs : ℕ
  voicedUntilMs : ℕ
  quietMs : ℕ
  pending : Bool
  pendingSinceMs : ℕ
  deriving DecidableEq, Repr

namespace LongUtteranceCloser

/-- `LongUtteranceCloser::starting_at`. -/
def startingAt (atMs : ℕ) : LongUtteranceCloser := ⟨atMs, atMs, 0, false, 0⟩

/-- `LongUtteranceCloser::boundary`. -/
def boundary (c : LongUtteranceCloser) (atMs : ℕ) : LongUtteranceCloser :=
  { c with openFromMs := atMs, pending := false }

/-- `LongUtteranceCloser::sent`: whether to finalize now.  The constants are
`LONG_UTTERANCE_MS`, `LONG_UTTERANCE_PAUSE_MS` and
`FINALIZE_ANSWER_TIMEOUT_MS`. -/
def sent (c : LongUtteranceCloser) (quiet : Bool) (blockMs endMs heardMs : ℕ) :
    LongUtteranceCloser × Bool :=
  let c := if quiet then { c with quietMs := satAdd c.quietMs blockMs }
    else { c with quietMs := 0, voicedUntilMs := endMs }
  let c := if c.pending && decide (heardMs - c.pendingSinceMs ≥ 1500) then
    { c with pending := false } else c
  let long := decide (c.voicedUntilMs - c.openFromMs ≥ 10000)
  if c.pending || !long || decide (c.quietMs < 200) then (c, false)
  else ({ c with pending := true, pendingSinceMs := endMs }, true)

end LongUtteranceCloser

/-- `HandoverSchedule`. -/
structure HandoverSchedule where
  watchFrom : Instant
  handOverBy : Instant
  deriving DecidableEq, Repr

/-- `HandoverSchedule::for_cap`. -/
def HandoverSchedule.forCap (dialedAt : Instant) (cap : Duration) (t : StreamTimeouts) :
    HandoverSchedule where
  watchFrom := dialedAt + cap - min t.handoverLead (cap / 4)
  handOverBy := dialedAt + cap - min t.handoverDeadlineMargin (cap / 10)

/-- `LaneCredential`. -/
structure LaneCredential where
  apiKey : String
  sessionCap : Option Duration
  deriving DecidableEq, Repr

/-- `UnpresentedCredential`. -/
structure UnpresentedCredential where
  credential : LaneCredential
  mintedAt : Instant
  deriving DecidableEq, Repr

/-- `UnpresentedCredential::into_still_redeemable`; the window is
`UNPRESENTED_CREDENTIAL_REUSE_WINDOW`. -/
def UnpresentedCredential.intoStillRedeemable (u : UnpresentedCredential) (now : Instant) :
    Option LaneCredential :=
  if now - u.mintedAt < Duration.ofSecs 240 then some u.credential else none

/-- `CatchUp`. -/
structure CatchUp where
  active : Bool
  replay : List Pcm
  deriving DecidableEq, Repr

/-- The variables of one `run_stream_session`, with the deadline of each of its
timers. -/
structure Session where
  replaySuppression : ReplaySuppression
  catchUp : CatchUp
  sentAudio : Bool
  draining : Bool
  audioOpen : Bool
  controlOpen : Bool
  waitingForPause : Bool
  handingOver : Bool
  longUtterance : LongUtteranceCloser
  handover : Option HandoverSchedule
  keepaliveAt : Instant
  drainAt : Instant
  receiveIdleAt : Instant
  handoverAt : Instant
  catchUpAt : Instant
  deriving DecidableEq, Repr

/-- What became of a block taken off the audio channel. -/
inductive Fate
  /-- sent, and counted by `record_sent` -/
  | sent
  /-- discarded on purpose, and counted by `note_discarded` -/
  | shed
  /-- the send failed: the session ended with the block in hand -/
  | lost
  /-- thrown away by the audio branch of a paused lane -/
  | dropped
  deriving DecidableEq, Repr

/-- A block taken off the audio channel, whether the lane was paused then, and
what became of it. -/
structure TakenBlock where
  pcm : Pcm
  paused : Bool
  fate : Fate
  deriving DecidableEq, Repr

/-- A block counted onto the timeline, and whether it was sent. -/
structure CountedBlock where
  pcm : Pcm
  sent : Bool
  deriving DecidableEq, Repr

/-- The time a counted block takes on the timeline. -/
def CountedBlock.ms (b : CountedBlock) : ℕ := durationMs b.pcm.length

/-- The time a taken block would take on the timeline. -/
def TakenBlock.ms (b : TakenBlock) : ℕ := durationMs b.pcm.length

/-- The history of a lane: every block taken off the audio channel, and the
timeline since the lane started or last re-anchored at the live edge. -/
structure History where
  taken : List TakenBlock
  anchorMs : ℕ
  counted : List CountedBlock
  deriving DecidableEq, Repr

/-- What `run_stream` is doing. -/
inductive Phase
  /-- at the top of its loop -/
  | idle
  /-- in `run_stream_session`, before the configuration message was sent -/
  | dialing (outage : Option Duration) (skips afterHandover : Bool) (startedAt : Instant)
  /-- in the `select!` loop of `run_stream_session` -/
  | live (startedAt : Instant)
  /-- back from `run_stream_session` with an error -/
  | failed (connected : Bool) (startedAt : Instant) (failure : StreamFailure)
  /-- in `wait_for_reconnect` -/
  | waiting (wakeAt : Instant) (shedAudio audioOpen : Bool)
  /-- returned -/
  | ended (result : Except StreamFailure Unit)

/-- A lane: the variables of `run_stream` and of the connection it is in. -/
structure Lane where
  recovery : StreamRecoveryState
  paused : Bool
  reconnectAttempt : ℕ
  disconnectedAt : Option Instant
  skipToLiveEdge : Bool
  handedOver : Bool
  finishRequested : Bool
  unpresentedCredential : Option UnpresentedCredential
  session : Session
  phase : Phase
  now : Instant
  listening : Bool
  events : List SttStreamEvent
  history : History
  /-- a history variable: after a session that cut itself, how many dials have
  begun since; `none` again once another session was configured and has ended -/
  dialsSinceCut : Option ℕ

end Stream
end ZuTalk
