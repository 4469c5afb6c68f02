/-
# The recovery state of one provider lane

`crates/vt-stt/src/soniox_stream.rs`: `StreamRecoveryState`, `ReplayAudioFrame`
and the constants they read.

A lane counts every block of PCM it takes on one capture timeline, in
milliseconds.  `nextAudioMs` is the end of that timeline, `acknowledgedMs` how
far the provider has confirmed hearing it, `connectionOriginMs` where position
0 of the current connection's own clock stands, and `sentFrames` the blocks a
reconnect could still send again.

Positions are `u64` in the source and natural numbers here; `saturating_add`
is `satAdd`, `saturating_sub` is subtraction on `ℕ`.  A `Duration` is a number
of nanoseconds.
-/

import Mathlib.Data.List.Basic
import Mathlib.Tactic.Linarith

namespace ZuTalk
namespace Stream

/-- `u64::MAX`. -/
@[irreducible]
def u64Max : ℕ := 2 ^ 64 - 1

/-- `u64::saturating_add`. -/
def satAdd (a b : ℕ) : ℕ := min (a + b) u64Max

theorem satAdd_of_le {a b : ℕ} (h : a + b ≤ u64Max) : satAdd a b = a + b := min_eq_left h

theorem le_satAdd {a b : ℕ} (h : a ≤ u64Max) : a ≤ satAdd a b :=
  le_min (Nat.le_add_right a b) h

theorem satAdd_le (a b : ℕ) : satAdd a b ≤ u64Max := min_le_right _ _

/-- A sum below `u64::MAX` did not saturate. -/
theorem satAdd_eq_of_lt {a b : ℕ} (h : satAdd a b < u64Max) : satAdd a b = a + b := by
  unfold satAdd at *
  omega

theorem lt_of_satAdd_lt {a b : ℕ} (h : satAdd a b < u64Max) : a < u64Max := by
  unfold satAdd at h
  omega

/-- `std::time::Duration`, in nanoseconds. -/
abbrev Duration := ℕ

/-- `tokio::time::Instant`, in nanoseconds since the lane's task started. -/
abbrev Instant := ℕ

/-- `Duration::from_millis`. -/
def Duration.ofMillis (ms : ℕ) : Duration := (ms * 1000000 : ℕ)

/-- `Duration::as_millis`. -/
def Duration.asMillis (d : Duration) : ℕ := (d / 1000000 : ℕ)

/-- `Duration::from_secs`. -/
def Duration.ofSecs (s : ℕ) : Duration := (s * 1000000000 : ℕ)

/-- One block of PCM off the audio channel. -/
abbrev Pcm := List UInt8

/-- `CONTINUITY_WINDOW`. -/
def continuityWindow : Duration := Duration.ofSecs 15

/-- `FAST_RECONNECT_WINDOW`. -/
def fastReconnectWindow : Duration := Duration.ofSecs 5

/-- `REPLAY_OVERLAP`. -/
def replayOverlap : Duration := Duration.ofSecs 2

/-- `REPLAY_OVERLAP.as_millis()`. -/
def replayOverlapMs : ℕ := replayOverlap.asMillis

/-- `PCM_BYTES_PER_MILLISECOND`. -/
def pcmBytesPerMillisecond : ℕ := 32

/-- `FINALIZE_ANSWER_STEP_MS`. -/
def finalizeAnswerStepMs : ℕ := 1000

@[simp] theorem replayOverlapMs_eq : replayOverlapMs = 2000 := by decide

@[simp] theorem continuityWindow_eq : continuityWindow = 15000000000 := by decide

attribute [irreducible] continuityWindow replayOverlapMs finalizeAnswerStepMs

/-- `len.div_ceil(PCM_BYTES_PER_MILLISECOND).max(1)`: the time a block of `len`
bytes takes on the timeline. -/
def durationMs (len : ℕ) : ℕ :=
  max ((len + (pcmBytesPerMillisecond - 1)) / pcmBytesPerMillisecond) 1

theorem durationMs_pos (len : ℕ) : 0 < durationMs len := by
  unfold durationMs
  omega

/-- `ReplayAudioFrame`: a block kept for replay, and where it ends. -/
structure ReplayAudioFrame where
  endMs : ℕ
  pcm : Pcm
  deriving DecidableEq, Repr

/-- Where a frame begins on the capture timeline. -/
def ReplayAudioFrame.startMs (f : ReplayAudioFrame) : ℕ := f.endMs - durationMs f.pcm.length

/-- `StreamRecoveryState`. -/
structure StreamRecoveryState where
  nextAudioMs : ℕ
  acknowledgedMs : ℕ
  connectionOriginMs : ℕ
  sentFrames : List ReplayAudioFrame
  finalizeMarks : List ℕ
  providerLead : List (ℕ × ℕ)
  deriving DecidableEq, Repr

namespace StreamRecoveryState

/-- `StreamRecoveryState::starting_at`. -/
def startingAt (captureOriginMs : ℕ) : StreamRecoveryState where
  nextAudioMs := captureOriginMs
  acknowledgedMs := captureOriginMs
  connectionOriginMs := captureOriginMs
  sentFrames := []
  finalizeMarks := []
  providerLead := []

/-- `begin_provider_clock`. -/
def beginProviderClock (r : StreamRecoveryState) : StreamRecoveryState :=
  { r with finalizeMarks := [], providerLead := [] }

/-- `note_finalize_sent`. -/
def noteFinalizeSent (r : StreamRecoveryState) : StreamRecoveryState :=
  { r with finalizeMarks := r.finalizeMarks ++ [r.nextAudioMs - r.connectionOriginMs] }

/-- `lead_at`: the newest entry whose position has been reached. -/
def leadAt (r : StreamRecoveryState) (providerMs : ℕ) : ℕ :=
  match r.providerLead.reverse.find? (fun entry => entry.1 ≤ providerMs) with
  | some (_, leadMs) => leadMs
  | none => 0

/-- `capture_ms`: a provider position on the capture timeline. -/
def captureMs (r : StreamRecoveryState) (providerMs : ℕ) : ℕ :=
  satAdd r.connectionOriginMs (providerMs - r.leadAt providerMs)

/-- The `while` loop of `note_finalize_answered`: finalizes too old to be the
one answered leave the front of the queue. -/
def dropUnanswered (heardMs : ℕ) : List ℕ → List ℕ
  | first :: second :: rest =>
      if heardMs - first > finalizeAnswerStepMs ∧ second ≤ heardMs then
        dropUnanswered heardMs (second :: rest)
      else first :: second :: rest
  | marks => marks

/-- `note_finalize_answered`. -/
def noteFinalizeAnswered (r : StreamRecoveryState) (providerTotalMs : ℕ) : StreamRecoveryState :=
  let heardMs := providerTotalMs - r.leadAt providerTotalMs
  match dropUnanswered heardMs r.finalizeMarks with
  | [] => { r with finalizeMarks := [] }
  | sentMs :: marks =>
      let leadMs := providerTotalMs - sentMs
      if leadMs > r.leadAt providerTotalMs then
        { r with finalizeMarks := marks
                 providerLead := r.providerLead ++ [(providerTotalMs, leadMs)] }
      else { r with finalizeMarks := marks }

/-- `while front.end_ms <= retain_from { pop_front }`. -/
def retainFrom (retainFromMs : ℕ) (frames : List ReplayAudioFrame) : List ReplayAudioFrame :=
  frames.dropWhile (fun frame => frame.endMs ≤ retainFromMs)

/-- `(CONTINUITY_WINDOW + REPLAY_OVERLAP).as_millis()`. -/
def horizonMs : ℕ := Duration.asMillis (continuityWindow + replayOverlap)

@[simp] theorem horizonMs_eq : horizonMs = 17000 := by
  simp [horizonMs, Duration.asMillis, replayOverlap, Duration.ofSecs]

attribute [irreducible] horizonMs

/-- `drop_unreplayable_frames`; the `else` is `checked_sub` failing. -/
def dropUnreplayableFrames (r : StreamRecoveryState) : StreamRecoveryState :=
  if horizonMs ≤ r.nextAudioMs then
    { r with sentFrames := retainFrom (r.nextAudioMs - horizonMs) r.sentFrames }
  else r

/-- `record_sent`. -/
def recordSent (r : StreamRecoveryState) (pcm : Pcm) : StreamRecoveryState :=
  let frame : ReplayAudioFrame :=
    { endMs := satAdd r.nextAudioMs (durationMs pcm.length), pcm := pcm }
  dropUnreplayableFrames
    { r with nextAudioMs := frame.endMs, sentFrames := r.sentFrames ++ [frame] }

@[simp] theorem recordSent_nextAudioMs (r : StreamRecoveryState) (pcm : Pcm) :
    (r.recordSent pcm).nextAudioMs = satAdd r.nextAudioMs (durationMs pcm.length) := by
  unfold recordSent dropUnreplayableFrames
  dsimp only
  split <;> rfl

/-- The state `acknowledge` leaves. -/
def acknowledge (r : StreamRecoveryState) (providerTotalMs : ℕ) : StreamRecoveryState :=
  let acknowledged := min (r.captureMs providerTotalMs) r.nextAudioMs
  let acknowledgedMs := max r.acknowledgedMs acknowledged
  { r with acknowledgedMs := acknowledgedMs
           sentFrames := retainFrom (acknowledgedMs - replayOverlapMs) r.sentFrames }

/-- What `acknowledge` returns once it has run: the position and the lag. -/
def acknowledgement (r : StreamRecoveryState) : ℕ × ℕ :=
  (r.acknowledgedMs, r.nextAudioMs - r.acknowledgedMs)

/-- `re_anchor_to_live_edge`. -/
def reAnchorToLiveEdge (r : StreamRecoveryState) : StreamRecoveryState :=
  beginProviderClock
    { r with sentFrames := [], acknowledgedMs := r.nextAudioMs
             connectionOriginMs := r.nextAudioMs }

/-- Where `prepare_replay` starts a replay: `REPLAY_OVERLAP` before the
acknowledged point. -/
def replayFromMs (r : StreamRecoveryState) : ℕ := r.acknowledgedMs - replayOverlapMs

/-- `prepare_replay`: the state it leaves and the frames it returns. -/
def prepareReplay (r : StreamRecoveryState) (outage : Duration) :
    StreamRecoveryState × List ReplayAudioFrame :=
  if outage > continuityWindow then
    (beginProviderClock
      { r with sentFrames := [], acknowledgedMs := r.nextAudioMs
               connectionOriginMs := r.nextAudioMs }, [])
  else
    (beginProviderClock { r with connectionOriginMs := r.replayFromMs },
      r.sentFrames.filter (fun frame => frame.endMs > r.replayFromMs))

theorem prepareReplay_of_lt {outage : Duration} (h : continuityWindow < outage)
    (r : StreamRecoveryState) : r.prepareReplay outage = (r.reAnchorToLiveEdge, []) := if_pos h

theorem prepareReplay_of_le {outage : Duration} (h : outage ≤ continuityWindow)
    (r : StreamRecoveryState) :
    r.prepareReplay outage = (beginProviderClock { r with connectionOriginMs := r.replayFromMs },
      r.sentFrames.filter (fun frame => frame.endMs > r.replayFromMs)) :=
  if_neg (not_lt.2 h)

/-- `replay_duplicate_until_provider_ms`. -/
def replayDuplicateUntilProviderMs (r : StreamRecoveryState) : ℕ :=
  r.acknowledgedMs - r.connectionOriginMs

/-- `note_discarded`. -/
def noteDiscarded (r : StreamRecoveryState) (pcmLen : ℕ) : StreamRecoveryState :=
  { r with nextAudioMs := satAdd r.nextAudioMs (durationMs pcmLen) }

/-- `sent_backlog`. -/
def sentBacklog (r : StreamRecoveryState) : Duration :=
  Duration.ofMillis (r.nextAudioMs - r.acknowledgedMs)

theorem sentBacklog_le_iff (r : StreamRecoveryState) :
    r.sentBacklog ≤ continuityWindow ↔ r.nextAudioMs - r.acknowledgedMs ≤ 15000 := by
  rw [continuityWindow_eq]
  change (r.nextAudioMs - r.acknowledgedMs) * 1000000 ≤ 15000 * 1000000 ↔ _
  exact Nat.mul_le_mul_right_iff (by norm_num)

end StreamRecoveryState

end Stream
end ZuTalk
