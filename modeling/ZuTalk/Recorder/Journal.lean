/-
# The capture journal

`crates/vt-pipeline/src/recording.rs`: every block of PCM is encrypted and appended
to a journal, record by record.  While the recording runs, each full minute is also
given to a thread that writes it as its final chunk; `stop` writes the last, partial
minute.  If anything is amiss the chunks are made from the journal instead
(`recover_capture_audio_journal`), which is also what happens after a crash.

A chunk's id and path are functions of the session and of its index, so the model has
the index alone.  Whether a file operation fails, and how a channel answers, is given
from outside (`PushOutcome`, `DiskOutcome`, `StopOutcome`).
-/

import Mathlib.Algebra.Group.Nat.Defs
import ZuTalk.Library.Cuts

namespace ZuTalk
namespace Recorder

abbrev Bytes := List UInt8

/-- `RecordingError`. -/
inductive RecordingError
  | writeFailed (message : String)
  | invalidAudio (message : String)
  | journalCorrupt (message : String)
  deriving DecidableEq, Repr

/-- `StoredSampleFormat`. -/
inductive StoredSampleFormat
  | f32 | s16
  deriving DecidableEq, Repr

/-- `bytes_per_sample`. -/
def StoredSampleFormat.bytesPerSample : StoredSampleFormat → ℕ
  | .f32 => 4
  | .s16 => 2

/-- `RecordingConfig`. -/
structure RecordingConfig where
  sampleRate : ℕ
  channels : ℕ
  deriving DecidableEq, Repr

namespace RecordingConfig

variable (config : RecordingConfig)

/-- `bytes_per_frame`. -/
def bytesPerFrame (format : StoredSampleFormat) : ℕ := max config.channels 1 * format.bytesPerSample

/-- `chunk_byte_limit`. -/
def chunkByteLimit (format : StoredSampleFormat) : ℕ :=
  max (max config.sampleRate 1 * 60 * config.bytesPerFrame format) (config.bytesPerFrame format)

/-- `duration_ms`. -/
def durationMs (frames : ℕ) : ℕ :=
  if 0 < config.sampleRate then frames * 1000 / config.sampleRate else 0

theorem bytesPerFrame_pos (format : StoredSampleFormat) : 0 < config.bytesPerFrame format := by
  unfold bytesPerFrame
  have hsample : 0 < format.bytesPerSample := by cases format <;> decide
  exact Nat.mul_pos (by omega) hsample

theorem chunkByteLimit_pos (format : StoredSampleFormat) : 0 < config.chunkByteLimit format := by
  have hframe := config.bytesPerFrame_pos format
  unfold chunkByteLimit
  omega

/-- A full chunk has whole frames. -/
theorem bytesPerFrame_dvd_chunkByteLimit (format : StoredSampleFormat) :
    config.bytesPerFrame format ∣ config.chunkByteLimit format := by
  unfold chunkByteLimit
  rcases Nat.le_total (max config.sampleRate 1 * 60 * config.bytesPerFrame format)
    (config.bytesPerFrame format) with h | h
  · exact (Nat.max_eq_right h).symm ▸ Nat.dvd_refl _
  · rw [Nat.max_eq_left h]
    exact Nat.dvd_mul_left ..

end RecordingConfig

/-! ### Records -/

/-- An authenticated cipher, as AES-256-GCM is one. -/
structure Aead (Key : Type) where
  encrypt : Key → Bytes → Bytes → Bytes
  decrypt : Key → Bytes → Bytes → Option Bytes

/-- What is known of it: it gives back what it was given, and adds a tag of 16 bytes. -/
structure Aead.Lawful {Key : Type} (aead : Aead Key) : Prop where
  decrypt_encrypt : ∀ key nonce plaintext,
    aead.decrypt key nonce (aead.encrypt key nonce plaintext) = some plaintext
  length_encrypt : ∀ key nonce plaintext,
    (aead.encrypt key nonce plaintext).length = plaintext.length + 16

/-- A nonce of 12 bytes. -/
abbrev Nonce := { bytes : Bytes // bytes.length = 12 }

section Chunks

variable {Key : Type} (aead : Aead Key) (key : Key)

/-- `encrypt_chunk`, with the nonce that was drawn. -/
def encryptChunk (plaintext : Bytes) (nonce : Nonce) : Bytes :=
  nonce.1 ++ aead.encrypt key nonce.1 plaintext

/-- `decrypt_chunk`. -/
def decryptChunk (data : Bytes) : Except String Bytes :=
  if data.length < 12 then .error "decryption failed: data too short for nonce"
  else
    match aead.decrypt key (data.take 12) (data.drop 12) with
    | some plaintext => .ok plaintext
    | none => .error "decryption failed: aead::Error"

variable {aead}

theorem length_encryptChunk (hlawful : aead.Lawful) (plaintext : Bytes) (nonce : Nonce) :
    (encryptChunk aead key plaintext nonce).length = plaintext.length + 28 := by
  unfold encryptChunk
  rw [List.length_append, nonce.2, hlawful.length_encrypt]
  omega

theorem decryptChunk_encryptChunk (hlawful : aead.Lawful) (plaintext : Bytes) (nonce : Nonce) :
    decryptChunk aead key (encryptChunk aead key plaintext nonce) = .ok plaintext := by
  have hlength := length_encryptChunk key hlawful plaintext nonce
  have htake : (encryptChunk aead key plaintext nonce).take 12 = nonce.1 :=
    List.take_left' nonce.2
  have hdrop : (encryptChunk aead key plaintext nonce).drop 12 =
      aead.encrypt key nonce.1 plaintext := List.drop_left' nonce.2
  unfold decryptChunk
  rw [if_neg (by omega), htake, hdrop, hlawful.decrypt_encrypt]

end Chunks

/-- `u32::to_le_bytes`. -/
def u32ToLeBytes (n : ℕ) : Bytes :=
  [UInt8.ofNat n, UInt8.ofNat (n / 256), UInt8.ofNat (n / 65536), UInt8.ofNat (n / 16777216)]

/-- `u32::from_le_bytes`. -/
def u32FromLeBytes : Bytes → ℕ
  | b :: bytes => b.toNat + 256 * u32FromLeBytes bytes
  | [] => 0

@[simp] theorem length_u32ToLeBytes (n : ℕ) : (u32ToLeBytes n).length = 4 := rfl

theorem u32FromLeBytes_u32ToLeBytes {n : ℕ} (h : n < 2 ^ 32) :
    u32FromLeBytes (u32ToLeBytes n) = n := by
  simp only [u32ToLeBytes, u32FromLeBytes, UInt8.toNat_ofNat']
  omega

/-- `CAPTURE_JOURNAL_MAGIC_F32`. -/
def captureJournalMagicF32 : Bytes := [86, 84, 67, 65, 80, 74, 49, 0]

/-- `CAPTURE_JOURNAL_MAGIC_S16`. -/
def captureJournalMagicS16 : Bytes := [86, 84, 67, 65, 80, 74, 50, 0]

/-- `MAX_CAPTURE_FRAME_BYTES`. -/
def maxCaptureFrameSize : ℕ := 8 * 1024 * 1024

/-- A record: its length and what it holds. -/
def journalRecord (encrypted : Bytes) : Bytes := u32ToLeBytes encrypted.length ++ encrypted

/-! ### The minute being recorded -/

/-- The plaintext of a chunk that is not full yet. -/
structure Minute (limit : ℕ) where
  bytes : Bytes
  room : bytes.length < limit

namespace Minute

variable {limit : ℕ}

/-- Nothing yet. -/
def empty (h : 0 < limit) : Minute limit := ⟨[], h⟩

variable (minute : Minute limit) (pcm : Bytes)

/-- `take`: how many of the bytes still fit. -/
def taken : ℕ := min (limit - minute.bytes.length) pcm.length

/-- The minute with the bytes that still fit. -/
def filled : Bytes := minute.bytes ++ pcm.take (minute.taken pcm)

theorem taken_pos (h : pcm ≠ []) : 0 < minute.taken pcm := by
  have hroom := minute.room
  have hpos := List.length_pos_iff.2 h
  unfold taken
  omega

theorem length_filled_le : (minute.filled pcm).length ≤ limit := by
  have hroom := minute.room
  unfold filled taken
  rw [List.length_append, List.length_take]
  omega

theorem length_drop_lt (h : pcm ≠ []) : (pcm.drop (minute.taken pcm)).length < pcm.length := by
  have htaken := minute.taken_pos pcm h
  have hpos := List.length_pos_iff.2 h
  rw [List.length_drop]
  omega

end Minute

/-! ### Writing -/

/-- `LiveChunk`. -/
structure LiveChunk where
  index : ℕ
  startFrame : ℕ
  plaintext : Bytes
  deriving DecidableEq, Repr

/-- `CaptureAudioJournalState`, with the journal's bytes and the chunks that were given to
the live chunk writer. -/
structure JournalState (config : RecordingConfig) where
  file : Bytes
  capturedFrames : ℕ
  minute : Minute (config.chunkByteLimit .s16)
  minuteStartFrame : ℕ
  nextChunkIndex : ℕ
  liveChunksUsable : Bool
  submitted : List LiveChunk

/-- What a push meets: what fails with which message, and whether the live chunk writer
takes the chunk of an index. -/
structure PushOutcome where
  encryptError : Option String
  syncFailure : Option String
  writeError : Option String
  submits : ℕ → Bool

/-- A block that is pushed, and the nonce that is drawn for it. -/
structure Push where
  pcm : Bytes
  nonce : Nonce
  outcome : PushOutcome

namespace JournalState

variable {config : RecordingConfig}

/-- `CaptureAudioJournal::start`. -/
def start (config : RecordingConfig) : JournalState config where
  file := captureJournalMagicS16
  capturedFrames := 0
  minute := .empty (config.chunkByteLimit_pos .s16)
  minuteStartFrame := 0
  nextChunkIndex := 0
  liveChunksUsable := true
  submitted := []

/-- The full minute is given to the live chunk writer. -/
def submit (state : JournalState config) (plaintext : Bytes) : JournalState config :=
  { state with
    submitted := state.submitted ++
      [⟨state.nextChunkIndex, state.minuteStartFrame, plaintext⟩]
    minute := .empty (config.chunkByteLimit_pos .s16)
    nextChunkIndex := state.nextChunkIndex + 1
    minuteStartFrame := state.minuteStartFrame +
      config.chunkByteLimit .s16 / config.bytesPerFrame .s16 }

/-- `buffer_live_minute`. -/
def bufferLiveMinute (submits : ℕ → Bool) (state : JournalState config) (pcm : Bytes) :
    JournalState config :=
  if _hpcm : pcm = [] then state
  else if hfull : (state.minute.filled pcm).length = config.chunkByteLimit .s16 then
    if submits state.nextChunkIndex then
      bufferLiveMinute submits (state.submit (state.minute.filled pcm))
        (pcm.drop (state.minute.taken pcm))
    else
      { state with
        liveChunksUsable := false
        minute := .empty (config.chunkByteLimit_pos .s16) }
  else
    bufferLiveMinute submits
      { state with
        minute := ⟨state.minute.filled pcm,
          Nat.lt_of_le_of_ne (state.minute.length_filled_le pcm) hfull⟩ }
      (pcm.drop (state.minute.taken pcm))
termination_by pcm.length
decreasing_by
  all_goals exact state.minute.length_drop_lt pcm _hpcm

variable {Key : Type} (aead : Aead Key) (key : Key)

/-- `push_stored_pcm`. -/
def pushStoredPcm (state : JournalState config) (push : Push) :
    Except RecordingError (JournalState config) :=
  if push.pcm.length % config.bytesPerFrame .s16 ≠ 0 then
    .error (.invalidAudio ("audio byte count " ++ toString push.pcm.length ++
      " is not aligned to " ++ toString (config.bytesPerFrame .s16)))
  else if maxCaptureFrameSize < push.pcm.length then
    .error (.invalidAudio "audio callback exceeds 8388608 byte safety limit")
  else
    match push.outcome.encryptError with
    | some error => .error (.writeFailed ("encrypt capture frame: " ++ error))
    | none =>
        let encrypted := encryptChunk aead key push.pcm push.nonce
        if 2 ^ 32 ≤ encrypted.length then
          .error (.invalidAudio "encrypted capture frame is too large")
        else
          match push.outcome.syncFailure.or push.outcome.writeError with
          | some error => .error (.writeFailed error)
          | none =>
              let written :=
                { state with
                  file := state.file ++ journalRecord encrypted
                  capturedFrames :=
                    state.capturedFrames + push.pcm.length / config.bytesPerFrame .s16 }
              .ok (if written.liveChunksUsable then
                written.bufferLiveMinute push.outcome.submits push.pcm else written)

/-- Pushes one after the other, all of them accepted. -/
def pushAll (state : JournalState config) (pushes : List Push) :
    Except RecordingError (JournalState config) :=
  pushes.foldlM (fun state push => state.pushStoredPcm aead key push) state

end JournalState

/-! ### Chunks on the disk -/

/-- `RecordingAudioChunk`. -/
structure RecordingAudioChunk where
  index : ℕ
  startMs : ℕ
  endMs : ℕ
  deriving DecidableEq, Repr

/-- What each chunk file decrypts to. -/
abbrev Disk := ℕ → Option Bytes

/-- Which writes of chunks fail with which message, and whether the last flush does. -/
structure DiskOutcome where
  writeError : ℕ → Option String
  sealError : Option String

/-- Nothing fails. -/
structure DiskOutcome.Healthy (outcome : DiskOutcome) : Prop where
  writes : ∀ index, outcome.writeError index = none
  seals : outcome.sealError = none

/-- `RecoveredCaptureChunkWriter`. -/
structure ChunkWriter where
  config : RecordingConfig
  format : StoredSampleFormat

/-- The entry of a chunk. -/
def ChunkWriter.chunk (writer : ChunkWriter) (plaintext : Bytes) (startFrame index : ℕ) :
    RecordingAudioChunk where
  index := index
  startMs := writer.config.durationMs startFrame
  endMs := writer.config.durationMs
    (startFrame + plaintext.length / writer.config.bytesPerFrame writer.format)

/-- `RecoveredCaptureChunkWriter::write`. -/
def ChunkWriter.write (writer : ChunkWriter) (outcome : DiskOutcome) (disk : Disk)
    (plaintext : Bytes) (startFrame index : ℕ) :
    Except RecordingError (RecordingAudioChunk × Disk) :=
  match outcome.writeError index with
  | some error => .error (.writeFailed error)
  | none =>
      .ok (writer.chunk plaintext startFrame index, Function.update disk index (some plaintext))

/-- `remove_chunks_from`: the chunk files that follow, up to the first that is missing. -/
def removeChunksFrom (disk : Disk) (firstUnused : ℕ) : Disk := fun index =>
  if firstUnused ≤ index ∧
      (List.range' firstUnused (index + 1 - firstUnused)).all fun i => (disk i).isSome then none
  else disk index

theorem removeChunksFrom_of_lt (disk : Disk) {firstUnused index : ℕ} (h : index < firstUnused) :
    removeChunksFrom disk firstUnused index = disk index := by
  unfold removeChunksFrom
  rw [if_neg (by omega)]

/-- `RecoveredCaptureAudio`. -/
structure RecoveredCaptureAudio where
  audioChunks : List RecordingAudioChunk
  durationMs : ℕ
  sampleRate : ℕ
  channels : ℕ
  capturedFrames : ℕ
  sampleFormat : StoredSampleFormat
  deriving DecidableEq, Repr

/-! ### Recovery -/

/-- The variables of `recover_capture_audio_journal`. -/
structure RecoverState (limit : ℕ) where
  chunkPlaintext : Minute limit
  audioChunks : List RecordingAudioChunk
  capturedFrames : ℕ
  chunkStartFrame : ℕ
  disk : Disk

section Recovery

variable (config : RecordingConfig) (format : StoredSampleFormat) (outcome : DiskOutcome)

/-- The inner loop: a frame goes into the chunk, and full chunks are written. -/
def cutFrame (state : RecoverState (config.chunkByteLimit format)) (frame : Bytes) :
    Except RecordingError (RecoverState (config.chunkByteLimit format)) :=
  if _hframe : frame = [] then .ok state
  else if hfull : (state.chunkPlaintext.filled frame).length = config.chunkByteLimit format then
    match ChunkWriter.write ⟨config, format⟩ outcome state.disk
      (state.chunkPlaintext.filled frame) state.chunkStartFrame state.audioChunks.length with
    | .error error => .error error
    | .ok (chunk, disk) =>
        cutFrame
          { state with
            audioChunks := state.audioChunks ++ [chunk]
            disk := disk
            chunkStartFrame := state.chunkStartFrame +
              (state.chunkPlaintext.filled frame).length / config.bytesPerFrame format
            chunkPlaintext := .empty (config.chunkByteLimit_pos format) }
          (frame.drop (state.chunkPlaintext.taken frame))
  else
    cutFrame
      { state with
        chunkPlaintext := ⟨state.chunkPlaintext.filled frame,
          Nat.lt_of_le_of_ne (state.chunkPlaintext.length_filled_le frame) hfull⟩ }
      (frame.drop (state.chunkPlaintext.taken frame))
termination_by frame.length
decreasing_by
  all_goals exact state.chunkPlaintext.length_drop_lt frame _hframe

variable {Key : Type} (aead : Aead Key) (key : Key)

/-- The outer loop: record after record, up to one that is cut short. -/
def recoverFrames (state : RecoverState (config.chunkByteLimit format)) (rest : Bytes) :
    Except RecordingError (RecoverState (config.chunkByteLimit format)) :=
  if _hlength : rest.length < 4 then .ok state
  else
    let encryptedLen := u32FromLeBytes (rest.take 4)
    if encryptedLen < 28 ∨ maxCaptureFrameSize + 64 < encryptedLen then
      .error (.journalCorrupt ("invalid encrypted frame length: " ++ toString encryptedLen))
    else if (rest.drop 4).length < encryptedLen then .ok state
    else
      match decryptChunk aead key ((rest.drop 4).take encryptedLen) with
      | .error error => .error (.journalCorrupt ("authenticate capture journal frame: " ++ error))
      | .ok frame =>
          if frame.length % config.bytesPerFrame format ≠ 0 then
            .error (.journalCorrupt "recovered audio is not frame-aligned")
          else
            match cutFrame config format outcome
              { state with
                capturedFrames :=
                  state.capturedFrames + frame.length / config.bytesPerFrame format } frame with
            | .error error => .error error
            | .ok state => recoverFrames state ((rest.drop 4).drop encryptedLen)
termination_by rest.length
decreasing_by
  rw [List.length_drop, List.length_drop]
  omega

/-- The last chunk, and what is left behind. -/
def RecoverState.finish (state : RecoverState (config.chunkByteLimit format)) :
    Except RecordingError (RecoveredCaptureAudio × Disk) :=
  let last : Except RecordingError (List RecordingAudioChunk × Disk) :=
    if state.chunkPlaintext.bytes ≠ [] ∨ state.audioChunks = [] then
      match ChunkWriter.write ⟨config, format⟩ outcome state.disk state.chunkPlaintext.bytes
        state.chunkStartFrame state.audioChunks.length with
      | .error error => .error error
      | .ok (chunk, disk) => .ok (state.audioChunks ++ [chunk], disk)
    else .ok (state.audioChunks, state.disk)
  match last with
  | .error error => .error error
  | .ok (audioChunks, disk) =>
      match outcome.sealError with
      | some error => .error (.writeFailed ("sync recovered capture chunks: " ++ error))
      | none =>
          .ok ({ audioChunks := audioChunks
                 durationMs := config.durationMs state.capturedFrames
                 sampleRate := config.sampleRate
                 channels := config.channels
                 capturedFrames := state.capturedFrames
                 sampleFormat := format }, removeChunksFrom disk audioChunks.length)

/-- The start of a recovery. -/
def RecoverState.start (disk : Disk) : RecoverState (config.chunkByteLimit format) where
  chunkPlaintext := .empty (config.chunkByteLimit_pos format)
  audioChunks := []
  capturedFrames := 0
  chunkStartFrame := 0
  disk := disk

/-- The format a journal's header tells. -/
def journalFormat (file : Bytes) : Except RecordingError StoredSampleFormat :=
  if file.length < 8 then
    .error (.journalCorrupt "capture journal header: failed to fill whole buffer")
  else if file.take 8 = captureJournalMagicS16 then .ok .s16
  else if file.take 8 = captureJournalMagicF32 then .ok .f32
  else .error (.journalCorrupt "capture journal magic mismatch")

/-- `recover_capture_audio_journal`. -/
def recoverCaptureAudioJournal (file : Bytes) (disk : Disk) :
    Except RecordingError (RecoveredCaptureAudio × Disk) :=
  match journalFormat file with
  | .error error => .error error
  | .ok format =>
      match recoverFrames config format outcome aead key (RecoverState.start config format disk)
        (file.drop 8) with
      | .error error => .error error
      | .ok state => state.finish config format outcome

end Recovery

/-! ### Stop -/

/-- `LiveChunkProgress`, and the disk. -/
structure LiveChunkProgress where
  written : List RecordingAudioChunk
  failure : Option String
  disk : Disk

/-- What `stop` meets: the flush of the journal, the writes of the live chunk writer, and
the disk for the last chunk and for a recovery. -/
structure StopOutcome where
  syncError : Option String
  liveWrite : ℕ → Option String
  finish : DiskOutcome
  recovery : DiskOutcome

section Stop

variable (config : RecordingConfig)

/-- The live chunk writer's loop: it ends at the first write that fails. -/
def LiveChunkProgress.absorb (liveWrite : ℕ → Option String) (progress : LiveChunkProgress)
    (chunk : LiveChunk) : LiveChunkProgress :=
  if progress.failure.isSome then progress
  else
    match liveWrite chunk.index with
    | some error => { progress with failure := some error }
    | none =>
        { progress with
          written := progress.written ++
            [ChunkWriter.chunk ⟨config, .s16⟩ chunk.plaintext chunk.startFrame chunk.index]
          disk := Function.update progress.disk chunk.index (some chunk.plaintext) }

variable {config} in
/-- `finish_live_chunks`: what it leaves on the disk, and its result. -/
def finishLiveChunks (outcome : DiskOutcome) (live : LiveChunkProgress)
    (tail : JournalState config) : Disk × Except RecordingError RecoveredCaptureAudio :=
  match live.failure with
  | some failure => (live.disk, .error (.writeFailed failure))
  | none =>
      let bytesPerFrame := config.bytesPerFrame .s16
      let framesPerChunk := config.chunkByteLimit .s16 / bytesPerFrame
      let inOrder := live.written.length = tail.nextChunkIndex ∧
        ∀ entry ∈ live.written.zipIdx, entry.1.index = entry.2 ∧ (live.disk entry.1.index).isSome
      let accounted :=
        tail.nextChunkIndex * framesPerChunk + tail.minute.bytes.length / bytesPerFrame
      if ¬ inOrder ∨ accounted ≠ tail.capturedFrames ∨
          tail.minuteStartFrame ≠ tail.nextChunkIndex * framesPerChunk then
        (live.disk, .error (.writeFailed ("live chunks cover " ++ toString accounted ++ " of " ++
          toString tail.capturedFrames ++ " frames in " ++ toString live.written.length ++ " of " ++
          toString tail.nextChunkIndex ++ " chunks")))
      else
        let last : Except RecordingError (List RecordingAudioChunk × Disk) :=
          if tail.minute.bytes ≠ [] ∨ live.written = [] then
            match ChunkWriter.write ⟨config, .s16⟩ outcome live.disk tail.minute.bytes
              tail.minuteStartFrame live.written.length with
            | .error error => .error error
            | .ok (chunk, disk) => .ok (live.written ++ [chunk], disk)
          else .ok (live.written, live.disk)
        match last with
        | .error error => (live.disk, .error error)
        | .ok (chunks, disk) =>
            let disk := removeChunksFrom disk chunks.length
            match outcome.sealError with
            | some error =>
                (disk, .error (.writeFailed ("sync recovered capture chunks: " ++ error)))
            | none =>
                (disk, .ok
                  { audioChunks := chunks
                    durationMs := config.durationMs tail.capturedFrames
                    sampleRate := config.sampleRate
                    channels := config.channels
                    capturedFrames := tail.capturedFrames
                    sampleFormat := .s16 })

variable {config} {Key : Type} (aead : Aead Key) (key : Key)

/-- `stop`. -/
def JournalState.stop (state : JournalState config) (outcome : StopOutcome) (disk : Disk) :
    Except RecordingError (RecoveredCaptureAudio × Disk) :=
  let live := state.submitted.foldl (LiveChunkProgress.absorb config outcome.liveWrite) ⟨[], none, disk⟩
  match outcome.syncError with
  | some error => .error (.writeFailed error)
  | none =>
      let finished :=
        if state.liveChunksUsable then finishLiveChunks outcome.finish live state
        else (live.disk, .error (.writeFailed "live chunks unusable"))
      match finished.2 with
      | .ok recovered => .ok (recovered, finished.1)
      | .error _ =>
          recoverCaptureAudioJournal config outcome.recovery aead key state.file finished.1

end Stop

end Recorder
end ZuTalk
