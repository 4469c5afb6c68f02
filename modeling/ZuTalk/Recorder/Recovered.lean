/-
# Live chunks and recovered chunks

What the chunks of some audio are (`chunksFrom` over the pieces of `Cuts`), and that
both ways of making them make those: the loops of the recovery keep `Tracks`, the
loop of a push keeps `LiveTracks`.

`stop_agrees_with_recovery`: whatever becomes of the live chunk writer, `stop` gives
what the recovery builds from the same journal.  `recover_truncated`: a journal that
is cut anywhere behind its header gives the chunks of the records that are whole.
-/

import Mathlib.Data.List.Induction
import Mathlib.Data.Nat.ModEq
import ZuTalk.Recorder.Journal

namespace ZuTalk
namespace Recorder

open Cuts

/-! ### The chunks of some audio -/

section Chunks

variable (config : RecordingConfig) (format : StoredSampleFormat)

/-- The frames of some pieces. -/
def framesOf (ps : List Bytes) : ℕ :=
  (ps.map fun p => p.length / config.bytesPerFrame format).sum

/-- The entries of pieces, from a frame and an index on. -/
def chunksFrom : ℕ → ℕ → List Bytes → List RecordingAudioChunk
  | _, _, [] => []
  | startFrame, index, p :: ps =>
      ChunkWriter.chunk ⟨config, format⟩ p startFrame index ::
        chunksFrom (startFrame + p.length / config.bytesPerFrame format) (index + 1) ps

/-- The pieces of some audio. -/
abbrev fullChunks (audio : Bytes) : List Bytes := full (config.chunkByteLimit format) audio

variable {config format}

theorem chunksFrom_append (startFrame index : ℕ) (ps qs : List Bytes) :
    chunksFrom config format startFrame index (ps ++ qs) =
      chunksFrom config format startFrame index ps ++
        chunksFrom config format (startFrame + framesOf config format ps) (index + ps.length) qs := by
  induction ps generalizing startFrame index with
  | nil => rfl
  | cons p ps ih =>
      have hframes : startFrame + p.length / config.bytesPerFrame format +
          framesOf config format ps = startFrame + framesOf config format (p :: ps) := by
        rw [framesOf, framesOf, List.map_cons, List.sum_cons]
        omega
      have hindex : index + 1 + ps.length = index + (p :: ps).length := by
        rw [List.length_cons]
        omega
      rw [List.cons_append, chunksFrom, ih, hframes, hindex]
      rfl

@[simp] theorem length_chunksFrom (startFrame index : ℕ) (ps : List Bytes) :
    (chunksFrom config format startFrame index ps).length = ps.length := by
  induction ps generalizing startFrame index with
  | nil => rfl
  | cons p ps ih => rw [chunksFrom, List.length_cons, ih, List.length_cons]

variable (config format) in
/-- A chunk begins where the one before it ends. -/
theorem chunksFrom_contiguous (startFrame index : ℕ) (ps : List Bytes) :
    (chunksFrom config format startFrame index ps).map (·.startMs) ++
        [config.durationMs (startFrame + framesOf config format ps)] =
      config.durationMs startFrame ::
        (chunksFrom config format startFrame index ps).map (·.endMs) := by
  induction ps generalizing startFrame index with
  | nil => rfl
  | cons p ps ih =>
      have hframes : startFrame + framesOf config format (p :: ps) =
          startFrame + p.length / config.bytesPerFrame format + framesOf config format ps := by
        rw [framesOf, framesOf, List.map_cons, List.sum_cons]
        omega
      rw [hframes, chunksFrom, List.map_cons, List.map_cons, List.cons_append, ih]
      rfl

/-- What the disk has at the chunks of some pieces. -/
theorem map_disk_chunksFrom {disk : Disk} {startFrame index : ℕ} {ps : List Bytes}
    (h : ∀ i p, ps[i]? = some p → disk (index + i) = some p) :
    (chunksFrom config format startFrame index ps).map (fun chunk => disk chunk.index) =
      ps.map some := by
  induction ps generalizing startFrame index with
  | nil => rfl
  | cons p ps ih =>
      have hfirst : disk index = some p := h 0 p rfl
      rw [chunksFrom, List.map_cons, List.map_cons, ih fun i q hq => ?_]
      · rw [ChunkWriter.chunk, hfirst]
      · have hnext := h (i + 1) q hq
        rwa [Nat.add_right_comm, ← Nat.add_assoc] at *

@[simp] theorem framesOf_append (ps qs : List Bytes) :
    framesOf config format (ps ++ qs) = framesOf config format ps + framesOf config format qs := by
  rw [framesOf, List.map_append, List.sum_append]
  rfl

/-- Pieces of whole frames have the frames of the audio. -/
theorem framesOf_eq_div {ps : List Bytes}
    (h : ∀ p ∈ ps, config.bytesPerFrame format ∣ p.length) :
    framesOf config format ps = ps.flatten.length / config.bytesPerFrame format := by
  induction ps with
  | nil => simp [framesOf]
  | cons p ps ih =>
      have hrest := ih fun q hq => h q (List.mem_cons_of_mem p hq)
      have hcons : framesOf config format (p :: ps) =
          p.length / config.bytesPerFrame format + framesOf config format ps := by
        rw [framesOf, List.map_cons, List.sum_cons]
        rfl
      rw [hcons, hrest, List.flatten_cons, List.length_append,
        Nat.add_div_of_dvd_right (h p List.mem_cons_self)]

variable (config format) in
/-- **What a recording of some audio comes to**, and what its chunk files hold. -/
structure Finalizes (audio : Bytes) (result : RecoveredCaptureAudio × Disk) : Prop where
  audioChunks : result.1.audioChunks =
    chunksFrom config format 0 0 (pieces (config.chunkByteLimit format) audio)
  durationMs : result.1.durationMs =
    config.durationMs (audio.length / config.bytesPerFrame format)
  capturedFrames : result.1.capturedFrames = audio.length / config.bytesPerFrame format
  sampleRate : result.1.sampleRate = config.sampleRate
  channels : result.1.channels = config.channels
  sampleFormat : result.1.sampleFormat = format
  disk : ∀ i p, (pieces (config.chunkByteLimit format) audio)[i]? = some p →
    result.2 i = some p

namespace Finalizes

variable {audio : Bytes} {result result' : RecoveredCaptureAudio × Disk}

theorem unique (h : Finalizes config format audio result)
    (h' : Finalizes config format audio result') : result.1 = result'.1 := by
  rw [RecoveredCaptureAudio.mk.injEq]
  exact ⟨h.audioChunks.trans h'.audioChunks.symm, h.durationMs.trans h'.durationMs.symm,
    h.sampleRate.trans h'.sampleRate.symm, h.channels.trans h'.channels.symm,
    h.capturedFrames.trans h'.capturedFrames.symm, h.sampleFormat.trans h'.sampleFormat.symm⟩

/-- The plaintext of the chunks. -/
theorem plaintext (h : Finalizes config format audio result) :
    result.1.audioChunks.map (fun chunk => result.2 chunk.index) =
      (pieces (config.chunkByteLimit format) audio).map some := by
  rw [h.audioChunks]
  refine map_disk_chunksFrom fun i p hp => ?_
  rw [Nat.zero_add]
  exact h.disk i p hp

/-- The chunks follow each other from zero to the end of the recording. -/
theorem contiguous (h : Finalizes config format audio result)
    (haligned : config.bytesPerFrame format ∣ audio.length) :
    result.1.audioChunks.map (·.startMs) ++ [result.1.durationMs] =
      0 :: result.1.audioChunks.map (·.endMs) := by
  have hlimit := config.chunkByteLimit_pos format
  have hfull : ∀ p ∈ pieces (config.chunkByteLimit format) audio,
      config.bytesPerFrame format ∣ p.length := by
    have hdvd := config.bytesPerFrame_dvd_chunkByteLimit format
    have hpieces : ∀ p ∈ fullChunks config format audio, config.bytesPerFrame format ∣ p.length :=
      fun p hp => length_of_mem_full hlimit hp ▸ hdvd
    intro p hp
    rcases List.mem_append.1 hp with hp | hp
    · exact hpieces p hp
    · split at hp
      · obtain rfl := List.mem_singleton.1 hp
        have hlength := length_eq hlimit audio
        have hmul : config.bytesPerFrame format ∣
            (fullChunks config format audio).length * config.chunkByteLimit format :=
          Nat.dvd_trans hdvd (Nat.dvd_mul_left ..)
        exact (Nat.dvd_add_right hmul).1 (hlength ▸ haligned)
      · cases hp
  have hframes := framesOf_eq_div hfull
  rw [flatten_pieces hlimit] at hframes
  have hzero : config.durationMs 0 = 0 := by
    unfold RecordingConfig.durationMs
    split
    · rw [Nat.zero_mul, Nat.zero_div]
    · rfl
  have hchunks := chunksFrom_contiguous config format 0 0
    (pieces (config.chunkByteLimit format) audio)
  rw [Nat.zero_add, hframes, hzero] at hchunks
  rw [h.audioChunks, h.durationMs]
  exact hchunks

end Finalizes

end Chunks

/-! ### The recovery -/

/-- A computation that ends well if the disk is healthy, and then as it should. -/
def Yields {α : Type} (outcome : DiskOutcome) (Q : α → Prop) : Except RecordingError α → Prop
  | .ok a => Q a
  | .error _ => ¬ outcome.Healthy

/-- The rest of a piece, with the bytes that fit. -/
theorem filled_of_rest {n : ℕ} {minute : Minute n} {audio : Bytes}
    (h : minute.bytes = rest n audio) (pcm : Bytes) :
    minute.filled pcm = rest n audio ++ pcm.take (minute.taken pcm) := by
  unfold Minute.filled
  rw [h]

/-- A next piece of the list of pieces that a disk has. -/
theorem disk_concat {disk : Disk} {ps : List Bytes} (h : ∀ i p, ps[i]? = some p → disk i = some p)
    {index : ℕ} (hindex : index = ps.length) (piece : Bytes) (i : ℕ) (p : Bytes)
    (hp : (ps ++ [piece])[i]? = some p) :
    Function.update disk index (some piece) i = some p := by
  subst hindex
  by_cases hi : i = ps.length
  · subst hi
    rw [List.getElem?_concat_length] at hp
    rw [Function.update_self, hp]
  · have hlt : i < ps.length := by
      have hbound := (List.getElem?_eq_some_iff.1 hp).1
      rw [List.length_append, List.length_singleton] at hbound
      omega
    rw [List.getElem?_append_left hlt] at hp
    rw [Function.update_of_ne hi]
    exact h i p hp

section Recovery

variable {config : RecordingConfig} {format : StoredSampleFormat} {outcome : DiskOutcome}

/-- The recovery has come as far as some audio. -/
structure Tracks (state : RecoverState (config.chunkByteLimit format)) (audio : Bytes) : Prop where
  minute : state.chunkPlaintext.bytes = rest (config.chunkByteLimit format) audio
  audioChunks : state.audioChunks = chunksFrom config format 0 0 (fullChunks config format audio)
  startFrame : state.chunkStartFrame = framesOf config format (fullChunks config format audio)
  disk : ∀ i p, (fullChunks config format audio)[i]? = some p → state.disk i = some p

variable (config format) in
theorem tracks_start (disk : Disk) : Tracks (RecoverState.start config format disk) [] where
  minute := (rest_nil (config.chunkByteLimit_pos format)).symm
  audioChunks := by rw [fullChunks, full_nil (config.chunkByteLimit_pos format)]; rfl
  startFrame := by rw [fullChunks, full_nil (config.chunkByteLimit_pos format)]; rfl
  disk := by
    intro i p hp
    rw [fullChunks, full_nil (config.chunkByteLimit_pos format)] at hp
    cases hp

variable (outcome) in
/-- **The inner loop** puts a frame behind the audio. -/
theorem cutFrame_tracks {state : RecoverState (config.chunkByteLimit format)} {audio : Bytes}
    (h : Tracks state audio) (frame : Bytes) :
    Yields outcome (fun state' => Tracks state' (audio ++ frame) ∧
      state'.capturedFrames = state.capturedFrames) (cutFrame config format outcome state frame) := by
  have hlimit := config.chunkByteLimit_pos format
  induction hlength : frame.length using Nat.strongRecOn generalizing state audio frame with
  | ind k ih =>
      by_cases hframe : frame = []
      · rw [cutFrame, dif_pos hframe, hframe, List.append_nil]
        exact ⟨h, rfl⟩
      · have hdrop := state.chunkPlaintext.length_drop_lt frame hframe
        rw [hlength] at hdrop
        have hfilled := filled_of_rest h.minute frame
        -- What goes into the chunk, and what is left of the frame.
        have hsplit : audio ++ frame = (audio ++ frame.take (state.chunkPlaintext.taken frame)) ++
            frame.drop (state.chunkPlaintext.taken frame) := by
          rw [List.append_assoc, List.take_append_drop]
        by_cases hfull : (state.chunkPlaintext.filled frame).length = config.chunkByteLimit format
        · rw [cutFrame, dif_neg hframe, dif_pos hfull]
          have hpiece : (rest (config.chunkByteLimit format) audio ++
              frame.take (state.chunkPlaintext.taken frame)).length =
                config.chunkByteLimit format := by rw [← hfilled, hfull]
          have hchunks := full_append_of_eq hlimit hpiece
          rw [← hfilled] at hchunks
          have hindex : state.audioChunks.length = (fullChunks config format audio).length := by
            rw [h.audioChunks, length_chunksFrom]
          unfold ChunkWriter.write
          cases hwrite : outcome.writeError state.audioChunks.length with
          | some error =>
              intro hhealthy
              rw [hhealthy.writes] at hwrite
              cases hwrite
          | none =>
              rw [hsplit]
              refine ih _ hdrop ⟨?_, ?_, ?_, ?_⟩ _ rfl
              · exact (rest_append_of_eq hlimit hpiece).symm
              · rw [fullChunks, hchunks, chunksFrom_append, Nat.zero_add, Nat.zero_add,
                  ← h.audioChunks, ← hindex, ← h.startFrame]
                rfl
              · rw [fullChunks, hchunks, framesOf_append, ← h.startFrame]
                rfl
              · intro i p hp
                rw [fullChunks, hchunks] at hp
                exact disk_concat h.disk hindex _ i p hp
        · rw [cutFrame, dif_neg hframe, dif_neg hfull]
          have hpiece : (rest (config.chunkByteLimit format) audio ++
              frame.take (state.chunkPlaintext.taken frame)).length <
                config.chunkByteLimit format := by
            rw [← hfilled]
            exact Nat.lt_of_le_of_ne (state.chunkPlaintext.length_filled_le frame) hfull
          have hchunks := full_append_of_lt hlimit hpiece
          rw [hsplit]
          refine ih _ hdrop ⟨?_, ?_, ?_, ?_⟩ _ rfl
          · exact hfilled.trans (rest_append_of_lt hlimit hpiece).symm
          · rw [fullChunks, hchunks]
            exact h.audioChunks
          · rw [fullChunks, hchunks]
            exact h.startFrame
          · rw [fullChunks, hchunks]
            exact h.disk

variable (outcome) in
/-- The last chunk. -/
theorem finish_finalizes {state : RecoverState (config.chunkByteLimit format)} {audio : Bytes}
    (h : Tracks state audio)
    (hframes : state.capturedFrames = audio.length / config.bytesPerFrame format) :
    Yields outcome (Finalizes config format audio) (state.finish config format outcome) := by
  have hindex : state.audioChunks.length = (fullChunks config format audio).length := by
    rw [h.audioChunks, length_chunksFrom]
  have hnil : state.audioChunks = [] ↔ fullChunks config format audio = [] := by
    rw [← List.length_eq_zero_iff, hindex, List.length_eq_zero_iff]
  have hremove : ∀ {disk : Disk} {ps : List Bytes} {n : ℕ}, n = ps.length →
      (∀ i p, ps[i]? = some p → disk i = some p) →
        ∀ i p, ps[i]? = some p → removeChunksFrom disk n i = some p := by
    intro disk ps n hn hdisk i p hp
    have hlt := (List.getElem?_eq_some_iff.1 hp).1
    rw [removeChunksFrom_of_lt disk (by omega)]
    exact hdisk i p hp
  unfold RecoverState.finish
  dsimp only
  by_cases hlast : state.chunkPlaintext.bytes ≠ [] ∨ state.audioChunks = []
  · rw [if_pos hlast]
    rw [h.minute, hnil] at hlast
    have hpieces : pieces (config.chunkByteLimit format) audio =
        fullChunks config format audio ++ [rest (config.chunkByteLimit format) audio] := by
      unfold pieces
      rw [if_pos hlast]
    unfold ChunkWriter.write
    cases hwrite : outcome.writeError state.audioChunks.length with
    | some error =>
        intro hhealthy
        rw [hhealthy.writes] at hwrite
        cases hwrite
    | none =>
        cases hseal : outcome.sealError with
        | some error =>
            intro hhealthy
            rw [hhealthy.seals] at hseal
            cases hseal
        | none =>
            refine ⟨?_, ?_, hframes, rfl, rfl, rfl, ?_⟩
            · rw [hpieces, chunksFrom_append, Nat.zero_add, Nat.zero_add, ← h.audioChunks, ← hindex,
                ← h.startFrame, ← h.minute]
              rfl
            · show config.durationMs state.capturedFrames = _
              rw [hframes]
            · rw [hpieces]
              refine hremove ?_ ?_
              · rw [List.length_append, List.length_append, hindex]
                rfl
              · rw [← h.minute]
                exact disk_concat h.disk hindex _
  · rw [if_neg hlast]
    rw [h.minute, hnil] at hlast
    have hpieces : pieces (config.chunkByteLimit format) audio = fullChunks config format audio := by
      unfold pieces
      rw [if_neg hlast, List.append_nil]
    cases hseal : outcome.sealError with
    | some error =>
        intro hhealthy
        rw [hhealthy.seals] at hseal
        cases hseal
    | none =>
        refine ⟨?_, ?_, hframes, rfl, rfl, rfl, ?_⟩
        · rw [hpieces]
          exact h.audioChunks
        · show config.durationMs state.capturedFrames = _
          rw [hframes]
        · rw [hpieces]
          exact hremove hindex h.disk

end Recovery

/-! ### Records -/

section Records

variable {Key : Type} {aead : Aead Key} {key : Key} {config : RecordingConfig}
  {outcome : DiskOutcome}

/-- The audio of some pushes. -/
def audioOf (pushes : List Push) : Bytes := (pushes.map (·.pcm)).flatten

variable (aead key) in
/-- The record of a push. -/
def Push.record (push : Push) : Bytes := journalRecord (encryptChunk aead key push.pcm push.nonce)

variable (config) in
/-- A push that `push_stored_pcm` takes. -/
structure Push.Accepted (push : Push) : Prop where
  aligned : config.bytesPerFrame .s16 ∣ push.pcm.length
  small : push.pcm.length ≤ maxCaptureFrameSize

variable (key) in
/-- **Every record the writer writes is within the reader's bounds.** -/
theorem Push.Accepted.bounds (hlawful : aead.Lawful) {push : Push} (h : push.Accepted config) :
    28 ≤ (encryptChunk aead key push.pcm push.nonce).length ∧
      (encryptChunk aead key push.pcm push.nonce).length ≤ maxCaptureFrameSize + 64 := by
  have hsmall := h.small
  rw [length_encryptChunk key hlawful]
  omega

variable (key) in
theorem length_record (hlawful : aead.Lawful) (push : Push) :
    (push.record aead key).length = push.pcm.length + 32 := by
  unfold Push.record journalRecord
  rw [List.length_append, length_u32ToLeBytes, length_encryptChunk key hlawful]
  omega

theorem dvd_length_audioOf {pushes : List Push} (h : ∀ push ∈ pushes, push.Accepted config) :
    config.bytesPerFrame .s16 ∣ (audioOf pushes).length := by
  induction pushes with
  | nil => exact Nat.dvd_zero _
  | cons push pushes ih =>
      have hrest := ih fun other hother => h other (List.mem_cons_of_mem push hother)
      show _ ∣ (push.pcm ++ audioOf pushes).length
      rw [List.length_append]
      exact Nat.dvd_add (h push List.mem_cons_self).aligned hrest

variable (key) in
/-- The length a record starts with is read back. -/
theorem u32_of_record (hlawful : aead.Lawful) {push : Push} (h : push.Accepted config)
    (more : Bytes) :
    u32FromLeBytes ((push.record aead key ++ more).take 4) =
      (encryptChunk aead key push.pcm push.nonce).length := by
  have hbounds := h.bounds key hlawful
  have htake : (push.record aead key ++ more).take 4 =
      u32ToLeBytes (encryptChunk aead key push.pcm push.nonce).length := by
    unfold Push.record journalRecord
    rw [List.append_assoc]
    exact List.take_left' rfl
  rw [htake, u32FromLeBytes_u32ToLeBytes]
  have hmax : maxCaptureFrameSize + 64 < 2 ^ 32 := by decide
  omega

/-- One whole record is read, and its audio put behind what there is. -/
theorem recoverFrames_record (hlawful : aead.Lawful) {push : Push} (haccepted : push.Accepted config)
    {state : RecoverState (config.chunkByteLimit .s16)} {audio : Bytes} (h : Tracks state audio)
    (more : Bytes) {Q : RecoverState (config.chunkByteLimit .s16) → Prop}
    (hmore : ∀ state' : RecoverState (config.chunkByteLimit .s16),
      Tracks state' (audio ++ push.pcm) →
      state'.capturedFrames = state.capturedFrames + push.pcm.length / config.bytesPerFrame .s16 →
        Yields outcome Q (recoverFrames config .s16 outcome aead key state' more)) :
    Yields outcome Q
      (recoverFrames config .s16 outcome aead key state (push.record aead key ++ more)) := by
  have hlength := length_record key hlawful push
  have hbounds := haccepted.bounds key hlawful
  have hu32 := u32_of_record key hlawful haccepted more
  have hdrop : (push.record aead key ++ more).drop 4 =
      encryptChunk aead key push.pcm push.nonce ++ more := by
    unfold Push.record journalRecord
    rw [List.append_assoc]
    exact List.drop_left' rfl
  have hcounted : Tracks { state with
      capturedFrames := state.capturedFrames + push.pcm.length / config.bytesPerFrame .s16 }
      audio := ⟨h.minute, h.audioChunks, h.startFrame, h.disk⟩
  have hcut := cutFrame_tracks outcome hcounted push.pcm
  rw [recoverFrames, dif_neg (by rw [List.length_append]; omega)]
  dsimp only
  rw [hu32, if_neg (by omega), hdrop, if_neg (by rw [List.length_append]; omega),
    List.take_left, List.drop_left, decryptChunk_encryptChunk key hlawful]
  dsimp only
  rw [if_neg (by simpa using Nat.mod_eq_zero_of_dvd haccepted.aligned)]
  revert hcut
  cases cutFrame config .s16 outcome { state with
    capturedFrames := state.capturedFrames + push.pcm.length / config.bytesPerFrame .s16 }
    push.pcm with
  | error error => exact fun hcut => hcut
  | ok state' => exact fun hcut => hmore state' hcut.1 hcut.2

/-- The start of a record is left alone. -/
theorem recoverFrames_torn (hlawful : aead.Lawful) {push : Push} (haccepted : push.Accepted config)
    {torn : Bytes} ( hprefix : torn <+: push.record aead key)
    (hshort : torn.length < (push.record aead key).length)
    (state : RecoverState (config.chunkByteLimit .s16)) :
    recoverFrames config .s16 outcome aead key state torn = .ok state := by
  have hlength := length_record key hlawful push
  have hbounds := haccepted.bounds key hlawful
  have hencrypted := length_encryptChunk key hlawful push.pcm push.nonce
  rw [recoverFrames]
  by_cases hfour : torn.length < 4
  · rw [dif_pos hfour]
  · rw [dif_neg hfour]
    obtain ⟨missing, hmissing⟩ := hprefix
    have htake : torn.take 4 = (push.record aead key ++ []).take 4 := by
      rw [List.append_nil, ← hmissing, List.take_append_of_le_length (by omega)]
    have hu32 := u32_of_record key hlawful haccepted []
    dsimp only
    rw [htake, hu32, if_neg (by omega), if_pos]
    rw [List.length_drop]
    omega

variable (outcome) in
/-- The reader over whole records and perhaps the start of another. -/
theorem recoverFrames_records (hlawful : aead.Lawful) {pushes : List Push}
    (haccepted : ∀ push ∈ pushes, push.Accepted config) {torn : Bytes}
    (htorn : torn = [] ∨ ∃ push : Push, push.Accepted config ∧ torn <+: push.record aead key ∧
      torn.length < (push.record aead key).length)
    {state : RecoverState (config.chunkByteLimit .s16)} {audio : Bytes} (h : Tracks state audio) :
    Yields outcome
      (fun state' => Tracks state' (audio ++ audioOf pushes) ∧
        state'.capturedFrames =
          state.capturedFrames + (audioOf pushes).length / config.bytesPerFrame .s16)
      (recoverFrames config .s16 outcome aead key state
        ((pushes.map (·.record aead key)).flatten ++ torn)) := by
  induction pushes generalizing state audio with
  | nil =>
      have hok : recoverFrames config .s16 outcome aead key state torn = .ok state := by
        rcases htorn with rfl | ⟨push, hpush, hprefix, hshort⟩
        · rw [recoverFrames, dif_pos (by simp)]
        · exact recoverFrames_torn hlawful hpush hprefix hshort state
      show Yields outcome _ (recoverFrames config .s16 outcome aead key state torn)
      rw [hok]
      refine ⟨?_, ?_⟩
      · show Tracks state (audio ++ [])
        rw [List.append_nil]
        exact h
      · show state.capturedFrames = state.capturedFrames + 0 / config.bytesPerFrame .s16
        rw [Nat.zero_div, Nat.add_zero]
  | cons push pushes ih =>
      have hpush := haccepted push List.mem_cons_self
      have hrest : ∀ other ∈ pushes, other.Accepted config :=
        fun other hother => haccepted other (List.mem_cons_of_mem push hother)
      rw [List.map_cons, List.flatten_cons, List.append_assoc]
      refine recoverFrames_record hlawful hpush h _ fun state' htracks hframes => ?_
      have hmore := ih hrest htracks
      have haudio : audio ++ push.pcm ++ audioOf pushes = audio ++ audioOf (push :: pushes) := by
        rw [List.append_assoc]
        rfl
      have hlength : (audioOf (push :: pushes)).length / config.bytesPerFrame .s16 =
          push.pcm.length / config.bytesPerFrame .s16 +
            (audioOf pushes).length / config.bytesPerFrame .s16 := by
        show (push.pcm ++ audioOf pushes).length / _ = _
        rw [List.length_append, Nat.add_div_of_dvd_right hpush.aligned]
      rw [haudio, hframes, Nat.add_assoc, ← hlength] at hmore
      exact hmore

variable (outcome key) in
/-- **A recovery** from whole records and perhaps the start of another. -/
theorem recover_finalizes (hlawful : aead.Lawful) {pushes : List Push}
    (haccepted : ∀ push ∈ pushes, push.Accepted config) {torn : Bytes}
    (htorn : torn = [] ∨ ∃ push : Push, push.Accepted config ∧ torn <+: push.record aead key ∧
      torn.length < (push.record aead key).length) (disk : Disk) :
    Yields outcome (Finalizes config .s16 (audioOf pushes))
      (recoverCaptureAudioJournal config outcome aead key
        (captureJournalMagicS16 ++ ((pushes.map (·.record aead key)).flatten ++ torn)) disk) := by
  have hformat : journalFormat
      (captureJournalMagicS16 ++ ((pushes.map (·.record aead key)).flatten ++ torn)) =
        .ok .s16 := by
    unfold journalFormat
    rw [if_neg (by rw [List.length_append]; exact Nat.not_lt.2 (Nat.le_add_right ..)),
      List.take_left' (by decide), if_pos rfl]
  have hdrop : (captureJournalMagicS16 ++ ((pushes.map (·.record aead key)).flatten ++ torn)).drop 8
      = (pushes.map (·.record aead key)).flatten ++ torn := List.drop_left' (by decide)
  have hframes := recoverFrames_records outcome hlawful haccepted htorn
    (tracks_start config .s16 disk)
  unfold recoverCaptureAudioJournal
  rw [hformat]
  dsimp only
  rw [hdrop]
  revert hframes
  cases recoverFrames config .s16 outcome aead key (RecoverState.start config .s16 disk)
    ((pushes.map (·.record aead key)).flatten ++ torn) with
  | error error => exact fun hframes => hframes
  | ok state =>
      rintro ⟨htracks, hcaptured⟩
      refine finish_finalizes outcome htracks ?_
      rw [hcaptured]
      exact Nat.zero_add _

end Records

/-! ### The journal as it is written -/

section Journal

variable {Key : Type} {aead : Aead Key} {key : Key} {config : RecordingConfig}

variable (config) in
/-- The live chunks of pieces, from a frame and an index on. -/
def liveChunksFrom : ℕ → ℕ → List Bytes → List LiveChunk
  | _, _, [] => []
  | startFrame, index, p :: ps =>
      ⟨index, startFrame, p⟩ ::
        liveChunksFrom (startFrame + p.length / config.bytesPerFrame .s16) (index + 1) ps

theorem liveChunksFrom_concat (startFrame index : ℕ) (ps : List Bytes) (p : Bytes) :
    liveChunksFrom config startFrame index (ps ++ [p]) =
      liveChunksFrom config startFrame index ps ++
        [⟨index + ps.length, startFrame + framesOf config .s16 ps, p⟩] := by
  induction ps generalizing startFrame index with
  | nil => rfl
  | cons q ps ih =>
      have hframes : startFrame + q.length / config.bytesPerFrame .s16 +
          framesOf config .s16 ps = startFrame + framesOf config .s16 (q :: ps) := by
        rw [framesOf, framesOf, List.map_cons, List.sum_cons]
        omega
      have hindex : index + 1 + ps.length = index + (q :: ps).length := by
        rw [List.length_cons]
        omega
      rw [List.cons_append, liveChunksFrom, ih, hframes, hindex]
      rfl

/-- The live chunk writer has been given the full minutes of some audio. -/
structure LiveTracks (state : JournalState config) (audio : Bytes) : Prop where
  minute : state.minute.bytes = rest (config.chunkByteLimit .s16) audio
  startFrame : state.minuteStartFrame = framesOf config .s16 (fullChunks config .s16 audio)
  nextChunkIndex : state.nextChunkIndex = (fullChunks config .s16 audio).length
  submitted : state.submitted = liveChunksFrom config 0 0 (fullChunks config .s16 audio)

/-- **The loop of a push** puts its audio behind what the minute has, as long as the live
chunk writer takes the chunks; the journal is left alone. -/
theorem bufferLiveMinute_tracks (submits : ℕ → Bool) {state : JournalState config} {audio : Bytes}
    (h : LiveTracks state audio) (pcm : Bytes) :
    (state.bufferLiveMinute submits pcm).file = state.file ∧
      (state.bufferLiveMinute submits pcm).capturedFrames = state.capturedFrames ∧
      ((state.bufferLiveMinute submits pcm).liveChunksUsable = true →
        LiveTracks (state.bufferLiveMinute submits pcm) (audio ++ pcm)) := by
  have hlimit := config.chunkByteLimit_pos .s16
  induction hlength : pcm.length using Nat.strongRecOn generalizing state audio pcm with
  | ind k ih =>
      by_cases hpcm : pcm = []
      · rw [JournalState.bufferLiveMinute, dif_pos hpcm, hpcm, List.append_nil]
        exact ⟨rfl, rfl, fun _ => h⟩
      · have hdrop := state.minute.length_drop_lt pcm hpcm
        rw [hlength] at hdrop
        have hfilled := filled_of_rest h.minute pcm
        have hsplit : audio ++ pcm = (audio ++ pcm.take (state.minute.taken pcm)) ++
            pcm.drop (state.minute.taken pcm) := by
          rw [List.append_assoc, List.take_append_drop]
        by_cases hfull : (state.minute.filled pcm).length = config.chunkByteLimit .s16
        · rw [JournalState.bufferLiveMinute, dif_neg hpcm, dif_pos hfull]
          cases submits state.nextChunkIndex with
          | false => exact ⟨rfl, rfl, fun husable => by cases husable⟩
          | true =>
              have hpiece : (rest (config.chunkByteLimit .s16) audio ++
                  pcm.take (state.minute.taken pcm)).length = config.chunkByteLimit .s16 := by
                rw [← hfilled, hfull]
              have hchunks := full_append_of_eq hlimit hpiece
              rw [← hfilled] at hchunks
              rw [if_pos rfl, hsplit]
              refine ih _ hdrop ⟨?_, ?_, ?_, ?_⟩ _ rfl
              · exact (rest_append_of_eq hlimit hpiece).symm
              · have hframes : framesOf config .s16 [state.minute.filled pcm] =
                    config.chunkByteLimit .s16 / config.bytesPerFrame .s16 := by
                  simp [framesOf, hfull]
                rw [fullChunks, hchunks, framesOf_append, ← h.startFrame, hframes]
                rfl
              · rw [fullChunks, hchunks, List.length_append, ← h.nextChunkIndex]
                rfl
              · rw [fullChunks, hchunks, liveChunksFrom_concat, ← h.submitted, ← h.nextChunkIndex,
                  ← h.startFrame, Nat.zero_add, Nat.zero_add]
                rfl
        · rw [JournalState.bufferLiveMinute, dif_neg hpcm, dif_neg hfull]
          have hpiece : (rest (config.chunkByteLimit .s16) audio ++
              pcm.take (state.minute.taken pcm)).length < config.chunkByteLimit .s16 := by
            rw [← hfilled]
            exact Nat.lt_of_le_of_ne (state.minute.length_filled_le pcm) hfull
          have hchunks := full_append_of_lt hlimit hpiece
          rw [hsplit]
          refine ih _ hdrop ⟨?_, ?_, ?_, ?_⟩ _ rfl
          · exact hfilled.trans (rest_append_of_lt hlimit hpiece).symm
          · rw [fullChunks, hchunks]
            exact h.startFrame
          · rw [fullChunks, hchunks]
            exact h.nextChunkIndex
          · rw [fullChunks, hchunks]
            exact h.submitted

variable (aead key) in
/-- What holds of a journal after some pushes. -/
structure Journaled (state : JournalState config) (pushes : List Push) : Prop where
  accepted : ∀ push ∈ pushes, push.Accepted config
  file : state.file = captureJournalMagicS16 ++ (pushes.map (·.record aead key)).flatten
  capturedFrames : state.capturedFrames = (audioOf pushes).length / config.bytesPerFrame .s16
  live : state.liveChunksUsable = true → LiveTracks state (audioOf pushes)

theorem journaled_start : Journaled aead key (JournalState.start config) [] where
  accepted := fun _ hpush => by cases hpush
  file := by simp [JournalState.start]
  capturedFrames := (Nat.zero_div _).symm
  live := by
    have hlimit := config.chunkByteLimit_pos .s16
    have hfull : fullChunks config .s16 (audioOf []) = [] := full_nil hlimit
    refine fun _ => ⟨(rest_nil hlimit).symm, ?_, ?_, ?_⟩
    · rw [hfull]
      rfl
    · rw [hfull]
      rfl
    · rw [hfull]
      rfl

/-- A push that is accepted. -/
theorem Journaled.push {state state' : JournalState config} {pushes : List Push}
    (h : Journaled aead key state pushes) {push : Push}
    (hpush : state.pushStoredPcm aead key push = .ok state') :
    Journaled aead key state' (pushes ++ [push]) := by
  unfold JournalState.pushStoredPcm at hpush
  split at hpush
  · cases hpush
  · rename_i haligned
    split at hpush
    · cases hpush
    · rename_i hsmall
      cases hencrypt : push.outcome.encryptError with
      | some error =>
          rw [hencrypt] at hpush
          cases hpush
      | none =>
          rw [hencrypt] at hpush
          dsimp only at hpush
          split at hpush
          · cases hpush
          · cases hwrite : push.outcome.syncFailure.or push.outcome.writeError with
            | some error =>
                rw [hwrite] at hpush
                cases hpush
            | none =>
                rw [hwrite] at hpush
                have hstate := Except.ok.inj hpush
                have hdvd : config.bytesPerFrame .s16 ∣ push.pcm.length := by
                  refine Nat.dvd_of_mod_eq_zero ?_
                  by_contra hne
                  exact haligned hne
                have hcaptured : state.capturedFrames + push.pcm.length / config.bytesPerFrame .s16 =
                    (audioOf (pushes ++ [push])).length / config.bytesPerFrame .s16 := by
                  have haudio : audioOf (pushes ++ [push]) = audioOf pushes ++ push.pcm := by
                    simp [audioOf]
                  rw [haudio, List.length_append, Nat.add_div_of_dvd_left hdvd, h.capturedFrames]
                have haudio : audioOf (pushes ++ [push]) = audioOf pushes ++ push.pcm := by
                  simp [audioOf]
                have hfile : state.file ++ push.record aead key = captureJournalMagicS16 ++
                    ((pushes ++ [push]).map (·.record aead key)).flatten := by
                  rw [h.file]
                  simp
                have haccepted : ∀ other ∈ pushes ++ [push], other.Accepted config := by
                  intro other hother
                  rcases List.mem_append.1 hother with hother | hother
                  · exact h.accepted other hother
                  · obtain rfl := List.mem_singleton.1 hother
                    exact ⟨hdvd, Nat.le_of_not_lt hsmall⟩
                cases husable : state.liveChunksUsable with
                | false =>
                    rw [husable, if_neg Bool.false_ne_true] at hstate
                    subst hstate
                    exact ⟨haccepted, hfile, hcaptured, fun hlive => by cases hlive⟩
                | true =>
                    rw [husable, if_pos rfl] at hstate
                    have hlive := h.live husable
                    have hwritten : LiveTracks { state with
                        file := state.file ++ journalRecord (encryptChunk aead key push.pcm push.nonce)
                        capturedFrames :=
                          state.capturedFrames + push.pcm.length / config.bytesPerFrame .s16
                        liveChunksUsable := true } (audioOf pushes) :=
                      ⟨hlive.minute, hlive.startFrame, hlive.nextChunkIndex, hlive.submitted⟩
                    obtain ⟨hsame, hframes, htracks⟩ :=
                      bufferLiveMinute_tracks push.outcome.submits hwritten push.pcm
                    rw [hstate] at hsame hframes htracks
                    refine ⟨haccepted, hsame.trans hfile, hframes.trans hcaptured, fun hlive' => ?_⟩
                    rw [haudio]
                    exact htracks hlive'

/-- The pushes of a run. -/
theorem journaled_pushAll {state : JournalState config} {pushes : List Push}
    (h : (JournalState.start config).pushAll aead key pushes = .ok state) :
    Journaled aead key state pushes := by
  induction pushes using List.reverseRecOn generalizing state with
  | nil =>
      obtain rfl := Except.ok.inj h
      exact journaled_start
  | append_singleton pushes push ih =>
      unfold JournalState.pushAll at h ih
      rw [List.foldlM_append] at h
      cases hbefore : pushes.foldlM (fun state push => state.pushStoredPcm aead key push)
          (JournalState.start config) with
      | error error =>
          rw [hbefore] at h
          cases h
      | ok before =>
          rw [hbefore] at h
          have hpush : before.pushStoredPcm aead key push = .ok state := by
            change (before.pushStoredPcm aead key push).bind (fun state => .ok state) = _ at h
            cases hlast : before.pushStoredPcm aead key push with
            | error error =>
                rw [hlast] at h
                cases h
            | ok last =>
                rw [hlast] at h
                exact h
          exact (ih hbefore).push hpush

end Journal

/-! ### The live chunks -/

section Live

variable {config : RecordingConfig}

/-- A live chunk writer that has failed stays so. -/
theorem foldl_absorb_failed (liveWrite : ℕ → Option String) {progress : LiveChunkProgress}
    (h : progress.failure.isSome = true) (chunks : List LiveChunk) :
    chunks.foldl (LiveChunkProgress.absorb config liveWrite) progress = progress := by
  induction chunks with
  | nil => rfl
  | cons chunk chunks ih =>
      have habsorb : progress.absorb config liveWrite chunk = progress := by
        unfold LiveChunkProgress.absorb
        rw [if_pos h]
      rw [List.foldl_cons, habsorb, ih]

variable (config) in
/-- A live chunk writer that has not failed has written what it was given. -/
theorem foldl_absorb (liveWrite : ℕ → Option String) (startFrame index : ℕ) (ps : List Bytes)
    (progress : LiveChunkProgress)
    (h : ((liveChunksFrom config startFrame index ps).foldl
      (LiveChunkProgress.absorb config liveWrite) progress).failure = none) :
    ((liveChunksFrom config startFrame index ps).foldl
        (LiveChunkProgress.absorb config liveWrite) progress).written =
      progress.written ++ chunksFrom config .s16 startFrame index ps ∧
    (∀ i < index, ((liveChunksFrom config startFrame index ps).foldl
        (LiveChunkProgress.absorb config liveWrite) progress).disk i = progress.disk i) ∧
    (∀ i p, ps[i]? = some p → ((liveChunksFrom config startFrame index ps).foldl
        (LiveChunkProgress.absorb config liveWrite) progress).disk (index + i) = some p) := by
  induction ps generalizing startFrame index progress with
  | nil => exact ⟨(List.append_nil _).symm, fun _ _ => rfl, fun i p hp => by cases hp⟩
  | cons p ps ih =>
      rw [liveChunksFrom, List.foldl_cons] at h ⊢
      cases hfailure : progress.failure with
      | some failure =>
          have hstays : progress.absorb config liveWrite ⟨index, startFrame, p⟩ = progress := by
            unfold LiveChunkProgress.absorb
            exact if_pos (by rw [hfailure]; rfl)
          rw [hstays, foldl_absorb_failed liveWrite (by rw [hfailure]; rfl), hfailure] at h
          cases h
      | none =>
          cases hwrite : liveWrite index with
          | some error =>
              have hfails : progress.absorb config liveWrite ⟨index, startFrame, p⟩ =
                  { progress with failure := some error } := by
                unfold LiveChunkProgress.absorb
                rw [if_neg (by simp [hfailure]), hwrite]
              rw [hfails, foldl_absorb_failed liveWrite rfl] at h
              cases h
          | none =>
              have hwrites : progress.absorb config liveWrite ⟨index, startFrame, p⟩ =
                  { progress with
                    written := progress.written ++
                      [ChunkWriter.chunk ⟨config, .s16⟩ p startFrame index]
                    disk := Function.update progress.disk index (some p) } := by
                unfold LiveChunkProgress.absorb
                rw [if_neg (by simp [hfailure]), hwrite]
              rw [hwrites] at h ⊢
              obtain ⟨hwritten, hbefore, hdisk⟩ := ih _ _ _ h
              refine ⟨?_, fun i hi => ?_, fun i q hq => ?_⟩
              · rw [hwritten, chunksFrom, List.append_assoc]
                rfl
              · rw [hbefore i (by omega)]
                exact Function.update_of_ne (Nat.ne_of_lt hi) ..
              · cases i with
                | zero =>
                    have hfirst := hbefore index (Nat.lt_succ_self _)
                    exact hfirst.trans ((Function.update_self ..).trans hq)
                | succ i =>
                    have hnext := hdisk i q hq
                    rwa [Nat.add_right_comm, Nat.add_assoc] at hnext

/-- The live chunks, if they are taken, are what the audio comes to. -/
theorem finishLiveChunks_finalizes {state : JournalState config} {audio : Bytes}
    (h : LiveTracks state audio)
    (hframes : state.capturedFrames = audio.length / config.bytesPerFrame .s16)
    (liveWrite : ℕ → Option String) (disk : Disk) (outcome : DiskOutcome)
    {recovered : RecoveredCaptureAudio}
    (hfinished : (finishLiveChunks outcome (state.submitted.foldl
      (LiveChunkProgress.absorb config liveWrite) ⟨[], none, disk⟩) state).2 = .ok recovered) :
    Finalizes config .s16 audio (recovered, (finishLiveChunks outcome (state.submitted.foldl
      (LiveChunkProgress.absorb config liveWrite) ⟨[], none, disk⟩) state).1) := by
  have hfold := foldl_absorb config liveWrite 0 0 (fullChunks config .s16 audio)
    ⟨[], none, disk⟩
  rw [← h.submitted] at hfold
  revert hfinished hfold
  generalize state.submitted.foldl (LiveChunkProgress.absorb config liveWrite) ⟨[], none, disk⟩ = live
  intro hfinished hfold
  cases hfailure : live.failure with
  | some failure =>
      unfold finishLiveChunks at hfinished
      rw [hfailure] at hfinished
      cases hfinished
  | none =>
      obtain ⟨hwritten, -, hdisk⟩ := hfold hfailure
      rw [List.nil_append] at hwritten
      -- The recovery's last step from where the live chunks are does the same.
      have htracks : Tracks
          ⟨state.minute, live.written, state.capturedFrames, state.minuteStartFrame, live.disk⟩
          audio := ⟨h.minute, hwritten, h.startFrame, fun i p hp => by
            have hentry := hdisk i p hp
            rwa [Nat.zero_add] at hentry⟩
      have hfinish := finish_finalizes outcome htracks hframes
      unfold finishLiveChunks at hfinished ⊢
      rw [hfailure] at hfinished ⊢
      dsimp only at hfinished ⊢
      split at hfinished
      · cases hfinished
      · rename_i hchecks
        rw [if_neg hchecks]
        unfold RecoverState.finish at hfinish
        dsimp only at hfinish
        split at hfinished
        · cases hfinished
        · rename_i last hlast
          rw [hlast] at hfinish
          cases hseal : outcome.sealError with
          | some error =>
              rw [hseal] at hfinished
              cases hfinished
          | none =>
              rw [hseal] at hfinish hfinished
              obtain rfl := Except.ok.inj hfinished
              exact hfinish

end Live

section Results

variable {Key : Type} {aead : Aead Key} {key : Key} {config : RecordingConfig}

/-- The recovery of a whole journal. -/
theorem recover_journaled (hlawful : aead.Lawful) {state : JournalState config}
    {pushes : List Push} (h : Journaled aead key state pushes) (outcome : DiskOutcome)
    (disk : Disk) :
    Yields outcome (Finalizes config .s16 (audioOf pushes))
      (recoverCaptureAudioJournal config outcome aead key state.file disk) := by
  have hrecovered := recover_finalizes key outcome hlawful h.accepted
    (.inl rfl) disk
  rwa [List.append_nil, ← h.file] at hrecovered

/-- What `stop` gives. -/
theorem stop_finalizes (hlawful : aead.Lawful) {state : JournalState config} {pushes : List Push}
    (h : Journaled aead key state pushes) (outcome : StopOutcome) (disk : Disk) :
    (∀ result, state.stop aead key outcome disk = .ok result →
      Finalizes config .s16 (audioOf pushes) result) ∧
    (outcome.syncError = none → outcome.recovery.Healthy →
      ∃ result, state.stop aead key outcome disk = .ok result) := by
  unfold JournalState.stop
  dsimp only
  cases hsync : outcome.syncError with
  | some error => exact ⟨fun result hresult => (by cases hresult), fun hnone => by cases hnone⟩
  | none =>
      have hrecover : ∀ disk, (∀ result,
          recoverCaptureAudioJournal config outcome.recovery aead key state.file disk = .ok result →
            Finalizes config .s16 (audioOf pushes) result) ∧
          (outcome.recovery.Healthy → ∃ result,
            recoverCaptureAudioJournal config outcome.recovery aead key state.file disk =
              .ok result) := by
        intro disk
        have hyields := recover_journaled hlawful h outcome.recovery disk
        cases hresult : recoverCaptureAudioJournal config outcome.recovery aead key state.file disk
          with
        | error error =>
            rw [hresult] at hyields
            exact ⟨fun _ hok => (by cases hok), fun hhealthy => absurd hhealthy hyields⟩
        | ok result =>
            rw [hresult] at hyields
            refine ⟨fun other hok => ?_, fun _ => ⟨result, rfl⟩⟩
            obtain rfl := Except.ok.inj hok
            exact hyields
      cases husable : state.liveChunksUsable with
      | false => exact ⟨(hrecover _).1, fun _ => (hrecover _).2⟩
      | true =>
          rw [if_pos rfl]
          cases hfinished : (finishLiveChunks outcome.finish (state.submitted.foldl
              (LiveChunkProgress.absorb config outcome.liveWrite) ⟨[], none, disk⟩) state).2 with
          | error error => exact ⟨(hrecover _).1, fun _ => (hrecover _).2⟩
          | ok recovered =>
              refine ⟨fun result hresult => ?_, fun _ _ => ⟨_, rfl⟩⟩
              obtain rfl := Except.ok.inj hresult
              exact finishLiveChunks_finalizes (h.live husable) h.capturedFrames _ _ _ hfinished

/-- **Live chunking and crash recovery agree.**  After any accepted pushes, and whatever
becomes of the live chunk writer and of the last chunk, what `stop` gives is what the
recovery builds from the same journal, chunk by chunk in entry and in plaintext, and the
plaintext is the audio that was pushed; and both give it, on a disk that can be written. -/
theorem stop_agrees_with_recovery (hlawful : aead.Lawful) {pushes : List Push}
    {state : JournalState config}
    (hpushed : (JournalState.start config).pushAll aead key pushes = .ok state) :
    (∀ outcome disk result, state.stop aead key outcome disk = .ok result →
      (∀ outcome' disk' result',
        recoverCaptureAudioJournal config outcome' aead key state.file disk' = .ok result' →
          result.1 = result'.1 ∧
            result.1.audioChunks.map (fun chunk => result.2 chunk.index) =
              result'.1.audioChunks.map (fun chunk => result'.2 chunk.index)) ∧
      ∃ plaintexts : List Bytes, result.1.audioChunks.map (fun chunk => result.2 chunk.index) =
          plaintexts.map some ∧ plaintexts.flatten = audioOf pushes) ∧
    (∀ (outcome : StopOutcome) (disk : Disk), outcome.syncError = none →
      outcome.recovery.Healthy → ∃ result, state.stop aead key outcome disk = .ok result) ∧
    (∀ (outcome : DiskOutcome) (disk : Disk), outcome.Healthy →
      ∃ result, recoverCaptureAudioJournal config outcome aead key state.file disk =
        .ok result) := by
  have hjournaled := journaled_pushAll hpushed
  have hrecover : ∀ outcome disk, Yields outcome (Finalizes config .s16 (audioOf pushes))
      (recoverCaptureAudioJournal config outcome aead key state.file disk) :=
    fun outcome disk => recover_journaled hlawful hjournaled outcome disk
  refine ⟨fun outcome disk result hresult => ?_, fun outcome disk => ?_, fun outcome disk h => ?_⟩
  · have hstop := (stop_finalizes hlawful hjournaled outcome disk).1 result hresult
    refine ⟨fun outcome' disk' result' hresult' => ?_, ?_⟩
    · have hrecovered := hrecover outcome' disk'
      rw [hresult'] at hrecovered
      exact ⟨hstop.unique hrecovered, hstop.plaintext.trans hrecovered.plaintext.symm⟩
    · exact ⟨_, hstop.plaintext, flatten_pieces (config.chunkByteLimit_pos .s16) _⟩
  · exact (stop_finalizes hlawful hjournaled outcome disk).2
  · have hrecovered := hrecover outcome disk
    cases hresult : recoverCaptureAudioJournal config outcome aead key state.file disk with
    | error error =>
        rw [hresult] at hrecovered
        exact absurd h hrecovered
    | ok result => exact ⟨result, rfl⟩

/-- The bytes a journal has after some pushes. -/
def journalLength (pushes : List Push) : ℕ := 8 + (pushes.map fun push => push.pcm.length + 32).sum

variable (key) in
theorem length_records (hlawful : aead.Lawful) (pushes : List Push) :
    8 + ((pushes.map (·.record aead key)).flatten).length = journalLength pushes := by
  have hlengths : (pushes.map (·.record aead key)).map List.length =
      pushes.map fun push => push.pcm.length + 32 := by
    rw [List.map_map]
    exact List.map_congr_left fun push _ => length_record key hlawful push
  unfold journalLength
  rw [List.length_flatten, hlengths]

/-- **A journal cut anywhere recovers its whole prefix.**  Of a journal that is cut behind
its header the records that are whole are recovered, without an error, no fewer and nothing
of the one that is torn; every record is within the reader's bounds; and the chunks follow
each other from zero to the end. -/
theorem recover_truncated (hlawful : aead.Lawful) {pushes : List Push}
    {state : JournalState config}
    (hpushed : (JournalState.start config).pushAll aead key pushes = .ok state) {cut : ℕ}
    (hcut : 8 ≤ cut) {outcome : DiskOutcome} (hhealthy : outcome.Healthy) (disk : Disk) :
    (∀ push ∈ pushes, 28 ≤ (encryptChunk aead key push.pcm push.nonce).length ∧
      (encryptChunk aead key push.pcm push.nonce).length ≤ maxCaptureFrameSize + 64) ∧
    ∃ whole ≤ pushes.length, journalLength (pushes.take whole) ≤ cut ∧
      (whole < pushes.length → cut < journalLength (pushes.take (whole + 1))) ∧
      ∃ result, recoverCaptureAudioJournal config outcome aead key (state.file.take cut) disk =
          .ok result ∧ Finalizes config .s16 (audioOf (pushes.take whole)) result ∧
        result.1.audioChunks.map (·.startMs) ++ [result.1.durationMs] =
          0 :: result.1.audioChunks.map (·.endMs) := by
  have hjournaled := journaled_pushAll hpushed
  refine ⟨fun push hpush => (hjournaled.accepted push hpush).bounds key hlawful, ?_⟩
  obtain ⟨whole, torn, htake, hwhole, hle, hlt, htorn⟩ :=
    take_flatten (pushes.map (·.record aead key)) (cut - 8)
  rw [List.length_map] at hwhole hlt
  simp only [← List.map_take] at htake hle hlt
  have hfile : state.file.take cut = captureJournalMagicS16 ++
      (((pushes.take whole).map (·.record aead key)).flatten ++ torn) := by
    have hmagic : captureJournalMagicS16.length = 8 := rfl
    rw [hjournaled.file, List.take_append, List.take_of_length_le (by omega), hmagic, htake]
  have haccepted : ∀ push ∈ pushes.take whole, push.Accepted config :=
    fun push hpush => hjournaled.accepted push (List.mem_of_mem_take hpush)
  have htorn' : torn = [] ∨ ∃ push : Push, push.Accepted config ∧
      torn <+: push.record aead key ∧ torn.length < (push.record aead key).length := by
    rcases htorn with hnil | ⟨part, hpart, hprefix, hshort⟩
    · exact .inl hnil
    · obtain ⟨push, hpush, rfl⟩ := List.mem_map.1 hpart
      exact .inr ⟨push, hjournaled.accepted push hpush, hprefix, hshort⟩
  have hyields := recover_finalizes key outcome hlawful haccepted htorn' disk
  rw [← hfile] at hyields
  refine ⟨whole, hwhole, ?_, fun hmore => ?_, ?_⟩
  · rw [← length_records key hlawful]
    omega
  · have hnext := hlt hmore
    rw [← length_records key hlawful]
    omega
  · cases hresult : recoverCaptureAudioJournal config outcome aead key (state.file.take cut) disk with
    | error error =>
        rw [hresult] at hyields
        exact absurd hhealthy hyields
    | ok result =>
        rw [hresult] at hyields
        exact ⟨result, rfl, hyields, hyields.contiguous (dvd_length_audioOf haccepted)⟩

/-- A cipher that only adds its tag. -/
def Aead.plain : Aead Unit where
  encrypt := fun _ _ plaintext => plaintext ++ List.replicate 16 0
  decrypt := fun _ _ data => if data.length < 16 then none else some (data.take (data.length - 16))

theorem Aead.lawful_plain : Aead.plain.Lawful where
  decrypt_encrypt := by
    intro _ _ plaintext
    have hlength : (plaintext ++ List.replicate 16 (0 : UInt8)).length = plaintext.length + 16 := by
      rw [List.length_append, List.length_replicate]
    show (if (plaintext ++ List.replicate 16 (0 : UInt8)).length < 16 then none
      else some ((plaintext ++ List.replicate 16 (0 : UInt8)).take
        ((plaintext ++ List.replicate 16 (0 : UInt8)).length - 16))) = some plaintext
    rw [if_neg (by omega), hlength, Nat.add_sub_cancel, List.take_left]
  length_encrypt := by
    intro _ _ plaintext
    show (plaintext ++ List.replicate 16 (0 : UInt8)).length = _
    rw [List.length_append, List.length_replicate]

theorem length_zeros : (List.replicate 12 (0 : UInt8)).length = 12 := rfl

/-- A push in which nothing fails. -/
def Push.plain (pcm : Bytes) : Push where
  pcm := pcm
  nonce := ⟨List.replicate 12 0, length_zeros⟩
  outcome := ⟨none, none, none, fun _ => true⟩

/-- A minute of one frame a second, and a frame more. -/
def overMinute : List Push := [.plain (List.replicate 100 1), .plain (List.replicate 22 2)]

/-- A stop in which only writes of the live chunk writer fail. -/
def StopOutcome.plain (liveWrite : ℕ → Option String) : StopOutcome :=
  ⟨none, liveWrite, ⟨fun _ => none, none⟩, ⟨fun _ => none, none⟩⟩

/-- The live chunk writer is given the minute.  Whether it writes it or fails, what `stop` gives
is what the recovery builds. -/
theorem stop_agrees_with_recovery_plain :
    ∃ (state : JournalState ⟨1, 1⟩) (written failed recovered : RecoveredCaptureAudio × Disk),
      (JournalState.start ⟨1, 1⟩).pushAll Aead.plain () overMinute = .ok state ∧
      state.submitted.map LiveChunk.index = [0] ∧
      state.stop Aead.plain () (.plain fun _ => none) (fun _ => none) = .ok written ∧
      state.stop Aead.plain () (.plain fun _ => some "disk full") (fun _ => none) = .ok failed ∧
      recoverCaptureAudioJournal ⟨1, 1⟩ ⟨fun _ => none, none⟩ Aead.plain () state.file
        (fun _ => none) = .ok recovered ∧
      written.1 = recovered.1 ∧ failed.1 = recovered.1 := by
  have hsubmitted : ((JournalState.start ⟨1, 1⟩).pushAll Aead.plain () overMinute).toOption.map
      (fun state => state.submitted.map LiveChunk.index) = some [0] := by decide +kernel
  cases hpushed : (JournalState.start ⟨1, 1⟩).pushAll Aead.plain () overMinute with
  | error error =>
      rw [hpushed] at hsubmitted
      cases hsubmitted
  | ok state =>
      rw [hpushed] at hsubmitted
      obtain ⟨hagree, hstop, hrecover⟩ :=
        @stop_agrees_with_recovery Unit Aead.plain () ⟨1, 1⟩ Aead.lawful_plain overMinute state hpushed
      have hhealthy : DiskOutcome.Healthy ⟨fun _ => none, none⟩ := ⟨fun _ => rfl, rfl⟩
      obtain ⟨written, hwritten⟩ := hstop (.plain fun _ => none) (fun _ => none) rfl hhealthy
      obtain ⟨failed, hfailed⟩ :=
        hstop (.plain fun _ => some "disk full") (fun _ => none) rfl hhealthy
      obtain ⟨recovered, hrecovered⟩ := hrecover ⟨fun _ => none, none⟩ (fun _ => none) hhealthy
      exact ⟨state, written, failed, recovered, rfl, Option.some.inj hsubmitted, hwritten, hfailed,
        hrecovered, ((hagree _ _ _ hwritten).1 _ _ _ hrecovered).1,
        ((hagree _ _ _ hfailed).1 _ _ _ hrecovered).1⟩

/-- A journal of two frames that is cut in the second record. -/
theorem recover_truncated_plain :
    ∃ state, (JournalState.start ⟨16000, 1⟩).pushAll Aead.plain () [.plain [1, 2], .plain [3, 4]] =
        .ok state ∧
      ∃ result, recoverCaptureAudioJournal ⟨16000, 1⟩ ⟨fun _ => none, none⟩ Aead.plain ()
        (state.file.take 50) (fun _ => none) = .ok result := by
  refine ⟨_, rfl, ?_⟩
  obtain ⟨-, -, -, -, -, result, hresult, -⟩ :=
    @recover_truncated Unit Aead.plain () ⟨16000, 1⟩ Aead.lawful_plain
      [.plain [1, 2], .plain [3, 4]] _ rfl 50 (by decide) ⟨fun _ => none, none⟩
      ⟨fun _ => rfl, rfl⟩ (fun _ => none)
  exact ⟨result, hresult⟩

end Results

end Recorder
end ZuTalk
