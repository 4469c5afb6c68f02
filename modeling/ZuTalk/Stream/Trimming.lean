/-
# Trimming the replay buffer

`StreamRecoveryState` drops frames at two moments: `record_sent` those a continuity window
and an overlap behind the end of the timeline, `acknowledge` those an overlap behind the
acknowledged point.  Beside it runs a state that drops none.  Both differ in a prefix of
frames that end at or before one of the two horizons (`Trims`), and neither horizon goes
back; so a replay the backlog still allows is the same (`trimming_invisible`).
-/

import ZuTalk.Stream.Timeline

namespace ZuTalk
namespace Stream

open StreamRecoveryState Tiling

/-- An operation of `StreamRecoveryState`. -/
inductive RecoveryOp
  | recordSent (pcm : Pcm)
  | noteDiscarded (pcmLen : ℕ)
  | acknowledge (providerTotalMs : ℕ)
  | noteFinalizeSent
  | noteFinalizeAnswered (providerTotalMs : ℕ)
  | prepareReplay (outage : Duration)
  | reAnchorToLiveEdge
  deriving DecidableEq, Repr

namespace StreamRecoveryState

/-- The state after an operation. -/
def perform (r : StreamRecoveryState) : RecoveryOp → StreamRecoveryState
  | .recordSent pcm => r.recordSent pcm
  | .noteDiscarded pcmLen => r.noteDiscarded pcmLen
  | .acknowledge providerTotalMs => r.acknowledge providerTotalMs
  | .noteFinalizeSent => r.noteFinalizeSent
  | .noteFinalizeAnswered providerTotalMs => r.noteFinalizeAnswered providerTotalMs
  | .prepareReplay outage => (r.prepareReplay outage).1
  | .reAnchorToLiveEdge => r.reAnchorToLiveEdge

/-- The state after an operation, where `record_sent` and `acknowledge` drop no frame. -/
def performUntrimmed (r : StreamRecoveryState) : RecoveryOp → StreamRecoveryState
  | .recordSent pcm =>
      let endMs := satAdd r.nextAudioMs (durationMs pcm.length)
      { r with nextAudioMs := endMs, sentFrames := r.sentFrames ++ [⟨endMs, pcm⟩] }
  | .acknowledge providerTotalMs =>
      let acknowledged := min (r.captureMs providerTotalMs) r.nextAudioMs
      { r with acknowledgedMs := max r.acknowledgedMs acknowledged }
  | op => r.perform op

/-- The state after operations. -/
def after (captureOriginMs : ℕ) (ops : List RecoveryOp) : StreamRecoveryState :=
  ops.foldl perform (startingAt captureOriginMs)

/-- The state that drops no frame, after operations. -/
def afterUntrimmed (captureOriginMs : ℕ) (ops : List RecoveryOp) : StreamRecoveryState :=
  ops.foldl performUntrimmed (startingAt captureOriginMs)

end StreamRecoveryState

/-- Two states that differ in frames no replay can want. -/
structure Trims (r full : StreamRecoveryState) : Prop where
  same : full = { r with sentFrames := full.sentFrames }
  dropped : ∃ old, full.sentFrames = old ++ r.sentFrames ∧
    ∀ frame ∈ old, frame.endMs ≤ r.nextAudioMs - 17000 ∨ frame.endMs ≤ r.acknowledgedMs - 2000
  acknowledged : r.acknowledgedMs ≤ r.nextAudioMs
  bounded : r.nextAudioMs ≤ u64Max

/-- What is dropped ends at or before the horizon. -/
theorem retainFrom_split (retainFromMs : ℕ) (frames : List ReplayAudioFrame) :
    ∃ old, frames = old ++ retainFrom retainFromMs frames ∧
      ∀ frame ∈ old, frame.endMs ≤ retainFromMs := by
  refine ⟨frames.takeWhile fun frame => frame.endMs ≤ retainFromMs,
    List.takeWhile_append_dropWhile.symm, fun frame hframe => ?_⟩
  have hall := List.all_eq_true.1
    (List.all_takeWhile (p := fun frame : ReplayAudioFrame => decide (frame.endMs ≤ retainFromMs))
      (l := frames)) frame hframe
  exact of_decide_eq_true hall

namespace Trims

variable {r full r' full' : StreamRecoveryState}

/-- The same on both sides, with the horizons where they were. -/
theorem congr (h : Trims r full) (hnext : r'.nextAudioMs = r.nextAudioMs)
    (hacknowledged : r'.acknowledgedMs = r.acknowledgedMs)
    (hframes : r'.sentFrames = r.sentFrames)
    (hfull : full' = { r' with sentFrames := full.sentFrames }) : Trims r' full' := by
  obtain ⟨old, hold, hend⟩ := h.dropped
  subst hfull
  refine ⟨rfl, ⟨old, by rw [hframes]; exact hold, ?_⟩, ?_, ?_⟩
  · rw [hnext, hacknowledged]
    exact hend
  · rw [hnext, hacknowledged]
    exact h.acknowledged
  · rw [hnext]
    exact h.bounded

/-- Both start over at the end of the timeline. -/
theorem anchor (h : Trims r full) : Trims r.reAnchorToLiveEdge full.reAnchorToLiveEdge := by
  have hsame : full.reAnchorToLiveEdge = _ :=
    congrArg StreamRecoveryState.reAnchorToLiveEdge h.same
  rw [hsame]
  exact ⟨rfl, ⟨[], rfl, fun _ hframe => absurd hframe List.not_mem_nil⟩, le_rfl, h.bounded⟩

/-- The timeline moved on, and with it the frames both hold. -/
theorem grow (h : Trims r full) {nextMs : ℕ} (hnext : r.nextAudioMs ≤ nextMs)
    (hbound : nextMs ≤ u64Max) (sent : List ReplayAudioFrame) :
    Trims { r with nextAudioMs := nextMs, sentFrames := r.sentFrames ++ sent }
      { r with nextAudioMs := nextMs, sentFrames := full.sentFrames ++ sent } := by
  obtain ⟨old, hold, hend⟩ := h.dropped
  refine ⟨rfl, ⟨old, ?_, fun frame hframe => ?_⟩, h.acknowledged.trans hnext, hbound⟩
  · dsimp only
    rw [hold, List.append_assoc]
  · exact (hend frame hframe).imp_left fun hle => hle.trans (Nat.sub_le_sub_right hnext _)

/-- More frames are dropped, all behind one of the horizons. -/
theorem drop (h : Trims r full) {retainFromMs : ℕ}
    (hbehind : retainFromMs ≤ r.nextAudioMs - 17000 ∨ retainFromMs ≤ r.acknowledgedMs - 2000) :
    Trims { r with sentFrames := retainFrom retainFromMs r.sentFrames } full := by
  obtain ⟨old, hold, hend⟩ := h.dropped
  obtain ⟨now, hnow, hnowEnd⟩ := retainFrom_split retainFromMs r.sentFrames
  refine ⟨h.same, ⟨old ++ now, ?_, fun frame hframe => ?_⟩, h.acknowledged, h.bounded⟩
  · rw [List.append_assoc, ← hnow, hold]
  · rcases List.mem_append.1 hframe with hframe | hframe
    · exact hend frame hframe
    · have hle := hnowEnd frame hframe
      dsimp only
      omega

/-- `record_sent` drops only what is a window and an overlap behind. -/
theorem recordSent (h : Trims r full) (pcm : Pcm) :
    Trims (r.recordSent pcm) (full.performUntrimmed (.recordSent pcm)) := by
  have hgrown := h.grow (le_satAdd (b := durationMs pcm.length) h.bounded)
    (satAdd_le r.nextAudioMs (durationMs pcm.length))
    [⟨satAdd r.nextAudioMs (durationMs pcm.length), pcm⟩]
  have hfull : full.performUntrimmed (.recordSent pcm) = _ :=
    congrArg (fun r : StreamRecoveryState => r.performUntrimmed (.recordSent pcm)) h.same
  rw [hfull]
  unfold StreamRecoveryState.recordSent dropUnreplayableFrames
  dsimp only
  split
  · refine hgrown.drop (.inl ?_)
    rw [horizonMs_eq]
  · exact hgrown

/-- `acknowledge` drops only what is an overlap behind. -/
theorem acknowledge (h : Trims r full) (providerTotalMs : ℕ) :
    Trims (r.acknowledge providerTotalMs)
      (full.performUntrimmed (.acknowledge providerTotalMs)) := by
  obtain ⟨old, hold, hend⟩ := h.dropped
  have hfull : full.performUntrimmed (.acknowledge providerTotalMs) = _ :=
    congrArg (fun r : StreamRecoveryState => r.performUntrimmed (.acknowledge providerTotalMs))
      h.same
  rw [hfull]
  have hacknowledged := h.acknowledged
  have hmoved : Trims
      { r with acknowledgedMs :=
                max r.acknowledgedMs (min (r.captureMs providerTotalMs) r.nextAudioMs) }
      { r with acknowledgedMs :=
                max r.acknowledgedMs (min (r.captureMs providerTotalMs) r.nextAudioMs),
               sentFrames := full.sentFrames } := by
    refine ⟨rfl, ⟨old, hold, fun frame hframe => ?_⟩, ?_, h.bounded⟩
    · exact (hend frame hframe).imp_right fun hle =>
        hle.trans (Nat.sub_le_sub_right (le_max_left _ _) _)
    · exact max_le hacknowledged (min_le_right _ _)
  refine hmoved.drop (.inr ?_)
  rw [replayOverlapMs_eq]

/-- An answered finalize does not look at the frames. -/
theorem noteFinalizeAnswered (h : Trims r full) (providerTotalMs : ℕ) :
    Trims (r.noteFinalizeAnswered providerTotalMs)
      (full.noteFinalizeAnswered providerTotalMs) := by
  obtain ⟨marks, lead, hclock⟩ := noteFinalizeAnswered_clock r providerTotalMs
  refine h.congr (by rw [hclock]) (by rw [hclock]) (by rw [hclock]) ?_
  have hfull : full.noteFinalizeAnswered providerTotalMs = _ :=
    congrArg (fun r : StreamRecoveryState => r.noteFinalizeAnswered providerTotalMs) h.same
  rw [hfull]
  unfold StreamRecoveryState.noteFinalizeAnswered StreamRecoveryState.leadAt
  dsimp only
  split
  · rfl
  · split <;> rfl

/-- A replay moves only the connection's origin, or starts both over. -/
theorem prepareReplay (h : Trims r full) (outage : Duration) :
    Trims (r.prepareReplay outage).1 (full.prepareReplay outage).1 := by
  by_cases hlong : continuityWindow < outage
  · rw [prepareReplay_of_lt hlong, prepareReplay_of_lt hlong]
    exact h.anchor
  · rw [prepareReplay_of_le (not_lt.1 hlong), prepareReplay_of_le (not_lt.1 hlong)]
    refine h.congr rfl rfl rfl ?_
    have hfull : beginProviderClock { full with connectionOriginMs := full.replayFromMs } = _ :=
      congrArg (fun r : StreamRecoveryState =>
        beginProviderClock { r with connectionOriginMs := r.replayFromMs }) h.same
    exact hfull

/-- Every operation keeps the two in step. -/
theorem perform (h : Trims r full) (op : RecoveryOp) :
    Trims (r.perform op) (full.performUntrimmed op) := by
  cases op with
  | recordSent pcm => exact h.recordSent pcm
  | noteDiscarded pcmLen =>
      have hgrown := h.grow (le_satAdd (b := durationMs pcmLen) h.bounded)
        (satAdd_le r.nextAudioMs (durationMs pcmLen)) []
      have hfull : full.performUntrimmed (.noteDiscarded pcmLen) = _ :=
        congrArg (fun r : StreamRecoveryState => r.noteDiscarded pcmLen) h.same
      rw [hfull]
      rw [List.append_nil, List.append_nil] at hgrown
      exact hgrown
  | acknowledge providerTotalMs => exact h.acknowledge providerTotalMs
  | noteFinalizeSent =>
      exact h.congr rfl rfl rfl
        (congrArg (fun r : StreamRecoveryState => r.noteFinalizeSent) h.same)
  | noteFinalizeAnswered providerTotalMs => exact h.noteFinalizeAnswered providerTotalMs
  | prepareReplay outage => exact h.prepareReplay outage
  | reAnchorToLiveEdge => exact h.anchor

/-- A run keeps the two in step. -/
theorem foldl (h : Trims r full) (ops : List RecoveryOp) :
    Trims (ops.foldl StreamRecoveryState.perform r) (ops.foldl performUntrimmed full) := by
  induction ops generalizing r full with
  | nil => exact h
  | cons op ops ih => exact ih (h.perform op)

/-- With a backlog a replay still covers, neither horizon is past the point it
starts from. -/
theorem replay_eq (h : Trims r full) (hbacklog : r.sentBacklog ≤ continuityWindow)
    (outage : Duration) :
    (r.prepareReplay outage).2 = (full.prepareReplay outage).2 ∧
      (r.prepareReplay outage).1.connectionOriginMs =
        (full.prepareReplay outage).1.connectionOriginMs := by
  have hsame := h.same
  have hfrom : full.replayFromMs = r.replayFromMs := by
    rw [hsame]
    rfl
  have hnext : full.nextAudioMs = r.nextAudioMs := by rw [hsame]
  by_cases hlong : continuityWindow < outage
  · rw [prepareReplay_of_lt hlong, prepareReplay_of_lt hlong]
    exact ⟨rfl, hnext.symm⟩
  · rw [prepareReplay_of_le (not_lt.1 hlong), prepareReplay_of_le (not_lt.1 hlong)]
    refine ⟨?_, hfrom.symm⟩
    obtain ⟨old, hold, hend⟩ := h.dropped
    dsimp only
    rw [hfrom, hold, List.filter_append]
    refine List.self_eq_append_left.2 (List.filter_eq_nil_iff.2 fun frame hframe => ?_)
    have hbehind := hend frame hframe
    rw [sentBacklog_le_iff] at hbacklog
    have hpoint : r.replayFromMs = r.acknowledgedMs - 2000 := by
      unfold replayFromMs
      rw [replayOverlapMs_eq]
    rw [decide_eq_true_eq, hpoint, not_lt]
    omega

end Trims

/-! ### How much is kept -/

/-- The frames kept lie within a window and an overlap, in order, and none ends past the
timeline. -/
structure Windowed (r : StreamRecoveryState) : Prop where
  sorted : r.sentFrames.Pairwise fun a b => a.endMs ≤ b.endMs
  ended : ∀ frame ∈ r.sentFrames, frame.endMs ≤ r.nextAudioMs
  near : ∀ a ∈ r.sentFrames, ∀ b ∈ r.sentFrames, a.endMs ≤ b.endMs + 17000
  bounded : r.nextAudioMs ≤ u64Max

namespace Windowed

variable {r r' : StreamRecoveryState}

/-- Fewer frames, with the timeline no further back. -/
theorem sublist (h : Windowed r) (hframes : r'.sentFrames.Sublist r.sentFrames)
    (hnext : r.nextAudioMs ≤ r'.nextAudioMs) (hbound : r'.nextAudioMs ≤ u64Max) : Windowed r' where
  sorted := h.sorted.sublist hframes
  ended frame hframe := (h.ended frame (hframes.mem hframe)).trans hnext
  near a ha b hb := h.near a (hframes.mem ha) b (hframes.mem hb)
  bounded := hbound

/-- A block is added at the end, and `drop_unreplayable_frames` clears what it left behind. -/
theorem recordSent (h : Windowed r) (pcm : Pcm) : Windowed (r.recordSent pcm) := by
  have hgrows := le_satAdd (b := durationMs pcm.length) h.bounded
  have hbound := satAdd_le r.nextAudioMs (durationMs pcm.length)
  have hsorted : List.Pairwise (fun a b : ReplayAudioFrame => a.endMs ≤ b.endMs)
      (r.sentFrames ++ [⟨satAdd r.nextAudioMs (durationMs pcm.length), pcm⟩]) := by
    rw [List.pairwise_append]
    refine ⟨h.sorted, List.pairwise_singleton _ _, fun a ha b hb => ?_⟩
    rw [List.mem_singleton.1 hb]
    exact (h.ended a ha).trans hgrows
  have hended : ∀ frame ∈ r.sentFrames ++ [⟨satAdd r.nextAudioMs (durationMs pcm.length), pcm⟩],
      frame.endMs ≤ satAdd r.nextAudioMs (durationMs pcm.length) := by
    intro frame hframe
    rcases List.mem_append.1 hframe with hframe | hframe
    · exact (h.ended frame hframe).trans hgrows
    · rw [List.mem_singleton.1 hframe]
  unfold StreamRecoveryState.recordSent dropUnreplayableFrames
  dsimp only
  split
  · have hsub : (retainFrom (satAdd r.nextAudioMs (durationMs pcm.length) - horizonMs)
        (r.sentFrames ++ [⟨satAdd r.nextAudioMs (durationMs pcm.length), pcm⟩])).Sublist
        (r.sentFrames ++ [⟨satAdd r.nextAudioMs (durationMs pcm.length), pcm⟩]) :=
      List.dropWhile_sublist _
    refine ⟨hsorted.sublist hsub, fun frame hframe => hended frame (hsub.mem hframe),
      fun a ha b hb => ?_, hbound⟩
    have hlate : satAdd r.nextAudioMs (durationMs pcm.length) - horizonMs < b.endMs := by
      have hb : b ∈ retainFrom _ _ := hb
      unfold retainFrom at hb
      rw [dropWhile_eq_filter _ hsorted, List.mem_filter] at hb
      exact of_decide_eq_true hb.2
    have hearly := hended a (hsub.mem ha)
    rw [horizonMs_eq] at hlate
    omega
  · rename_i hshort
    refine ⟨hsorted, hended, fun a ha b hb => ?_, hbound⟩
    have hearly := hended a ha
    rw [horizonMs_eq] at hshort
    omega

/-- Every operation keeps the frames within the window. -/
theorem perform (h : Windowed r) (op : RecoveryOp) : Windowed (r.perform op) := by
  cases op with
  | recordSent pcm => exact h.recordSent pcm
  | noteDiscarded pcmLen =>
      exact h.sublist (List.Sublist.refl _) (le_satAdd h.bounded) (satAdd_le _ _)
  | acknowledge providerTotalMs =>
      exact h.sublist (List.dropWhile_sublist _) le_rfl h.bounded
  | noteFinalizeSent => exact h.sublist (List.Sublist.refl _) le_rfl h.bounded
  | noteFinalizeAnswered providerTotalMs =>
      obtain ⟨marks, lead, hclock⟩ := noteFinalizeAnswered_clock r providerTotalMs
      have hperform : r.perform (.noteFinalizeAnswered providerTotalMs) = _ := hclock
      rw [hperform]
      exact h.sublist (List.Sublist.refl _) le_rfl h.bounded
  | prepareReplay outage =>
      change Windowed (r.prepareReplay outage).1
      by_cases hlong : continuityWindow < outage
      · rw [prepareReplay_of_lt hlong]
        exact h.sublist (List.nil_sublist _) le_rfl h.bounded
      · rw [prepareReplay_of_le (not_lt.1 hlong)]
        exact h.sublist (List.Sublist.refl _) le_rfl h.bounded
  | reAnchorToLiveEdge => exact h.sublist (List.nil_sublist _) le_rfl h.bounded

/-- A run keeps the frames within the window. -/
theorem foldl (h : Windowed r) (ops : List RecoveryOp) :
    Windowed (ops.foldl StreamRecoveryState.perform r) := by
  induction ops generalizing r with
  | nil => exact h
  | cons op ops ih => exact ih (h.perform op)

end Windowed

/-- The time frames take on the timeline, one after another. -/
def audioMs (frames : List ReplayAudioFrame) : ℕ := extent (fun f => durationMs f.pcm.length) frames

/-- Every frame kept ends where the ones after it begin, up to the end of the timeline. -/
def Joined (r : StreamRecoveryState) : Prop :=
  ∀ before frame later, r.sentFrames = before ++ frame :: later →
    frame.endMs + audioMs later = r.nextAudioMs

namespace Joined

variable {r r' : StreamRecoveryState}

/-- Frames leave at the front only. -/
theorem suffix (h : Joined r) (hframes : r'.sentFrames <:+ r.sentFrames)
    (hnext : r'.nextAudioMs = r.nextAudioMs) : Joined r' := by
  obtain ⟨old, hold⟩ := hframes
  intro before frame later hsplit
  rw [hnext]
  refine h (old ++ before) frame later ?_
  rw [← hold, hsplit, List.append_assoc]

/-- A block joins where the timeline ended. -/
theorem recordSent (h : Joined r) (pcm : Pcm)
    (hnext : (r.recordSent pcm).nextAudioMs < u64Max) : Joined (r.recordSent pcm) := by
  rw [recordSent_nextAudioMs] at hnext
  have hend := satAdd_eq_of_lt hnext
  have hjoined : Joined
      { r with nextAudioMs := satAdd r.nextAudioMs (durationMs pcm.length),
               sentFrames := r.sentFrames ++
                 [⟨satAdd r.nextAudioMs (durationMs pcm.length), pcm⟩] } := by
    intro before frame later hsplit
    dsimp only at hsplit ⊢
    rcases later.eq_nil_or_concat with rfl | ⟨later, last, rfl⟩
    · have hlast := (List.append_inj' hsplit rfl).2
      rw [← (List.cons.inj hlast).1]
      rfl
    · rw [List.concat_eq_append, ← List.cons_append, ← List.append_assoc] at hsplit
      obtain ⟨hframes, hlast⟩ := List.append_inj' hsplit rfl
      have hbefore := h before frame later hframes
      rw [List.concat_eq_append, ← (List.cons.inj hlast).1]
      unfold audioMs at hbefore ⊢
      rw [extent_append, extent_cons, extent_nil]
      dsimp only
      omega
  unfold StreamRecoveryState.recordSent dropUnreplayableFrames
  dsimp only
  split
  · exact hjoined.suffix (List.dropWhile_suffix _) rfl
  · exact hjoined

/-- Every operation but a discard keeps the frames joined. -/
theorem perform (h : Joined r) {op : RecoveryOp} (hsent : ∀ pcmLen, op ≠ .noteDiscarded pcmLen)
    (hnext : (r.perform op).nextAudioMs < u64Max) : Joined (r.perform op) := by
  cases op with
  | recordSent pcm => exact h.recordSent pcm hnext
  | noteDiscarded pcmLen => exact absurd rfl (hsent pcmLen)
  | acknowledge providerTotalMs => exact h.suffix (List.dropWhile_suffix _) rfl
  | noteFinalizeSent => exact h.suffix (List.suffix_refl _) rfl
  | noteFinalizeAnswered providerTotalMs =>
      obtain ⟨marks, lead, hclock⟩ := noteFinalizeAnswered_clock r providerTotalMs
      have hperform : r.perform (.noteFinalizeAnswered providerTotalMs) = _ := hclock
      rw [hperform]
      exact h.suffix (List.suffix_refl _) rfl
  | prepareReplay outage =>
      change Joined (r.prepareReplay outage).1
      by_cases hlong : continuityWindow < outage
      · rw [prepareReplay_of_lt hlong]
        exact h.suffix List.nil_suffix rfl
      · rw [prepareReplay_of_le (not_lt.1 hlong)]
        exact h.suffix (List.suffix_refl _) rfl
  | reAnchorToLiveEdge => exact h.suffix List.nil_suffix rfl

end Joined

/-- A timeline that has not reached its end did not reach it before. -/
theorem lt_of_perform_lt {r : StreamRecoveryState} {op : RecoveryOp}
    (h : (r.perform op).nextAudioMs < u64Max) : r.nextAudioMs < u64Max := by
  cases op with
  | recordSent pcm =>
      change (r.recordSent pcm).nextAudioMs < u64Max at h
      rw [recordSent_nextAudioMs] at h
      exact lt_of_satAdd_lt h
  | noteDiscarded pcmLen => exact lt_of_satAdd_lt h
  | acknowledge providerTotalMs => exact h
  | noteFinalizeSent => exact h
  | noteFinalizeAnswered providerTotalMs =>
      obtain ⟨marks, lead, hclock⟩ := noteFinalizeAnswered_clock r providerTotalMs
      have hperform : r.perform (.noteFinalizeAnswered providerTotalMs) = _ := hclock
      rwa [hperform] at h
  | prepareReplay outage =>
      change (r.prepareReplay outage).1.nextAudioMs < u64Max at h
      by_cases hlong : continuityWindow < outage
      · rwa [prepareReplay_of_lt hlong] at h
      · rwa [prepareReplay_of_le (not_lt.1 hlong)] at h
  | reAnchorToLiveEdge => exact h

/-- Where no block is discarded, the frames stay joined until the timeline is full. -/
theorem Joined.foldl {r : StreamRecoveryState} (h : Joined r) (ops : List RecoveryOp)
    (hsent : ∀ pcmLen, .noteDiscarded pcmLen ∉ ops)
    (hnext : (ops.foldl StreamRecoveryState.perform r).nextAudioMs < u64Max) :
    Joined (ops.foldl StreamRecoveryState.perform r) := by
  induction ops using List.reverseRecOn with
  | nil => exact h
  | append_singleton ops op ih =>
      rw [List.foldl_append] at hnext ⊢
      have hbefore := lt_of_perform_lt hnext
      refine (ih (fun pcmLen hmem => hsent pcmLen ?_) hbefore).perform (fun pcmLen heq => ?_) hnext
      · exact List.mem_append_left _ hmem
      · exact hsent pcmLen (List.mem_append_right _ (List.mem_singleton.2 heq.symm))

/-- **Trimming the replay buffer is invisible.**  After any operations from a capture origin,
`prepare_replay` with a backlog within the continuity window returns the frames and sets the
origin it would had nothing been dropped.  The frames kept never span more than the window, the
overlap and the first block; where nothing was discarded, neither does their audio, for as long
as the timeline can count it. -/
theorem trimming_invisible (captureOriginMs : ℕ) (horigin : captureOriginMs ≤ u64Max)
    (ops : List RecoveryOp) :
    let r := after captureOriginMs ops
    let full := afterUntrimmed captureOriginMs ops
    (∀ outage, r.sentBacklog ≤ continuityWindow →
      (r.prepareReplay outage).2 = (full.prepareReplay outage).2 ∧
        (r.prepareReplay outage).1.connectionOriginMs =
          (full.prepareReplay outage).1.connectionOriginMs) ∧
    ∀ first rest, r.sentFrames = first :: rest →
      (∀ last ∈ r.sentFrames, last.endMs - first.startMs ≤
        Duration.asMillis (continuityWindow + replayOverlap) + durationMs first.pcm.length) ∧
      ((∀ pcmLen, .noteDiscarded pcmLen ∉ ops) → r.nextAudioMs < u64Max →
        audioMs r.sentFrames ≤
          Duration.asMillis (continuityWindow + replayOverlap) + durationMs first.pcm.length) := by
  have htrims : Trims (after captureOriginMs ops) (afterUntrimmed captureOriginMs ops) :=
    Trims.foldl ⟨rfl, ⟨[], rfl, fun _ hframe => absurd hframe List.not_mem_nil⟩, le_rfl, horigin⟩
      ops
  have hwindow : Windowed (after captureOriginMs ops) :=
    Windowed.foldl ⟨List.Pairwise.nil, fun _ hframe => absurd hframe List.not_mem_nil,
      fun _ hframe => absurd hframe List.not_mem_nil, horigin⟩ ops
  have hhorizon : Duration.asMillis (continuityWindow + replayOverlap) = 17000 := by
    have heq := horizonMs_eq
    rwa [horizonMs] at heq
  refine ⟨fun outage hbacklog => htrims.replay_eq hbacklog outage, fun first rest hframes => ?_⟩
  have hfirst : first ∈ (after captureOriginMs ops).sentFrames := by
    rw [hframes]
    exact List.mem_cons_self
  rw [hhorizon]
  constructor
  · intro last hlast
    have hnear := hwindow.near last hlast first hfirst
    unfold ReplayAudioFrame.startMs
    omega
  · intro hsent hnext
    have hjoined : Joined (after captureOriginMs ops) :=
      Joined.foldl (fun before frame later hsplit => by
        exact absurd hsplit.symm (List.append_ne_nil_of_right_ne_nil _ (List.cons_ne_nil _ _)))
        ops hsent hnext
    have hend := hjoined [] first rest hframes
    -- the last frame kept ends where the timeline does
    obtain ⟨older, last, hlast⟩ := List.eq_nil_or_concat (first :: rest) |>.resolve_left
      (List.cons_ne_nil _ _)
    have hedge := hjoined older last [] (hframes.trans (hlast.trans List.concat_eq_append))
    have hmem : last ∈ (after captureOriginMs ops).sentFrames := by
      rw [hframes, hlast, List.concat_eq_append]
      exact List.mem_append_right _ (List.mem_singleton_self _)
    have hnear := hwindow.near last hmem first hfirst
    rw [hframes]
    unfold audioMs at hend hedge ⊢
    rw [extent_nil] at hedge
    rw [extent_cons]
    omega

/-- Audio that stalls for eighteen seconds, goes on, is acknowledged and goes on again. -/
def stalledOps : List RecoveryOp :=
  [.recordSent (List.replicate 64 0), .noteDiscarded (18000 * 32),
    .recordSent (List.replicate 64 0), .noteDiscarded (3000 * 32),
    .recordSent (List.replicate 64 0), .acknowledge 21006, .recordSent (List.replicate 64 0)]

/-- The first frame is dropped when the second is sent, and the second when the third is
acknowledged; neither is missed. -/
theorem trimming_invisible_stalled :
    (afterUntrimmed 0 stalledOps).sentFrames.map ReplayAudioFrame.endMs =
        [2, 18004, 21006, 21008] ∧
      (after 0 (stalledOps.take 5)).sentFrames.map ReplayAudioFrame.endMs = [18004, 21006] ∧
      (after 0 stalledOps).sentFrames.map ReplayAudioFrame.endMs = [21006, 21008] ∧
      ((after 0 stalledOps).prepareReplay 0).2 =
        ((afterUntrimmed 0 stalledOps).prepareReplay 0).2 :=
  ⟨by decide +kernel, by decide +kernel, by decide +kernel,
    ((trimming_invisible 0 (Nat.zero_le _) stalledOps).1 0 (by decide +kernel)).1⟩

end Stream
end ZuTalk
