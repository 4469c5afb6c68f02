/-
# The capture timeline of a lane

What the recovery state of a lane stands for.  Since the lane started, or last
re-anchored at the live edge, it has counted a list of blocks onto the timeline,
some sent and some only discarded; `History.spans` lays them end to end from
the anchor.  `Tracks` connects the recovery state to that picture: the timeline
ends where the last span does, and the frames kept for replay are exactly the
sent spans that end after a cut no replay can reach behind.

From it, `prepareReplay_aligned_iff`: when a reconnect within the continuity
window replays what the provider has not confirmed, the replayed audio starts
where the new connection's clock is anchored exactly when the lane still has
all of it.
-/

import ZuTalk.Library.Tiling
import ZuTalk.Stream.Moves

namespace ZuTalk
namespace Stream

open Machine Tiling

/-- The counted blocks of a lane, laid end to end from its anchor. -/
def History.spans (h : History) : List (Tile CountedBlock) :=
  layout CountedBlock.ms h.anchorMs h.counted

/-- Where the timeline ends. -/
def History.edgeMs (h : History) : ℕ := h.anchorMs + extent CountedBlock.ms h.counted

theorem CountedBlock.ms_pos (b : CountedBlock) : 0 < b.ms := durationMs_pos _

/-- The frame kept for replay of a sent span. -/
def frameOf (s : Tile CountedBlock) : ReplayAudioFrame := ⟨s.stop, s.block.pcm⟩

@[simp] theorem frameOf_endMs (s : Tile CountedBlock) : (frameOf s).endMs = s.stop := rfl

@[simp] theorem frameOf_startMs (s : Tile CountedBlock) :
    (frameOf s).startMs = s.start CountedBlock.ms := rfl

theorem History.spans_count (h : History) (pcm : Pcm) (sent : Bool) :
    (h.count pcm sent).spans = h.spans ++ [⟨h.edgeMs + durationMs pcm.length, ⟨pcm, sent⟩⟩] := by
  simp only [History.spans, History.count, layout_append, layout]
  rfl

theorem History.edgeMs_count (h : History) (pcm : Pcm) (sent : Bool) :
    (h.count pcm sent).edgeMs = h.edgeMs + durationMs pcm.length := by
  simp only [History.edgeMs, History.count, extent_append, extent_cons, extent_nil,
    CountedBlock.ms]
  omega

/-- The sent spans ending after `cut`. -/
def sentAfter (cut : ℕ) (spans : List (Tile CountedBlock)) : List (Tile CountedBlock) :=
  spans.filter fun s => s.block.sent && decide (cut < s.stop)

theorem sentAfter_sorted (cut : ℕ) (h : History) :
    (sentAfter cut h.spans).Pairwise (fun a b => a.stop ≤ b.stop) :=
  (layout_sorted _ _).filter _

/-- Dropping frames from the front of the sent spans after a cut moves the
cut. -/
theorem retainFrom_sentAfter (x cut : ℕ) (h : History) :
    StreamRecoveryState.retainFrom x ((sentAfter cut h.spans).map frameOf) =
      (sentAfter (max x cut) h.spans).map frameOf := by
  have hsorted : ((sentAfter cut h.spans).map frameOf).Pairwise (fun a b => a.endMs ≤ b.endMs) :=
    List.pairwise_map.2 (sentAfter_sorted cut h)
  unfold StreamRecoveryState.retainFrom
  rw [dropWhile_eq_filter x hsorted, List.filter_map, sentAfter, List.filter_filter, sentAfter]
  congr 2
  funext s
  by_cases hx : x < s.stop <;> by_cases hc : cut < s.stop <;> simp [hx, hc]

/-- The recovery state stands for the history: the timeline ends at the edge of
the spans, the provider has confirmed a point between the anchor and the edge,
and the frames kept are the sent spans after a cut that no replay reaches
behind, because the cut is either the replay point or beyond the horizon. -/
structure Tracks (r : StreamRecoveryState) (h : History) : Prop where
  edge : r.nextAudioMs = h.edgeMs
  anchored : h.anchorMs ≤ r.acknowledgedMs
  confirmed : r.acknowledgedMs ≤ r.nextAudioMs
  frames : ∃ cut, (cut ≤ r.replayFromMs ∨ cut + StreamRecoveryState.horizonMs ≤ r.nextAudioMs) ∧
    r.sentFrames = (sentAfter cut h.spans).map frameOf

/-- `Tracks`, as long as the timeline has not run into `u64::MAX`. -/
def TracksBelowMax (l : Lane) : Prop :=
  l.recovery.nextAudioMs < u64Max → Tracks l.recovery l.history

namespace Tracks

variable {r r' : StreamRecoveryState} {h h' : History}

/-- `Tracks` reads three fields of the recovery state and the timeline of the
history. -/
theorem congr (hr : Tracks r h) (hnext : r'.nextAudioMs = r.nextAudioMs)
    (hack : r'.acknowledgedMs = r.acknowledgedMs) (hframes : r'.sentFrames = r.sentFrames)
    (hanchor : h'.anchorMs = h.anchorMs) (hcounted : h'.counted = h.counted) : Tracks r' h' := by
  have hedge : h'.edgeMs = h.edgeMs := by rw [History.edgeMs, History.edgeMs, hanchor, hcounted]
  have hspans : h'.spans = h.spans := by rw [History.spans, History.spans, hanchor, hcounted]
  have hfrom : r'.replayFromMs = r.replayFromMs := by
    rw [StreamRecoveryState.replayFromMs, StreamRecoveryState.replayFromMs, hack]
  obtain ⟨cut, hcut, hf⟩ := hr.frames
  exact ⟨by rw [hnext, hedge, hr.edge], by rw [hanchor, hack]; exact hr.anchored,
    by rw [hack, hnext]; exact hr.confirmed,
    ⟨cut, by rw [hfrom, hnext]; exact hcut, by rw [hframes, hspans]; exact hf⟩⟩

/-- A lane that starts over at its edge. -/
theorem fresh (hnext : r.acknowledgedMs = r.nextAudioMs) (hframes : r.sentFrames = []) :
    Tracks r (h.reAnchor r.nextAudioMs) where
  edge := rfl
  anchored := hnext.ge
  confirmed := hnext.le
  frames := ⟨0, Or.inl (Nat.zero_le _), hframes⟩

/-- Moving the cut forward keeps the frames in step. -/
theorem retain (hr : Tracks r h) {x : ℕ}
    (hx : x ≤ r.replayFromMs ∨ x + StreamRecoveryState.horizonMs ≤ r.nextAudioMs) :
    Tracks { r with sentFrames := StreamRecoveryState.retainFrom x r.sentFrames } h := by
  obtain ⟨cut, hcut, hf⟩ := hr.frames
  refine ⟨hr.edge, hr.anchored, hr.confirmed, max x cut, ?_, ?_⟩
  · rcases le_total x cut with hle | hle
    · rw [max_eq_right hle]
      exact hcut
    · rw [max_eq_left hle]
      exact hx
  · rw [hf]
    exact retainFrom_sentAfter x cut h

/-- Counting a block, sent or not, moves the edge by its length. -/
theorem count (hr : Tracks r h) (pcm : Pcm) (sent : Bool) (frames : List ReplayAudioFrame)
    (hframes : frames = r.sentFrames ++
      if sent then [⟨r.nextAudioMs + durationMs pcm.length, pcm⟩] else []) :
    Tracks { r with nextAudioMs := r.nextAudioMs + durationMs pcm.length, sentFrames := frames }
      (h.count pcm sent) := by
  obtain ⟨cut, hcut, hf⟩ := hr.frames
  have hbeyond : cut < r.nextAudioMs + durationMs pcm.length := by
    have := durationMs_pos pcm.length
    have := hr.confirmed
    unfold StreamRecoveryState.replayFromMs at hcut
    omega
  refine ⟨?_, hr.anchored, hr.confirmed.trans (Nat.le_add_right _ _), cut, ?_, ?_⟩
  · rw [History.edgeMs_count, hr.edge]
  · exact hcut.imp_right fun hle => hle.trans (Nat.le_add_right _ _)
  · rw [hframes, hf, History.spans_count, ← hr.edge]
    unfold sentAfter
    cases sent
    · simp
    · simp [hbeyond, frameOf]

theorem recordSent (hr : Tracks r h) (pcm : Pcm)
    (hbelow : (r.recordSent pcm).nextAudioMs < u64Max) :
    Tracks (r.recordSent pcm) (h.count pcm true) := by
  have hnext : satAdd r.nextAudioMs (durationMs pcm.length)
      = r.nextAudioMs + durationMs pcm.length :=
    satAdd_eq_of_lt (by rwa [StreamRecoveryState.recordSent_nextAudioMs] at hbelow)
  have hcount := hr.count pcm true _ rfl
  unfold StreamRecoveryState.recordSent StreamRecoveryState.dropUnreplayableFrames
  simp only [hnext]
  split
  · exact hcount.retain (Or.inr (by dsimp only; omega))
  · exact hcount

theorem noteDiscarded (hr : Tracks r h) (pcm : Pcm)
    (hbelow : (r.noteDiscarded pcm.length).nextAudioMs < u64Max) :
    Tracks (r.noteDiscarded pcm.length) (h.count pcm false) := by
  have hcount := hr.count pcm false r.sentFrames (by simp)
  unfold StreamRecoveryState.noteDiscarded at hbelow ⊢
  rw [satAdd_eq_of_lt hbelow]
  exact hcount

theorem acknowledge (hr : Tracks r h) (totalMs : ℕ) : Tracks (r.acknowledge totalMs) h := by
  have hmoved : Tracks { r with
      acknowledgedMs := max r.acknowledgedMs (min (r.captureMs totalMs) r.nextAudioMs) } h := by
    obtain ⟨cut, hcut, hf⟩ := hr.frames
    refine ⟨hr.edge, hr.anchored.trans (le_max_left _ _), max_le hr.confirmed (min_le_right _ _),
      cut, hcut.imp_left fun hle => hle.trans ?_, hf⟩
    exact Nat.sub_le_sub_right (le_max_left _ _) _
  exact hmoved.retain (Or.inl le_rfl)

end Tracks

/-- **Every move keeps the recovery state in step with the history.** -/
theorem TracksBelowMax.move {lossy sheds : Prop} {l l' : Lane} (h : TracksBelowMax l)
    (hm : Move lossy sheds l l') :
    TracksBelowMax l' := by
  intro hbelow
  cases hm with
  | frame recovery history =>
      rw [recovery] at hbelow ⊢
      rw [history]
      exact h hbelow
  | clock marks lead recovery history =>
      rw [recovery] at hbelow ⊢
      rw [history]
      exact (h hbelow).congr rfl rfl rfl rfl rfl
  | recordSent pcm =>
      have hle : l.recovery.nextAudioMs < u64Max := by
        rw [show (l.recordSent pcm).recovery = l.recovery.recordSent pcm from rfl,
          StreamRecoveryState.recordSent_nextAudioMs] at hbelow
        exact lt_of_satAdd_lt hbelow
      exact ((h hle).recordSent pcm hbelow).congr rfl rfl rfl rfl rfl
  | noteDiscarded pcm _ =>
      have hle : l.recovery.nextAudioMs < u64Max := by
        change satAdd l.recovery.nextAudioMs (durationMs pcm.length) < u64Max at hbelow
        exact lt_of_satAdd_lt hbelow
      exact ((h hle).noteDiscarded pcm hbelow).congr rfl rfl rfl rfl rfl
  | lose | drop => exact (h hbelow).congr rfl rfl rfl rfl rfl
  | acknowledge totalMs recovery history =>
      rw [recovery] at hbelow ⊢
      rw [history]
      exact (h hbelow).acknowledge totalMs
  | reAnchor => exact Tracks.fresh rfl rfl
  | prepareReplay outage =>
      rcases lt_or_ge continuityWindow outage with hlong | hshort
      · rw [Lane.prepareReplay_of_lt hlong]
        exact Tracks.fresh rfl rfl
      · rw [Lane.prepareReplay_of_le hshort, StreamRecoveryState.prepareReplay_of_le hshort] at hbelow ⊢
        exact (h hbelow).congr rfl rfl rfl rfl rfl
  | openFirst recovery history =>
      rw [recovery] at hbelow ⊢
      rw [history]
      exact (h hbelow).congr rfl rfl rfl rfl rfl

theorem tracksBelowMax_start (captureOriginMs : ℕ) : TracksBelowMax (Lane.start captureOriginMs) :=
  fun _ => ⟨rfl, le_rfl, le_rfl, 0, Or.inl (Nat.zero_le _), rfl⟩

/-- **Every reachable lane tracks its history.** -/
theorem Reaches.tracks {t : StreamTimeouts} {closeLong : Bool} {captureOriginMs : ℕ}
    {is : List (Instant × Input)} {l : Lane} (h : Reaches t closeLong captureOriginMs is l) :
    TracksBelowMax l :=
  run_invariant (fun _ _ _ hs hstep =>
      (step_moves hstep (fun _ => trivial) trivial : Moves True True _ _).invariant
        (fun _ _ => .move) hs)
    (tracksBelowMax_start captureOriginMs) h

/-! ### The replay of a reconnect -/

/-- The first frame of a replay holds the origin of the connection's clock; a
replay of nothing starts at the edge of the timeline. -/
def OriginInFirst (originMs edgeMs : ℕ) : List ReplayAudioFrame → Prop
  | [] => originMs = edgeMs
  | f :: _ => f.startMs ≤ originMs ∧ originMs < f.endMs

/-- The replayed frames continue the capture timeline up to where it stands,
and the origin of the new connection's clock lies in the first of them. -/
structure Aligned (r : StreamRecoveryState) (frames : List ReplayAudioFrame) : Prop where
  contiguous : Abuts ReplayAudioFrame.startMs ReplayAudioFrame.endMs r.nextAudioMs frames
  origin : OriginInFirst r.connectionOriginMs r.nextAudioMs frames
  clock : r.captureMs 0 = r.connectionOriginMs

/-- A replay from `REPLAY_OVERLAP` before `acknowledgedMs` has all it needs:
it does not reach behind the point where the lane last started over, and
nothing after it was shed since. -/
structure History.Replayable (h : History) (acknowledgedMs : ℕ) : Prop where
  sinceAnchor : h.anchorMs ≤ acknowledgedMs - replayOverlapMs
  nothingShed : ∀ s ∈ h.spans, s.block.sent = false → s.stop ≤ acknowledgedMs - replayOverlapMs

/-- Within the continuity window, what is kept reaches back to the replay
point. -/
theorem Tracks.replayed {r : StreamRecoveryState} {h : History} (hr : Tracks r h)
    (hbacklog : r.sentBacklog ≤ continuityWindow) :
    r.sentFrames.filter (fun f => f.endMs > r.replayFromMs) =
      (sentAfter r.replayFromMs h.spans).map frameOf := by
  obtain ⟨cut, hcut, hf⟩ := hr.frames
  have hle : cut ≤ r.replayFromMs := by
    rcases hcut with hle | hle
    · exact hle
    · rw [StreamRecoveryState.sentBacklog_le_iff] at hbacklog
      rw [StreamRecoveryState.horizonMs_eq] at hle
      rw [StreamRecoveryState.replayFromMs, replayOverlapMs_eq]
      omega
  rw [hf, List.filter_map, sentAfter, List.filter_filter, sentAfter]
  congr 2
  funext s
  by_cases hx : r.replayFromMs < s.stop
  · simp [hx, hle.trans_lt hx]
  · simp [hx]

/-- When nothing after the replay point was shed, the frames replayed are all
spans after it. -/
theorem sentAfter_of_replayable {h : History} {ackMs : ℕ} (hr : h.Replayable ackMs) :
    sentAfter (ackMs - replayOverlapMs) h.spans =
      h.spans.filter fun s => ackMs - replayOverlapMs < s.stop := by
  refine List.filter_congr fun s hs => ?_
  cases hsent : s.block.sent with
  | true => simp
  | false =>
      have := hr.nothingShed s hs hsent
      simpa using this

/-- The spans after the replay point, as frames, abut up to the edge. -/
theorem abuts_frames {edge : ℕ} {spans : List (Tile CountedBlock)}
    (h : Abuts (Tile.start CountedBlock.ms) Tile.stop edge spans) :
    Abuts ReplayAudioFrame.startMs ReplayAudioFrame.endMs edge (spans.map frameOf) :=
  h.map frameOf_startMs frameOf_endMs

/-- A provider clock that has not lied yet starts at the origin. -/
theorem captureMs_beginProviderClock_zero {r : StreamRecoveryState}
    (hle : r.connectionOriginMs ≤ u64Max) :
    r.beginProviderClock.captureMs 0 = r.connectionOriginMs := by
  unfold StreamRecoveryState.captureMs
  rw [Nat.zero_sub, satAdd_of_le (by exact hle)]
  rfl

/-- A replay that has all it needs is aligned. -/
theorem History.Replayable.aligned {r : StreamRecoveryState} {h : History} (hr : Tracks r h)
    (hle : r.nextAudioMs ≤ u64Max) (hrep : h.Replayable r.acknowledgedMs) :
    Aligned (StreamRecoveryState.beginProviderClock { r with connectionOriginMs := r.replayFromMs })
      ((sentAfter r.replayFromMs h.spans).map frameOf) := by
  have hfrom : r.replayFromMs ≤ r.nextAudioMs := (Nat.sub_le _ _).trans hr.confirmed
  have hspans : sentAfter r.replayFromMs h.spans
      = h.spans.filter fun s => r.replayFromMs < s.stop := sentAfter_of_replayable hrep
  obtain ⟨habuts, hfirst⟩ :=
    filter_layout_abuts hrep.sinceAnchor h.counted
  rw [hspans]
  refine ⟨?_, ?_, captureMs_beginProviderClock_zero (hfrom.trans hle)⟩
  · change Abuts _ _ r.nextAudioMs _
    rw [hr.edge]
    exact abuts_frames habuts
  · change OriginInFirst r.replayFromMs r.nextAudioMs _
    change HoldsFirst _ _ r.replayFromMs h.edgeMs
      (h.spans.filter fun s => r.replayFromMs < s.stop) at hfirst
    cases hafter : h.spans.filter (fun s => r.replayFromMs < s.stop) with
    | nil =>
        rw [hafter] at hfirst
        exact le_antisymm hfrom (hr.edge.le.trans hfirst)
    | cons s _ =>
        rw [hafter] at hfirst
        exact hfirst

/-- An aligned replay had all it needs. -/
theorem Tracks.replayable_of_aligned {r : StreamRecoveryState} {h : History} (hr : Tracks r h)
    (ha : Aligned
      (StreamRecoveryState.beginProviderClock { r with connectionOriginMs := r.replayFromMs })
      ((sentAfter r.replayFromMs h.spans).map frameOf)) : h.Replayable r.acknowledgedMs := by
  obtain ⟨hcontiguous, horigin, -⟩ := ha
  change Abuts _ _ r.nextAudioMs _ at hcontiguous
  change OriginInFirst r.replayFromMs r.nextAudioMs _ at horigin
  have hmem : ∀ s ∈ sentAfter r.replayFromMs h.spans, s ∈ h.spans ∧ s.block.sent = true := by
    intro s hs
    obtain ⟨hs, hsent⟩ := List.mem_filter.1 hs
    exact ⟨hs, (Bool.and_eq_true _ _ ▸ hsent).1⟩
  cases hafter : sentAfter r.replayFromMs h.spans with
  | nil =>
      -- nothing is replayed, so the timeline ends at the replay point
      rw [hafter] at horigin
      have hedge : r.replayFromMs = h.edgeMs := horigin.trans hr.edge
      refine ⟨?_, fun s hs _ => ?_⟩
      · exact (Nat.le_add_right _ _).trans hedge.ge
      · exact (mem_layout hs).2.2.trans hedge.ge
  | cons f rest =>
      rw [hafter] at horigin hcontiguous hmem
      have hf := hmem f (List.mem_cons_self ..)
      refine ⟨(mem_layout hf.1).1.trans horigin.1, fun s hs hunsent => ?_⟩
      by_contra hlate
      have hlate : r.replayFromMs < s.stop := not_le.1 hlate
      -- a span that was shed is covered by a replayed one, which is another span
      have hedge : s.stop ≤ r.nextAudioMs := hr.edge ▸ (mem_layout hs).2.2
      obtain ⟨g, hg, hlo, hhi⟩ := hcontiguous.exists_covering (horigin.1.trans_lt hlate) hedge
      obtain ⟨g, hgmem, rfl⟩ := List.mem_map.1 (show g ∈ (f :: rest).map frameOf from hg)
      rw [frameOf_startMs] at hlo
      rw [frameOf_endMs] at hhi
      obtain ⟨hgspan, hgsent⟩ := hmem g hgmem
      have hspos := s.block.ms_pos
      have hslen := (mem_layout hs).2.1
      rcases layout_disjoint hgspan hs with rfl | hdis | hdis
      · rw [hgsent] at hunsent
        cases hunsent
      · omega
      · omega

/-- **Replay alignment.**  In every reachable state, a reconnect within the
continuity window, with at most the continuity window unconfirmed, replays
frames that are contiguous up to the end of the timeline and hold the origin of
the new connection's clock exactly when the replay point is not behind the
point where the lane started or last re-anchored and nothing after the replay
point was shed since. -/
theorem prepareReplay_aligned_iff {t : StreamTimeouts} {closeLong : Bool} {captureOriginMs : ℕ}
    {is : List (Instant × Input)} {l : Lane} (h : Reaches t closeLong captureOriginMs is l)
    (hbelow : l.recovery.nextAudioMs < u64Max) {outage : Duration}
    (houtage : outage ≤ continuityWindow) (hbacklog : l.recovery.sentBacklog ≤ continuityWindow) :
    Aligned (l.recovery.prepareReplay outage).1 (l.recovery.prepareReplay outage).2 ↔
      l.history.Replayable l.recovery.acknowledgedMs := by
  have hr := h.tracks hbelow
  rw [StreamRecoveryState.prepareReplay_of_le houtage, hr.replayed hbacklog]
  exact ⟨hr.replayable_of_aligned, fun hrep => hrep.aligned hr hbelow.le⟩

/-- One block goes out, the provider closes the connection, and two seconds
later the lane dials again. -/
def outageAfterOneBlock : List (Instant × Input) :=
  [(0, .attempt),
    (0, .dial ⟨"key", none⟩ 0 (.configured ⟨none, [], .empty, none, .empty, none⟩)),
    (0, .select (.audio (some [0, 0]) none false none none)),
    (0, .select (.message (.close none) 0 .empty none)),
    (0, .settle 0),
    (2000000000, .wait .elapsed),
    (2000000000, .attempt)]

/-- A lane that started at 0 is aligned when it reconnects. -/
theorem prepareReplay_aligned_outageAfterOneBlock :
    ∃ l, Reaches .default false 0 outageAfterOneBlock l ∧
      Aligned (l.recovery.prepareReplay (Duration.ofSecs 2)).1
        (l.recovery.prepareReplay (Duration.ofSecs 2)).2 := by
  have hrun : (run (step .default false) (Lane.start 0) outageAfterOneBlock).map
      (fun l => (l.recovery, l.history)) =
      some (⟨1, 0, 0, [⟨1, [0, 0]⟩], [], []⟩,
        ⟨[⟨[0, 0], false, .sent⟩], 0, [⟨[0, 0], true⟩]⟩) := by decide +kernel
  obtain ⟨l, hl, heq⟩ := Option.map_eq_some_iff.1 hrun
  obtain ⟨hr, hh⟩ := Prod.mk.inj heq
  refine ⟨l, hl, (prepareReplay_aligned_iff hl ?_ ?_ ?_).2 ?_⟩
  · rw [hr]
    decide +kernel
  · decide +kernel
  · rw [hr]
    decide +kernel
  · rw [hr, hh]
    exact ⟨by decide, by simp [History.spans, layout]⟩

/-- **A lane that started elsewhere is not:** its clock is anchored two seconds
before the first frame it has. -/
theorem prepareReplay_not_aligned :
    ¬ ∀ (t : StreamTimeouts) (closeLong : Bool) (captureOriginMs : ℕ) (is : List (Instant × Input))
      (l : Lane), Reaches t closeLong captureOriginMs is l → l.recovery.nextAudioMs < u64Max →
      ∀ outage ≤ continuityWindow, l.recovery.sentBacklog ≤ continuityWindow →
        Aligned (l.recovery.prepareReplay outage).1 (l.recovery.prepareReplay outage).2 := by
  intro h
  have hrun : (run (step .default false) (Lane.start 60000) outageAfterOneBlock).map
      (·.recovery) = some ⟨60001, 60000, 60000, [⟨60001, [0, 0]⟩], [], []⟩ := by decide +kernel
  obtain ⟨l, hl, hr⟩ := Option.map_eq_some_iff.1 hrun
  have ha := h _ _ _ _ l hl (by rw [hr]; decide +kernel) (Duration.ofSecs 2) (by decide +kernel)
    (by rw [hr]; decide +kernel)
  rw [hr, StreamRecoveryState.prepareReplay_of_le (by decide +kernel)] at ha
  have horigin : (60000 : ℕ) ≤ 58000 := by
    simpa [StreamRecoveryState.replayFromMs, StreamRecoveryState.beginProviderClock, OriginInFirst,
      ReplayAudioFrame.startMs, durationMs, pcmBytesPerMillisecond] using ha.origin
  omega

end Stream
end ZuTalk
