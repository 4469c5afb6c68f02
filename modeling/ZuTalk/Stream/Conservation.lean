/-
# The timeline counts every block once

A lane takes blocks of PCM off its audio channel in five places: the audio and
the catch-up branch, the fence of a pause or a stop, the wait for a reconnect,
and a reconnect past the continuity window.  In every run the end of the
timeline is the capture origin plus the length of the blocks that were sent or
shed (`nextAudioMs_eq`).  A block whose send fails is in neither list, so the
law that counts every block taken while the lane was not paused holds as long
as no such send fails (`nextAudioMs_conserved`), and of a lane that counted
nothing while it was paused only then (`timelineConserved_iff`).
-/

import ZuTalk.Library.Tiling
import ZuTalk.Stream.Moves

namespace ZuTalk
namespace Stream

open Machine Tiling

/-- The block was counted onto the timeline. -/
def TakenBlock.counted (b : TakenBlock) : Bool := b.fate == .sent || b.fate == .shed

theorem TakenBlock.ms_pos (b : TakenBlock) : 0 < b.ms := durationMs_pos _

/-- The time of the taken blocks that satisfy `p`. -/
def History.takenMs (h : History) (p : TakenBlock → Bool) : ℕ :=
  extent TakenBlock.ms (h.taken.filter p)

/-- The timeline ends at the capture origin plus every block taken while the
lane was not paused. -/
def TimelineConserved (captureOriginMs : ℕ) (l : Lane) : Prop :=
  l.recovery.nextAudioMs = captureOriginMs + l.history.takenMs fun b => !b.paused

/-- The timeline ends at the capture origin plus every block counted, as long
as it has not run into `u64::MAX`. -/
def CountsTaken (captureOriginMs : ℕ) (l : Lane) : Prop :=
  l.recovery.nextAudioMs < u64Max →
    l.recovery.nextAudioMs = captureOriginMs + l.history.takenMs TakenBlock.counted

theorem History.takenMs_take (h : History) (p : TakenBlock → Bool) (pcm : Pcm) (paused : Bool)
    (fate : Fate) :
    (h.take pcm paused fate).takenMs p =
      h.takenMs p + if p ⟨pcm, paused, fate⟩ then durationMs pcm.length else 0 := by
  simp only [History.takenMs, History.take, List.filter_append, extent_append]
  cases hp : p ⟨pcm, paused, fate⟩ <;> simp [hp, TakenBlock.ms]

section Moves

variable {captureOriginMs : ℕ} {l l' : Lane}

/-- Only the end of the timeline and the blocks taken matter. -/
theorem CountsTaken.congr (h : CountsTaken captureOriginMs l)
    (hnext : l'.recovery.nextAudioMs = l.recovery.nextAudioMs)
    (htaken : l'.history.takenMs TakenBlock.counted = l.history.takenMs TakenBlock.counted) :
    CountsTaken captureOriginMs l' := by
  intro hbelow
  rw [hnext] at hbelow ⊢
  rw [htaken]
  exact h hbelow

/-- A block that is taken and counted. -/
theorem CountsTaken.count (h : CountsTaken captureOriginMs l) {pcm : Pcm}
    (hnext : l'.recovery.nextAudioMs = satAdd l.recovery.nextAudioMs (durationMs pcm.length))
    (htaken : l'.history.takenMs TakenBlock.counted =
      l.history.takenMs TakenBlock.counted + durationMs pcm.length) :
    CountsTaken captureOriginMs l' := by
  intro hbelow
  rw [hnext] at hbelow
  rw [hnext, satAdd_eq_of_lt hbelow, htaken, h (lt_of_satAdd_lt hbelow), Nat.add_assoc]

/-- **Every move counts what it takes, unless it loses or drops it.** -/
theorem CountsTaken.move {lossy sheds : Prop} (h : CountsTaken captureOriginMs l)
    (hm : Move lossy sheds l l') : CountsTaken captureOriginMs l' := by
  cases hm with
  | frame recovery history => exact h.congr (by rw [recovery]) (by rw [history])
  | clock marks lead recovery history => exact h.congr (by rw [recovery]) (by rw [history])
  | recordSent pcm =>
      exact h.count (StreamRecoveryState.recordSent_nextAudioMs _ _)
        (History.takenMs_take _ _ pcm l.paused .sent)
  | noteDiscarded pcm _ => exact h.count rfl (History.takenMs_take _ _ pcm l.paused .shed)
  | lose pcm _ => exact h.congr rfl (History.takenMs_take _ _ pcm l.paused .lost)
  | drop pcm _ => exact h.congr rfl (History.takenMs_take _ _ pcm l.paused .dropped)
  | acknowledge totalMs recovery history =>
      exact h.congr (by rw [recovery]; rfl) (by rw [history])
  | reAnchor => exact h.congr rfl rfl
  | prepareReplay outage =>
      rcases lt_or_ge continuityWindow outage with hlong | hshort
      · rw [Lane.prepareReplay_of_lt hlong]
        exact h.congr rfl rfl
      · rw [Lane.prepareReplay_of_le hshort, StreamRecoveryState.prepareReplay_of_le hshort]
        exact h.congr rfl rfl
  | openFirst recovery history => exact h.congr (by rw [recovery]; rfl) (by rw [history])

/-- Only a lane that is paused drops a block. -/
def DropsOnlyPaused (l : Lane) : Prop :=
  ∀ b ∈ l.history.taken, b.fate = .dropped → b.paused = true

/-- No block taken off the channel was lost. -/
def LosesNothing (l : Lane) : Prop := ∀ b ∈ l.history.taken, b.fate ≠ .lost

/-- What is new among the taken blocks after a move. -/
theorem Move.taken {lossy sheds : Prop} (hm : Move lossy sheds l l') {b : TakenBlock}
    (hb : b ∈ l'.history.taken) :
    b ∈ l.history.taken ∨ (b.fate = .lost → lossy) ∧ (b.fate = .dropped → b.paused = true) := by
  cases hm with
  | frame recovery history => exact Or.inl (history ▸ hb)
  | clock marks lead recovery history => exact Or.inl (history ▸ hb)
  | recordSent pcm | noteDiscarded pcm _ =>
      refine (List.mem_append.1 hb).imp_right fun hnew => ?_
      obtain rfl := List.mem_singleton.1 hnew
      simp
  | lose pcm may =>
      refine (List.mem_append.1 hb).imp_right fun hnew => ?_
      obtain rfl := List.mem_singleton.1 hnew
      simpa using may
  | drop pcm paused =>
      refine (List.mem_append.1 hb).imp_right fun hnew => ?_
      obtain rfl := List.mem_singleton.1 hnew
      simpa using paused
  | acknowledge totalMs recovery history => exact Or.inl (history ▸ hb)
  | reAnchor => exact Or.inl hb
  | prepareReplay outage =>
      unfold Lane.prepareReplay at hb
      dsimp only at hb
      split at hb <;> exact Or.inl hb
  | openFirst recovery history => exact Or.inl (history ▸ hb)

end Moves

section Runs

variable {t : StreamTimeouts} {closeLong : Bool} {captureOriginMs : ℕ}
  {is : List (Instant × Input)} {l : Lane}

theorem Reaches.countsTaken (h : Reaches t closeLong captureOriginMs is l) :
    CountsTaken captureOriginMs l :=
  run_invariant (fun _ _ _ hs hstep =>
      (step_moves hstep (fun _ => trivial) trivial : Moves True True _ _).invariant
        (fun _ _ => .move) hs)
    (fun _ => by rfl) h

/-- **The timeline of every run:** the capture origin plus the blocks sent or
shed, each counted once. -/
theorem nextAudioMs_eq (h : Reaches t closeLong captureOriginMs is l)
    (hbelow : l.recovery.nextAudioMs < u64Max) :
    l.recovery.nextAudioMs = captureOriginMs + l.history.takenMs TakenBlock.counted :=
  h.countsTaken hbelow

theorem Reaches.dropsOnlyPaused (h : Reaches t closeLong captureOriginMs is l) :
    DropsOnlyPaused l := by
  refine run_invariant (fun s i u hs hstep => ?_) (fun b hb => by cases hb) h
  refine (step_moves hstep (fun _ => trivial) trivial : Moves True True _ _).invariant
    (fun l l' hl hm b hb => ?_) hs
  exact (hm.taken hb).elim (hl b) And.right

/-- The sends of the blocks a lane takes off its audio channel all succeed. -/
abbrev Lossless (t : StreamTimeouts) (closeLong : Bool) : Lane → List (Instant × Input) → Prop :=
  Along (step t closeLong) fun lane input => ¬ input.2.Loses lane

theorem Reaches.losesNothing (h : Reaches t closeLong captureOriginMs is l)
    (hlossless : Lossless t closeLong (Lane.start captureOriginMs) is) : LosesNothing l := by
  refine hlossless.invariant (fun s i u hs hnot hstep => ?_) (fun b hb => by cases hb) h
  refine (step_moves hstep hnot trivial : Moves False True _ _).invariant
    (fun l l' hl hm b hb => ?_) hs
  exact (hm.taken hb).elim (hl b) And.left

/-- A lane that counted nothing while it was paused conserved its timeline
exactly when it lost no block. -/
theorem timelineConserved_iff (h : Reaches t closeLong captureOriginMs is l)
    (hbelow : l.recovery.nextAudioMs < u64Max)
    (hpaused : ∀ b ∈ l.history.taken, b.paused = true → b.fate = .dropped) :
    TimelineConserved captureOriginMs l ↔ LosesNothing l := by
  have hcounted : ∀ b ∈ l.history.taken, b.counted = true → (!b.paused) = true := by
    intro b hb hc
    cases hp : b.paused with
    | false => rfl
    | true => simp [TakenBlock.counted, hpaused b hb hp] at hc
  obtain ⟨-, hiff⟩ := extent_filter_eq_iff TakenBlock.ms TakenBlock.ms_pos hcounted
  unfold TimelineConserved
  rw [nextAudioMs_eq h hbelow, Nat.add_left_cancel_iff]
  refine hiff.trans (forall₂_congr fun b hb => ?_)
  have hdropped := h.dropsOnlyPaused b hb
  cases hp : b.paused with
  | true => simp [hpaused b hb hp]
  | false =>
      rw [hp] at hdropped
      cases hf : b.fate <;> simp_all [TakenBlock.counted]

/-- **Timeline conservation.** -/
theorem nextAudioMs_conserved (h : Reaches t closeLong captureOriginMs is l)
    (hlossless : Lossless t closeLong (Lane.start captureOriginMs) is)
    (hbelow : l.recovery.nextAudioMs < u64Max)
    (hpaused : ∀ b ∈ l.history.taken, b.paused = true → b.fate = .dropped) :
    TimelineConserved captureOriginMs l :=
  (timelineConserved_iff h hbelow hpaused).2 (h.losesNothing hlossless)

/-- A lane that sends two blocks and sheds none. -/
def twoBlocks : List (Instant × Input) :=
  [(0, .attempt),
    (0, .dial ⟨"key", none⟩ 0 (.configured ⟨none, [], .empty, none, .empty, none⟩)),
    (0, .select (.audio (some [0, 0]) none false none none)),
    (0, .select (.audio (some (List.replicate 33 0)) none false none none))]

theorem nextAudioMs_conserved_twoBlocks :
    ∃ l, Reaches .default false 5000 twoBlocks l ∧ l.recovery.nextAudioMs = 5003 ∧
      TimelineConserved 5000 l := by
  have hrun : (run (step .default false) (Lane.start 5000) twoBlocks).map
      (fun l => (l.recovery.nextAudioMs, l.history.taken)) =
      some (5003, [⟨[0, 0], false, .sent⟩, ⟨List.replicate 33 0, false, .sent⟩]) := by
    decide +kernel
  obtain ⟨l, hl, heq⟩ := Option.map_eq_some_iff.1 hrun
  obtain ⟨hnext, htaken⟩ := Prod.mk.inj heq
  refine ⟨l, hl, hnext, nextAudioMs_conserved hl ?_ ?_ ?_⟩
  · simp [Lossless, Along, twoBlocks, Input.Loses, Branch.Loses, Drain.Loses, Drain.empty]
  · rw [hnext]
    decide +kernel
  · rw [htaken]
    decide

/-- One block is taken, and its send times out. -/
def lostBlock : List (Instant × Input) :=
  [(0, .attempt),
    (0, .dial ⟨"key", none⟩ 0 (.configured ⟨none, [], .empty, none, .empty, none⟩)),
    (0, .select (.audio (some [0, 0]) (some .timedOut) false none none))]

/-- **A block whose send fails is taken and never counted.** -/
theorem nextAudioMs_not_conserved :
    ¬ ∀ (t : StreamTimeouts) (closeLong : Bool) (captureOriginMs : ℕ) (is : List (Instant × Input))
      (l : Lane), Reaches t closeLong captureOriginMs is l → l.recovery.nextAudioMs < u64Max →
      TimelineConserved captureOriginMs l := by
  intro h
  have hrun : (run (step .default false) (Lane.start 0) lostBlock).map
      (fun l => (l.recovery.nextAudioMs, l.history.taken)) =
      some (0, [⟨[0, 0], false, .lost⟩]) := by decide +kernel
  obtain ⟨l, hl, heq⟩ := Option.map_eq_some_iff.1 hrun
  obtain ⟨hnext, htaken⟩ := Prod.mk.inj heq
  have hc := h _ _ _ _ l hl (by rw [hnext]; decide +kernel)
  unfold TimelineConserved History.takenMs at hc
  rw [hnext, htaken] at hc
  exact absurd hc (by decide)

end Runs

end Stream
end ZuTalk
