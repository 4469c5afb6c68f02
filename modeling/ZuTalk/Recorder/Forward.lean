/-
# The collector only goes forward

Epochs and row numbers never fall, and a lane that failed stays so until it hears a later
connection (`Later`), while nothing that was recorded has an epoch or a number that is yet
to be given out (`Sound`).  Every handler keeps this and the connections the lanes listen to
(`handle_within`), so every round keeps it (`step_forward`), and so does every run
(`run_forward`).

What a group has heard it goes by: the connection a lane listens to is the latest it has
heard of, and one that ended is marked as failed (`run_heard`).
-/

import Mathlib.Logic.Relation
import ZuTalk.Capture.Transcript
import ZuTalk.Recorder.Collector

namespace ZuTalk
namespace Recorder

open Capture (RealtimeUtteranceAssembler AssembledRealtimeUtterance RowMove RowMoves Ordered Commits
  Quiet Keeps FinalizeBoundary)
open ZuTalk.Stream (SttStreamEvent SttStreamError SttStreamToken)
open Machine

/-! ### Numbers of rows -/

/-- All rows, and those to come, have at least this number. -/
structure RowsFrom (n : ℕ) (a : RealtimeUtteranceAssembler) : Prop where
  segments : ∀ s ∈ a.segments, n ≤ s.sequence
  next : n ≤ a.nextSequence

/-- An assembler whose next row has a number of its own. -/
structure Numbered (a : RealtimeUtteranceAssembler) : Prop where
  ordered : Ordered a
  below : ∀ s ∈ a.segments, s.sequence < a.nextSequence

/-- What an assembler does: it numbers on. -/
def NumbersOn (a a' : RealtimeUtteranceAssembler) : Prop :=
  Numbered a → Numbered a' ∧ a.nextSequence ≤ a'.nextSequence ∧ ∀ n, RowsFrom n a → RowsFrom n a'

theorem NumbersOn.refl (a : RealtimeUtteranceAssembler) : NumbersOn a a := fun h =>
  ⟨h, Nat.le_refl _, fun _ hfrom => hfrom⟩

theorem NumbersOn.trans {a a' a'' : RealtimeUtteranceAssembler} (h : NumbersOn a a')
    (h' : NumbersOn a' a'') : NumbersOn a a'' := by
  intro hnumbered
  obtain ⟨hmiddle, hle, hfrom⟩ := h hnumbered
  obtain ⟨hlast, hle', hfrom'⟩ := h' hmiddle
  exact ⟨hlast, Nat.le_trans hle hle', fun n hn => hfrom' n (hfrom n hn)⟩

/-- One change to the rows. -/
theorem RowMove.numbers {a a' : RealtimeUtteranceAssembler} (hmove : RowMove a a')
    (hbelow : ∀ s ∈ a.segments, s.sequence < a.nextSequence) :
    (∀ s ∈ a'.segments, s.sequence < a'.nextSequence) ∧ a.nextSequence ≤ a'.nextSequence ∧
      ∀ n, RowsFrom n a → RowsFrom n a' := by
  cases hmove with
  | edit rows next =>
      refine ⟨?_, Nat.le_of_eq next.symm, fun n hfrom => ⟨?_, next.symm ▸ hfrom.next⟩⟩
      · rw [next]
        exact Rows.forall₂_all (fun _ _ hkeeps hlt => hkeeps.sequence.symm ▸ hlt) rows hbelow
      · exact Rows.forall₂_all (fun _ _ hkeeps hle => hkeeps.sequence.symm ▸ hle) rows hfrom.segments
  | create s rows number next =>
      refine ⟨fun r hr => ?_, by omega, fun n hfrom => ⟨fun r hr => ?_, ?_⟩⟩
      · rw [rows] at hr
        rcases List.mem_append.1 hr with hr | hr
        · have hlt := hbelow r hr
          omega
        · rw [List.mem_singleton.1 hr]
          omega
      · rw [rows] at hr
        rcases List.mem_append.1 hr with hr | hr
        · exact hfrom.segments r hr
        · have hle := hfrom.next
          rw [List.mem_singleton.1 hr]
          omega
      · have hle := hfrom.next
        omega

/-- Changes to the rows, one after the other. -/
theorem RowMoves.numbers {a a' : RealtimeUtteranceAssembler} (hmoves : RowMoves a a')
    (hbelow : ∀ s ∈ a.segments, s.sequence < a.nextSequence) :
    (∀ s ∈ a'.segments, s.sequence < a'.nextSequence) ∧ a.nextSequence ≤ a'.nextSequence ∧
      ∀ n, RowsFrom n a → RowsFrom n a' := by
  induction hmoves with
  | refl => exact ⟨hbelow, Nat.le_refl _, fun _ hfrom => hfrom⟩
  | tail _ hmove ih =>
      obtain ⟨hmiddle, hle, hfrom⟩ := ih
      obtain ⟨hlast, hle', hfrom'⟩ := RowMove.numbers hmove hmiddle
      exact ⟨hlast, Nat.le_trans hle hle', fun n hn => hfrom' n (hfrom n hn)⟩

theorem NumbersOn.of_commits {chars : List Char} {a a' : RealtimeUtteranceAssembler}
    (h : Commits chars a a') : NumbersOn a a' := by
  intro hnumbered
  obtain ⟨hordered, -, hmoves⟩ := h hnumbered.ordered
  obtain ⟨hbelow, hle, hfrom⟩ := RowMoves.numbers hmoves hnumbered.below
  exact ⟨⟨hordered, hbelow⟩, hle, hfrom⟩

/-- An assembler without rows. -/
theorem numbered_of_empty {a : RealtimeUtteranceAssembler} (hsegments : a.segments = [])
    (hlatest : a.latestOriginalSegment = none) : Numbered a := by
  have hnone : ∀ s ∈ a.segments, False := fun s hs => by
    rw [hsegments] at hs
    cases hs
  refine ⟨⟨?_, fun s hs => (hnone s hs).elim⟩, fun s hs => (hnone s hs).elim⟩
  rw [hlatest]
  exact fun s hs => (hnone s hs).elim

/-- An assembler that lets go of its rows. -/
theorem numbersOn_advance (a : RealtimeUtteranceAssembler) : NumbersOn a a.advance := fun _ =>
  ⟨numbered_of_empty rfl rfl, Nat.le_refl _, fun _ hfrom => ⟨fun _ hs => (nomatch hs), hfrom.next⟩⟩

/-- From then on all rows are new. -/
theorem rowsFrom_advance (a : RealtimeUtteranceAssembler) : RowsFrom a.nextSequence a.advance where
  segments := fun _ hs => nomatch hs
  next := Nat.le_refl _

/-- A mark changes no number. -/
theorem numbersOn_set (a : RealtimeUtteranceAssembler) (mark : Mark) :
    NumbersOn a (mark.set a) := by
  cases mark with
  | recordPersisted rowId _ | recordTranslationPersisted rowId _ | recordPartialRemoved rowId =>
      exact .of_commits (Capture.modifyById_commits a rowId fun s => ⟨rfl, rfl, rfl, id, id⟩)
  | relinquishInlineTranslationLane rowId language =>
      refine .of_commits (Capture.modifyById_commits a rowId fun s => ?_)
      split
      · exact ⟨rfl, rfl, rfl, id, id⟩
      · exact Quiet.refl s
  | retireSourceSegment rowId => exact .of_commits (Capture.retireSourceSegment_commits a rowId)

/-- A call that gives updates: each is of one of the rows. -/
def Assembles (assemble : RealtimeUtteranceAssembler →
    RealtimeUtteranceAssembler × List AssembledRealtimeUtterance) : Prop :=
  ∀ a, NumbersOn a (assemble a).1 ∧
    ∀ u ∈ (assemble a).2, ∃ s ∈ (assemble a).1.segments, s.sequence = u.utterance.sequence

theorem takeDirtyUpdates_sequence (a : RealtimeUtteranceAssembler) :
    ∀ u ∈ a.takeDirtyUpdates.2,
      ∃ s ∈ a.takeDirtyUpdates.1.segments, s.sequence = u.utterance.sequence := by
  intro u hu
  obtain ⟨s, hs, hreport⟩ := List.mem_filterMap.1 hu
  exact ⟨{ s with sourceDirty := false, translationDirty := false },
    List.mem_map.2 ⟨s, hs, rfl⟩, (Capture.report_eq hreport).1.symm⟩

theorem assembles_finalize (boundary : FinalizeBoundary) : Assembles (·.finalize boundary) :=
  fun a => ⟨.of_commits ((Capture.close_commits a boundary).trans
    (Capture.takeDirtyUpdates_commits _)), takeDirtyUpdates_sequence _⟩

theorem assembles_applyTokens (isAlphabetic : Char → Bool) (tokens : List SttStreamToken) :
    Assembles (·.applyTokens isAlphabetic tokens) :=
  fun a => ⟨.of_commits ((Capture.applyResponse_commits isAlphabetic a tokens).trans
    (Capture.takeDirtyUpdates_commits _)), takeDirtyUpdates_sequence _⟩

/-! ### Forward only -/

/-- What may become of a lane. -/
structure LaneLater (lane lane' : StreamAggregationLane) : Prop where
  generation : lane.generation ≤ lane'.generation
  failed : lane.failed = true → lane'.failed = true ∨ lane.generation < lane'.generation
  groupEpoch : lane.groupEpoch ≤ lane'.groupEpoch
  providerSessionEpoch : lane.providerSessionEpoch ≤ lane'.providerSessionEpoch
  rowsFrom : ∀ n, RowsFrom n lane.assembler → RowsFrom n lane'.assembler

theorem LaneLater.refl (lane : StreamAggregationLane) : LaneLater lane lane :=
  ⟨Nat.le_refl _, .inl, Nat.le_refl _, Nat.le_refl _, fun _ h => h⟩

theorem LaneLater.trans {lane lane' lane'' : StreamAggregationLane} (h : LaneLater lane lane')
    (h' : LaneLater lane' lane'') : LaneLater lane lane'' where
  generation := Nat.le_trans h.generation h'.generation
  failed := fun hfailed => by
    rcases h.failed hfailed with hmiddle | hlt
    · rcases h'.failed hmiddle with hlast | hlt
      · exact .inl hlast
      · exact .inr (Nat.lt_of_le_of_lt h.generation hlt)
    · exact .inr (Nat.lt_of_lt_of_le hlt h'.generation)
  groupEpoch := Nat.le_trans h.groupEpoch h'.groupEpoch
  providerSessionEpoch := Nat.le_trans h.providerSessionEpoch h'.providerSessionEpoch
  rowsFrom := fun n hn => h'.rowsFrom n (h.rowsFrom n hn)

section States

variable {σ : Type} {c c' c'' : Collector σ}

/-- Nothing that was recorded has an epoch or a number that is yet to be given out. -/
structure Collector.Sound (c : Collector σ) : Prop where
  numbered : ∀ lane ∈ c.lanes, Numbered lane.assembler
  epochs : ∀ lane ∈ c.lanes, lane.groupEpoch ≤ c.nextGroupEpoch
  facts : ∀ f ∈ c.facts, f.groupEpoch ≤ c.nextGroupEpoch
  factNumbers : ∀ f ∈ c.facts, ∀ lane, c.lanes[f.laneIndex]? = some lane →
    f.sequence < lane.assembler.nextSequence

/-- A fact that is recorded from now on. -/
def Collector.Records (c : Collector σ) (f : FactKey) : Prop :=
  ∃ lane, c.lanes[f.laneIndex]? = some lane ∧ lane.groupEpoch ≤ f.groupEpoch ∧
    ∀ n, RowsFrom n lane.assembler → n ≤ f.sequence

/-- **What may become of the collector.** -/
structure Collector.Later (c c' : Collector σ) : Prop where
  nextGroupEpoch : c.nextGroupEpoch ≤ c'.nextGroupEpoch
  lanes : List.Forall₂ LaneLater c.lanes c'.lanes
  facts : ∃ new, c'.facts = c.facts ++ new ∧ ∀ f ∈ new, c.Records f

theorem Collector.Later.refl (c : Collector σ) : c.Later c where
  nextGroupEpoch := Nat.le_refl _
  lanes := List.forall₂_same.2 fun lane _ => LaneLater.refl lane
  facts := ⟨[], (List.append_nil _).symm, fun _ hf => nomatch hf⟩

/-- The lane at an index, later. -/
theorem Collector.Later.lane_of (h : c.Later c') {laneIndex : ℕ} {lane' : StreamAggregationLane}
    (hlane' : c'.lanes[laneIndex]? = some lane') :
    ∃ lane, c.lanes[laneIndex]? = some lane ∧ LaneLater lane lane' := by
  obtain ⟨hlt', rfl⟩ := List.getElem?_eq_some_iff.1 hlane'
  have hlt : laneIndex < c.lanes.length := h.lanes.length_eq.symm ▸ hlt'
  exact ⟨c.lanes[laneIndex], List.getElem?_eq_getElem hlt, h.lanes.get hlt hlt'⟩

theorem Collector.Later.lane (h : c.Later c') {laneIndex : ℕ} {lane : StreamAggregationLane}
    (hlane : c.lanes[laneIndex]? = some lane) :
    ∃ lane', c'.lanes[laneIndex]? = some lane' ∧ LaneLater lane lane' := by
  obtain ⟨hlt, rfl⟩ := List.getElem?_eq_some_iff.1 hlane
  have hlt' : laneIndex < c'.lanes.length := h.lanes.length_eq ▸ hlt
  exact ⟨c'.lanes[laneIndex], List.getElem?_eq_getElem hlt', h.lanes.get hlt hlt'⟩

/-- What is recorded later is recorded from now on. -/
theorem Collector.Later.records (h : c.Later c') {f : FactKey} (hf : c'.Records f) :
    c.Records f := by
  obtain ⟨lane', hlane', hepoch, hnumber⟩ := hf
  obtain ⟨lane, hlane, hlater⟩ := h.lane_of hlane'
  exact ⟨lane, hlane, Nat.le_trans hlater.groupEpoch hepoch,
    fun n hn => hnumber n (hlater.rowsFrom n hn)⟩

theorem Collector.Later.trans (h : c.Later c') (h' : c'.Later c'') : c.Later c'' where
  nextGroupEpoch := Nat.le_trans h.nextGroupEpoch h'.nextGroupEpoch
  lanes := Rows.forall₂_trans (fun _ _ _ hab hbc => hab.trans hbc) h.lanes h'.lanes
  facts := by
    obtain ⟨new, hnew, hrecords⟩ := h.facts
    obtain ⟨newer, hnewer, hrecords'⟩ := h'.facts
    refine ⟨new ++ newer, by rw [hnewer, hnew, List.append_assoc], fun f hf => ?_⟩
    rcases List.mem_append.1 hf with hf | hf
    · exact hrecords f hf
    · exact h.records (hrecords' f hf)

/-- A step of a handler: forward, and on the connections it found. -/
def Advances (c c' : Collector σ) : Prop :=
  c.Sound → c'.Sound ∧ c.Later c' ∧
    c'.lanes.map (·.generation) = c.lanes.map (·.generation)

instance : Std.Refl (Advances (σ := σ)) := ⟨fun c hsound => ⟨hsound, .refl c, rfl⟩⟩

instance : IsTrans (Collector σ) Advances := ⟨fun c c' c'' h h' hsound => by
  obtain ⟨hsound', hlater, hgeneration⟩ := h hsound
  obtain ⟨hsound'', hlater', hgeneration'⟩ := h' hsound'
  exact ⟨hsound'', hlater.trans hlater', hgeneration'.trans hgeneration⟩⟩

/-- An edit of a lane that no epoch of the group is given out in. -/
structure LaneEdit (lane lane' : StreamAggregationLane) : Prop where
  generation : lane'.generation = lane.generation
  failed : lane.failed = true → lane'.failed = true
  groupEpoch : lane'.groupEpoch = lane.groupEpoch
  providerSessionEpoch : lane.providerSessionEpoch ≤ lane'.providerSessionEpoch
  assembler : NumbersOn lane.assembler lane'.assembler

theorem LaneEdit.refl (lane : StreamAggregationLane) : LaneEdit lane lane :=
  ⟨rfl, id, rfl, Nat.le_refl _, .refl _⟩

theorem LaneEdit.trans {lane lane' lane'' : StreamAggregationLane} (h : LaneEdit lane lane')
    (h' : LaneEdit lane' lane'') : LaneEdit lane lane'' where
  generation := h'.generation.trans h.generation
  failed := fun hfailed => h'.failed (h.failed hfailed)
  groupEpoch := h'.groupEpoch.trans h.groupEpoch
  providerSessionEpoch := Nat.le_trans h.providerSessionEpoch h'.providerSessionEpoch
  assembler := h.assembler.trans h'.assembler

theorem LaneEdit.later {lane lane' : StreamAggregationLane} (h : LaneEdit lane lane')
    (hnumbered : Numbered lane.assembler) : LaneLater lane lane' where
  generation := Nat.le_of_eq h.generation.symm
  failed := fun hfailed => .inl (h.failed hfailed)
  groupEpoch := Nat.le_of_eq h.groupEpoch.symm
  providerSessionEpoch := h.providerSessionEpoch
  rowsFrom := (h.assembler hnumbered).2.2

/-- Edits of lanes, with facts of rows that the lanes have. -/
theorem Advances.edit (hlanes : List.Forall₂ LaneEdit c.lanes c'.lanes)
    (hnext : c'.nextGroupEpoch = c.nextGroupEpoch) {new : List FactKey}
    (hfacts : c'.facts = c.facts ++ new)
    (hnew : ∀ f ∈ new, ∃ lane', c'.lanes[f.laneIndex]? = some lane' ∧
      f.groupEpoch = lane'.groupEpoch ∧ ∃ s ∈ lane'.assembler.segments, s.sequence = f.sequence) :
    Advances c c' := by
  intro hsound
  have hlater : c.Later c' := by
    have hforall : List.Forall₂ LaneLater c.lanes c'.lanes := by
      refine (List.forall₂_iff_get.2 ⟨hlanes.length_eq, fun i hi hi' => ?_⟩)
      exact (hlanes.get hi hi').later (hsound.numbered _ (List.get_mem ..))
    have hlane : ∀ (i : ℕ) (lane' : StreamAggregationLane), c'.lanes[i]? = some lane' →
        ∃ lane, c.lanes[i]? = some lane ∧ LaneEdit lane lane' ∧ LaneLater lane lane' := by
      intro i lane' hlane'
      obtain ⟨hi', rfl⟩ := List.getElem?_eq_some_iff.1 hlane'
      have hi : i < c.lanes.length := hlanes.length_eq.symm ▸ hi'
      exact ⟨c.lanes[i], List.getElem?_eq_getElem hi, hlanes.get hi hi', hforall.get hi hi'⟩
    refine ⟨Nat.le_of_eq hnext.symm, hforall, new, hfacts, fun f hf => ?_⟩
    obtain ⟨lane', hlane', hepoch, s, hs, hsequence⟩ := hnew f hf
    obtain ⟨lane, hlane, hedit, hlaneLater⟩ := hlane _ _ hlane'
    refine ⟨lane, hlane, Nat.le_of_eq (by rw [hepoch, hedit.groupEpoch]), fun n hn => ?_⟩
    exact hsequence ▸ (hlaneLater.rowsFrom n hn).segments s hs
  have hedits : ∀ lane' ∈ c'.lanes, ∃ lane ∈ c.lanes, LaneEdit lane lane' := by
    intro lane' hlane'
    obtain ⟨i, hi', rfl⟩ := List.getElem_of_mem hlane'
    have hi : i < c.lanes.length := hlanes.length_eq.symm ▸ hi'
    exact ⟨c.lanes[i], List.getElem_mem hi, hlanes.get hi hi'⟩
  have hnumbered : ∀ lane' ∈ c'.lanes, Numbered lane'.assembler := by
    intro lane' hlane'
    obtain ⟨lane, hlane, hedit⟩ := hedits lane' hlane'
    exact (hedit.assembler (hsound.numbered lane hlane)).1
  have hepochs : ∀ lane' ∈ c'.lanes, lane'.groupEpoch ≤ c'.nextGroupEpoch := by
    intro lane' hlane'
    obtain ⟨lane, hlane, hedit⟩ := hedits lane' hlane'
    rw [hedit.groupEpoch, hnext]
    exact hsound.epochs lane hlane
  refine ⟨⟨hnumbered, hepochs, fun f hf => ?_, fun f hf lane' hlane' => ?_⟩, hlater, ?_⟩
  · rw [hfacts] at hf
    rcases List.mem_append.1 hf with hf | hf
    · rw [hnext]
      exact hsound.facts f hf
    · obtain ⟨lane', hlane', hepoch, -⟩ := hnew f hf
      rw [hepoch]
      exact hepochs lane' (List.mem_of_getElem? hlane')
  · rw [hfacts] at hf
    rcases List.mem_append.1 hf with hf | hf
    · obtain ⟨lane, hlane, -⟩ := hlater.lane_of hlane'
      obtain ⟨hi, rfl⟩ := List.getElem?_eq_some_iff.1 hlane
      obtain ⟨hi', rfl⟩ := List.getElem?_eq_some_iff.1 hlane'
      have hbefore := hsound.factNumbers f hf _ hlane
      have hnumbers := (hlanes.get hi hi').assembler (hsound.numbered _ (List.get_mem ..))
      exact Nat.lt_of_lt_of_le hbefore hnumbers.2.1
    · obtain ⟨lane'', hlane'', -, s, hs, hsequence⟩ := hnew f hf
      obtain rfl := Option.some.inj (hlane''.symm.trans hlane')
      exact hsequence ▸ (hnumbered lane'' (List.mem_of_getElem? hlane'')).below s hs
  · exact Rows.forall₂_map_eq (fun _ _ h => LaneEdit.generation h) hlanes

/-- Edits of lanes alone. -/
theorem Advances.lanes (hlanes : List.Forall₂ LaneEdit c.lanes c'.lanes)
    (hnext : c'.nextGroupEpoch = c.nextGroupEpoch) (hfacts : c'.facts = c.facts) :
    Advances c c' :=
  .edit hlanes hnext (hfacts.trans (List.append_nil _).symm) fun _ hf => nomatch hf

/-- An edit of one lane. -/
theorem Advances.modify {f : StreamAggregationLane → StreamAggregationLane}
    (hf : ∀ lane, LaneEdit lane (f lane)) (c : Collector σ) (laneIndex : ℕ) :
    Advances c { c with lanes := c.lanes.modify laneIndex f } :=
  .lanes (Rows.forall₂_modify LaneEdit.refl hf _ _) rfl rfl

/-- What leaves the lanes alone. -/
theorem Advances.same (hlanes : c'.lanes = c.lanes) (hnext : c'.nextGroupEpoch = c.nextGroupEpoch)
    (hfacts : c'.facts = c.facts) : Advances c c' :=
  .lanes (hlanes ▸ List.forall₂_same.2 fun lane _ => LaneEdit.refl lane) hnext hfacts

end States

/-! ### The handlers -/

section Handlers

variable {σ : Type} {store : CaptureStore σ} {config : CollectorConfig} {laneIndex : ℕ}

theorem onStore_within {α : Type} (call : EStateM ProviderFailure σ α) :
    Within Advances (onStore call) := by
  intro c
  unfold onStore
  cases call c.store <;> exact .same rfl rfl rfl

theorem modifyLane_within {f : StreamAggregationLane → StreamAggregationLane}
    (hf : ∀ lane, LaneEdit lane (f lane)) :
    Within Advances (modifyLane laneIndex f : CollectM σ PUnit) :=
  Within.modify fun c => .modify hf c laneIndex

theorem publish_within (publication : Collector σ → Option Publication) :
    Within Advances (publish publication) := Within.modify fun _ => .same rfl rfl rfl

theorem cancelGroup_within : Within Advances (cancelGroup : CollectM σ PUnit) :=
  Within.modify fun _ => .same rfl rfl rfl

theorem laneTransition_within (health : Capture.RemoteHealth) (failure : Option ProviderFailure) :
    Within Advances (laneTransition store health failure) :=
  Within.bind (onStore_within _) fun _ => publish_within _

theorem setMarks_edit (lanes : List StreamAggregationLane) (marks : List (ℕ × Mark)) :
    List.Forall₂ LaneEdit lanes (setMarks lanes marks) := by
  induction marks generalizing lanes with
  | nil => exact List.forall₂_same.2 fun lane _ => LaneEdit.refl lane
  | cons mark marks ih =>
      have hmark := Rows.forall₂_modify LaneEdit.refl (f := fun lane : StreamAggregationLane =>
        { lane with assembler := mark.2.set lane.assembler })
        (fun lane => ⟨rfl, id, rfl, Nat.le_refl _, numbersOn_set _ _⟩) lanes mark.1
      exact Rows.forall₂_trans (fun _ _ _ h h' => h.trans h') hmark (ih _)

theorem absorbPass_within (pass : StorePass) :
    Within Advances (absorbPass config pass : CollectM σ PersistedCaptureChanges) := by
  refine Within.bind (Within.modify fun c => .lanes ?_ rfl rfl) fun _ => Within.pure _
  have hmarks := setMarks_edit c.lanes pass.marks
  refine Rows.forall₂_trans (fun _ _ _ h h' => h.trans h') hmarks ?_
  refine Rows.forall₂_modify LaneEdit.refl (fun lane => ?_) _ _
  exact ⟨rfl, id, rfl, Nat.le_refl _, .refl _⟩

/-- **What an assembler gives is noted** under the lane's epochs. -/
theorem assembleLane_advances {assemble : RealtimeUtteranceAssembler →
      RealtimeUtteranceAssembler × List AssembledRealtimeUtterance} (h : Assembles assemble)
    (c : Collector σ) : Advances c (c.assembleLane laneIndex assemble).2 := by
  unfold Collector.assembleLane
  cases hlane : c.lanes[laneIndex]? with
  | none => exact .same rfl rfl rfl
  | some lane =>
      obtain ⟨hlt, hget⟩ := List.getElem?_eq_some_iff.1 hlane
      obtain ⟨hnumbers, hupdates⟩ := h lane.assembler
      refine .edit ?_ rfl rfl fun f hf => ?_
      · refine List.forall₂_iff_get.2 ⟨List.length_set.symm, fun i hi hi' => ?_⟩
        by_cases heq : laneIndex = i
        · subst heq
          simp only [List.get_eq_getElem, List.getElem_set_self, hget]
          exact ⟨rfl, id, rfl, Nat.le_refl _, hnumbers⟩
        · simp only [List.get_eq_getElem, List.getElem_set_ne heq]
          exact .refl _
      · obtain ⟨update, hupdate, rfl⟩ := List.mem_map.1 hf
        exact ⟨_, List.getElem?_set_self hlt, rfl, hupdates update hupdate⟩

theorem persistUpdates_within {assemble : RealtimeUtteranceAssembler →
      RealtimeUtteranceAssembler × List AssembledRealtimeUtterance} (h : Assembles assemble) :
    Within Advances (persistUpdates store config laneIndex assemble) := by
  refine Within.bind (Within.modifyGet (assembleLane_advances h)) fun updates => ?_
  exact Within.get_bind fun c =>
    Within.bind (onStore_within _) (fun pass => absorbPass_within pass) c

theorem finalizeLane_within (boundary : FinalizeBoundary) :
    Within Advances (finalizeLane store config laneIndex boundary) := by
  refine Within.bind (persistUpdates_within (assembles_finalize boundary)) fun _ => ?_
  refine Within.bind (modifyLane_within fun lane => ?_) fun _ => Within.pure _
  exact ⟨rfl, id, rfl, Nat.le_refl _, numbersOn_advance _⟩

theorem recordProviderConnected_edit (lane : StreamAggregationLane) :
    LaneEdit lane lane.recordProviderConnected := by
  unfold StreamAggregationLane.recordProviderConnected
  split
  · exact ⟨rfl, id, rfl, Nat.le_succ _, .refl _⟩
  · exact .refl lane

theorem handleConnected_within : Within Advances (handleConnected store laneIndex) := by
  refine Within.bind (modifyLane_within fun lane => ?_) fun _ => ?_
  · have hedit := recordProviderConnected_edit lane
    exact ⟨hedit.generation, hedit.failed, hedit.groupEpoch, hedit.providerSessionEpoch,
      hedit.assembler⟩
  · exact Within.get_bind fun c =>
      Within.bind (Within.when (laneTransition_within _ _)) (fun _ => Within.pure _) c

theorem preserveGap_within (capturedFrames : ℕ) (disconnectedAtFrame : Option ℕ) :
    Within Advances (preserveGap store config laneIndex capturedFrames disconnectedAtFrame) := by
  cases disconnectedAtFrame with
  | none => exact Within.pure _
  | some startFrame => exact Within.when (onStore_within _)

/-- **An epoch of its own** for a lane. -/
theorem sound_giveEpoch (laneIndex : ℕ) {c : Collector σ} (hsound : c.Sound)
    {f : StreamAggregationLane → StreamAggregationLane}
    (hepoch : ∀ lane, (f lane).groupEpoch = c.nextGroupEpoch + 1)
    (hassembler : ∀ lane, NumbersOn lane.assembler (f lane).assembler)
    (hlater : ∀ lane, c.lanes[laneIndex]? = some lane → lane.generation ≤ (f lane).generation ∧
      (lane.failed = true → (f lane).failed = true ∨ lane.generation < (f lane).generation) ∧
      lane.providerSessionEpoch ≤ (f lane).providerSessionEpoch) :
    Collector.Sound { c with
      nextGroupEpoch := c.nextGroupEpoch + 1, lanes := c.lanes.modify laneIndex f } ∧
    c.Later { c with
      nextGroupEpoch := c.nextGroupEpoch + 1, lanes := c.lanes.modify laneIndex f } := by
  have hlanes : List.Forall₂ (fun lane lane' => LaneLater lane lane' ∧
      NumbersOn lane.assembler lane'.assembler ∧
        lane'.groupEpoch ≤ c.nextGroupEpoch + 1) c.lanes (c.lanes.modify laneIndex f) := by
    refine List.forall₂_iff_get.2 ⟨(List.length_modify ..).symm, fun i hi hi' => ?_⟩
    have hle := hsound.epochs _ (List.getElem_mem hi)
    simp only [List.get_eq_getElem, List.getElem_modify]
    by_cases heq : laneIndex = i
    · subst heq
      obtain ⟨hgeneration, hfailed, hsession⟩ := hlater _ (List.getElem?_eq_getElem hi)
      have hnumbers := hassembler c.lanes[laneIndex]
      rw [if_pos rfl]
      refine ⟨⟨hgeneration, hfailed, ?_, hsession, ?_⟩, hnumbers, Nat.le_of_eq (hepoch _)⟩
      · rw [hepoch]
        omega
      · exact (hnumbers (hsound.numbered _ (List.getElem_mem hi))).2.2
    · rw [if_neg heq]
      exact ⟨.refl _, .refl _, by omega⟩
  have hback : ∀ lane' ∈ c.lanes.modify laneIndex f, ∃ lane ∈ c.lanes,
      NumbersOn lane.assembler lane'.assembler ∧ lane'.groupEpoch ≤ c.nextGroupEpoch + 1 := by
    intro lane' hlane'
    obtain ⟨i, hi', rfl⟩ := List.getElem_of_mem hlane'
    have hi : i < c.lanes.length := hlanes.length_eq.symm ▸ hi'
    exact ⟨c.lanes[i], List.getElem_mem hi, (hlanes.get hi hi').2⟩
  refine ⟨⟨fun lane' hlane' => ?_, fun lane' hlane' => ?_, fun fact hfact => ?_,
    fun fact hfact lane' hlane' => ?_⟩, Nat.le_succ _, hlanes.imp fun _ _ h => h.1, [],
      (List.append_nil _).symm, fun _ hf => nomatch hf⟩
  · obtain ⟨lane, hlane, hnumbers, -⟩ := hback lane' hlane'
    exact (hnumbers (hsound.numbered lane hlane)).1
  · obtain ⟨-, -, -, hle⟩ := hback lane' hlane'
    exact hle
  · exact Nat.le_succ_of_le (hsound.facts fact hfact)
  · obtain ⟨hi', rfl⟩ := List.getElem?_eq_some_iff.1 hlane'
    have hi : fact.laneIndex < c.lanes.length := hlanes.length_eq.symm ▸ hi'
    have hbefore := hsound.factNumbers fact hfact _ (List.getElem?_eq_getElem hi)
    have hnumbers := (hlanes.get hi hi').2.1 (hsound.numbered _ (List.getElem_mem hi))
    exact Nat.lt_of_lt_of_le hbefore hnumbers.2.1

theorem nextEpoch_advances (c : Collector σ) :
    Advances c { c with
      nextGroupEpoch := c.nextGroupEpoch + 1
      lanes := c.lanes.modify laneIndex fun lane =>
        { lane with groupEpoch := c.nextGroupEpoch + 1 } } := by
  intro hsound
  obtain ⟨hsound', hlater⟩ := sound_giveEpoch laneIndex hsound
    (f := fun lane => { lane with groupEpoch := c.nextGroupEpoch + 1 }) (fun _ => rfl)
    (fun _ => .refl _) fun _ _ => ⟨Nat.le_refl _, .inl, Nat.le_refl _⟩
  exact ⟨hsound', hlater, Rows.map_modify_eq (by intro _; rfl) _ _⟩

theorem handleRecoveryStarted_within (capturedFrames outageMs : ℕ) :
    Within Advances (handleRecoveryStarted store config laneIndex capturedFrames outageMs) := by
  refine Within.get_bind fun c => ?_
  cases c.lanes[laneIndex]? with
  | none => exact Within.pure (R := Advances) _ c
  | some lane =>
      refine Within.bind (R := Advances) (modifyLane_within recordProviderConnected_edit)
        (fun _ => ?_) c
      refine Within.bind (Within.when ?_) fun _ => Within.pure _
      refine Within.bind (modifyLane_within fun lane => ?_) fun _ => Within.when ?_
      · exact ⟨rfl, id, rfl, Nat.le_refl _, .refl _⟩
      · exact Within.bind (preserveGap_within _ _) fun _ => Within.modify nextEpoch_advances

theorem handleReconnecting_within (capturedFrames : ℕ) (planned : Bool) :
    Within Advances (handleReconnecting store config laneIndex capturedFrames planned) := by
  refine Within.bind (modifyLane_within fun lane => ?_) fun _ => ?_
  · exact ⟨rfl, id, rfl, Nat.le_refl _, .refl _⟩
  refine Within.bind (finalizeLane_within _) fun _ => ?_
  refine Within.bind (modifyLane_within fun lane => ?_) fun _ => ?_
  · exact ⟨rfl, id, rfl, Nat.le_refl _, .refl _⟩
  refine Within.bind (Within.when ?_) fun _ => Within.pure _
  refine Within.bind (modifyLane_within fun lane => ?_) fun _ => laneTransition_within _ _
  exact ⟨rfl, id, rfl, Nat.le_refl _, .refl _⟩

theorem handleAudioProgress_within (finalMs totalMs lagMs : ℕ) :
    Within Advances (handleAudioProgress store config laneIndex finalMs totalMs lagMs) := by
  refine Within.bind (modifyLane_within fun lane => ?_) fun _ => Within.ite ?_ (Within.pure _)
  · exact ⟨rfl, id, rfl, Nat.le_refl _, .refl _⟩
  refine Within.bind (publish_within _) fun _ => Within.get_bind fun c => ?_
  exact Within.bind (onStore_within _) (fun pass => absorbPass_within pass) c

theorem handleInputDiscontinuity_within :
    Within Advances (handleInputDiscontinuity store config laneIndex) := by
  refine Within.get_bind fun c => ?_
  dsimp only
  split
  · refine Within.bind (R := Advances) (modifyLane_within fun lane => ?_) (fun _ => Within.pure _) c
    exact ⟨rfl, id, rfl, Nat.le_refl _, .refl _⟩
  · refine Within.bind (R := Advances) (finalizeLane_within _) (fun _ => ?_) c
    refine Within.bind (modifyLane_within fun lane => ?_) fun _ => ?_
    · exact ⟨rfl, fun _ => rfl, rfl, Nat.le_refl _, .refl _⟩
    refine Within.bind (Within.when cancelGroup_within) fun _ => ?_
    exact Within.bind (laneTransition_within _ _) fun _ => Within.pure _

theorem handleError_within (error : SttStreamError) :
    Within Advances (handleError store config laneIndex error) := by
  refine Within.bind (finalizeLane_within _) fun _ => ?_
  refine Within.bind (modifyLane_within fun lane => ?_) fun _ => Within.get_bind fun c => ?_
  · exact ⟨rfl, fun _ => rfl, rfl, Nat.le_refl _, .refl _⟩
  refine Within.bind (R := Advances) (Within.when cancelGroup_within) (fun _ => ?_) c
  exact Within.bind (laneTransition_within _ _) fun _ => Within.pure _

theorem handleEvent_within (capturedFrames : ℕ) (event : SttStreamEvent) :
    Within Advances (handleEvent store config laneIndex capturedFrames event) := by
  cases event with
  | connected => exact handleConnected_within
  | reconnecting _ _ planned => exact handleReconnecting_within capturedFrames planned
  | recoveryStarted outageMs => exact handleRecoveryStarted_within capturedFrames outageMs
  | audioProgress finalMs totalMs lagMs => exact handleAudioProgress_within finalMs totalMs lagMs
  | tokens tokens => exact persistUpdates_within (assembles_applyTokens config.isAlphabetic tokens)
  | endpoint | finalized => exact finalizeLane_within .providerBoundary
  | finished => exact finalizeLane_within .connectionClosing
  | inputDiscontinuity => exact handleInputDiscontinuity_within
  | error error => exact handleError_within error

theorem emitCaptureDelta_within (changes : PersistedCaptureChanges) :
    Within Advances (emitCaptureDelta store changes) := publish_within _

theorem applyContext_within : Within Advances (applyContext store config) := by
  refine Within.get_bind fun c => ?_
  refine Within.when (R := Advances) (Within.bind (onStore_within _) fun _ => ?_) c
  exact Within.bind (Within.modify fun _ => .same rfl rfl rfl) fun _ => emitCaptureDelta_within _

theorem publishAfter_within (event : SttStreamEvent) (persisted : PersistedCaptureChanges) :
    Within Advances (publishAfter store config laneIndex event persisted) := by
  refine Within.bind (Within.when (Within.modify fun _ => .same rfl rfl rfl)) fun _ => ?_
  exact Within.bind (Within.when (emitCaptureDelta_within _)) fun _ =>
    Within.when (publish_within _)

variable (store config) in
/-- **Every handler** keeps to the connections it found and goes forward. -/
theorem handle_within (capturedFrames : ℕ) (event : SttStreamEvent) :
    Within Advances (handle store config laneIndex capturedFrames event) := by
  refine Within.bind (Within.when (modifyLane_within fun lane => ?_)) fun _ => ?_
  · exact ⟨rfl, id, rfl, Nat.le_refl _, .refl _⟩
  refine Within.bind applyContext_within fun _ => ?_
  exact Within.bind (handleEvent_within capturedFrames event) fun _ => publishAfter_within _ _

/-! ### A round -/

/-- The lane at an index has failed. -/
def Collector.FailedAt (c : Collector σ) (laneIndex : ℕ) : Prop :=
  ∃ lane, c.lanes[laneIndex]? = some lane ∧ lane.failed = true

theorem Advances.failedAt {c c' : Collector σ} (h : Advances c c') (hsound : c.Sound)
    (hfailed : c.FailedAt laneIndex) : c'.FailedAt laneIndex := by
  obtain ⟨lane, hlane, hfailed⟩ := hfailed
  obtain ⟨-, hlater, hgeneration⟩ := h hsound
  obtain ⟨lane', hlane', hlaneLater⟩ := hlater.lane hlane
  refine ⟨lane', hlane', (hlaneLater.failed hfailed).resolve_right fun hlt => ?_⟩
  have hsame : lane'.generation = lane.generation := by
    have hget := congrArg (·[laneIndex]?) hgeneration
    simpa [List.getElem?_map, hlane, hlane'] using hget
  exact absurd hlt (hsame ▸ Nat.lt_irrefl _)

/-- What an action that advances ends in. -/
theorem Advances.ends {α : Type} {x : CollectM σ α} (hx : Within Advances x) {c : Collector σ}
    (hsound : c.Sound) :
    Ends (fun _ c' => c'.Sound ∧ Advances c c') (fun _ _ => True) (x c) :=
  (hx.ends c).mono (fun _ _ h => ⟨(h hsound).1, h⟩) fun _ _ _ => trivial

/-- A lane that is marked as failed stays so to the end of the round. -/
theorem failedAt_of_mark {α β : Type} {x : CollectM σ α}
    {f : α → StreamAggregationLane → StreamAggregationLane} {rest : α → CollectM σ β}
    (hx : Within Advances x) (hf : ∀ a lane, LaneEdit lane (f a lane) ∧ (f a lane).failed = true)
    (hrest : ∀ a, Within Advances (rest a)) {c : Collector σ} (hsound : c.Sound)
    {lane : StreamAggregationLane} (hlane : c.lanes[laneIndex]? = some lane) :
    Ends (fun _ c' => c'.FailedAt laneIndex ∧ c'.Sound) (fun _ _ => True)
      ((x >>= fun a => modifyLane laneIndex (f a) >>= fun _ => rest a) c) := by
  refine Ends.bind ((Advances.ends hx hsound).mono (fun a c₁ h₁ => ?_) fun _ _ h => h)
  obtain ⟨hsound₁, hadvances₁⟩ := h₁
  obtain ⟨lane₁, hlane₁, -⟩ := (hadvances₁ hsound).2.1.lane hlane
  refine Ends.modify_bind ?_
  have hmark : Advances c₁ { c₁ with lanes := c₁.lanes.modify laneIndex (f a) } :=
    .modify (fun lane => (hf a lane).1) c₁ laneIndex
  have hfailed : Collector.FailedAt { c₁ with lanes := c₁.lanes.modify laneIndex (f a) }
      laneIndex := ⟨f a lane₁, by rw [List.getElem?_modify_eq, hlane₁]; rfl, (hf a lane₁).2⟩
  refine (Advances.ends (hrest a) (hmark hsound₁).1).mono (fun _ c₂ h₂ => ?_) fun _ _ h => h
  exact ⟨h₂.2.failedAt (hmark hsound₁).1 hfailed, h₂.1⟩

/-- **A connection that ends is dead** when its event has been handled. -/
theorem handleEvent_terminal {event : SttStreamEvent} (hterminal : isTerminal event = true)
    (capturedFrames : ℕ) {c : Collector σ} (hsound : c.Sound) {lane : StreamAggregationLane}
    (hlane : c.lanes[laneIndex]? = some lane) :
    Ends (fun _ c' => c'.FailedAt laneIndex ∧ c'.Sound) (fun _ _ => True)
      (handleEvent store config laneIndex capturedFrames event c) := by
  cases event with
  | inputDiscontinuity =>
      refine Ends.get_bind ?_
      dsimp only
      split
      · rename_i hfailed
        rw [hlane] at hfailed
        have hwithin : Within Advances (modifyLane laneIndex (fun lane =>
            { lane with inputDiscontinuous := true }) >>= fun _ =>
              (pure PersistedCaptureChanges.default : CollectM σ PersistedCaptureChanges)) := by
          refine Within.bind (modifyLane_within fun lane => ?_) fun _ => Within.pure _
          exact ⟨rfl, id, rfl, Nat.le_refl _, .refl _⟩
        refine (Advances.ends hwithin hsound).mono (fun _ c' h => ?_) fun _ _ h => h
        exact ⟨h.2.failedAt hsound ⟨lane, hlane, hfailed⟩, h.1⟩
      · refine failedAt_of_mark (finalizeLane_within _) (fun _ lane' => ?_) (fun _ => ?_) hsound hlane
        · exact ⟨⟨rfl, fun _ => rfl, rfl, Nat.le_refl _, .refl _⟩, rfl⟩
        · refine Within.bind (Within.when cancelGroup_within) fun _ => ?_
          exact Within.bind (laneTransition_within _ _) fun _ => Within.pure _
  | error error =>
      refine failedAt_of_mark (finalizeLane_within _) (fun _ lane' => ?_) (fun _ => ?_) hsound hlane
      · exact ⟨⟨rfl, fun _ => rfl, rfl, Nat.le_refl _, .refl _⟩, rfl⟩
      · refine Within.get_bind fun c => ?_
        refine Within.bind (R := Advances) (Within.when cancelGroup_within) (fun _ => ?_) c
        exact Within.bind (laneTransition_within _ _) fun _ => Within.pure _
  | connected | reconnecting _ _ _ | recoveryStarted _ | audioProgress _ _ _ | tokens _ | endpoint
  | finalized | finished => cases hterminal

theorem handle_terminal {event : SttStreamEvent} (hterminal : isTerminal event = true)
    (capturedFrames : ℕ) {c : Collector σ} (hsound : c.Sound) {lane : StreamAggregationLane}
    (hlane : c.lanes[laneIndex]? = some lane) :
    Ends (fun _ c' => c'.FailedAt laneIndex) (fun _ _ => True)
      (handle store config laneIndex capturedFrames event c) := by
  have haccept : Within Advances (when (acceptsConfiguration event) (modifyLane laneIndex
      fun lane => { lane with providerAcceptedConfiguration := true }) : CollectM σ PUnit) := by
    refine Within.when (modifyLane_within fun lane => ?_)
    exact ⟨rfl, id, rfl, Nat.le_refl _, .refl _⟩
  refine Ends.bind ((Advances.ends haccept hsound).mono (fun _ c₁ h₁ => ?_) fun _ _ h => h)
  obtain ⟨lane₁, hlane₁, -⟩ := (h₁.2 hsound).2.1.lane hlane
  refine Ends.bind ((Advances.ends applyContext_within h₁.1).mono (fun _ c₂ h₂ => ?_) fun _ _ h => h)
  obtain ⟨lane₂, hlane₂, -⟩ := (h₂.2 h₁.1).2.1.lane hlane₁
  refine Ends.bind ((handleEvent_terminal hterminal capturedFrames h₂.1 hlane₂).mono
    (fun persisted c₃ h₃ => ?_) fun _ _ h => h)
  refine (Advances.ends (publishAfter_within event persisted) h₃.2).mono (fun _ c₄ h₄ => ?_)
    fun _ _ h => h
  exact h₄.2.failedAt h₃.2 h₃.1

/-- A lane that comes back. -/
theorem revive_later (laneIndex generation : ℕ) {c : Collector σ} (hsound : c.Sound)
    (hlater : ∀ lane, c.lanes[laneIndex]? = some lane → lane.generation < generation) :
    (c.revive laneIndex generation).Sound ∧ c.Later (c.revive laneIndex generation) :=
  sound_giveEpoch laneIndex hsound (fun _ => rfl) (fun _ => numbersOn_advance _)
    fun lane hlane => ⟨Nat.le_of_lt (hlater lane hlane), fun _ => .inr (hlater lane hlane),
      Nat.le_succ _⟩

theorem revive_lane {c : Collector σ} {lane : StreamAggregationLane}
    (hlane : c.lanes[laneIndex]? = some lane) (generation : ℕ) :
    (c.revive laneIndex generation).lanes[laneIndex]? =
      some (lane.revived generation (c.nextGroupEpoch + 1)) := by
  show (c.lanes.modify _ _)[_]? = _
  rw [List.getElem?_modify_eq, hlane]
  rfl

/-- **One round**, for a lane of the group. -/
theorem collect_eq {c : Collector σ} {tagged : TaggedStreamEvent} {lane : StreamAggregationLane}
    (hlane : c.lanes[tagged.laneIndex]? = some lane) (capturedFrames : ℕ) :
    collect store config tagged capturedFrames c =
      if tagged.generation < lane.generation then .ok PUnit.unit c
      else if lane.generation < tagged.generation then
        handle store config tagged.laneIndex capturedFrames tagged.event
          (c.revive tagged.laneIndex tagged.generation)
      else if lane.failed && tagged.event ≠ .inputDiscontinuity then .ok PUnit.unit c
      else handle store config tagged.laneIndex capturedFrames tagged.event c := by
  delta collect
  change EStateM.bind EStateM.get _ c = _
  delta EStateM.bind EStateM.get
  dsimp only
  rw [hlane]
  dsimp only
  by_cases hreplaced : tagged.generation < lane.generation
  · rw [if_pos hreplaced, if_pos hreplaced]
    rfl
  · rw [if_neg hreplaced, if_neg hreplaced]
    by_cases hlater : lane.generation < tagged.generation
    · rw [if_pos hlater, if_pos hlater]
      rfl
    · rw [if_neg hlater, if_neg hlater]
      split <;> rfl

/-- An event of no lane ends the group. -/
theorem collect_of_none {c : Collector σ} {tagged : TaggedStreamEvent}
    (hlane : c.lanes[tagged.laneIndex]? = none) (capturedFrames : ℕ) :
    collect store config tagged capturedFrames c =
      .error ⟨"invalid_stream_lane"⟩ { c with groupCancelled := true } := by
  delta collect
  change EStateM.bind EStateM.get _ c = _
  delta EStateM.bind EStateM.get
  dsimp only
  rw [hlane]
  rfl

variable (store config) in
/-- A round goes forward. -/
theorem collect_forward {c : Collector σ} (hsound : c.Sound) (tagged : TaggedStreamEvent)
    (capturedFrames : ℕ) :
    (finalState (collect store config tagged capturedFrames c)).Sound ∧
      c.Later (finalState (collect store config tagged capturedFrames c)) := by
  cases hlane : c.lanes[tagged.laneIndex]? with
  | none =>
      rw [collect_of_none hlane]
      exact ⟨⟨hsound.numbered, hsound.epochs, hsound.facts, hsound.factNumbers⟩,
        Nat.le_refl _, (Collector.Later.refl c).lanes, (Collector.Later.refl c).facts⟩
  | some lane =>
      rw [collect_eq hlane]
      split
      · exact ⟨hsound, .refl c⟩
      · split
        · rename_i hlater
          obtain ⟨hsound', hrevive⟩ := revive_later tagged.laneIndex tagged.generation hsound fun lane' hlane' => by
              obtain rfl := Option.some.inj (hlane.symm.trans hlane')
              exact hlater
          obtain ⟨hsound'', hhandle, -⟩ := handle_within store config
            capturedFrames tagged.event _ hsound'
          exact ⟨hsound'', hrevive.trans hhandle⟩
        · split
          · exact ⟨hsound, .refl c⟩
          · obtain ⟨hsound', hhandle, -⟩ := handle_within store config
              capturedFrames tagged.event _ hsound
            exact ⟨hsound', hhandle⟩

/-! ### Runs -/

theorem settle_sound {r : EStateM.Result ProviderFailure (Collector σ) PUnit}
    (hsound : (finalState r).Sound) : (Collector.settle r).Sound := by
  cases r with
  | ok _ c => exact hsound
  | error failure c => exact ⟨hsound.numbered, hsound.epochs, hsound.facts, hsound.factNumbers⟩

theorem settle_later {c : Collector σ} {r : EStateM.Result ProviderFailure (Collector σ) PUnit}
    (hlater : c.Later (finalState r)) : c.Later (Collector.settle r) := by
  cases r with
  | ok _ c => exact hlater
  | error failure c => exact ⟨hlater.nextGroupEpoch, hlater.lanes, hlater.facts⟩

/-- A group that has ended stays as it is. -/
theorem step_of_ended {c : Collector σ} (hended : c.ended.isSome) (input : CollectorInput) :
    c.step store config input = c := if_pos hended

theorem step_of_running {c : Collector σ} (hended : c.ended = none) (input : CollectorInput) :
    c.step store config input =
      Collector.settle (collect store config input.tagged input.capturedFrames c) :=
  if_neg (by rw [hended]; exact Bool.false_ne_true)

theorem running_of_step {c : Collector σ} {input : CollectorInput}
    (hended : (c.step store config input).ended = none) : c.ended = none := by
  cases hbefore : c.ended with
  | none => rfl
  | some failure =>
      rw [step_of_ended (by rw [hbefore]; rfl)] at hended
      exact (nomatch hbefore.symm.trans hended)

variable (store config) in
/-- **Each round goes forward.** -/
theorem step_forward {c : Collector σ} (hsound : c.Sound) (input : CollectorInput) :
    (c.step store config input).Sound ∧ c.Later (c.step store config input) := by
  cases hended : c.ended with
  | some failure =>
      rw [step_of_ended (by rw [hended]; rfl)]
      exact ⟨hsound, .refl c⟩
  | none =>
      obtain ⟨hsound', hlater⟩ := collect_forward store config hsound
        input.tagged input.capturedFrames
      rw [step_of_running hended]
      exact ⟨settle_sound hsound', settle_later hlater⟩

variable (store config) in
/-- **So does each run.** -/
theorem run_forward {c : Collector σ} (hsound : c.Sound) (inputs : List CollectorInput) :
    (c.run store config inputs).Sound ∧ c.Later (c.run store config inputs) := by
  induction inputs generalizing c with
  | nil => exact ⟨hsound, .refl c⟩
  | cons input inputs ih =>
      obtain ⟨hsound', hlater⟩ := step_forward store config hsound input
      obtain ⟨hsound'', hlater'⟩ := ih hsound'
      exact ⟨hsound'', hlater.trans hlater'⟩

theorem run_of_ended {c : Collector σ} (hended : c.ended.isSome) (inputs : List CollectorInput) :
    c.run store config inputs = c := by
  induction inputs with
  | nil => rfl
  | cons input inputs ih =>
      show (c.step store config input).run store config inputs = c
      rw [step_of_ended hended, ih]

theorem run_concat (c : Collector σ) (inputs : List CollectorInput) (input : CollectorInput) :
    c.run store config (inputs ++ [input]) =
      (c.run store config inputs).step store config input := by
  unfold Collector.run
  rw [List.foldl_append]
  rfl

/-- A group starts with nothing recorded. -/
theorem start_sound (s : σ) (plan : List (RemoteStreamLane × Capture.AssemblerProfile))
    (origin : RemoteGroupOrigin) (rehydrated : List Capture.TranslationCue) :
    (Collector.start s plan origin rehydrated).Sound := by
  have hlane : ∀ lane ∈ (Collector.start s plan origin rehydrated).lanes,
      Numbered lane.assembler ∧ lane.groupEpoch = origin.groupEpoch := by
    intro lane hlane
    obtain ⟨entry, -, rfl⟩ := List.mem_map.1 hlane
    exact ⟨numbered_of_empty rfl rfl, rfl⟩
  exact ⟨fun lane hmem => (hlane lane hmem).1, fun lane hmem => Nat.le_of_eq (hlane lane hmem).2,
    fun f hf => (nomatch hf), fun f hf => (nomatch hf)⟩

variable (store config) in
/-- A round moves the lane of its event to that connection, if it is a later one. -/
theorem collect_generation {c : Collector σ} (hsound : c.Sound) (tagged : TaggedStreamEvent)
    (capturedFrames : ℕ) :
    (finalState (collect store config tagged capturedFrames c)).lanes.map (·.generation) =
      (c.lanes.map (·.generation)).modify tagged.laneIndex (max · tagged.generation) := by
  have hsame : (∀ lane, c.lanes[tagged.laneIndex]? = some lane →
      tagged.generation ≤ lane.generation) → c.lanes.map (·.generation) =
        (c.lanes.map (·.generation)).modify tagged.laneIndex (max · tagged.generation) := by
    intro hle
    refine List.ext_getElem? fun i => ?_
    by_cases heq : tagged.laneIndex = i
    · subst heq
      rw [List.getElem?_modify_eq, List.getElem?_map]
      cases hlane : c.lanes[tagged.laneIndex]? with
      | none => rfl
      | some lane => exact congrArg some (Nat.max_eq_left (hle lane hlane)).symm
    · rw [List.getElem?_modify_ne _ _ heq]
  cases hlane : c.lanes[tagged.laneIndex]? with
  | none =>
      rw [collect_of_none hlane]
      exact hsame fun lane hsome => nomatch hlane.symm.trans hsome
  | some lane =>
      have hthis : tagged.generation ≤ lane.generation → ∀ lane',
          c.lanes[tagged.laneIndex]? = some lane' → tagged.generation ≤ lane'.generation := by
        intro hle lane' hlane'
        obtain rfl := Option.some.inj (hlane.symm.trans hlane')
        exact hle
      rw [collect_eq hlane]
      split
      · rename_i hlt
        exact hsame (hthis (Nat.le_of_lt hlt))
      · split
        · rename_i hlater
          obtain ⟨hsound', -⟩ := revive_later tagged.laneIndex tagged.generation hsound fun lane' hlane' => by
              obtain rfl := Option.some.inj (hlane.symm.trans hlane')
              exact hlater
          obtain ⟨-, -, hgeneration⟩ := handle_within store config
            capturedFrames tagged.event _ hsound'
          rw [hgeneration]
          refine List.ext_getElem? fun i => ?_
          show ((c.lanes.modify tagged.laneIndex _).map _)[i]? = _
          by_cases heq : tagged.laneIndex = i
          · subst heq
            rw [List.getElem?_modify_eq, List.getElem?_map, List.getElem?_modify_eq,
              List.getElem?_map, hlane]
            exact congrArg some (Nat.max_eq_right (Nat.le_of_lt hlater)).symm
          · rw [List.getElem?_modify_ne _ _ heq, List.getElem?_map, List.getElem?_modify_ne _ _ heq,
              List.getElem?_map]
        · rename_i hreplaced hlater
          split
          · exact hsame (hthis (by omega))
          · obtain ⟨-, -, hgeneration⟩ := handle_within store config
              capturedFrames tagged.event _ hsound
            rw [hgeneration]
            exact hsame (hthis (by omega))

/-- What a group that goes on knows of the events it has heard. -/
structure Collector.Heard (c : Collector σ) (heard : List CollectorInput) : Prop where
  sound : c.Sound
  listens : c.ended = none → ∀ h ∈ heard, ∃ lane, c.lanes[h.tagged.laneIndex]? = some lane ∧
    h.tagged.generation ≤ lane.generation ∧
    (isTerminal h.tagged.event = true →
      lane.failed = true ∨ h.tagged.generation < lane.generation)
  generation : ∀ (i : ℕ) (lane : StreamAggregationLane), c.lanes[i]? = some lane →
    lane.generation = 0 ∨
      ∃ h ∈ heard, h.tagged.laneIndex = i ∧ h.tagged.generation = lane.generation

/-- The event itself is among those. -/
theorem step_listens {c : Collector σ} (hsound : c.Sound) (input : CollectorInput)
    (hended : (c.step store config input).ended = none) :
    ∃ lane, (c.step store config input).lanes[input.tagged.laneIndex]? = some lane ∧
      input.tagged.generation ≤ lane.generation ∧
      (isTerminal input.tagged.event = true →
        lane.failed = true ∨ input.tagged.generation < lane.generation) := by
  have hrunning := running_of_step hended
  have hgeneration := collect_generation store config hsound input.tagged
    input.capturedFrames
  rw [step_of_running hrunning] at hended ⊢
  cases hlane : c.lanes[input.tagged.laneIndex]? with
  | none =>
      rw [collect_of_none hlane] at hended
      cases hended
  | some lane =>
      have hterminal : isTerminal input.tagged.event = true →
          Ends (fun _ c' => c'.FailedAt input.tagged.laneIndex ∨
              input.tagged.generation < lane.generation) (fun _ _ => True)
            (collect store config input.tagged input.capturedFrames c) := by
        intro hterminal
        rw [collect_eq hlane]
        split
        · rename_i hlt
          exact Or.inr hlt
        · split
          · rename_i hlater
            obtain ⟨hsound', -⟩ := revive_later input.tagged.laneIndex input.tagged.generation hsound fun lane' hlane' => by
                obtain rfl := Option.some.inj (hlane.symm.trans hlane')
                exact hlater
            exact (handle_terminal hterminal input.capturedFrames hsound'
              (revive_lane hlane input.tagged.generation)).mono (fun _ _ h => Or.inl h)
                fun _ _ h => h
          · split
            · rename_i hfailed
              exact Or.inl ⟨lane, hlane, (Bool.and_eq_true_iff.1 hfailed).1⟩
            · exact (handle_terminal hterminal input.capturedFrames hsound hlane).mono
                (fun _ _ h => Or.inl h) fun _ _ h => h
      cases hcollect : collect store config input.tagged input.capturedFrames c with
      | error failure c' =>
          rw [hcollect] at hended
          cases hended
      | ok _ c' =>
          rw [hcollect] at hgeneration hterminal
          have hat := congrArg (·[input.tagged.laneIndex]?) hgeneration
          simp only [finalState_ok, List.getElem?_map, List.getElem?_modify_eq, hlane,
            Option.map_some] at hat
          obtain ⟨lane', hlane', hmax⟩ := Option.map_eq_some_iff.1 hat
          replace hmax : lane'.generation = max lane.generation input.tagged.generation := hmax
          refine ⟨lane', hlane', by omega, fun h => ?_⟩
          rcases hterminal h with ⟨lane'', hlane'', hfailed⟩ | hlt
          · obtain rfl := Option.some.inj (hlane'.symm.trans hlane'')
            exact .inl hfailed
          · exact .inr (by omega)

/-- **What a group has heard it goes by**: each round keeps this. -/
theorem Collector.Heard.step {c : Collector σ} {heard : List CollectorInput} (h : c.Heard heard)
    (input : CollectorInput) : (c.step store config input).Heard (heard ++ [input]) := by
  obtain ⟨hsound, hlater⟩ := step_forward store config h.sound input
  refine ⟨hsound, fun hended e he => ?_, fun i lane' hlane' => ?_⟩
  · rcases List.mem_append.1 he with he | he
    · obtain ⟨lane, hlane, hle, hterminal⟩ := h.listens (running_of_step hended) e he
      obtain ⟨lane', hlane', hlaneLater⟩ := hlater.lane hlane
      refine ⟨lane', hlane', Nat.le_trans hle hlaneLater.generation, fun hdead => ?_⟩
      rcases hterminal hdead with hfailed | hlt
      · rcases hlaneLater.failed hfailed with hfailed' | hlt
        · exact .inl hfailed'
        · exact .inr (Nat.lt_of_le_of_lt hle hlt)
      · exact .inr (Nat.lt_of_lt_of_le hlt hlaneLater.generation)
    · rw [List.mem_singleton.1 he]
      exact step_listens h.sound input hended
  · have hold : ∀ lane, c.lanes[i]? = some lane → lane'.generation = lane.generation →
        lane'.generation = 0 ∨ ∃ e ∈ heard ++ [input],
          e.tagged.laneIndex = i ∧ e.tagged.generation = lane'.generation := by
      intro lane hlane hsame
      rw [hsame]
      rcases h.generation i lane hlane with hzero | ⟨e, he, hindex, hgeneration⟩
      · exact .inl hzero
      · exact .inr ⟨e, List.mem_append_left _ he, hindex, hgeneration⟩
    obtain ⟨lane, hlane, -⟩ := hlater.lane_of hlane'
    cases hended : c.ended with
    | some failure =>
        rw [step_of_ended (by rw [hended]; rfl)] at hlane'
        exact hold lane' hlane' rfl
    | none =>
        have hgeneration := collect_generation store config h.sound
          input.tagged input.capturedFrames
        have hlanes : (c.step store config input).lanes = (finalState (collect store config
            input.tagged input.capturedFrames c)).lanes := by
          rw [step_of_running hended]
          cases collect store config input.tagged input.capturedFrames c <;> rfl
        rw [← hlanes] at hgeneration
        have hat := congrArg (·[i]?) hgeneration
        simp only [List.getElem?_map, hlane', Option.map_some] at hat
        by_cases heq : input.tagged.laneIndex = i
        · subst heq
          rw [List.getElem?_modify_eq, List.getElem?_map, hlane] at hat
          have hmax : lane'.generation = max lane.generation input.tagged.generation :=
            Option.some.inj hat
          by_cases hle : input.tagged.generation ≤ lane.generation
          · exact hold lane hlane (by omega)
          · exact .inr ⟨input, List.mem_append_right _ (List.mem_singleton_self _), rfl, by omega⟩
        · rw [List.getElem?_modify_ne _ _ heq, List.getElem?_map, hlane] at hat
          exact hold lane hlane (Option.some.inj hat)

/-- A run keeps it. -/
theorem run_heard (s : σ) (plan : List (RemoteStreamLane × Capture.AssemblerProfile))
    (origin : RemoteGroupOrigin) (rehydrated : List Capture.TranslationCue)
    (heard : List CollectorInput) :
    ((Collector.start s plan origin rehydrated).run store config heard).Heard heard := by
  induction heard using List.reverseRecOn with
  | nil =>
      refine ⟨start_sound s plan origin rehydrated, fun _ _ he => (nomatch he),
        fun i lane hlane => .inl ?_⟩
      obtain ⟨entry, -, rfl⟩ := List.mem_map.1 (List.mem_of_getElem? hlane)
      rfl
  | append_singleton heard input ih =>
      rw [run_concat]
      exact ih.step input

end Handlers

end Recorder
end ZuTalk
