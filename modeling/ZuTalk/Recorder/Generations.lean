/-
# Events of a dead connection

A connection is dead for the collector once its lane has heard a later one (`Replaced`), or
once it has reported its end (`Terminated`).

`dead_connections_change_nothing`: an event of a dead connection changes nothing but, if it
is the report of the lane's own discontinuity, the mark that a replacement may come; a later
connection starts under epochs that were not used; what a lane records after an outage
that was too long, or after a replacement, has keys of its own; and so has what a group
records that was started again.
-/

import ZuTalk.Recorder.Forward

namespace ZuTalk
namespace Recorder

open Capture (RealtimeUtteranceAssembler AssembledRealtimeUtterance FinalizeBoundary)
open ZuTalk.Stream (SttStreamEvent SttStreamError)
open Machine

section Handlers

variable {σ : Type} {store : CaptureStore σ} {config : CollectorConfig} {laneIndex : ℕ}

/-! ### What stays as it is -/

/-- A part of the state that stays as it is. -/
def Same {β : Type} (v : Collector σ → β) (c c' : Collector σ) : Prop := v c' = v c

instance {β : Type} {v : Collector σ → β} : Std.Refl (Same v) := ⟨fun _ => rfl⟩

instance {β : Type} {v : Collector σ → β} : IsTrans (Collector σ) (Same v) :=
  ⟨fun _ _ _ h h' => Eq.trans h' h⟩

section Views

variable {β : Type} {v : Collector σ → β}

theorem onStore_same {α : Type} (hstore : ∀ c s, v { c with store := s } = v c)
    (call : EStateM ProviderFailure σ α) : Within (Same v) (onStore call) := by
  intro c
  unfold onStore
  cases call c.store with
  | ok value s => exact hstore c s
  | error failure s => exact hstore c s

theorem publish_same (hpublished : ∀ c p, v { c with published := p } = v c)
    (publication : Collector σ → Option Publication) : Within (Same v) (publish publication) :=
  Within.modify fun c => hpublished c _

theorem laneTransition_same (hstore : ∀ c s, v { c with store := s } = v c)
    (hpublished : ∀ c p, v { c with published := p } = v c) (health : Capture.RemoteHealth)
    (failure : Option ProviderFailure) :
    Within (Same v) (laneTransition store health failure) :=
  Within.bind (onStore_same hstore _) fun _ => publish_same hpublished _

variable (store config) in
theorem applyContext_same (hstore : ∀ c s, v { c with store := s } = v c)
    (hpublished : ∀ c p, v { c with published := p } = v c)
    (happlied : ∀ c, v { c with contextApplied := true } = v c) :
    Within (Same v) (applyContext store config) := by
  refine Within.get_bind fun c => ?_
  refine Within.when (R := Same v) (Within.bind (onStore_same hstore _) fun _ => ?_) c
  exact Within.bind (Within.modify happlied) fun _ => publish_same hpublished _

variable (store config laneIndex) in
theorem publishAfter_same (hpublished : ∀ c p, v { c with published := p } = v c)
    (hcues : ∀ c cues, v { c with liveTranslationCues := cues } = v c)
    (event : SttStreamEvent) (persisted : PersistedCaptureChanges) :
    Within (Same v) (publishAfter store config laneIndex event persisted) := by
  refine Within.bind (Within.when (Within.modify fun c => hcues c _)) fun _ => ?_
  exact Within.bind (Within.when (publish_same hpublished _)) fun _ =>
    Within.when (publish_same hpublished _)

end Views

/-! ### Dead connections -/

/-- The lane has heard a later connection. -/
def Replaced (heard : List CollectorInput) (tagged : TaggedStreamEvent) : Prop :=
  ∃ h ∈ heard, h.tagged.laneIndex = tagged.laneIndex ∧ tagged.generation < h.tagged.generation

/-- The connection has reported its end. -/
def Terminated (heard : List CollectorInput) (tagged : TaggedStreamEvent) : Prop :=
  ∃ h ∈ heard, h.tagged.laneIndex = tagged.laneIndex ∧
    h.tagged.generation = tagged.generation ∧ isTerminal h.tagged.event = true

/-- The first event of a connection that replaces those the lane has heard. -/
def Replaces (heard : List CollectorInput) (tagged : TaggedStreamEvent) : Prop :=
  0 < tagged.generation ∧
    ∀ h ∈ heard, h.tagged.laneIndex = tagged.laneIndex → h.tagged.generation < tagged.generation

/-- An event that is not heard. -/
theorem step_of_dead {c : Collector σ} {heard : List CollectorInput} (h : c.Heard heard)
    {input : CollectorInput} (hdead : Replaced heard input.tagged ∨
      Terminated heard input.tagged ∧ input.tagged.event ≠ .inputDiscontinuity) :
    c.step store config input = c := by
  cases hended : c.ended with
  | some failure => exact step_of_ended (by rw [hended]; rfl) input
  | none =>
      rw [step_of_running hended]
      rcases hdead with ⟨e, he, hindex, hlt⟩ | ⟨⟨e, he, hindex, hgeneration, hterminal⟩, hevent⟩
      · obtain ⟨lane, hlane, hle, -⟩ := h.listens hended e he
        rw [hindex] at hlane
        rw [collect_eq hlane, if_pos (Nat.lt_of_lt_of_le hlt hle)]
        rfl
      · obtain ⟨lane, hlane, hle, hdead⟩ := h.listens hended e he
        rw [hindex] at hlane
        rw [collect_eq hlane]
        rcases hdead hterminal with hfailed | hlt
        · by_cases hreplaced : input.tagged.generation < lane.generation
          · rw [if_pos hreplaced]
            rfl
          · rw [if_neg hreplaced, if_neg (by omega), if_pos (by simp [hfailed, hevent])]
            rfl
        · rw [if_pos (by omega)]
          rfl

variable (store config) in
/-- What is heard of a connection that has ended: that its input had a gap. -/
theorem step_of_discontinuity {c : Collector σ} {heard : List CollectorInput} (h : c.Heard heard)
    {input : CollectorInput} (hended : c.ended = none) (hterminated : Terminated heard input.tagged)
    (hreplaced : ¬ Replaced heard input.tagged)
    (hevent : input.tagged.event = .inputDiscontinuity) :
    c.step store config input = Collector.settle ((applyContext store config >>= fun _ =>
      handleInputDiscontinuity store config input.tagged.laneIndex >>= fun persisted =>
        publishAfter store config input.tagged.laneIndex .inputDiscontinuity persisted) c) ∧
      c.FailedAt input.tagged.laneIndex := by
  obtain ⟨e, he, hindex, hgeneration, hterminal⟩ := hterminated
  obtain ⟨lane, hlane, hle, hdead⟩ := h.listens hended e he
  rw [hindex] at hlane
  have hcurrent : lane.generation = input.tagged.generation := by
    rcases h.generation _ lane hlane with hzero | ⟨e', he', hindex', hgeneration'⟩
    · omega
    · have hnot : ¬ input.tagged.generation < e'.tagged.generation := fun hlt =>
        hreplaced ⟨e', he', hindex', hlt⟩
      omega
  have hfailed : lane.failed = true := (hdead hterminal).resolve_right (by omega)
  refine ⟨?_, lane, hlane, hfailed⟩
  rw [step_of_running hended, collect_eq hlane, if_neg (by omega), if_neg (by omega),
    if_neg (by simp [hevent]), hevent]
  rfl

/-- The report of its own discontinuity by a connection that has ended. -/
def Collector.marked (config : CollectorConfig) (c : Collector σ) (laneIndex : ℕ) : Collector σ :=
  let lanes := c.lanes.modify laneIndex fun lane => { lane with inputDiscontinuous := true }
  { c with
    lanes := lanes
    published := c.published ++ (lanes[config.canonicalLaneIndex]?.map fun canonical =>
      Publication.livePreview (livePreviews canonical.assembler)
        (liveTranslationCueSnapshot c.liveTranslationCues) (lanes.map (·.health))).toList }

theorem discontinuity_marks {c : Collector σ} (hfailed : c.FailedAt laneIndex) :
    (handleInputDiscontinuity store config laneIndex >>= fun persisted =>
      publishAfter store config laneIndex .inputDiscontinuity persisted) c =
        .ok PUnit.unit (c.marked config laneIndex) := by
  obtain ⟨lane, hlane, hfailed⟩ := hfailed
  have hhandle : handleInputDiscontinuity store config laneIndex c =
      .ok .default { c with lanes := c.lanes.modify laneIndex fun lane =>
        { lane with inputDiscontinuous := true } } := by
    show (if c.lanes[laneIndex]?.any (·.failed) then _ else _ : CollectM σ _) c = _
    rw [if_pos (by rw [hlane]; exact hfailed)]
    rfl
  show EStateM.bind _ _ c = _
  unfold EStateM.bind
  rw [hhandle]
  have hpublishes (b : Bool) : (b || publishesLane .inputDiscontinuity ||
      !PersistedCaptureChanges.default.translationCues.isEmpty) = true := by
    cases b <;> rfl
  dsimp only
  unfold publishAfter
  rw [hpublishes]
  rfl

/-- A Context that is not due is left alone. -/
theorem applyContext_of_not_due {c : Collector σ} (hdue : c.contextIsDue config = false) :
    applyContext store config c = .ok PUnit.unit c := by
  show (when (c.contextIsDue config) _ : CollectM σ PUnit) c = _
  rw [hdue]
  rfl

/-- What the lanes assemble, what was recorded, and the live cues. -/
def Collector.recorded (c : Collector σ) :
    List RealtimeUtteranceAssembler × List FactKey × List Capture.TranslationCue :=
  (c.lanes.map (·.assembler), c.facts, c.liveTranslationCues)

theorem marked_recorded (c : Collector σ) :
    (c.marked config laneIndex).recorded = c.recorded := by
  show (_, _) = (_, _)
  exact congrArg (·, c.facts, c.liveTranslationCues) (Rows.map_modify_eq (by intro _; rfl) _ _)

/-- The report changes nothing that is recorded; and without a Context to apply, it is the
mark alone. -/
theorem step_marks {c : Collector σ} {heard : List CollectorInput} (h : c.Heard heard)
    {input : CollectorInput} (hterminated : Terminated heard input.tagged)
    (hreplaced : ¬ Replaced heard input.tagged)
    (hevent : input.tagged.event = .inputDiscontinuity) :
    (c.step store config input).recorded = c.recorded ∧
      (c.ended = none → c.contextIsDue config = false →
        c.step store config input = c.marked config input.tagged.laneIndex) := by
  cases hended : c.ended with
  | some failure =>
      rw [step_of_ended (by rw [hended]; rfl)]
      exact ⟨rfl, fun hnone => nomatch hnone⟩
  | none =>
      obtain ⟨hstep, hfailed⟩ := step_of_discontinuity store config h hended
        hterminated hreplaced hevent
      rw [hstep]
      refine ⟨?_, fun _ hdue => ?_⟩
      · have hcontext : Same (fun c => (c.recorded, c.lanes)) c
            (finalState (applyContext store config c)) :=
          applyContext_same store config (fun _ _ => rfl) (fun _ _ => rfl) (fun _ => rfl) c
        show (Collector.settle (EStateM.bind _ _ c)).recorded = _
        unfold EStateM.bind
        cases happly : applyContext store config c with
        | error failure c' =>
            rw [happly] at hcontext
            exact congrArg Prod.fst hcontext
        | ok _ c' =>
            rw [happly] at hcontext
            have hlanes : c'.lanes = c.lanes := congrArg Prod.snd hcontext
            have hfailed' : c'.FailedAt input.tagged.laneIndex := by
              obtain ⟨lane, hlane, hfailed⟩ := hfailed
              exact ⟨lane, hlanes ▸ hlane, hfailed⟩
            dsimp only
            rw [discontinuity_marks hfailed']
            exact (marked_recorded c').trans (congrArg Prod.fst hcontext)
      · show Collector.settle (EStateM.bind _ _ c) = _
        unfold EStateM.bind
        rw [applyContext_of_not_due hdue]
        dsimp only
        rw [discontinuity_marks hfailed]
        rfl

/-! ### What is recorded after an outage -/

variable (store config) in
/-- Facts that a lane goes on to record after these: each has `R` to all of them. -/
def RecordsApart (facts : List FactKey) (c : Collector σ) (laneIndex : ℕ)
    (R : FactKey → FactKey → Prop) : Prop :=
  ∀ later : List CollectorInput, ∃ new, (c.run store config later).facts = facts ++ new ∧
    ∀ f ∈ new, f.laneIndex = laneIndex → ∀ g ∈ facts, R g f

theorem recordsApart_of_ended {R : FactKey → FactKey → Prop} {c : Collector σ}
    (hended : c.ended.isSome) : RecordsApart store config c.facts c laneIndex R := by
  intro later
  rw [run_of_ended hended]
  exact ⟨[], (List.append_nil _).symm, fun _ hf => (nomatch hf)⟩

theorem recordsApart_of_later {R : FactKey → FactKey → Prop} {c c' : Collector σ}
    (hlater : c.Later c') (hsound : c'.Sound)
    (hrecords : ∀ f, c.Records f → f.laneIndex = laneIndex → ∀ g ∈ c.facts, R g f) :
    RecordsApart store config c.facts c' laneIndex R := by
  intro later
  obtain ⟨new, hfacts, hnew⟩ := (hlater.trans (run_forward store config hsound later).2).facts
  exact ⟨new, hfacts, fun f hf => hrecords f (hnew f hf)⟩

/-- **A lane that comes back** records under epochs and numbers of its own. -/
theorem revive_apart {c c' : Collector σ} (hsound : c.Sound) {lane : StreamAggregationLane}
    (hlane : c.lanes[laneIndex]? = some lane) {generation : ℕ}
    (hlater : (c.revive laneIndex generation).Later c') (hsound' : c'.Sound) :
    RecordsApart store config c.facts c' laneIndex fun g f =>
      g.groupEpoch < f.groupEpoch ∧ (g.laneIndex = laneIndex → g.sequence < f.sequence) := by
  refine recordsApart_of_later (c := c.revive laneIndex generation) hlater hsound' ?_
  rintro f ⟨lane', hlane', hepoch, hnumber⟩ hindex g hg
  rw [hindex] at hlane'
  have hrevived : lane' = lane.revived generation (c.nextGroupEpoch + 1) :=
    Option.some.inj (hlane'.symm.trans (revive_lane hlane generation))
  subst hrevived
  refine ⟨?_, fun hsame => ?_⟩
  · have hbefore := hsound.facts g hg
    have hafter : c.nextGroupEpoch + 1 ≤ f.groupEpoch := hepoch
    omega
  · have hbefore := hsound.factNumbers g hg lane (hsame ▸ hlane)
    exact Nat.lt_of_lt_of_le hbefore (hnumber _ (rowsFrom_advance _))

/-- The lane at an index waits for its connection. -/
def Collector.AwaitsAt (c : Collector σ) (laneIndex : ℕ) : Prop :=
  ∃ lane, c.lanes[laneIndex]? = some lane ∧ lane.awaitingReconnect = true

theorem awaitsAt_of_lanes {c c' : Collector σ}
    (hlanes : c'.lanes.map (·.awaitingReconnect) = c.lanes.map (·.awaitingReconnect))
    (h : c.AwaitsAt laneIndex) : c'.AwaitsAt laneIndex := by
  obtain ⟨lane, hlane, hawaits⟩ := h
  have hat := congrArg (·[laneIndex]?) hlanes
  simp only [List.getElem?_map, hlane, Option.map_some] at hat
  obtain ⟨lane', hlane', hsame⟩ := Option.map_eq_some_iff.1 hat
  exact ⟨lane', hlane', hsame.trans hawaits⟩

theorem awaitsAt_modify {f : StreamAggregationLane → StreamAggregationLane} {other : ℕ}
    (hf : other = laneIndex → ∀ lane, lane.awaitingReconnect = true → (f lane).awaitingReconnect = true)
    {c : Collector σ} (h : c.AwaitsAt laneIndex) :
    Collector.AwaitsAt { c with lanes := c.lanes.modify other f } laneIndex := by
  obtain ⟨lane, hlane, hawaits⟩ := h
  by_cases heq : other = laneIndex
  · refine ⟨f lane, ?_, hf heq lane hawaits⟩
    rw [heq, List.getElem?_modify_eq, hlane]
    rfl
  · exact ⟨lane, by rw [List.getElem?_modify_ne _ _ heq, hlane], hawaits⟩

theorem preserveGap_same {β : Type} {v : Collector σ → β}
    (hstore : ∀ c s, v { c with store := s } = v c) (capturedFrames : ℕ)
    (disconnectedAtFrame : Option ℕ) :
    Within (Same v) (preserveGap store config laneIndex capturedFrames disconnectedAtFrame) := by
  cases disconnectedAtFrame with
  | none => exact Within.pure _
  | some startFrame => exact Within.when (onStore_same hstore _)

/-- **After an outage that was too long** the lane is under an epoch of its own. -/
theorem handleRecoveryStarted_apart {c : Collector σ} (hsound : c.Sound)
    (hawaits : c.AwaitsAt laneIndex) {outageMs : ℕ} (houtage : outageIsContinuous outageMs = false)
    (capturedFrames : ℕ) :
    Ends (fun _ c' => c'.facts = c.facts ∧ ∃ lane, c'.lanes[laneIndex]? = some lane ∧
        ∀ g ∈ c.facts, g.groupEpoch < lane.groupEpoch) (fun _ c' => c'.facts = c.facts)
      (handleRecoveryStarted store config laneIndex capturedFrames outageMs c) := by
  obtain ⟨lane, hlane, hawaits⟩ := hawaits
  refine Ends.get_bind ?_
  rw [hlane]
  dsimp only
  rw [hawaits, houtage, when_true, Bool.not_false, when_true]
  refine Ends.modify_bind (Ends.bind (Ends.modify_bind (Ends.bind ?_)))
  refine ((preserveGap_same (v := fun c => (c.lanes, c.facts, c.nextGroupEpoch))
    (fun _ _ => rfl) capturedFrames lane.disconnectedAtFrame).ends _).mono (fun _ c₁ h₁ => ?_)
    fun _ c₁ h₁ => congrArg (·.2.1) h₁
  obtain ⟨hlanes, hrest⟩ := Prod.mk.inj h₁
  obtain ⟨hfacts, hnext⟩ := Prod.mk.inj hrest
  show c₁.facts = c.facts ∧ ∃ lane', (c₁.lanes.modify laneIndex _)[laneIndex]? = some lane' ∧ _
  refine ⟨hfacts, ?_⟩
  rw [List.getElem?_modify_eq, hlanes]
  show ∃ lane', (_ <$> ((c.lanes.modify _ _).modify _ _)[_]?) = some lane' ∧ _
  rw [List.getElem?_modify_eq, List.getElem?_modify_eq, hlane]
  refine ⟨_, rfl, fun g hg => ?_⟩
  have hbefore := hsound.facts g hg
  show g.groupEpoch < c₁.nextGroupEpoch + 1
  rw [hnext]
  exact Nat.lt_succ_of_le hbefore

variable (store config) in
theorem handle_recoveryStarted_apart {c : Collector σ} (hsound : c.Sound)
    (hawaits : c.AwaitsAt laneIndex) {outageMs : ℕ} (houtage : outageIsContinuous outageMs = false)
    (capturedFrames : ℕ) :
    Ends (fun _ c' => c'.facts = c.facts ∧ ∃ lane, c'.lanes[laneIndex]? = some lane ∧
        ∀ g ∈ c.facts, g.groupEpoch < lane.groupEpoch) (fun _ c' => c'.facts = c.facts)
      (handle store config laneIndex capturedFrames (.recoveryStarted outageMs) c) := by
  show Ends _ _ ((modifyLane _ _ >>= fun _ => applyContext store config >>= fun _ => _) c)
  refine Ends.modify_bind (Ends.bind ?_)
  have haccepts : Advances c { c with lanes := c.lanes.modify laneIndex fun lane =>
      { lane with providerAcceptedConfiguration := true } } := by
    refine .modify (fun lane => ?_) _ _
    exact ⟨rfl, id, rfl, Nat.le_refl _, .refl _⟩
  have happly := applyContext_same store config
    (v := fun c : Collector σ => (c.lanes, c.facts)) (fun _ _ => rfl) (fun _ _ => rfl)
      fun _ => rfl
  refine ((applyContext_within.and happly).ends _).mono (fun _ c₂ h₂ => ?_)
    fun _ c₂ h₂ => congrArg (·.2) h₂.2
  obtain ⟨hadvances, hsame⟩ := h₂
  obtain ⟨hlanes, hfacts⟩ := Prod.mk.inj hsame
  have hfacts₂ : c₂.facts = c.facts := hfacts
  have hawaits₂ : c₂.AwaitsAt laneIndex :=
    awaitsAt_of_lanes (congrArg _ hlanes) (awaitsAt_modify
      (f := fun lane => { lane with providerAcceptedConfiguration := true }) (fun _ _ h => h) hawaits)
  refine Ends.bind ((handleRecoveryStarted_apart (hadvances (haccepts hsound).1).1 hawaits₂ houtage
    capturedFrames).mono (fun persisted c₃ h₃ => ?_) fun _ _ h => h.trans hfacts₂)
  obtain ⟨hfacts₃, lane₃, hlane₃, hepoch₃⟩ := h₃
  refine ((publishAfter_same store config laneIndex (v := fun c => (c.lanes, c.facts)) (fun _ _ => rfl)
    (fun _ _ => rfl) _ persisted).ends c₃).mono (fun _ c₄ h₄ => ?_)
    fun _ c₄ h₄ => (congrArg (·.2) h₄).trans (hfacts₃.trans hfacts₂)
  obtain ⟨hlanes₄, hfacts₄⟩ := Prod.mk.inj h₄
  exact ⟨hfacts₄.trans (hfacts₃.trans hfacts₂), lane₃, hlanes₄ ▸ hlane₃, hfacts₂ ▸ hepoch₃⟩

/-- The rows of a lane are new ones. -/
def Collector.Anew (c : Collector σ) (laneIndex : ℕ) : Prop :=
  ∃ lane, c.lanes[laneIndex]? = some lane ∧
    ∃ n, RowsFrom n lane.assembler ∧ ∀ g ∈ c.facts, g.laneIndex = laneIndex → g.sequence < n

theorem Advances.anew {c c' : Collector σ} (h : Advances c c') (hsound : c.Sound)
    (hfacts : c'.facts = c.facts) (hanew : c.Anew laneIndex) : c'.Anew laneIndex := by
  obtain ⟨lane, hlane, n, hfrom, hnumber⟩ := hanew
  obtain ⟨lane', hlane', hlater⟩ := (h hsound).2.1.lane hlane
  exact ⟨lane', hlane', n, hlater.rowsFrom n hfrom, hfacts ▸ hnumber⟩

/-- The rows that come after the rows are completed are new ones. -/
theorem finalizeLane_anew {c : Collector σ} (hsound : c.Sound) {lane : StreamAggregationLane}
    (hlane : c.lanes[laneIndex]? = some lane) (boundary : FinalizeBoundary) :
    Ends (fun _ c' => c'.Sound ∧ c'.Anew laneIndex) (fun _ _ => True)
      (finalizeLane store config laneIndex boundary c) := by
  refine Ends.bind ((Advances.ends (persistUpdates_within (assembles_finalize boundary))
    hsound).mono (fun _ c₁ h₁ => ?_) fun _ _ h => h)
  obtain ⟨hsound₁, hadvances₁⟩ := h₁
  obtain ⟨lane₁, hlane₁, -⟩ := (hadvances₁ hsound).2.1.lane hlane
  refine Ends.modify_bind ?_
  have hadvance : Advances c₁ { c₁ with lanes := c₁.lanes.modify laneIndex fun lane =>
      { lane with assembler := lane.assembler.advance } } := by
    refine .modify (fun lane => ?_) _ _
    exact ⟨rfl, id, rfl, Nat.le_refl _, numbersOn_advance _⟩
  refine ⟨(hadvance hsound₁).1, { lane₁ with assembler := lane₁.assembler.advance }, ?_,
    lane₁.assembler.nextSequence, rowsFrom_advance _, fun g hg hindex => ?_⟩
  · show (c₁.lanes.modify _ _)[_]? = _
    rw [List.getElem?_modify_eq, hlane₁]
    rfl
  · exact hsound₁.factNumbers g hg lane₁ (hindex ▸ hlane₁)

variable (store config) in
/-- **After a reconnection** the rows of the lane are new ones. -/
theorem handle_reconnecting_anew {c : Collector σ} (hsound : c.Sound)
    {lane : StreamAggregationLane} (hlane : c.lanes[laneIndex]? = some lane)
    (attempt delayMs : ℕ) (planned : Bool) (capturedFrames : ℕ) :
    Ends (fun _ c' => c'.AwaitsAt laneIndex ∧ c'.Anew laneIndex) (fun _ _ => True)
      (handle store config laneIndex capturedFrames (.reconnecting attempt delayMs planned) c) := by
  show Ends _ _ ((applyContext store config >>= fun _ => _) c)
  refine Ends.bind ((Advances.ends applyContext_within hsound).mono (fun _ c₁ h₁ => ?_)
    fun _ _ h => h)
  obtain ⟨lane₁, hlane₁, -⟩ := (h₁.2 hsound).2.1.lane hlane
  refine Ends.bind (Ends.modify_bind (Ends.bind ?_))
  have hgap : Advances c₁ { c₁ with lanes := c₁.lanes.modify laneIndex fun lane => { lane with
      disconnectedAtFrame :=
        lane.disconnectedAtFrame.or (some (lane.gapStartsAt capturedFrames)) } } := by
    refine .modify (fun lane => ?_) _ _
    exact ⟨rfl, id, rfl, Nat.le_refl _, .refl _⟩
  obtain ⟨lane₂, hlane₂, -⟩ := (hgap h₁.1).2.1.lane hlane₁
  refine (finalizeLane_anew (hgap h₁.1).1 hlane₂ .connectionClosing).mono (fun persisted c₃ h₃ => ?_)
    fun _ _ h => h
  obtain ⟨hsound₃, hanew₃⟩ := h₃
  refine Ends.modify_bind ?_
  have hawait : Advances c₃ { c₃ with lanes := c₃.lanes.modify laneIndex fun lane =>
      { lane with awaitingReconnect := true } } := by
    refine .modify (fun lane => ?_) _ _
    exact ⟨rfl, id, rfl, Nat.le_refl _, .refl _⟩
  have hanew := hawait.anew hsound₃ rfl hanew₃
  have hawaits : Collector.AwaitsAt { c₃ with lanes := c₃.lanes.modify laneIndex fun lane =>
      { lane with awaitingReconnect := true } } laneIndex := by
    obtain ⟨lane₃, hlane₃, -⟩ := hanew₃
    exact ⟨{ lane₃ with awaitingReconnect := true },
      (List.getElem?_modify_eq _ _ _).trans (by rw [hlane₃]; rfl), rfl⟩
  have htransition : Within Advances (when (!planned) (modifyLane laneIndex
      (fun lane => { lane with connected := false }) >>= fun _ => laneTransition store
        (if laneIndex = config.canonicalLaneIndex then .connecting else .degraded) none)) := by
    refine Within.when (Within.bind (modifyLane_within fun lane => ?_) fun _ =>
      laneTransition_within _ _)
    exact ⟨rfl, id, rfl, Nat.le_refl _, .refl _⟩
  have htransition' : Within (Same fun c => (c.facts, c.lanes.map (·.awaitingReconnect)))
      (when (!planned) (modifyLane laneIndex
        (fun lane => { lane with connected := false }) >>= fun _ => laneTransition store
          (if laneIndex = config.canonicalLaneIndex then .connecting else .degraded) none)) := by
    refine Within.when (Within.bind (Within.modify fun c => ?_) fun _ =>
      laneTransition_same (fun _ _ => rfl) (fun _ _ => rfl) _ _)
    exact congrArg (c.facts, ·) (Rows.map_modify_eq (by intro _; rfl) _ _)
  refine Ends.bind (((htransition.and htransition').ends _).mono (fun _ c₄ h₄ => ?_)
    fun _ _ _ => trivial)
  obtain ⟨hadvances₄, hsame₄⟩ := h₄
  obtain ⟨hfacts₄, hawaiting₄⟩ := Prod.mk.inj hsame₄
  have hpublish := publishAfter_same store config laneIndex
    (v := fun c : Collector σ => (c.facts, c.lanes)) (fun _ _ => rfl) (fun _ _ => rfl)
    (.reconnecting attempt delayMs planned) persisted
  refine (((publishAfter_within _ persisted).and hpublish).ends c₄).mono (fun _ c₅ h₅ => ?_)
    fun _ _ _ => trivial
  obtain ⟨hadvances₅, hsame₅⟩ := h₅
  obtain ⟨hfacts₅, hlanes₅⟩ := Prod.mk.inj hsame₅
  have hsound₄ := (hadvances₄ (hawait hsound₃).1).1
  refine ⟨awaitsAt_of_lanes (congrArg _ hlanes₅) (awaitsAt_of_lanes hawaiting₄ hawaits), ?_⟩
  exact hadvances₅.anew hsound₄ hfacts₅ (hadvances₄.anew (hawait hsound₃).1 hfacts₄ hanew)

/-! ### While a lane waits -/

/-- The lane at an index goes on waiting. -/
def StillAwaits (laneIndex : ℕ) (c c' : Collector σ) : Prop :=
  c.AwaitsAt laneIndex → c'.AwaitsAt laneIndex

instance : Std.Refl (StillAwaits (σ := σ) laneIndex) := ⟨fun _ h => h⟩

instance : IsTrans (Collector σ) (StillAwaits laneIndex) := ⟨fun _ _ _ h h' hc => h' (h hc)⟩

/-- An event that says a connection is there. -/
def opens : SttStreamEvent → Bool
  | .connected | .recoveryStarted _ => true
  | _ => false

variable {other : ℕ}

theorem Within.stillAwaits {α : Type} {x : CollectM σ α}
    (hx : Within (Same fun c => c.lanes.map (·.awaitingReconnect)) x) :
    Within (StillAwaits laneIndex) x := fun c h => awaitsAt_of_lanes (hx c) h

theorem modifyLane_awaits {f : StreamAggregationLane → StreamAggregationLane}
    (hf : other = laneIndex → ∀ lane, lane.awaitingReconnect = true →
      (f lane).awaitingReconnect = true) :
    Within (StillAwaits laneIndex) (modifyLane other f : CollectM σ PUnit) :=
  Within.modify fun _ h => awaitsAt_modify hf h

theorem onStore_awaits {α : Type} (call : EStateM ProviderFailure σ α) :
    Within (StillAwaits laneIndex) (onStore call) :=
  Within.stillAwaits (onStore_same (fun _ _ => rfl) call)

theorem laneTransition_awaits (health : Capture.RemoteHealth) (failure : Option ProviderFailure) :
    Within (StillAwaits laneIndex) (laneTransition store health failure) :=
  Within.stillAwaits (laneTransition_same (fun _ _ => rfl) (fun _ _ => rfl) health failure)

theorem setMarks_awaiting (lanes : List StreamAggregationLane) (marks : List (ℕ × Mark)) :
    (setMarks lanes marks).map (·.awaitingReconnect) = lanes.map (·.awaitingReconnect) := by
  induction marks generalizing lanes with
  | nil => rfl
  | cons mark marks ih => exact (ih _).trans (Rows.map_modify_eq (by intro _; rfl) _ _)

theorem absorbPass_awaits (pass : StorePass) :
    Within (StillAwaits laneIndex) (absorbPass config pass : CollectM σ PersistedCaptureChanges) := by
  refine Within.stillAwaits (Within.bind (Within.modify fun c => ?_) fun _ => Within.pure _)
  exact (Rows.map_modify_eq (by intro _; rfl) _ _).trans (setMarks_awaiting c.lanes pass.marks)

theorem persistUpdates_awaits (assemble : RealtimeUtteranceAssembler →
      RealtimeUtteranceAssembler × List AssembledRealtimeUtterance) :
    Within (StillAwaits laneIndex) (persistUpdates store config other assemble) := by
  refine Within.bind (Within.modifyGet fun c hawaits => ?_) fun updates => ?_
  · unfold Collector.assembleLane
    cases hlane : c.lanes[other]? with
    | none => exact hawaits
    | some lane =>
        obtain ⟨hlt, rfl⟩ := List.getElem?_eq_some_iff.1 hlane
        have hset : c.lanes.set other { c.lanes[other] with
            assembler := (assemble c.lanes[other].assembler).1 } = c.lanes.modify other
              fun lane => { lane with assembler := (assemble lane.assembler).1 } := by
          rw [List.modify_eq_set_get _ hlt]
          rfl
        refine awaitsAt_of_lanes ?_ hawaits
        show (c.lanes.set _ _).map _ = _
        rw [hset]
        exact Rows.map_modify_eq (by intro _; rfl) _ _
  · exact Within.get_bind fun c =>
      Within.bind (R := StillAwaits laneIndex) (onStore_awaits _) (fun pass => absorbPass_awaits pass) c

theorem finalizeLane_awaits (boundary : FinalizeBoundary) :
    Within (StillAwaits laneIndex) (finalizeLane store config other boundary) :=
  Within.bind (persistUpdates_awaits _) fun _ =>
    Within.bind (modifyLane_awaits fun _ _ h => h) fun _ => Within.pure _

theorem handleConnected_awaits (hother : other ≠ laneIndex) :
    Within (StillAwaits laneIndex) (handleConnected store other : CollectM σ _) := by
  refine Within.bind (modifyLane_awaits fun heq => absurd heq hother) fun _ => ?_
  refine Within.get_bind fun c => ?_
  exact Within.bind (R := StillAwaits laneIndex) (Within.when (laneTransition_awaits _ _))
    (fun _ => Within.pure _) c

theorem handleRecoveryStarted_awaits (hother : other ≠ laneIndex) (capturedFrames outageMs : ℕ) :
    Within (StillAwaits laneIndex)
      (handleRecoveryStarted store config other capturedFrames outageMs) := by
  refine Within.get_bind fun c => ?_
  cases c.lanes[other]? with
  | none => exact Within.pure (R := StillAwaits laneIndex) _ c
  | some lane =>
      refine Within.bind (R := StillAwaits laneIndex)
        (modifyLane_awaits fun heq => absurd heq hother) (fun _ => ?_) c
      refine Within.bind (Within.when ?_) fun _ => Within.pure _
      refine Within.bind (modifyLane_awaits fun _ _ h => h) fun _ => Within.when ?_
      refine Within.bind (Within.stillAwaits (preserveGap_same (fun _ _ => rfl) _ _)) fun _ => ?_
      exact Within.stillAwaits (Within.modify fun c => Rows.map_modify_eq (by intro _; rfl) _ _)

theorem handleReconnecting_awaits (capturedFrames : ℕ) (planned : Bool) :
    Within (StillAwaits laneIndex) (handleReconnecting store config other capturedFrames planned) := by
  refine Within.bind (modifyLane_awaits fun _ _ h => h) fun _ => ?_
  refine Within.bind (finalizeLane_awaits _) fun _ => ?_
  refine Within.bind (modifyLane_awaits fun _ _ _ => rfl) fun _ => ?_
  refine Within.bind (Within.when ?_) fun _ => Within.pure _
  exact Within.bind (modifyLane_awaits fun _ _ h => h) fun _ => laneTransition_awaits _ _

theorem handleAudioProgress_awaits (finalMs totalMs lagMs : ℕ) :
    Within (StillAwaits laneIndex)
      (handleAudioProgress store config other finalMs totalMs lagMs) := by
  refine Within.bind (modifyLane_awaits fun _ _ h => h) fun _ => Within.ite ?_ (Within.pure _)
  refine Within.bind (Within.stillAwaits (publish_same (fun _ _ => rfl) _)) fun _ => ?_
  refine Within.get_bind fun c => ?_
  exact Within.bind (R := StillAwaits laneIndex) (onStore_awaits _)
    (fun pass => absorbPass_awaits pass) c

theorem cancelGroup_awaits : Within (StillAwaits laneIndex) (cancelGroup : CollectM σ PUnit) :=
  Within.modify fun _ h => h

theorem handleInputDiscontinuity_awaits :
    Within (StillAwaits laneIndex) (handleInputDiscontinuity store config other) := by
  refine Within.get_bind fun c => ?_
  dsimp only
  split
  · refine Within.bind (R := StillAwaits laneIndex) (modifyLane_awaits fun _ => ?_)
      (fun _ => Within.pure _) c
    exact fun _ h => h
  · refine Within.bind (R := StillAwaits laneIndex) (finalizeLane_awaits _) (fun _ => ?_) c
    refine Within.bind (modifyLane_awaits fun _ _ h => h) fun _ => ?_
    refine Within.bind (Within.when cancelGroup_awaits) fun _ => ?_
    exact Within.bind (laneTransition_awaits _ _) fun _ => Within.pure _

theorem handleError_awaits (error : SttStreamError) :
    Within (StillAwaits laneIndex) (handleError store config other error) := by
  refine Within.bind (finalizeLane_awaits _) fun _ => ?_
  refine Within.bind (modifyLane_awaits fun _ _ h => h) fun _ => Within.get_bind fun c => ?_
  refine Within.bind (R := StillAwaits laneIndex) (Within.when cancelGroup_awaits) (fun _ => ?_) c
  exact Within.bind (laneTransition_awaits _ _) fun _ => Within.pure _

theorem handleEvent_awaits {event : SttStreamEvent}
    (hopens : other = laneIndex → opens event = false) (capturedFrames : ℕ) :
    Within (StillAwaits laneIndex) (handleEvent store config other capturedFrames event) := by
  cases event with
  | connected => exact handleConnected_awaits fun heq => nomatch hopens heq
  | recoveryStarted outageMs =>
      exact handleRecoveryStarted_awaits (fun heq => nomatch hopens heq) capturedFrames outageMs
  | reconnecting _ _ planned => exact handleReconnecting_awaits capturedFrames planned
  | audioProgress finalMs totalMs lagMs => exact handleAudioProgress_awaits finalMs totalMs lagMs
  | tokens tokens => exact persistUpdates_awaits _
  | endpoint | finalized => exact finalizeLane_awaits .providerBoundary
  | finished => exact finalizeLane_awaits .connectionClosing
  | inputDiscontinuity => exact handleInputDiscontinuity_awaits
  | error error => exact handleError_awaits error

variable (store config) in
theorem handle_awaits {event : SttStreamEvent}
    (hopens : other = laneIndex → opens event = false) (capturedFrames : ℕ) :
    Within (StillAwaits laneIndex) (handle store config other capturedFrames event) := by
  refine Within.bind (Within.when (modifyLane_awaits fun _ _ h => h)) fun _ => ?_
  refine Within.bind (Within.stillAwaits (applyContext_same store config (fun _ _ => rfl) (fun _ _ => rfl)
    fun _ => rfl)) fun _ => ?_
  refine Within.bind (handleEvent_awaits hopens capturedFrames) fun _ => ?_
  exact Within.stillAwaits (publishAfter_same store config other (fun _ _ => rfl) (fun _ _ => rfl) _ _)

/-- **A lane waits** until it hears that its connection is there. -/
theorem run_awaits (inputs : List CollectorInput) (hopens : ∀ input ∈ inputs,
      input.tagged.laneIndex = laneIndex → opens input.tagged.event = false) {c : Collector σ}
    (hawaits : c.AwaitsAt laneIndex) : (c.run store config inputs).AwaitsAt laneIndex := by
  induction inputs generalizing c with
  | nil => exact hawaits
  | cons input inputs ih =>
      refine ih (fun later hlater => hopens later (List.mem_cons_of_mem _ hlater)) ?_
      cases hended : c.ended with
      | some failure =>
          rw [step_of_ended (by rw [hended]; rfl)]
          exact hawaits
      | none =>
          have hhandle := handle_awaits store config
            (hopens input List.mem_cons_self) input.capturedFrames
          have hcollect : (finalState (collect store config input.tagged input.capturedFrames
              c)).AwaitsAt laneIndex := by
            cases hlane : c.lanes[input.tagged.laneIndex]? with
            | none =>
                rw [collect_of_none hlane]
                exact hawaits
            | some lane =>
                rw [collect_eq hlane]
                split
                · exact hawaits
                · split
                  · refine hhandle _ (awaitsAt_of_lanes ?_ hawaits)
                    exact Rows.map_modify_eq (by intro _; rfl) _ _
                  · split
                    · exact hawaits
                    · exact hhandle c hawaits
          rw [step_of_running hended]
          cases hresult : collect store config input.tagged input.capturedFrames c with
          | ok _ c' =>
              rw [hresult] at hcollect
              exact hcollect
          | error failure c' =>
              rw [hresult] at hcollect
              exact hcollect

/-! ### Every run -/

section Properties

variable (store config)

/-- An event of a connection that was replaced, or that has ended, leaves everything as it
is, if it is not the report of the connection's own discontinuity. -/
def DeadEventsDropped (c : Collector σ) (heard : List CollectorInput) : Prop :=
  ∀ input : CollectorInput, (Replaced heard input.tagged ∨
    Terminated heard input.tagged ∧ input.tagged.event ≠ .inputDiscontinuity) →
      c.step store config input = c

/-- That report changes nothing that is recorded, and marks the lane. -/
def DiscontinuityMarks (c : Collector σ) (heard : List CollectorInput) : Prop :=
  ∀ input : CollectorInput, Terminated heard input.tagged → ¬ Replaced heard input.tagged →
    input.tagged.event = .inputDiscontinuity →
      (c.step store config input).recorded = c.recorded ∧
        (c.ended = none → c.contextIsDue config = false →
          c.step store config input = c.marked config input.tagged.laneIndex)

/-- The first event of a later connection, whatever it is, brings the lane back: under an
epoch of the group that no lane was under before, and an epoch of the provider's sessions
that the lane was not under before.  What the lane records from then on has keys of its own. -/
def ReplacementRevives (start : Collector σ) (heard : List CollectorInput) : Prop :=
  let c := start.run store config heard
  ∀ (input : CollectorInput) (lane : StreamAggregationLane), c.ended = none →
    Replaces heard input.tagged → c.lanes[input.tagged.laneIndex]? = some lane →
      let revived := c.revive input.tagged.laneIndex input.tagged.generation
      c.step store config input = Collector.settle (handle store config input.tagged.laneIndex
        input.capturedFrames input.tagged.event revived) ∧
      (∃ lane', revived.lanes[input.tagged.laneIndex]? = some lane' ∧ lane'.failed = false ∧
        ∀ earlier, earlier <+: heard →
          (∀ before ∈ (start.run store config earlier).lanes,
            before.groupEpoch < lane'.groupEpoch) ∧
          ∀ before, (start.run store config earlier).lanes[input.tagged.laneIndex]? = some before →
            before.providerSessionEpoch < lane'.providerSessionEpoch) ∧
      RecordsApart store config c.facts (c.step store config input) input.tagged.laneIndex
        fun g f => g.groupEpoch < f.groupEpoch ∧
          (g.laneIndex = input.tagged.laneIndex → g.sequence < f.sequence)

/-- A lane that loses its connection waits for it and goes on with new rows; and when it was
away for too long, it records under an epoch of its own. -/
def OutageSeparates (c : Collector σ) : Prop :=
  ∀ (input : CollectorInput) (lane : StreamAggregationLane), c.ended = none →
    c.lanes[input.tagged.laneIndex]? = some lane → lane.generation = input.tagged.generation →
    lane.failed = false →
      (∀ attempt delayMs planned, input.tagged.event = .reconnecting attempt delayMs planned →
        let c' := c.step store config input
        (c'.ended = none → ∀ between : List CollectorInput,
          (∀ other ∈ between, other.tagged.laneIndex = input.tagged.laneIndex →
            opens other.tagged.event = false) →
          (c'.run store config between).AwaitsAt input.tagged.laneIndex) ∧
        RecordsApart store config c'.facts c' input.tagged.laneIndex fun g f =>
          g.laneIndex = input.tagged.laneIndex → g.sequence < f.sequence) ∧
      ∀ outageMs, input.tagged.event = .recoveryStarted outageMs →
        c.AwaitsAt input.tagged.laneIndex → outageIsContinuous outageMs = false →
        RecordsApart store config c.facts (c.step store config input) input.tagged.laneIndex
          fun g f => g.groupEpoch < f.groupEpoch

/-- A group is under later epochs than what the store had of the session when it was started, and
its facts have later epochs and numbers. -/
def GoesOnAfter (rows : RealtimeRows) (c : Collector σ) : Prop :=
  (∀ lane ∈ c.lanes, (∀ epoch ∈ rows.groupEpochs, epoch < lane.groupEpoch) ∧
    ∀ epoch ∈ rows.providerSessionEpochs, epoch < lane.providerSessionEpoch) ∧
  ∀ f ∈ c.facts, (∀ epoch ∈ rows.groupEpochs, epoch < f.groupEpoch) ∧
    ∀ n ∈ rows.sequences, n < f.sequence

end Properties

theorem lt_maxAddOne {values : List ℕ} {value : ℕ} (h : value ∈ values) :
    value < maxAddOne values := by
  induction values with
  | nil => exact nomatch h
  | cons first values ih =>
      rcases List.mem_cons.1 h with rfl | h
      · exact Nat.lt_of_lt_of_le (Nat.lt_succ_self _) (le_max_left _ _)
      · exact Nat.lt_of_lt_of_le (ih h) (le_max_right _ _)

/-- **A group goes on after what the store has** when it is started. -/
theorem goesOnAfter (s : σ) (plan : List (RemoteStreamLane × Capture.AssemblerProfile))
    (rows : RealtimeRows) (captureOriginMs : ℕ) (rehydrated : List Capture.TranslationCue)
    {c : Collector σ} (hlater :
      (Collector.start s plan (realtimeResumePoint rows captureOriginMs) rehydrated).Later c) :
    GoesOnAfter rows c := by
  have hstart : ∀ {i : ℕ} {lane : StreamAggregationLane},
      (Collector.start s plan (realtimeResumePoint rows captureOriginMs) rehydrated).lanes[i]? =
        some lane → lane.groupEpoch = maxAddOne rows.groupEpochs ∧
          lane.providerSessionEpoch = maxAddOne rows.providerSessionEpochs ∧
          RowsFrom (maxAddOne rows.sequences) lane.assembler := by
    intro i lane hlane
    obtain ⟨entry, -, rfl⟩ := List.mem_map.1 (List.mem_of_getElem? hlane)
    exact ⟨rfl, rfl, fun _ hs => (nomatch hs), Nat.le_refl _⟩
  refine ⟨fun lane' hlane' => ?_, fun f hf => ?_⟩
  · obtain ⟨i, hi⟩ := List.mem_iff_getElem?.1 hlane'
    obtain ⟨lane, hlane, hlater⟩ := hlater.lane_of hi
    obtain ⟨hgroup, hprovider, -⟩ := hstart hlane
    refine ⟨fun epoch hepoch => ?_, fun epoch hepoch => ?_⟩
    · have hbelow := lt_maxAddOne hepoch
      have hgrown := hlater.groupEpoch
      omega
    · have hbelow := lt_maxAddOne hepoch
      have hgrown := hlater.providerSessionEpoch
      omega
  · obtain ⟨new, hfacts, hnew⟩ := hlater.facts
    obtain ⟨lane, hlane, hepochs, hnumbers⟩ := hnew f (by simpa [hfacts, Collector.start] using hf)
    obtain ⟨hgroup, -, hrows⟩ := hstart hlane
    refine ⟨fun epoch hepoch => ?_, fun n hn => ?_⟩
    · have hbelow := lt_maxAddOne hepoch
      omega
    · exact Nat.lt_of_lt_of_le (lt_maxAddOne hn) (hnumbers _ hrows)

theorem run_append (c : Collector σ) (inputs later : List CollectorInput) :
    c.run store config (inputs ++ later) =
      (c.run store config inputs).run store config later := List.foldl_append

/-- The lane has not heard of the connection that replaces it. -/
theorem Collector.Heard.replaces {c : Collector σ} {heard : List CollectorInput} (h : c.Heard heard)
    {tagged : TaggedStreamEvent} (hreplaces : Replaces heard tagged) {lane : StreamAggregationLane}
    (hlane : c.lanes[tagged.laneIndex]? = some lane) : lane.generation < tagged.generation := by
  rcases h.generation _ lane hlane with hzero | ⟨e, he, hindex, hgeneration⟩
  · rw [hzero]
    exact hreplaces.1
  · rw [← hgeneration]
    exact hreplaces.2 e he hindex

theorem replacementRevives {start : Collector σ} (hstart : start.Sound)
    {heard : List CollectorInput} (h : (start.run store config heard).Heard heard) :
    ReplacementRevives store config start heard := by
  unfold ReplacementRevives
  intro c input lane hended hreplaces hlane revived
  have hlater : lane.generation < input.tagged.generation := h.replaces hreplaces hlane
  have hstep : c.step store config input = Collector.settle (handle store config
      input.tagged.laneIndex input.capturedFrames input.tagged.event revived) := by
    rw [step_of_running hended, collect_eq hlane, if_neg (by omega), if_pos hlater]
  obtain ⟨hsound', -⟩ := revive_later input.tagged.laneIndex input.tagged.generation h.sound
    fun lane' hlane' => by
      obtain rfl := Option.some.inj (hlane.symm.trans hlane')
      exact hlater
  obtain ⟨hsound'', hhandle, -⟩ := handle_within store config input.capturedFrames
    input.tagged.event _ hsound'
  refine ⟨hstep, ⟨_, revive_lane hlane _, rfl, fun earlier hearlier => ?_⟩, ?_⟩
  · obtain ⟨rest, rfl⟩ := hearlier
    obtain ⟨hsoundEarlier, -⟩ := run_forward store config hstart earlier
    have hsince : (start.run store config earlier).Later c := by
      show Collector.Later _ (start.run store config (earlier ++ rest))
      rw [run_append]
      exact (run_forward store config hsoundEarlier rest).2
    refine ⟨fun before hbefore => ?_, fun before hbefore => ?_⟩
    · have hepoch := hsoundEarlier.epochs before hbefore
      have hnext := hsince.nextGroupEpoch
      show before.groupEpoch < c.nextGroupEpoch + 1
      omega
    · obtain ⟨lane', hlane', hlaneLater⟩ := hsince.lane hbefore
      obtain rfl := Option.some.inj (hlane.symm.trans hlane')
      exact Nat.lt_succ_of_le hlaneLater.providerSessionEpoch
  · rw [hstep]
    exact revive_apart h.sound hlane (settle_later hhandle) (settle_sound hsound'')

theorem outageSeparates {c : Collector σ} (hsound : c.Sound) : OutageSeparates store config c := by
  intro input lane hended hlane hgeneration hfailed
  have hstep : c.step store config input = Collector.settle (handle store config
      input.tagged.laneIndex input.capturedFrames input.tagged.event c) := by
    rw [step_of_running hended, collect_eq hlane, if_neg (by omega), if_neg (by omega),
      if_neg (by simp [hfailed])]
  obtain ⟨hsound', hlater⟩ := step_forward store config hsound input
  rw [hstep] at hsound' hlater ⊢
  refine ⟨fun attempt delayMs planned hevent => ?_, fun outageMs hevent hawaits houtage => ?_⟩
  · have hanew := handle_reconnecting_anew store config hsound hlane attempt
      delayMs planned input.capturedFrames
    rw [hevent] at hsound' ⊢
    cases hresult : handle store config input.tagged.laneIndex input.capturedFrames
        (.reconnecting attempt delayMs planned) c with
    | error failure c' => exact ⟨fun hnone => (nomatch hnone), recordsApart_of_ended rfl⟩
    | ok _ c' =>
        rw [hresult] at hanew hsound'
        obtain ⟨hawaits, lane', hlane', n, hfrom, hnumber⟩ := hanew
        refine ⟨fun _ between hopens => run_awaits between hopens hawaits, ?_⟩
        refine recordsApart_of_later (.refl c') hsound' ?_
        rintro f ⟨lane'', hlane'', -, hsequence⟩ hindex g hg hsame
        rw [hindex] at hlane''
        obtain rfl := Option.some.inj (hlane'.symm.trans hlane'')
        exact Nat.lt_of_lt_of_le (hnumber g hg hsame) (hsequence n hfrom)
  · have hapart := handle_recoveryStarted_apart store config hsound hawaits
      houtage input.capturedFrames
    rw [hevent] at hsound' ⊢
    cases hresult : handle store config input.tagged.laneIndex input.capturedFrames
        (.recoveryStarted outageMs) c with
    | error failure c' =>
        rw [hresult] at hapart
        have hfacts : c'.facts = c.facts := hapart
        intro later
        rw [run_of_ended rfl]
        exact ⟨[], hfacts.trans (List.append_nil _).symm, fun _ hf => (nomatch hf)⟩
    | ok _ c' =>
        rw [hresult] at hapart hsound'
        obtain ⟨hfacts, lane', hlane', hepochs⟩ := hapart
        rw [← hfacts] at hepochs ⊢
        refine recordsApart_of_later (.refl c') hsound' ?_
        rintro f ⟨lane'', hlane'', hepoch, -⟩ hindex g hg
        rw [hindex] at hlane''
        obtain rfl := Option.some.inj (hlane'.symm.trans hlane'')
        exact Nat.lt_of_lt_of_le (hepochs g hg) hepoch

/-- **Events of a dead connection** change nothing, in every run of a group, the first of a capture
or one that was started again. -/
theorem dead_connections_change_nothing (s : σ)
    (plan : List (RemoteStreamLane × Capture.AssemblerProfile)) (rows : RealtimeRows)
    (captureOriginMs : ℕ) (rehydrated : List Capture.TranslationCue)
    (heard : List CollectorInput) :
    let start := Collector.start s plan (realtimeResumePoint rows captureOriginMs) rehydrated
    let c := start.run store config heard
    DeadEventsDropped store config c heard ∧ DiscontinuityMarks store config c heard ∧
      ReplacementRevives store config start heard ∧ OutageSeparates store config c ∧
      GoesOnAfter rows c := by
  intro start c
  have hheard : c.Heard heard := run_heard s plan _ rehydrated heard
  have hstart : start.Sound := start_sound s plan _ rehydrated
  refine ⟨fun input hdead => step_of_dead hheard hdead, fun input hterminated hreplaced hevent => ?_,
    replacementRevives hstart hheard, outageSeparates hheard.sound,
    goesOnAfter s plan rows captureOriginMs rehydrated (run_forward store config hstart heard).2⟩
  exact step_marks hheard hterminated hreplaced hevent

end Handlers

/-! ### What a dead connection may change -/

/-- A run as it is while it is recorded. -/
def recordingStatus : Capture.CaptureStatus where
  captureState := .recording
  remoteHealth := .live
  realtimeLagMs := none
  projectionState := .pending
  postStopAsyncState := "idle"
  postStopAsyncProjectionState := .none
  providerErrorType := none
  providerRequestId := none

/-- A store that takes everything and gives nothing back. -/
def quietStore : CaptureStore Unit where
  getRun _ := some recordingStatus
  persistStreamLaneUpdates _ _ _ := pure ⟨[], 0, .default⟩
  settleTranslationsBehindCanonical _ := pure ⟨[], 0, .default⟩
  markContextApplied _ := pure ()
  updateRemoteHealth _ _ := pure recordingStatus
  preserveNetworkTranscriptGap _ _ := pure ()

/-- A Chinese transcript and its English translation, of which the store has nothing. -/
def twoLanes (captureOriginMs : ℕ) : Collector Unit :=
  let profile : Capture.AssemblerProfile := ⟨"s", ["zh", "en"], .multilingualOneWay, some "en"⟩
  .start () [(⟨none, true⟩, profile), (⟨some "en", false⟩, profile)]
    (realtimeResumePoint ⟨[], [], []⟩ captureOriginMs) []

/-- The transcript is canonical. -/
def twoLanesConfig : CollectorConfig := ⟨0, none, Char.isAlpha⟩

/-- **The report of a discontinuity** by a connection that has ended shows in the health of
its lane; a replacement may come under an epoch of the provider's sessions that another
lane is under; and in a group that was started again, before anything was recorded, one may come
under an epoch that a connection of the group before was under. -/
theorem dead_connection_marks_lane :
    let ended := (twoLanes 0).run quietStore twoLanesConfig
      [⟨⟨1, 0, .error (.protocol "closed")⟩, 0⟩]
    let reported := ended.step quietStore twoLanesConfig ⟨⟨1, 0, .inputDiscontinuity⟩, 0⟩
    let reconnected := reported.run quietStore twoLanesConfig
      [⟨⟨0, 0, .reconnecting 1 0 false⟩, 0⟩, ⟨⟨0, 0, .recoveryStarted 20⟩, 0⟩]
    let replaced := reconnected.step quietStore twoLanesConfig ⟨⟨1, 1, .connected⟩, 0⟩
    let again := (twoLanes 4000).run quietStore twoLanesConfig [⟨⟨1, 1, .connected⟩, 64000⟩]
    reported.published ≠ ended.published ∧
      (reconnected.lanes.map (·.providerSessionEpoch)) = [1, 0] ∧
      (replaced.lanes.map (·.providerSessionEpoch)) = [1, 1] ∧ replaced.facts = [] ∧
      (replaced.lanes.map (·.groupEpoch)) = [0, 1] ∧
      (again.lanes.map (·.groupEpoch)) = [0, 1] := by decide +kernel

end Recorder
end ZuTalk
