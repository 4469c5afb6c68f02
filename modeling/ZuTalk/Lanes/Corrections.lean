/-
# What the user corrected

A correction is of a Final lane, and the lane stays where it is for as long as the correction does
(`Fits`).  So a row can always be shown: a lane with a correction shows that text, and every other
lane what the machine wrote.  No call loses a correction but the deletion of its session; a lane's
next correction replaces it.
-/

import ZuTalk.Lanes.Rows

namespace ZuTalk
namespace Lanes

open Capture (UtteranceCompletion)
open Inbox (UtteranceVariantRole)
open Table UtteranceBody Machine

variable {s t : CaptureStore} {u shown : Utterance} {b : UtteranceBody} {o : Override}
variable {creates : Option String}

/-! ### One correction over a row -/

/-- What a lane with a correction shows. -/
def Override.shownOn (o : Override) (v : Variant) : Variant :=
  if v.language = o.laneLanguage then { v with payload := v.payload.overlaid o.text } else v

/-- What a row with a correction shows. -/
def Override.over (o : Override) (b : UtteranceBody) : UtteranceBody :=
  let overlaid := b.setVariants (·.language = o.laneLanguage) fun v =>
    { v with payload := v.payload.overlaid o.text }
  match o.lane with
  | .source => { overlaid with sourceText := o.text }
  | .translated => overlaid

theorem variant_over (o : Override) (b : UtteranceBody) (language : Language) :
    (o.over b).variant language = (b.variant language).map o.shownOn := by
  have hvariants : (o.over b).variants = Table.update (·.language = o.laneLanguage)
      (fun v => { v with payload := v.payload.overlaid o.text }) b.variants := by
    unfold Override.over
    cases o.lane with
    | source => rfl
    | translated => rfl
  unfold UtteranceBody.variant
  rw [hvariants]
  refine (find?_update ?_ language).trans ?_
  · exact fun _ => rfl
  · congr 1
    funext v
    unfold Override.shownOn
    simp

theorem shownOn_eq (o : Override) (v : Variant) :
    (o.shownOn v).language = v.language ∧ (o.shownOn v).revision = v.revision ∧
      laneOf (o.shownOn v) = laneOf v ∧
      (o.shownOn v).payload.isSettled = v.payload.isSettled := by
  unfold Override.shownOn
  split
  · refine ⟨rfl, rfl, rfl, ?_⟩
    cases v.payload with
    | ready text completion => cases completion <;> rfl
    | waiting => rfl
    | failed => rfl
    | unavailable => rfl
  · exact ⟨rfl, rfl, rfl, rfl⟩

/-- What `apply_utterance_overrides` asks of a row. -/
theorem applyOverride_eq_ok (h : applyOverride u o = .ok shown) :
    (∃ v, u.variant o.laneLanguage = some v ∧ laneOf v = o.lane) ∧
      shown = ⟨u.toUtteranceKey, o.over u.toUtteranceBody⟩ := by
  unfold applyOverride at h
  split at h
  · cases h
  split at h
  · cases h
  split at h
  · cases h
  rename_i v hv
  split at h
  · cases h
  dsimp only at h
  split at h
  · rename_i hlane
    split at h
    · rename_i hrole
      cases h
      refine ⟨⟨v, hv, ?_⟩, ?_⟩
      · rw [hlane, laneOf, hrole.1]
      · simp [Override.over, hlane]
    · cases h
  · rename_i hlane
    split at h
    · rename_i hrole
      cases h
      refine ⟨⟨v, hv, ?_⟩, ?_⟩
      · rw [hlane, laneOf, hrole]
      · simp [Override.over, hlane]
    · cases h

/-- A correction is of a Final lane of the row. -/
structure Fits (o : Override) (b : UtteranceBody) : Prop where
  edited : 0 < o.editRevision
  revision : o.machineUtteranceRevision ≤ b.revision
  source : o.lane = .source → b.sourceLanguage = o.laneLanguage
  lane : ∃ v, b.variant o.laneLanguage = some v ∧ v.payload.isSettled = true ∧
    laneOf v = o.lane ∧ o.machineVariantRevision ≤ v.revision

theorem Fits.over (h : Fits o b) (p : Override) : Fits o (p.over b) := by
  have hcolumns : (p.over b).revision = b.revision ∧
      (p.over b).sourceLanguage = b.sourceLanguage := by
    unfold Override.over
    cases p.lane with
    | source => exact ⟨rfl, rfl⟩
    | translated => exact ⟨rfl, rfl⟩
  obtain ⟨v, hv, hsettled, hlane, hrevision⟩ := h.lane
  obtain ⟨-, hsame, hrole, hcompletion⟩ := shownOn_eq p v
  refine ⟨h.edited, hcolumns.1 ▸ h.revision, fun hs => hcolumns.2 ▸ h.source hs,
    p.shownOn v, ?_, hcompletion.trans hsettled, hrole.trans hlane, hsame ▸ hrevision⟩
  rw [variant_over, hv]
  rfl

theorem Fits.applyOverride (h : Fits o u.toUtteranceBody) :
    applyOverride u o = .ok ⟨u.toUtteranceKey, o.over u.toUtteranceBody⟩ := by
  obtain ⟨v, hv, hsettled, hlane, hrevision⟩ := h.lane
  unfold Lanes.applyOverride
  rw [if_neg h.edited.ne', if_neg (Nat.not_lt.2 h.revision), hv]
  dsimp only
  rw [if_neg (Nat.not_lt.2 hrevision)]
  cases holane : o.lane with
  | source =>
      have hrole : v.role = .source := by
        rw [holane, laneOf] at hlane
        cases hrole : v.role with
        | source => rfl
        | translation => simp [hrole] at hlane
      dsimp only
      rw [if_pos ⟨hrole, h.source holane⟩]
      simp [Override.over, holane]
  | translated =>
      have hrole : v.role = .translation := by
        rw [holane, laneOf] at hlane
        cases hrole : v.role with
        | source => simp [hrole] at hlane
        | translation => rfl
      dsimp only
      rw [if_pos hrole]
      simp [Override.over, holane]

/-! ### All corrections of a row -/

/-- What a row with some corrections shows. -/
def overAll (overrides : List Override) (b : UtteranceBody) : UtteranceBody :=
  overrides.foldl (fun b o => o.over b) b

theorem foldlM_applyOverride (overrides : List Override) :
    ∀ u : Utterance, (∀ o ∈ overrides, Fits o u.toUtteranceBody) →
      overrides.foldlM applyOverride u =
        .ok ⟨u.toUtteranceKey, overAll overrides u.toUtteranceBody⟩ := by
  induction overrides with
  | nil => exact fun u _ => rfl
  | cons o rest ih =>
      intro u h
      obtain ⟨ho, hrest⟩ := List.forall_mem_cons.1 h
      rw [List.foldlM_cons, ho.applyOverride]
      exact ih ⟨u.toUtteranceKey, o.over u.toUtteranceBody⟩ fun p hp => (hrest p hp).over o

theorem lanes_of_foldlM (overrides : List Override) :
    ∀ u : Utterance, overrides.foldlM applyOverride u = .ok shown →
      ∀ o ∈ overrides, ∃ v, u.variant o.laneLanguage = some v ∧ laneOf v = o.lane := by
  induction overrides with
  | nil => exact fun u _ o ho => absurd ho List.not_mem_nil
  | cons p rest ih =>
      intro u h o ho
      rw [List.foldlM_cons] at h
      cases hp : applyOverride u p with
      | error e =>
          rw [hp] at h
          cases h
      | ok w =>
          rw [hp] at h
          obtain ⟨hlane, rfl⟩ := applyOverride_eq_ok hp
          rcases List.mem_cons.1 ho with rfl | ho
          · exact hlane
          · obtain ⟨v, hv, hrole⟩ := ih _ h o ho
            have hv : (p.over u.toUtteranceBody).variant o.laneLanguage = some v := hv
            rw [variant_over] at hv
            obtain ⟨w, hw, rfl⟩ := Option.map_eq_some_iff.1 hv
            exact ⟨w, hw, (shownOn_eq p w).2.2.1.symm.trans hrole⟩

/-- A lane without a correction shows what the machine wrote. -/
theorem variant_overAll_of_ne {overrides : List Override} {language : Language}
    (h : ∀ o ∈ overrides, o.laneLanguage ≠ language) :
    (overAll overrides b).variant language = b.variant language := by
  induction overrides generalizing b with
  | nil => rfl
  | cons o rest ih =>
      obtain ⟨ho, hrest⟩ := List.forall_mem_cons.1 h
      refine (ih (b := o.over b) hrest).trans ?_
      rw [variant_over]
      cases hv : b.variant language with
      | none => rfl
      | some v =>
          have hlanguage := (mem_of_variant hv).2
          rw [Option.map_some, Override.shownOn, if_neg (by rw [hlanguage]; exact ho.symm)]

/-- A lane with a correction shows it. -/
theorem variant_overAll {overrides : List Override}
    (hdistinct : (overrides.map Override.laneLanguage).Nodup)
    (hfits : ∀ o ∈ overrides, Fits o b) (ho : o ∈ overrides) :
    ∃ v, (overAll overrides b).variant o.laneLanguage = some v ∧
      v.payload = .ready o.text .complete := by
  induction overrides generalizing b with
  | nil => cases ho
  | cons p rest ih =>
      obtain ⟨hp, hrest⟩ := List.nodup_cons.1 hdistinct
      obtain ⟨hpfits, hrestfits⟩ := List.forall_mem_cons.1 hfits
      rcases List.mem_cons.1 ho with rfl | ho
      · obtain ⟨v, hv, hsettled, -, -⟩ := hpfits.lane
        obtain ⟨text, hpayload⟩ := Payload.isSettled_iff.1 hsettled
        refine ⟨o.shownOn v, ?_, ?_⟩
        · refine (variant_overAll_of_ne (b := o.over b) fun q hq hlanguage => hp ?_).trans ?_
          · rw [← hlanguage]
            exact List.mem_map_of_mem hq
          · rw [variant_over, hv]
            rfl
        · unfold Override.shownOn
          rw [if_pos (mem_of_variant hv).2, hpayload]
          rfl
      · exact ih (b := p.over b) hrest (fun q hq => (hrestfits q hq).over p) ho

/-! ### One write -/

theorem settled_iff_of_source (hb : Owned b) {v : Variant} (hv : v ∈ b.variants)
    (hrole : v.role = .source) : v.payload.isSettled = true ↔ b.completion = .complete := by
  rw [(hb.source v hv hrole).2]
  cases b.completion with
  | complete => exact iff_of_true rfl rfl
  | partially => exact iff_of_false Bool.false_ne_true (by simp)

theorem laneOf_eq_source {v : Variant} : laneOf v = .source ↔ v.role = .source := by
  unfold laneOf
  cases v.role with
  | source => exact iff_of_true rfl rfl
  | translation => exact iff_of_false (by simp) (by simp)

theorem laneOf_eq_translated {v : Variant} : laneOf v = .translated ↔ v.role = .translation := by
  unfold laneOf
  cases v.role with
  | source => exact iff_of_false (by simp) (by simp)
  | translation => exact iff_of_true rfl rfl

/-- Only a new label changes the language of a Final source, and not under a correction of it. -/
theorem RowWrite.sourceLanguage {projects : Bool} (h : RowWrite s u b projects)
    (hcomplete : u.completion = .complete) :
    b.sourceLanguage = u.sourceLanguage ∨
      ∃ shown, s.applyUtteranceOverrides ⟨u.toUtteranceKey, b⟩ = .ok shown := by
  cases h with
  | auxiliary write =>
      cases write with
      | lane notSource writes =>
          left
          unfold translationWritten UtteranceBody.upsertTranslation
          split
          · split <;> rfl
          · split <;> rfl
      | relabel adopts overlaid => exact .inr ⟨_, overlaid⟩
      | claim claimable inactive => exact .inl rfl
  | revise incomplete unsettled speaker active =>
    simp [sourceFactIsComplete, hcomplete] at incomplete
  | withdraw incomplete active => simp [sourceFactIsComplete, hcomplete] at incomplete

/-- The corrections of a row. -/
def CaptureStore.corrections (s : CaptureStore) (utteranceId : String) : List Override :=
  select (fun o : Override => o.utteranceId = utteranceId)
    (fun a b => compare a.laneLanguage.code b.laneLanguage.code ≠ .gt) s.overrides

theorem mem_corrections {id : String} :
    o ∈ s.corrections id ↔ o ∈ s.overrides ∧ o.utteranceId = id := by
  unfold CaptureStore.corrections
  rw [mem_select, decide_eq_true_eq]

/-- **A correction keeps its lane**, whatever is written to its row. -/
theorem RowWrite.fits {projects : Bool} (h : RowWrite s u b projects)
    (hu : Owned u.toUtteranceBody) (ho : o ∈ s.overrides) (hid : o.utteranceId = u.id)
    (hfits : Fits o u.toUtteranceBody) : Fits o b := by
  have hgoes := h.goes hu
  have hb := h.owned hu
  obtain ⟨v, hv, hsettled, hlane, hrevision⟩ := hfits.lane
  obtain ⟨hmem, hlanguage⟩ := mem_of_variant hv
  cases holane : o.lane with
  | translated =>
      obtain ⟨text, hpayload⟩ := Payload.isSettled_iff.1 hsettled
      have hrole := laneOf_eq_translated.1 (hlane.trans holane)
      obtain ⟨w, hw, hgrown⟩ := hgoes.finals v hmem text ⟨hrole, hpayload⟩
      obtain ⟨grown, hfinal, -⟩ := hgrown.extended
      refine ⟨hfits.edited, hfits.revision.trans hgoes.revision, fun hsource => ?_, w, ?_, ?_, ?_,
        hrevision.trans hgrown.revision⟩
      · rw [holane] at hsource
        cases hsource
      · rw [← hlanguage, ← hgrown.language]
        exact hb.variant_eq_some hw
      · rw [hfinal.payload]
        rfl
      · rw [laneOf_eq_translated.2 hfinal.role, holane]
  | source =>
      have hrole := laneOf_eq_source.1 (hlane.trans holane)
      have hcomplete := (settled_iff_of_source hu hmem hrole).1 hsettled
      obtain ⟨w, hw, hwrole, hpayload, hwrevision⟩ := hgoes.source hcomplete v hmem hrole
      have hsame : w.language = o.laneLanguage := by
        rw [(hb.source w hw hwrole).1]
        rcases h.sourceLanguage hcomplete with hkept | ⟨shown, hshown⟩
        · rw [hkept]
          exact hfits.source holane
        · -- the row was shown under its new label, so the correction has a source lane there
          obtain ⟨x, hx, hxrole⟩ :=
            lanes_of_foldlM _ _ hshown o (mem_corrections.2 ⟨ho, hid⟩)
          obtain ⟨hxmem, hxlanguage⟩ := mem_of_variant hx
          rw [← hxlanguage]
          exact (hb.source x hxmem (laneOf_eq_source.1 (hxrole.trans holane))).1.symm
      refine ⟨hfits.edited, hfits.revision.trans hgoes.revision, fun _ => ?_, w, ?_, ?_, ?_,
        hrevision.trans hwrevision⟩
      · rw [← hsame]
        exact (hb.source w hw hwrole).1.symm
      · rw [← hsame]
        exact hb.variant_eq_some hw
      · rw [hpayload]
        exact hsettled
      · rw [laneOf_eq_source.2 hwrole, holane]

/-- Corrections are of Final lanes, and each lane has one. -/
structure Corrections (s : CaptureStore) : Prop where
  fits : ∀ o ∈ s.overrides, ∃ u ∈ s.utterances, u.id = o.utteranceId ∧ Fits o u.toUtteranceBody
  distinct : Distinct (fun o : Override => (o.utteranceId, o.laneLanguage)) s.overrides

theorem Corrections.fits_of_mem (hs : Corrections s) (hu : u ∈ s.utterances)
    (ho : o ∈ s.overrides) (hid : o.utteranceId = u.id) : Fits o u.toUtteranceBody := by
  obtain ⟨v, hv, hvid, hfits⟩ := hs.fits o ho
  obtain rfl := eq_of_id_eq hu hv (hid.symm.trans hvid.symm)
  exact hfits

/-- **A row can be shown.** -/
theorem Corrections.applyUtteranceOverrides (hs : Corrections s) (hu : u ∈ s.utterances) :
    s.applyUtteranceOverrides u =
      .ok ⟨u.toUtteranceKey, overAll (s.corrections u.id) u.toUtteranceBody⟩ := by
  refine foldlM_applyOverride (s.corrections u.id) u fun o ho => ?_
  obtain ⟨ho, hid⟩ := mem_corrections.1 ho
  exact hs.fits_of_mem hu ho hid

theorem mem_upsertOverride {overrides : List Override} {p : Override}
    (h : p ∈ upsertOverride o overrides) :
    p = o ∨
      (p ∈ overrides ∧ ¬(p.utteranceId = o.utteranceId ∧ p.laneLanguage = o.laneLanguage)) := by
  unfold upsertOverride at h
  dsimp only at h
  split at h
  · obtain ⟨q, hq, ⟨-, rfl⟩ | ⟨hother, rfl⟩⟩ := mem_update h
    · exact .inl rfl
    · exact .inr ⟨hq, of_decide_eq_false hother⟩
  · rename_i hnone
    rcases List.mem_append.1 h with hold | hnew
    · refine .inr ⟨hold, fun hkey => hnone ?_⟩
      exact List.any_eq_true.2 ⟨p, hold, decide_eq_true hkey⟩
    · exact .inl (List.mem_singleton.1 hnew)

theorem mem_upsertOverride_self (o : Override) (overrides : List Override) :
    o ∈ upsertOverride o overrides := by
  unfold upsertOverride
  dsimp only
  split
  · rename_i hany
    obtain ⟨p, hp, hkey⟩ := List.any_eq_true.1 hany
    have hset : (if decide (p.utteranceId = o.utteranceId ∧ p.laneLanguage = o.laneLanguage) =
        true then o else p) ∈ Table.update (fun p : Override =>
          decide (p.utteranceId = o.utteranceId ∧ p.laneLanguage = o.laneLanguage)) (fun _ => o)
            overrides := mem_update_of_mem hp
    rwa [if_pos hkey] at hset
  · exact List.mem_append_right _ (.head _)

theorem mem_upsertOverride_of_ne {overrides : List Override} {p : Override} (hp : p ∈ overrides)
    (hne : ¬(p.utteranceId = o.utteranceId ∧ p.laneLanguage = o.laneLanguage)) :
    p ∈ upsertOverride o overrides := by
  unfold upsertOverride
  dsimp only
  split
  · have hset : (if decide (p.utteranceId = o.utteranceId ∧ p.laneLanguage = o.laneLanguage) =
        true then o else p) ∈ Table.update (fun p : Override =>
          decide (p.utteranceId = o.utteranceId ∧ p.laneLanguage = o.laneLanguage)) (fun _ => o)
            overrides := mem_update_of_mem hp
    rwa [if_neg (by simpa using hne)] at hset
  · exact List.mem_append_left _ hp

theorem distinct_upsertOverride {overrides : List Override}
    (h : Distinct (fun o : Override => (o.utteranceId, o.laneLanguage)) overrides) :
    Distinct (fun o : Override => (o.utteranceId, o.laneLanguage))
      (upsertOverride o overrides) := by
  unfold upsertOverride
  dsimp only
  split
  · unfold Distinct Table.update
    rw [List.map_map]
    have hkeys : overrides.map ((fun o : Override => (o.utteranceId, o.laneLanguage)) ∘ fun p =>
        if decide (p.utteranceId = o.utteranceId ∧ p.laneLanguage = o.laneLanguage) = true then o
        else p) = overrides.map fun o => (o.utteranceId, o.laneLanguage) := by
      refine List.map_congr_left fun p _ => ?_
      rw [Function.comp_apply]
      split
      · rename_i hkey
        obtain ⟨hid, hlanguage⟩ := of_decide_eq_true hkey
        rw [hid, hlanguage]
      · rfl
    rw [hkeys]
    exact h
  · rename_i hnone
    refine h.concat fun hmem => hnone ?_
    obtain ⟨p, hp, hkey⟩ := List.mem_map.1 hmem
    obtain ⟨hid, hlanguage⟩ := Prod.mk.inj hkey
    exact List.any_eq_true.2 ⟨p, hp, decide_eq_true ⟨hid, hlanguage⟩⟩

theorem overrides_written (u : Utterance) (b : UtteranceBody) (projects : Bool) :
    (s.written u b projects).overrides = s.overrides := by
  unfold CaptureStore.written
  split <;> rfl

theorem overrides_upsertFact (key : FactKey) (new : FactBody) (set : FactBody → FactBody) :
    (s.upsertFact key new set).overrides = s.overrides := by
  unfold CaptureStore.upsertFact
  split <;> rfl

/-- Rows that stay keep their corrections. -/
theorem Corrections.of_rows (hs : Corrections s) (hoverrides : t.overrides = s.overrides)
    (hrows : ∀ o ∈ s.overrides, ∀ u ∈ s.utterances, o.utteranceId = u.id →
      Fits o u.toUtteranceBody → ∃ v ∈ t.utterances, v.id = u.id ∧ Fits o v.toUtteranceBody) :
    Corrections t := by
  refine ⟨fun o ho => ?_, hoverrides ▸ hs.distinct⟩
  rw [hoverrides] at ho
  obtain ⟨u, hu, hid, hfits⟩ := hs.fits o ho
  obtain ⟨v, hv, hvid, hvfits⟩ := hrows o ho u hu hid.symm hfits
  exact ⟨v, hv, hvid.trans hid, hvfits⟩

theorem Corrections.of_same (hs : Corrections s) (hoverrides : t.overrides = s.overrides)
    (hrows : t.utterances = s.utterances) : Corrections t :=
  hs.of_rows hoverrides fun _ _ u hu _ hfits => ⟨u, hrows ▸ hu, rfl, hfits⟩

/-- A row that says nothing Final has no corrections. -/
theorem Fits.not_unread (hb : Owned b) (h : Fits o b) (hincomplete : b.completion ≠ .complete)
    (hunread : b.variants.any Variant.isReadyTranslation = false) : False := by
  obtain ⟨v, hv, hsettled, -, -⟩ := h.lane
  obtain ⟨hmem, -⟩ := mem_of_variant hv
  cases hrole : v.role with
  | source => exact hincomplete ((settled_iff_of_source hb hmem hrole).1 hsettled)
  | translation =>
      have hread := List.any_eq_false.1 hunread v hmem
      simp [Variant.isReadyTranslation, hrole, Payload.isReady_of_isSettled hsettled] at hread

theorem Corrections.correct (hs : Corrections s) (howned : AllOwned s) {v : Variant}
    (mem : u ∈ s.utterances) (id : u.id = o.utteranceId)
    (lane : u.variant o.laneLanguage = some v) (settled : v.payload.isSettled = true)
    (role : laneOf v = o.lane) (utteranceRevision : o.machineUtteranceRevision = u.revision)
    (variantRevision : o.machineVariantRevision = v.revision)
    (edited : o.editRevision = s.laneEditRevision o.utteranceId o.laneLanguage + 1) :
    Corrections { s with overrides := upsertOverride o s.overrides } := by
  refine ⟨fun p hp => ?_, distinct_upsertOverride hs.distinct⟩
  rcases mem_upsertOverride hp with rfl | ⟨hold, -⟩
  · refine ⟨u, mem, id, edited ▸ Nat.succ_pos _, utteranceRevision.le, fun hsource => ?_, v, lane,
      settled, role, variantRevision.le⟩
    obtain ⟨hmem, hlanguage⟩ := mem_of_variant lane
    rw [← hlanguage]
    exact ((howned u mem).source v hmem (laneOf_eq_source.1 (role.trans hsource))).1.symm
  · exact hs.fits p hold

theorem Corrections.written (hs : Corrections s) (mem : u ∈ s.utterances)
    (hu : Owned u.toUtteranceBody) {projects : Bool} (write : RowWrite s u b projects) :
    Corrections (s.written u b projects) := by
  refine hs.of_rows (overrides_written _ _ _) fun o ho w hw hid hfits => ?_
  by_cases hwid : w.id = u.id
  · obtain rfl := eq_of_id_eq hw mem hwid
    exact ⟨_, mem_written mem b projects, rfl, write.fits hu ho hid hfits⟩
  · exact ⟨w, mem_written_of_ne hw hwid, rfl, hfits⟩

theorem Corrections.deleteUtterance (hs : Corrections s) (id : String) :
    Corrections (s.deleteUtterance id) := by
  refine ⟨fun o ho => ?_, hs.distinct.delete⟩
  obtain ⟨hold, hother⟩ := List.mem_filter.1 ho
  obtain ⟨u, hu, huid, hfits⟩ := hs.fits o hold
  exact ⟨u, List.mem_filter.2 ⟨hu, by simpa [huid] using hother⟩, huid, hfits⟩

theorem Write.corrections (h : Write creates s t) (howned : AllOwned s) (hs : Corrections s) :
    Corrections t := by
  cases h with
  | auxiliary write =>
      cases write with
      | row mem write => exact hs.written mem (howned _ mem) (.auxiliary write)
      | collect mem empty unedited => exact hs.deleteUtterance _
      | bind | unbind => exact hs.of_same rfl rfl
      | fact active incomplete unbound =>
          exact hs.of_same (overrides_upsertFact _ _ _) (utterances_upsertFact _ _ _)
  | row mem write => exact hs.written mem (howned _ mem) write
  | @insert input sequence startMs endMs w t' new inserted speaker active =>
      obtain ⟨hrows, -, -, hoverrides, -, -⟩ := insertUtterance_eq_ok inserted
      refine hs.of_rows ((overrides_written _ _ _).trans hoverrides) fun o ho u hu hid hfits => ?_
      refine ⟨u, mem_written_of_ne (hrows ▸ List.mem_append_left _ hu) fun hwid => ?_, rfl, hfits⟩
      unfold CaptureStore.insertUtterance at inserted
      split at inserted
      · rename_i hnew
        exact hnew.1 (hwid ▸ List.mem_map_of_mem hu)
      · cases inserted
  | delete mem incomplete unread active => exact hs.deleteUtterance _
  | correct mem id lane settled role utteranceRevision variantRevision edited =>
      exact hs.correct howned mem id lane settled role utteranceRevision variantRevision edited
  | capture created new inserted =>
      exact hs.of_same (insertRun_eq_ok inserted).overrides (insertRun_eq_ok inserted).utterances
  | stage | cancel | runs | speak | jobs => exact hs.of_same rfl rfl

theorem Corrections.withoutSpeaker (hs : Corrections s) (id : String) :
    Corrections (s.withoutSpeaker id) := by
  refine hs.of_rows rfl fun o ho u hu hid hfits => ?_
  obtain ⟨v, hv, hkey, hbody⟩ := mem_of_withoutSpeaker hu id
  refine ⟨v, hv, congrArg UtteranceKey.id hkey, ?_⟩
  rw [hbody]
  exact ⟨hfits.edited, hfits.revision, hfits.source, hfits.lane⟩

theorem Corrections.withoutSession (hs : Corrections s) (sessionId : String) :
    Corrections (s.withoutSession sessionId) := by
  refine ⟨fun o ho => ?_, hs.distinct.delete⟩
  obtain ⟨hold, hkept⟩ := List.mem_filter.1 ho
  obtain ⟨u, hu, hid, hfits⟩ := hs.fits o hold
  refine ⟨u, List.mem_filter.2 ⟨hu, ?_⟩, hid, hfits⟩
  rw [Bool.not_eq_true'] at hkept ⊢
  refine decide_eq_false fun hsession => ?_
  have hgone : o.utteranceId ∈
      (s.utterances.filter fun u => u.sessionId = sessionId).map (·.id) := by
    rw [← hid]
    exact List.mem_map_of_mem (List.mem_filter.2 ⟨hu, decide_eq_true hsession⟩)
  exact Bool.false_ne_true (hkept.symm.trans (List.contains_iff_mem.2 hgone))

/-! ### Every run -/

/-- The correction of a lane is there, or a later one. -/
structure Replaced (o p : Override) : Prop where
  utteranceId : p.utteranceId = o.utteranceId
  laneLanguage : p.laneLanguage = o.laneLanguage
  editRevision : o.editRevision ≤ p.editRevision
  eq_of_editRevision : p.editRevision = o.editRevision → p = o

theorem Replaced.refl (o : Override) : Replaced o o := ⟨rfl, rfl, le_refl _, fun _ => rfl⟩

theorem Replaced.trans {p q : Override} (hop : Replaced o p) (hpq : Replaced p q) :
    Replaced o q := by
  refine ⟨hpq.utteranceId.trans hop.utteranceId, hpq.laneLanguage.trans hop.laneLanguage,
    hop.editRevision.trans hpq.editRevision, fun heq => ?_⟩
  have hp : p.editRevision = o.editRevision :=
    le_antisymm (hpq.editRevision.trans heq.le) hop.editRevision
  rw [hpq.eq_of_editRevision (heq.trans hp.symm), hop.eq_of_editRevision hp]

/-- The edit revision of a lane is that of its correction. -/
theorem laneEditRevision_eq (hs : Corrections s) (ho : o ∈ s.overrides) :
    s.laneEditRevision o.utteranceId o.laneLanguage = o.editRevision := by
  unfold CaptureStore.laneEditRevision
  cases hfound : s.overrides.find? fun p =>
      p.utteranceId = o.utteranceId && p.laneLanguage = o.laneLanguage with
  | none => simpa using List.find?_eq_none.1 hfound o ho
  | some p =>
      have hkey : p.utteranceId = o.utteranceId ∧ p.laneLanguage = o.laneLanguage := by
        simpa using List.find?_some hfound
      rw [eq_of_key_eq hs.distinct (List.mem_of_find?_eq_some hfound) ho
        (Prod.ext hkey.1 hkey.2)]
      rfl

/-- **No write loses a correction.** -/
theorem Write.replaced (h : Write creates s t) (howned : AllOwned s) (hs : Corrections s)
    (ho : o ∈ s.overrides) : ∃ p ∈ t.overrides, Replaced o p := by
  have hsame : ∀ {w : CaptureStore}, w.overrides = s.overrides →
      ∃ p ∈ w.overrides, Replaced o p := fun hw => ⟨o, hw ▸ ho, .refl o⟩
  have hdelete : ∀ {w : Utterance}, w ∈ s.utterances → w.completion ≠ .complete →
      w.variants.any Variant.isReadyTranslation = false →
        ∃ p ∈ (s.deleteUtterance w.id).overrides, Replaced o p := by
    intro w mem incomplete unread
    refine ⟨o, List.mem_filter.2 ⟨ho, ?_⟩, .refl o⟩
    rw [Bool.not_eq_true']
    refine decide_eq_false fun hid => ?_
    exact (hs.fits_of_mem mem ho hid).not_unread (howned w mem) incomplete unread
  cases h with
  | auxiliary write =>
      cases write with
      | row mem write => exact hsame (overrides_written _ _ _)
      | collect mem empty unedited =>
          obtain ⟨incomplete, unread⟩ := UtteranceBody.of_isEmptyShell empty
          exact hdelete mem incomplete unread
      | bind mem session => exact hsame rfl
      | unbind => exact hsame rfl
      | fact active incomplete unbound => exact hsame (overrides_upsertFact _ _ _)
  | row mem write => exact hsame (overrides_written _ _ _)
  | insert new inserted speaker active =>
      exact hsame ((overrides_written _ _ _).trans (insertUtterance_eq_ok inserted).2.2.2.1)
  | delete mem incomplete unread active => exact hdelete mem incomplete unread
  | @correct p u v mem id lane settled role utteranceRevision variantRevision edited =>
      by_cases hkey : o.utteranceId = p.utteranceId ∧ o.laneLanguage = p.laneLanguage
      · refine ⟨p, mem_upsertOverride_self p _, hkey.1.symm, hkey.2.symm, ?_, fun heq => ?_⟩
        · rw [edited, ← hkey.1, ← hkey.2, laneEditRevision_eq hs ho]
          exact Nat.le_succ _
        · rw [edited, ← hkey.1, ← hkey.2, laneEditRevision_eq hs ho] at heq
          omega
      · exact ⟨o, mem_upsertOverride_of_ne ho hkey, .refl o⟩
  | capture created new inserted => exact hsame (insertRun_eq_ok inserted).overrides
  | stage | cancel | runs | speak | jobs => exact hsame rfl

/-- The corrections of the rows of a session stand, with their rows. -/
def CorrectionsStand (sessionId : String) (s t : CaptureStore) : Prop :=
  ∀ u ∈ s.utterances, u.sessionId = sessionId → ∀ o ∈ s.overrides, o.utteranceId = u.id →
    (∃ v ∈ t.utterances, v.toUtteranceKey = u.toUtteranceKey) ∧ ∃ p ∈ t.overrides, Replaced o p

theorem CorrectionsStand.refl (sessionId : String) (s : CaptureStore) :
    CorrectionsStand sessionId s s := fun u hu _ o ho _ => ⟨⟨u, hu, rfl⟩, o, ho, .refl o⟩

theorem CorrectionsStand.trans {sessionId : String} {w : CaptureStore}
    (hst : CorrectionsStand sessionId s t) (htw : CorrectionsStand sessionId t w) :
    CorrectionsStand sessionId s w := by
  intro u hu hsession o ho hid
  obtain ⟨⟨v, hv, hkey⟩, p, hp, hreplaced⟩ := hst u hu hsession o ho hid
  have hvid : v.id = u.id := congrArg UtteranceKey.id hkey
  have hvsession : v.sessionId = u.sessionId := congrArg UtteranceKey.sessionId hkey
  obtain ⟨⟨x, hx, hxkey⟩, q, hq, hreplaced'⟩ := htw v hv (hvsession.trans hsession) p hp
    (hreplaced.utteranceId.trans (hid.trans hvid.symm))
  exact ⟨⟨x, hx, hxkey.trans hkey⟩, q, hq, hreplaced.trans hreplaced'⟩

theorem Write.correctionsStand (h : Write creates s t) (howned : AllOwned s) (hs : Corrections s)
    (sessionId : String) : CorrectionsStand sessionId s t := by
  intro u hu _ o ho hid
  refine ⟨?_, h.replaced howned hs ho⟩
  rcases h.fate hu with ⟨v, hv, hkey, -⟩ | hdeleted
  · exact ⟨v, hv, hkey⟩
  · obtain ⟨hincomplete, hunread⟩ := hdeleted.unread
    exact ((hs.fits_of_mem hu ho hid).not_unread (howned u hu) hincomplete hunread).elim

theorem correctionsStand_withoutSpeaker (sessionId id : String) :
    CorrectionsStand sessionId s (s.withoutSpeaker id) := by
  intro u hu _ o ho _
  obtain ⟨v, hv, hkey, -⟩ := mem_of_withoutSpeaker hu id
  exact ⟨⟨v, hv, hkey⟩, o, ho, .refl o⟩

theorem correctionsStand_withoutSession {sessionId other : String} (hne : other ≠ sessionId) :
    CorrectionsStand sessionId s (s.withoutSession other) := by
  intro u hu hsession o ho hid
  have hkept : ¬u.sessionId = other := fun hother => hne (hother.symm.trans hsession)
  refine ⟨⟨u, List.mem_filter.2 ⟨hu, by simpa using hkept⟩, rfl⟩, o,
    List.mem_filter.2 ⟨ho, ?_⟩, .refl o⟩
  rw [Bool.not_eq_true']
  refine Bool.eq_false_iff.2 fun hgone => ?_
  obtain ⟨v, hv, hvid⟩ := List.mem_map.1 (List.contains_iff_mem.1 hgone)
  obtain ⟨hv, hvsession⟩ := List.mem_filter.1 hv
  obtain rfl := eq_of_id_eq hu hv (hid.symm.trans hvid.symm)
  exact hkept (of_decide_eq_true hvsession)

section Runs

variable {toLowercase : Char → List Char} {ops more : List Op} {sessionId : String}

/-- Lanes with their owners, and corrections of Final lanes. -/
def Sound (s : CaptureStore) : Prop := AllOwned s ∧ Corrections s

theorem Write.sound (h : Write creates s t) (hs : Sound s) : Sound t :=
  ⟨h.allOwned hs.1, h.corrections hs.1 hs.2⟩

theorem sound_withoutSpeaker (id : String) (hs : Sound s) : Sound (s.withoutSpeaker id) :=
  ⟨allOwned_withoutSpeaker id hs.1, hs.2.withoutSpeaker id⟩

theorem sound_withoutSession (sessionId : String) (hs : Sound s) :
    Sound (s.withoutSession sessionId) :=
  ⟨allOwned_withoutSession sessionId hs.1, hs.2.withoutSession sessionId⟩

theorem step_sound {op : Op} (hs : Sound s) (h : step toLowercase s op = some t) : Sound t :=
  step_invariant (fun h => h.sound) (fun _ => sound_withoutSpeaker)
    (fun _ => sound_withoutSession) hs h

theorem run_sound (hs : Sound s) (h : run (step toLowercase) s more = some t) : Sound t :=
  run_invariant (fun _ _ _ hs hstep => step_sound hs hstep) hs h

theorem sound_of_run (h : run (step toLowercase) emptyStore ops = some t) : Sound t := by
  have hempty : Sound emptyStore :=
    ⟨fun u hu => absurd hu List.not_mem_nil, fun o ho => absurd ho List.not_mem_nil,
      List.nodup_nil⟩
  exact run_sound hempty h

theorem step_correctionsStand {op : Op} (hs : Sound s) (h : step toLowercase s op = some t)
    (hop : op.purges ≠ some sessionId) : CorrectionsStand sessionId s t := by
  rcases step_cases toLowercase h with hwrites | ⟨id, -, rfl⟩ | ⟨other, hpurges, rfl⟩
  · clear h
    induction hwrites using Relation.ReflTransGen.head_induction_on with
    | refl => exact .refl _ _
    | head hfirst _ ih =>
        exact (hfirst.correctionsStand hs.1 hs.2 sessionId).trans (ih (hfirst.sound hs))
  · exact correctionsStand_withoutSpeaker sessionId id
  · refine correctionsStand_withoutSession fun hother => hop ?_
    rw [hpurges, hother]

theorem run_correctionsStand (hs : Sound s) (h : run (step toLowercase) s more = some t)
    (hkept : ∀ op ∈ more, op.purges ≠ some sessionId) : CorrectionsStand sessionId s t :=
  (run_relation_of (I := Sound) (P := fun op : Op => op.purges ≠ some sessionId)
    (fun s => CorrectionsStand.refl sessionId s) (fun _ _ _ => CorrectionsStand.trans)
    (fun _ _ _ hs hop hstep => ⟨step_sound hs hstep, step_correctionsStand hs hstep hop⟩)
    hs hkept h).2

/-- **Corrections are shown.** In any state the store can be in, every row can be shown: a lane with
a correction shows the text of the correction, and one without shows what the machine wrote. -/
theorem corrections_are_shown (h : run (step toLowercase) emptyStore ops = some t)
    (hu : u ∈ t.utterances) :
    ∃ shown, t.applyUtteranceOverrides u = .ok shown ∧
      shown.toUtteranceKey = u.toUtteranceKey ∧
      (∀ o ∈ t.overrides, o.utteranceId = u.id →
        ∃ v ∈ shown.variants, v.language = o.laneLanguage ∧ v.payload = .ready o.text .complete) ∧
      ∀ v ∈ u.variants,
        (∀ o ∈ t.overrides, o.utteranceId = u.id → o.laneLanguage ≠ v.language) →
          v ∈ shown.variants := by
  obtain ⟨howned, hs⟩ := sound_of_run h
  have hdistinct : ((t.corrections u.id).map Override.laneLanguage).Nodup := by
    refine List.Nodup.map_on (fun o ho p hp hlanguage => ?_) ?_
    · obtain ⟨ho, hoid⟩ := mem_corrections.1 ho
      obtain ⟨hp, hpid⟩ := mem_corrections.1 hp
      exact eq_of_key_eq hs.distinct ho hp (Prod.ext (hoid.trans hpid.symm) hlanguage)
    · exact (List.mergeSort_perm _ _).nodup_iff.2 ((List.Nodup.of_map _ hs.distinct).filter _)
  have hfits : ∀ o ∈ t.corrections u.id, Fits o u.toUtteranceBody := by
    intro o ho
    obtain ⟨ho, hid⟩ := mem_corrections.1 ho
    exact hs.fits_of_mem hu ho hid
  refine ⟨_, hs.applyUtteranceOverrides hu, rfl, fun o ho hid => ?_, fun v hv hnone => ?_⟩
  · obtain ⟨v, hv, hpayload⟩ := variant_overAll hdistinct hfits (mem_corrections.2 ⟨ho, hid⟩)
    obtain ⟨hmem, hlanguage⟩ := mem_of_variant hv
    exact ⟨v, hmem, hlanguage, hpayload⟩
  · have hlane : (overAll (t.corrections u.id) u.toUtteranceBody).variant v.language = some v := by
      rw [variant_overAll_of_ne, (howned u hu).variant_eq_some hv]
      intro o ho
      obtain ⟨ho, hid⟩ := mem_corrections.1 ho
      exact hnone o ho hid
    exact (mem_of_variant hlane).1

theorem corrections_are_shown_corrected : ∃ u ∈ correctedStore.utterances, ∃ shown,
    correctedStore.applyUtteranceOverrides u = .ok shown ∧
      ∃ v ∈ shown.variants, v.payload = .ready "salut" .complete := by
  obtain ⟨u, hu, o, ho, hid, htext⟩ : ∃ u ∈ correctedStore.utterances,
      ∃ o ∈ correctedStore.overrides, o.utteranceId = u.id ∧ o.text = "salut" := by
    decide +kernel
  obtain ⟨shown, hshown, -, hcorrected, -⟩ := corrections_are_shown run_corrected hu
  obtain ⟨v, hv, -, hpayload⟩ := hcorrected o ho hid
  exact ⟨u, hu, shown, hshown, v, hv, htext ▸ hpayload⟩

/-- **Corrections stand**: from any state the store can be in, through any calls that do not delete
the session of its row, a correction is there, or a later one of the same lane. -/
theorem corrections_stand (hs : run (step toLowercase) emptyStore ops = some s)
    (h : run (step toLowercase) s more = some t)
    (hkept : ∀ op ∈ more, op.purges ≠ some u.sessionId) (hu : u ∈ s.utterances)
    (ho : o ∈ s.overrides) (hid : o.utteranceId = u.id) :
    ∃ p ∈ t.overrides, p.utteranceId = o.utteranceId ∧ p.laneLanguage = o.laneLanguage ∧
      o.editRevision ≤ p.editRevision ∧ (p.editRevision = o.editRevision → p = o) := by
  obtain ⟨-, p, hp, hreplaced⟩ := run_correctionsStand (sound_of_run hs) h hkept u hu rfl o ho hid
  exact ⟨p, hp, hreplaced.utteranceId, hreplaced.laneLanguage, hreplaced.editRevision,
    hreplaced.eq_of_editRevision⟩

/-- The translation is told otherwise, and corrected once more. -/
def correctedAgain : List Op :=
  [.upsertTranslationVariant "n" 0 ⟨"fr", some "bonsoir", .ready, some .complete⟩,
    .stageUtteranceVariantReplacement "m2" "u" "fr" "coucou" 1, .commitProjectionMutation "m2"]

/-- The correction makes way for the later one. -/
theorem corrections_stand_corrected :
    (correctedAgain.foldl (after lowerAscii) correctedStore).overrides.map Override.text =
        ["coucou"] ∧
      ∃ o ∈ correctedStore.overrides,
        ∃ p ∈ (correctedAgain.foldl (after lowerAscii) correctedStore).overrides,
          p.laneLanguage = o.laneLanguage ∧ o.editRevision ≤ p.editRevision := by
  refine ⟨by decide +kernel, ?_⟩
  obtain ⟨u, hu, o, ho, hid⟩ : ∃ u ∈ correctedStore.utterances,
      ∃ o ∈ correctedStore.overrides, o.utteranceId = u.id := by decide +kernel
  obtain ⟨p, hp, -, hlanguage, hle, -⟩ := corrections_stand run_corrected
    (run_step lowerAscii correctedStore correctedAgain) (by simp [correctedAgain, Op.purges])
    hu ho hid
  exact ⟨o, ho, p, hp, hlanguage, hle⟩

end Runs

end Lanes
end ZuTalk
