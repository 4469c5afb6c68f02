/-
# Translations leave the source alone

The calls about translations write lanes, bindings and facts.  Of a row's source they may change its
label, where the label is in doubt, and nothing else (`KeepsSource`); while the session is active
they do not take the source lane from it either.  They insert no row, and collect only one whose
source says nothing.
-/

import ZuTalk.Lanes.Rows

namespace ZuTalk
namespace Lanes

open Capture (UtteranceCompletion)
open Inbox (UtteranceVariantRole)
open Table UtteranceBody Machine

variable {s t : CaptureStore} {u v : Utterance} {b c d : UtteranceBody}

/-! ### One row -/

/-- The columns of a source, but for its label. -/
structure SameColumns (b c : UtteranceBody) : Prop where
  sessionSpeakerId : c.sessionSpeakerId = b.sessionSpeakerId
  sourceText : c.sourceText = b.sourceText
  sourceStartMs : c.sourceStartMs = b.sourceStartMs
  sourceEndMs : c.sourceEndMs = b.sourceEndMs
  revision : c.revision = b.revision
  completion : c.completion = b.completion

/-- The lanes of a source stay. -/
def SameLanes (b c : UtteranceBody) : Prop :=
  ∀ v ∈ b.variants, v.role = .source → ∃ w ∈ c.variants, w.role = .source ∧ w.payload = v.payload

/-- The source of a row stays, but for a label in doubt. -/
structure KeepsSource (active : Prop) (b c : UtteranceBody) : Prop where
  columns : SameColumns b c
  label : c.sourceLanguage = b.sourceLanguage ∨ labelDoubt c < labelDoubt b
  lanes : active → SameLanes b c

theorem SameColumns.refl (b : UtteranceBody) : SameColumns b b := ⟨rfl, rfl, rfl, rfl, rfl, rfl⟩

theorem SameColumns.trans (hbc : SameColumns b c) (hcd : SameColumns c d) : SameColumns b d where
  sessionSpeakerId := hcd.sessionSpeakerId.trans hbc.sessionSpeakerId
  sourceText := hcd.sourceText.trans hbc.sourceText
  sourceStartMs := hcd.sourceStartMs.trans hbc.sourceStartMs
  sourceEndMs := hcd.sourceEndMs.trans hbc.sourceEndMs
  revision := hcd.revision.trans hbc.revision
  completion := hcd.completion.trans hbc.completion

theorem SameLanes.refl (b : UtteranceBody) : SameLanes b b := fun v hv hrole => ⟨v, hv, hrole, rfl⟩

theorem SameLanes.trans (hbc : SameLanes b c) (hcd : SameLanes c d) : SameLanes b d := by
  intro v hv hrole
  obtain ⟨w, hw, hwrole, hpayload⟩ := hbc v hv hrole
  obtain ⟨x, hx, hxrole, hpayload'⟩ := hcd w hw hwrole
  exact ⟨x, hx, hxrole, hpayload'.trans hpayload⟩

/-- The doubt about a label is about the label and the words. -/
theorem labelDoubt_congr (hlabel : c.sourceLanguage = b.sourceLanguage)
    (htext : c.sourceText = b.sourceText) : labelDoubt c = labelDoubt b := by
  unfold labelDoubt
  rw [hlabel, htext]

theorem KeepsSource.refl {active : Prop} (b : UtteranceBody) : KeepsSource active b b :=
  ⟨.refl b, .inl rfl, fun _ => .refl b⟩

theorem KeepsSource.trans {active : Prop} (hbc : KeepsSource active b c)
    (hcd : KeepsSource active c d) : KeepsSource active b d := by
  refine ⟨hbc.columns.trans hcd.columns, ?_, fun h => (hbc.lanes h).trans (hcd.lanes h)⟩
  rcases hcd.label with hkept | hless
  · have hdoubt := labelDoubt_congr hkept hcd.columns.sourceText
    rcases hbc.label with hkept' | hless'
    · exact .inl (hkept.trans hkept')
    · exact .inr (hdoubt ▸ hless')
  · rcases hbc.label with hkept' | hless'
    · exact .inr (labelDoubt_congr hkept' hbc.columns.sourceText ▸ hless)
    · exact .inr (hless.trans hless')

theorem KeepsSource.mono {active active' : Prop} (h : KeepsSource active b c)
    (hactive : active' → active) : KeepsSource active' b c :=
  ⟨h.columns, h.label, fun h' => h.lanes (hactive h')⟩

/-! ### Each edit -/

theorem SameLanes.project (b : UtteranceBody) (selects : Variant → Bool) (receipt : ℕ) :
    SameLanes b (b.setVariants selects fun v => { v with projectionRevision := receipt }) := by
  intro v hv hrole
  refine ⟨_, mem_setVariants.2 ⟨v, hv, rfl⟩, ?_⟩
  obtain ⟨projectionRevision, heq⟩ := projected_eq (selects v) v receipt
  rw [heq]
  exact ⟨hrole, rfl⟩

theorem KeepsSource.project {active : Prop} (b : UtteranceBody) (selects : Variant → Bool)
    (receipt : ℕ) : KeepsSource active b
      (b.setVariants selects fun v => { v with projectionRevision := receipt }) :=
  ⟨⟨rfl, rfl, rfl, rfl, rfl, rfl⟩, .inl rfl, fun _ => .project b selects receipt⟩

theorem KeepsSource.projectSource {active : Prop} (b : UtteranceBody) (receipt : ℕ) :
    KeepsSource active b (b.projectSource receipt) :=
  ⟨⟨rfl, rfl, rfl, rfl, rfl, rfl⟩, .inl rfl, fun _ => .project b (·.role = .source) receipt⟩

theorem KeepsSource.upsertTranslation {active : Prop} {language : Language} {payload : Payload}
    (hsource : ∀ v ∈ b.variants, v.role = .source → v.language ≠ language) :
    KeepsSource active b (b.upsertTranslation language payload) := by
  have hlanes : SameLanes b (b.upsertTranslation language payload) := fun v hv hrole =>
    ⟨v, mem_upsertTranslation_of_ne hv (hsource v hv hrole), hrole, rfl⟩
  unfold UtteranceBody.upsertTranslation at hlanes ⊢
  split at hlanes
  · rename_i hany
    rw [if_pos hany]
    exact ⟨⟨rfl, rfl, rfl, rfl, rfl, rfl⟩, .inl rfl, fun _ => hlanes⟩
  · rename_i hany
    rw [if_neg hany]
    exact ⟨⟨rfl, rfl, rfl, rfl, rfl, rfl⟩, .inl rfl, fun _ => hlanes⟩

theorem SameLanes.relabel (b : UtteranceBody) (adopted : Language) :
    SameLanes b (b.relabel b.sourceLanguage adopted) := by
  intro v hv hrole
  have hkept : (v.role = .translation && v.language = adopted && !v.payload.isReady) = false := by
    simp [hrole]
  refine ⟨_, mem_relabel.2 ⟨v, hv, hkept, rfl⟩, ?_⟩
  split
  · exact ⟨hrole, rfl⟩
  · exact ⟨hrole, rfl⟩

/-- **What is written about a translation leaves the source of the row alone.** -/
theorem AuxiliaryRow.keepsSource {projects : Bool} (h : AuxiliaryRow s u b projects)
    (hu : Owned u.toUtteranceBody) :
    KeepsSource (s.captureSessionIsActive u.sessionId = .ok true) u.toUtteranceBody b := by
  cases h with
  | lane notSource writes =>
      rename_i language payload write
      have hwritten : KeepsSource (s.captureSessionIsActive u.sessionId = .ok true)
          u.toUtteranceBody (u.upsertTranslation language payload) := by
        refine .upsertTranslation fun v hv hrole hlanguage => ?_
        have hsame := (hu.source v hv hrole).1.symm.trans hlanguage
        simp [hu.hasSourceLane_of_mem hv hrole, hsame] at notSource
      unfold translationWritten
      split
      · exact hwritten.trans (.project _ _ _)
      · exact hwritten
  | @relabel f shown adopts overlaid =>
      have hlabelled : KeepsSource (s.captureSessionIsActive u.sessionId = .ok true)
          u.toUtteranceBody (u.relabel u.sourceLanguage f.sourceLanguage) :=
        ⟨⟨rfl, rfl, rfl, rfl, rfl, rfl⟩, .inr (labelDoubt_of_adopts adopts),
          fun _ => .relabel _ _⟩
      unfold relabelled
      split
      · exact hlabelled.trans (.projectSource _ _)
      · exact hlabelled
  | claim claimable inactive =>
      refine ⟨⟨rfl, rfl, rfl, rfl, rfl, rfl⟩, .inl rfl, fun hactive => ?_⟩
      rw [inactive] at hactive
      exact absurd (Except.ok.inj hactive) Bool.false_ne_true

/-! ### The tables -/

/-- A row whose source says something. -/
def Sourced (b : UtteranceBody) : Prop :=
  b.completion = .complete ∨ b.sourceText ≠ "" ∨ b.sourceStartMs.isSome = true ∨
    b.sourceEndMs.isSome = true

theorem SameColumns.sourced (h : SameColumns b c) (hb : Sourced b) : Sourced c := by
  unfold Sourced
  rw [h.completion, h.sourceText, h.sourceStartMs, h.sourceEndMs]
  exact hb

/-- What is collected has no source that says anything. -/
theorem not_sourced_of_isEmptyShell (h : b.isEmptyShell = true) : ¬Sourced b := by
  have hfact : b.hasSourceFact = false := by
    simp only [UtteranceBody.isEmptyShell, Bool.and_eq_true, Bool.not_eq_true'] at h
    exact h.1
  unfold UtteranceBody.hasSourceFact at hfact
  unfold Sourced
  simp_all

/-- No row is new, and one whose source says something stays: it keeps its source, and its source
lane while the session is active. -/
structure LeavesSources (s t : CaptureStore) : Prop where
  active : ∀ sessionId, t.captureSessionIsActive sessionId = s.captureSessionIsActive sessionId
  old : ∀ v ∈ t.utterances, ∃ u ∈ s.utterances, v.toUtteranceKey = u.toUtteranceKey ∧
    KeepsSource (s.captureSessionIsActive u.sessionId = .ok true) u.toUtteranceBody
      v.toUtteranceBody
  kept : ∀ u ∈ s.utterances, Sourced u.toUtteranceBody →
    ∃ v ∈ t.utterances, v.toUtteranceKey = u.toUtteranceKey

theorem LeavesSources.refl (s : CaptureStore) : LeavesSources s s :=
  ⟨fun _ => rfl, fun v hv => ⟨v, hv, rfl, .refl _⟩, fun u hu _ => ⟨u, hu, rfl⟩⟩

theorem LeavesSources.trans {w : CaptureStore} (hst : LeavesSources s t)
    (htw : LeavesSources t w) : LeavesSources s w := by
  refine ⟨fun sessionId => (htw.active sessionId).trans (hst.active sessionId), fun x hx => ?_,
    fun u hu hsourced => ?_⟩
  · obtain ⟨v, hv, hkey, hkeeps⟩ := htw.old x hx
    obtain ⟨u, hu, hkey', hkeeps'⟩ := hst.old v hv
    refine ⟨u, hu, hkey.trans hkey', hkeeps'.trans (hkeeps.mono fun hactive => ?_)⟩
    rw [hst.active, hkey']
    exact hactive
  · obtain ⟨v, hv, hkey⟩ := hst.kept u hu hsourced
    obtain ⟨u', hu', hkey', hkeeps⟩ := hst.old v hv
    obtain rfl := eq_of_id_eq hu' hu (congrArg UtteranceKey.id (hkey'.symm.trans hkey))
    obtain ⟨x, hx, hxkey⟩ := htw.kept v hv (hkeeps.columns.sourced hsourced)
    exact ⟨x, hx, hxkey.trans hkey⟩

theorem Auxiliary.leavesSources (h : Auxiliary s t) (hs : AllOwned s) : LeavesSources s t := by
  refine ⟨h.captureSessionIsActive, fun v hv => ?_, fun u hu hsourced => ?_⟩
  · obtain ⟨u, hu, hkey, rfl | ⟨projects, hwrite⟩⟩ := h.origin hv
    · exact ⟨v, hu, rfl, .refl _⟩
    · exact ⟨u, hu, hkey, hwrite.keepsSource (hs u hu)⟩
  · rcases h.fate hu with ⟨v, hv, hkey, -⟩ | ⟨hempty, -⟩
    · exact ⟨v, hv, hkey⟩
    · exact absurd hsourced (not_sourced_of_isEmptyShell hempty)

theorem leavesSources_of_auxiliaries (h : Auxiliaries s t) (hs : AllOwned s) :
    LeavesSources s t := by
  induction h using Relation.ReflTransGen.head_induction_on with
  | refl => exact .refl _
  | head hfirst _ ih =>
      have hwrite : Write none _ _ := .auxiliary hfirst
      exact (hfirst.leavesSources hs).trans (ih (hwrite.allOwned hs))

section Runs

variable {toLowercase : Char → List Char} {ops more : List Op}

/-- **Translations leave sources alone.**  From any state the store can be in, through any calls
about translations: no row is new; a row that is left has the speaker, the words, the times, the
revision and the completion it had, and its label unless that was in doubt; while its session is
active it has its source lane; and a row whose source says anything is left. -/
theorem translations_leave_sources (hs : run (step toLowercase) emptyStore ops = some s)
    (h : run (step toLowercase) s more = some t) (haux : ∀ op ∈ more, op.isAuxiliary = true) :
    LeavesSources s t :=
  (run_relation_of (I := AllOwned) (P := fun op : Op => op.isAuxiliary = true) LeavesSources.refl
    (fun _ _ _ => LeavesSources.trans)
    (fun _ _ _ hs hop hstep => ⟨step_allOwned hs hstep,
      leavesSources_of_auxiliaries (step_auxiliaries toLowercase hop hstep) hs⟩)
    (allOwned_of_run hs) haux h).2

theorem translations_leave_sources_heard :
    LeavesSources heardStore (after lowerAscii heardStore
      (.upsertTranslationVariant "n" 0 ⟨"es", some "hola", .ready, some .complete⟩)) :=
  translations_leave_sources run_heard (run_step lowerAscii heardStore [_])
    (List.forall_mem_singleton.2 rfl)

end Runs

end Lanes
end ZuTalk
