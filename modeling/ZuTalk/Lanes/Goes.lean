/-
# What a reader has read

A row goes from one state to another (`Goes`) so that nothing settled is taken back: a Final
translation keeps its lane and its text only grows, the words of a Final source stay, and its label
changes only while it is in doubt.

Each kind of write to a row goes that way (`RowWrite.goes`).
-/

import ZuTalk.Lanes.Owned

namespace ZuTalk
namespace Lanes

open Capture (UtteranceCompletion NewRealtimeUtterance)
open Inbox (UtteranceVariantRole)
open Table UtteranceBody

variable {b c : UtteranceBody}

/-- How often a label may still change: a row that has none may be given one, and one that its words
contradict a better one. -/
def labelDoubt (b : UtteranceBody) : ℕ :=
  if b.sourceLanguage = und then 2
  else if scriptContradictsLanguage b.sourceText b.sourceLanguage then 1
  else 0

/-- A Final translation with a text. -/
structure IsFinal (v : Variant) (text : String) : Prop where
  role : v.role = .translation
  payload : v.payload = .ready text .complete

/-- A lane goes on as it is, or with more text. -/
structure Grown (v w : Variant) (text : String) : Prop where
  language : w.language = v.language
  revision : v.revision ≤ w.revision
  payload : w.revision = v.revision → w.payload = v.payload
  extended : ∃ grown, IsFinal w grown ∧ Extends text grown

/-- Nothing settled is taken back. -/
structure Goes (b c : UtteranceBody) : Prop where
  revision : b.revision ≤ c.revision
  finals : ∀ v ∈ b.variants, ∀ text, IsFinal v text → ∃ w ∈ c.variants, Grown v w text
  columns : b.completion = .complete → c.completion = .complete ∧ c.sourceText = b.sourceText ∧
    c.sourceStartMs = b.sourceStartMs ∧ c.sourceEndMs = b.sourceEndMs
  label : b.completion = .complete →
    c.sourceLanguage = b.sourceLanguage ∨ labelDoubt c < labelDoubt b
  source : b.completion = .complete → ∀ v ∈ b.variants, v.role = .source →
    ∃ w ∈ c.variants, w.role = .source ∧ w.payload = v.payload ∧ v.revision ≤ w.revision

theorem IsFinal.grown {v : Variant} {text : String} (h : IsFinal v text) : Grown v v text :=
  ⟨rfl, le_refl _, fun _ => rfl, text, h, .refl text⟩

theorem Grown.trans {v w x : Variant} {text grown : String} (hvw : Grown v w text)
    (hextends : Extends text grown) (hwx : Grown w x grown) : Grown v x text where
  language := hwx.language.trans hvw.language
  revision := hvw.revision.trans hwx.revision
  payload heq := by
    have hwv : w.revision = v.revision :=
      le_antisymm (hwx.revision.trans heq.le) hvw.revision
    exact (hwx.payload (heq.trans hwv.symm)).trans (hvw.payload hwv)
  extended := by
    obtain ⟨more, hmore, hmoreextends⟩ := hwx.extended
    exact ⟨more, hmore, hextends.trans hmoreextends⟩

theorem Goes.refl (b : UtteranceBody) : Goes b b where
  revision := le_refl _
  finals v hv _ h := ⟨v, hv, h.grown⟩
  columns h := ⟨h, rfl, rfl, rfl⟩
  label _ := .inl rfl
  source _ v hv hrole := ⟨v, hv, hrole, rfl, le_refl _⟩

theorem Goes.trans {d : UtteranceBody} (hbc : Goes b c) (hcd : Goes c d) : Goes b d where
  revision := hbc.revision.trans hcd.revision
  finals v hv text h := by
    obtain ⟨w, hw, hgrown⟩ := hbc.finals v hv text h
    obtain ⟨grown, hfinal, hextends⟩ := hgrown.extended
    obtain ⟨x, hx, hmore⟩ := hcd.finals w hw grown hfinal
    exact ⟨x, hx, hgrown.trans hextends hmore⟩
  columns h := by
    obtain ⟨hcomplete, htext, hstart, hend⟩ := hbc.columns h
    obtain ⟨hcomplete', htext', hstart', hend'⟩ := hcd.columns hcomplete
    exact ⟨hcomplete', htext'.trans htext, hstart'.trans hstart, hend'.trans hend⟩
  label h := by
    obtain ⟨hcomplete, htext, -, -⟩ := hbc.columns h
    have hsame : c.sourceLanguage = b.sourceLanguage → labelDoubt c = labelDoubt b := by
      intro hlanguage
      unfold labelDoubt
      rw [hlanguage, htext]
    rcases hbc.label h with hkept | hless
    · rcases hcd.label hcomplete with hkept' | hless'
      · exact .inl (hkept'.trans hkept)
      · exact .inr (hsame hkept ▸ hless')
    · rcases hcd.label hcomplete with hkept' | hless'
      · right
        have htext' := (hcd.columns hcomplete).2.1
        have hdoubt : labelDoubt d = labelDoubt c := by
          unfold labelDoubt
          rw [hkept', htext']
        omega
      · exact .inr (hless'.trans hless)
  source h v hv hrole := by
    obtain ⟨w, hw, hwrole, hpayload, hrevision⟩ := hbc.source h v hv hrole
    obtain ⟨x, hx, hxrole, hpayload', hrevision'⟩ := hcd.source (hbc.columns h).1 w hw hwrole
    exact ⟨x, hx, hxrole, hpayload'.trans hpayload, hrevision.trans hrevision'⟩

/-! ### Each edit -/

theorem Goes.project (b : UtteranceBody) (selects : Variant → Bool) (receipt : ℕ) :
    Goes b (b.setVariants selects fun v => { v with projectionRevision := receipt }) := by
  refine ⟨le_refl _, fun v hv text h => ?_, fun h => ⟨h, rfl, rfl, rfl⟩, fun _ => .inl rfl,
    fun _ v hv hrole => ?_⟩
  · refine ⟨_, mem_setVariants.2 ⟨v, hv, rfl⟩, ?_⟩
    obtain ⟨projectionRevision, heq⟩ := projected_eq (selects v) v receipt
    rw [heq]
    exact ⟨rfl, le_refl _, fun _ => rfl, text, ⟨h.role, h.payload⟩, .refl text⟩
  · refine ⟨_, mem_setVariants.2 ⟨v, hv, rfl⟩, ?_⟩
    obtain ⟨projectionRevision, heq⟩ := projected_eq (selects v) v receipt
    rw [heq]
    exact ⟨hrole, rfl, le_refl _⟩

theorem Goes.projectSource (b : UtteranceBody) (receipt : ℕ) :
    Goes b (b.projectSource receipt) := by
  have hprojected := Goes.project b (·.role = .source) receipt
  exact ⟨hprojected.revision, hprojected.finals, hprojected.columns, hprojected.label,
    hprojected.source⟩

theorem IsFinal.isFinalTranslation {v : Variant} {text : String} (h : IsFinal v text) :
    v.isFinalTranslation = true := by
  simp [Variant.isFinalTranslation, h.role, h.payload, Payload.isSettled]

/-- What a write over a Final lane makes of it. -/
theorem IsFinal.extended {existing : Variant} {text : String} {payload : Payload}
    {write : TranslationLaneWrite} (h : IsFinal existing text)
    (hwrite : laneDecision (some existing) payload write = .write) :
    ∃ grown, payload = .ready grown .complete ∧ Extends text grown := by
  have hextends := extendsFinalLane_of_write hwrite h.isFinalTranslation
  unfold extendsFinalLane at hextends
  obtain ⟨⟨-, hsettled⟩, htexts⟩ : (write.mayExtend = true ∧ payload.isSettled = true) ∧ _ := by
    simpa only [Bool.and_eq_true] using hextends
  obtain ⟨grown, rfl⟩ := Payload.isSettled_iff.1 hsettled
  refine ⟨grown, rfl, extends_of_preservesSettledLane ?_⟩
  simpa [h.payload, Payload.text] using htexts

theorem Goes.upsertTranslation (hb : Owned b) {language : Language} {payload : Payload}
    {write : TranslationLaneWrite}
    (hsource : ∀ v ∈ b.variants, v.role = .source → v.language ≠ language)
    (hwrite : laneDecision (b.variant language) payload write = .write) :
    Goes b (b.upsertTranslation language payload) := by
  have hcolumns : (b.upsertTranslation language payload).revision = b.revision ∧
      (b.upsertTranslation language payload).completion = b.completion ∧
      (b.upsertTranslation language payload).sourceText = b.sourceText ∧
      (b.upsertTranslation language payload).sourceStartMs = b.sourceStartMs ∧
      (b.upsertTranslation language payload).sourceEndMs = b.sourceEndMs ∧
      (b.upsertTranslation language payload).sourceLanguage = b.sourceLanguage := by
    unfold UtteranceBody.upsertTranslation
    split
    · exact ⟨rfl, rfl, rfl, rfl, rfl, rfl⟩
    · exact ⟨rfl, rfl, rfl, rfl, rfl, rfl⟩
  obtain ⟨hrevision, hcompletion, htext, hstart, hend, hlabel⟩ := hcolumns
  refine ⟨hrevision.ge, fun v hv text h => ?_, fun h => ⟨hcompletion.trans h, htext, hstart, hend⟩,
    fun _ => .inl hlabel, fun _ v hv hrole => ?_⟩
  · by_cases hlanguage : v.language = language
    · obtain ⟨w, hw, hwl, hwrole, hwp, hwr⟩ := exists_upsertTranslation b language payload
      rw [← hlanguage, hb.variant_eq_some hv] at hwrite
      obtain ⟨grown, rfl, hextends⟩ := h.extended hwrite
      have hlater : v.revision < w.revision := hwr v hv hlanguage hb.languages
      exact ⟨w, hw, hwl.trans hlanguage.symm, hlater.le, fun heq => absurd heq hlater.ne', grown,
        ⟨hwrole, hwp⟩, hextends⟩
    · exact ⟨v, mem_upsertTranslation_of_ne hv hlanguage, h.grown⟩
  · exact ⟨v, mem_upsertTranslation_of_ne hv (hsource v hv hrole), hrole, rfl, le_refl _⟩

theorem Goes.relabel {adopted : Language} (hlabel : b.completion = .complete →
      labelDoubt (b.relabel b.sourceLanguage adopted) < labelDoubt b) :
    Goes b (b.relabel b.sourceLanguage adopted) := by
  refine ⟨le_refl _, fun v hv text h => ?_, fun h => ⟨h, rfl, rfl, rfl⟩,
    fun h => .inr (hlabel h), fun _ v hv hrole => ?_⟩
  · have hkept : (v.role = .translation && v.language = adopted && !v.payload.isReady) = false := by
      simp [h.payload, Payload.isReady]
    have hrenames : renames b.sourceLanguage v = false := by
      simp [renames, h.role]
    refine ⟨v, mem_relabel.2 ⟨v, hv, hkept, ?_⟩, h.grown⟩
    rw [hrenames, if_neg Bool.false_ne_true]
  · have hkept : (v.role = .translation && v.language = adopted && !v.payload.isReady) = false := by
      simp [hrole]
    refine ⟨_, mem_relabel.2 ⟨v, hv, hkept, rfl⟩, ?_⟩
    split
    · exact ⟨hrole, rfl, Nat.le_succ _⟩
    · exact ⟨hrole, rfl, le_refl _⟩

theorem Goes.claim (hb : Owned b) (language : Language) (text : String)
    (hclaimable : b.variants.countP (claimable language) = 1) :
    Goes b (b.claim language text) := by
  have hincomplete : b.completion ≠ .complete := by
    intro hcomplete
    obtain ⟨v, hv, hclaimed⟩ := List.countP_pos_iff.1 (hclaimable.symm ▸ Nat.one_pos)
    simp only [claimable, Bool.and_eq_true, decide_eq_true_eq, Bool.not_eq_true'] at hclaimed
    have hpayload := (hb.source v hv hclaimed.1.1.1).2
    rw [hcomplete] at hpayload
    simp [hpayload, Payload.isSettled] at hclaimed
  refine ⟨le_refl _, fun v hv settled h => ?_, fun h => absurd h hincomplete,
    fun h => absurd h hincomplete, fun h => absurd h hincomplete⟩
  have hunclaimed : claimable language v = false := by
    simp [claimable, h.role]
  refine ⟨v, mem_setVariants.2 ⟨v, hv, ?_⟩, h.grown⟩
  rw [hunclaimed, if_neg Bool.false_ne_true]

/-- A Final translation that is neither a source lane nor in the language of the source. -/
theorem Goes.sourceWritten {text : String} {completion : UtteranceCompletion} {coalesces : Bool}
    (hincomplete : b.completion ≠ .complete) (hc : c.variants = b.variants)
    (hrevision : b.revision ≤ c.revision)
    (hcoalesces : coalesces = false → ∀ v ∈ b.variants, v.isFinalTranslation = true →
      v.language ≠ c.sourceLanguage) (desired : ℕ) :
    Goes b (c.sourceWritten text completion coalesces desired) := by
  have hwritten : Goes b
      (if coalesces then c.coalesceSource else c.replaceSource text completion) := by
    cases coalesces with
    | true =>
        refine ⟨hrevision, fun v hv text h => ⟨v, ?_, h.grown⟩, fun h => absurd h hincomplete,
          fun h => absurd h hincomplete, fun h => absurd h hincomplete⟩
        exact mem_deleteVariants.2 ⟨hc.symm ▸ hv, by simp [h.role]⟩
    | false =>
        refine ⟨hrevision, fun v hv text h => ⟨v, ?_, h.grown⟩, fun h => absurd h hincomplete,
          fun h => absurd h hincomplete, fun h => absurd h hincomplete⟩
        refine mem_insertVariant.2 (.inl (mem_deleteVariants.2 ⟨hc.symm ▸ hv, ?_⟩))
        simp [h.role, hcoalesces rfl v hv h.isFinalTranslation]
  unfold UtteranceBody.sourceWritten
  dsimp only
  split
  · exact hwritten.trans (.projectSource _ _)
  · exact hwritten

theorem Goes.sourceless (hincomplete : b.completion ≠ .complete) : Goes b b.sourceless := by
  unfold UtteranceBody.sourceless
  split
  · refine ⟨Nat.le_succ _, fun v hv text h => ⟨v, ?_, h.grown⟩, fun h => absurd h hincomplete,
      fun h => absurd h hincomplete, fun h => absurd h hincomplete⟩
    exact mem_deleteVariants.2 ⟨hv, by simp [h.role]⟩
  · exact ⟨Nat.le_succ _, fun v hv text h => ⟨v, hv, h.grown⟩, fun h => absurd h hincomplete,
      fun h => absurd h hincomplete, fun h => absurd h hincomplete⟩

/-! ### Each write -/

/-- A label that is adopted leaves less doubt. -/
theorem labelDoubt_of_adopts {s : CaptureStore} {f : Fact} {u : Utterance}
    (h : adopts s f u = true) :
    labelDoubt (u.relabel u.sourceLanguage f.sourceLanguage) < labelDoubt u.toUtteranceBody := by
  simp only [adopts, mislabelled, Bool.and_eq_true, Bool.or_eq_true, decide_eq_true_eq,
    Bool.not_eq_true'] at h
  obtain ⟨⟨⟨⟨-, hclaimed⟩, -⟩, hdoubtful⟩, -⟩ := h
  have hnew : labelDoubt (u.relabel u.sourceLanguage f.sourceLanguage) =
      if scriptContradictsLanguage u.sourceText f.sourceLanguage then 1 else 0 := if_neg hclaimed
  rw [hnew]
  unfold labelDoubt
  rcases hdoubtful with hund | ⟨⟨⟨-, hcontradicted⟩, hfits⟩, -⟩
  · rw [if_pos hund]
    split
    · exact Nat.one_lt_two
    · exact Nat.two_pos
  · rw [hfits, hcontradicted, if_neg Bool.false_ne_true, if_pos rfl]
    split
    · exact Nat.two_pos
    · exact Nat.one_pos

theorem AuxiliaryRow.goes {s : CaptureStore} {u : Utterance} {b : UtteranceBody} {projects : Bool}
    (h : AuxiliaryRow s u b projects) (hu : Owned u.toUtteranceBody) :
    Goes u.toUtteranceBody b := by
  cases h with
  | lane notSource writes =>
      rename_i language payload write
      have hwritten : Goes u.toUtteranceBody (u.upsertTranslation language payload) := by
        refine .upsertTranslation hu (fun v hv hrole hlanguage => ?_) writes
        have hsame := (hu.source v hv hrole).1.symm.trans hlanguage
        simp [hu.hasSourceLane_of_mem hv hrole, hsame] at notSource
      unfold translationWritten
      split
      · exact hwritten.trans (.project _ _ _)
      · exact hwritten
  | relabel adopts overlaid =>
      rename_i f shown
      have hlabelled : Goes u.toUtteranceBody (u.relabel u.sourceLanguage f.sourceLanguage) :=
        .relabel fun _ => labelDoubt_of_adopts adopts
      unfold relabelled
      split
      · exact hlabelled.trans (.projectSource _ _)
      · exact hlabelled
  | claim claimable inactive => exact (Goes.claim hu _ _ claimable).trans (.project _ _ _)

/-- **Nothing settled is taken back**, whatever is written to a row. -/
theorem RowWrite.goes {s : CaptureStore} {u : Utterance} {b : UtteranceBody} {projects : Bool}
    (h : RowWrite s u b projects) (hu : Owned u.toUtteranceBody) : Goes u.toUtteranceBody b := by
  cases h with
  | auxiliary write => exact write.goes hu
  | revise incomplete unsettled speaker active =>
      rename_i input startMs endMs
      have hincomplete : u.completion ≠ .complete := by
        simpa [sourceFactIsComplete] using incomplete
      generalize learnedLanguage input (some u) = sourceLanguage
      have hrevision : u.revision ≤ (u.revised input sourceLanguage startMs endMs).revision :=
        Nat.le_succ _
      refine Goes.sourceWritten (c := u.revised input sourceLanguage startMs endMs) hincomplete rfl
        hrevision (fun hcoalesces v hv hfinal hlanguage => ?_) _
      have hlanguage : v.language = sourceLanguage := hlanguage
      have hother := List.any_eq_false.1 hcoalesces v hv
      simp [hfinal, hlanguage] at hother
  | withdraw incomplete active =>
      exact .sourceless (by simpa [sourceFactIsComplete] using incomplete)

end Lanes
end ZuTalk
