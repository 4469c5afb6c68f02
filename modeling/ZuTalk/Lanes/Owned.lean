/-
# Who owns a lane

A row has one lane a language.  Its source lane, if it has one, is the lane of the row's own
language and says what the row says, and a row with words of its own has them in a source lane or,
where a translation was first in that language, in that Final translation (`Owned`).

Each kind of write to a row keeps this (`RowWrite.owned`).
-/

import ZuTalk.Lanes.Writes

namespace ZuTalk
namespace Lanes

open Capture (UtteranceCompletion NewRealtimeUtterance)
open Inbox (UtteranceVariantRole)
open Table

variable {b : UtteranceBody}

/-! ### Lanes after an edit -/

namespace UtteranceBody

@[simp] theorem mem_setVariants {selects : Variant → Bool} {set : Variant → Variant}
    {v : Variant} : v ∈ (b.setVariants selects set).variants ↔
      ∃ w ∈ b.variants, (if selects w then set w else w) = v := List.mem_map

@[simp] theorem mem_deleteVariants {selects : Variant → Bool} {v : Variant} :
    v ∈ (b.deleteVariants selects).variants ↔ v ∈ b.variants ∧ selects v = false := by
  unfold deleteVariants Table.delete
  rw [List.mem_filter, Bool.not_eq_true']

@[simp] theorem mem_insertVariant {v w : Variant} :
    v ∈ (b.insertVariant w).variants ↔ v ∈ b.variants ∨ v = w := by
  unfold insertVariant
  rw [List.mem_append, List.mem_singleton]

/-- A row with words of its own, or a place in the audio. -/
def Spoken (b : UtteranceBody) : Prop :=
  b.completion = .complete ∨ b.sourceText ≠ "" ∨ b.sourceStartMs.isSome = true ∨
    b.sourceEndMs.isSome = true

/-- A lane that holds what the row says. -/
def Voices (v : Variant) : Prop := v.role = .source ∨ v.isFinalTranslation = true

/-- Lanes have the owner they should have. -/
structure Owned (b : UtteranceBody) : Prop where
  languages : Distinct Variant.language b.variants
  source : ∀ v ∈ b.variants, v.role = .source →
    v.language = b.sourceLanguage ∧ v.payload = .ready b.sourceText b.completion
  voiced : Spoken b → ∃ v ∈ b.variants, Voices v

theorem Owned.eq_of_source (hb : Owned b) {v w : Variant} (hv : v ∈ b.variants)
    (hw : w ∈ b.variants) (hvs : v.role = .source) (hws : w.role = .source) : v = w :=
  eq_of_key_eq hb.languages hv hw
    ((hb.source v hv hvs).1.trans (hb.source w hw hws).1.symm)

theorem Owned.variant_eq_some (hb : Owned b) {v : Variant} (hv : v ∈ b.variants) :
    b.variant v.language = some v := hb.languages.find?_eq_some hv

theorem mem_of_variant {language : Language} {v : Variant} (h : b.variant language = some v) :
    v ∈ b.variants ∧ v.language = language :=
  ⟨List.mem_of_find?_eq_some h, by simpa using List.find?_some h⟩

/-- A source lane is always ready, so a row has a source lane where it has a source variant. -/
theorem Owned.hasSourceLane_of_mem (hb : Owned b) {v : Variant} (hv : v ∈ b.variants)
    (hsource : v.role = .source) : b.hasSourceLane = true := by
  unfold hasSourceLane
  cases hfound : b.sourceVariant with
  | none => simpa [hsource] using List.find?_eq_none.1 hfound v hv
  | some w =>
      have hw := List.mem_of_find?_eq_some hfound
      have hrole : w.role = .source := by simpa using List.find?_some hfound
      change w.payload.isReady = true
      rw [(hb.source w hw hrole).2]
      rfl

theorem Owned.exists_source (hb : Owned b) (h : b.hasSourceLane = true) :
    ∃ v ∈ b.variants, v.role = .source := by
  unfold hasSourceLane at h
  cases hfound : b.sourceVariant with
  | some w =>
      exact ⟨w, List.mem_of_find?_eq_some hfound, by simpa using List.find?_some hfound⟩
  | none =>
      rw [hfound] at h
      obtain ⟨hempty, hfact⟩ := Bool.and_eq_true_iff.1 h
      have hnone : b.variants = [] := by simpa using hempty
      have hspoken : Spoken b := by
        simp only [hasSourceFact, hnone, List.any_nil, Bool.or_false, Bool.or_eq_true,
          decide_eq_true_eq] at hfact
        unfold Spoken
        tauto
      obtain ⟨v, hv, -⟩ := hb.voiced hspoken
      rw [hnone] at hv
      cases hv

/-! ### Each edit -/

/-- What a new desired revision leaves alone. -/
theorem projected_eq (projects : Bool) (v : Variant) (receipt : ℕ) :
    ∃ projectionRevision,
      (if projects then { v with projectionRevision := receipt } else v) =
        { v with projectionRevision } := by
  cases projects with
  | true => exact ⟨receipt, rfl⟩
  | false => exact ⟨v.projectionRevision, rfl⟩

theorem Owned.project (hb : Owned b) (selects : Variant → Bool) (receipt : ℕ) :
    Owned (b.setVariants selects fun v => { v with projectionRevision := receipt }) := by
  refine ⟨hb.languages.update fun _ => rfl, fun v hv hsource => ?_, fun hspoken => ?_⟩
  · obtain ⟨w, hw, rfl⟩ := mem_setVariants.1 hv
    obtain ⟨projectionRevision, heq⟩ := projected_eq (selects w) w receipt
    rw [heq] at hsource ⊢
    exact hb.source w hw hsource
  · obtain ⟨w, hw, hvoices⟩ := hb.voiced hspoken
    refine ⟨_, mem_setVariants.2 ⟨w, hw, rfl⟩, ?_⟩
    obtain ⟨projectionRevision, heq⟩ := projected_eq (selects w) w receipt
    rw [heq]
    exact hvoices

theorem Owned.projectSource (hb : Owned b) (receipt : ℕ) : Owned (b.projectSource receipt) := by
  have hprojected := hb.project (·.role = .source) receipt
  exact ⟨hprojected.languages, hprojected.source, hprojected.voiced⟩

theorem mem_upsertTranslation {language : Language} {payload : Payload} {v : Variant}
    (h : v ∈ (b.upsertTranslation language payload).variants) :
    (v ∈ b.variants ∧ v.language ≠ language) ∨
      (v.language = language ∧ v.role = .translation ∧ v.payload = payload) := by
  unfold upsertTranslation at h
  split at h
  · obtain ⟨w, hw, rfl⟩ := mem_setVariants.1 h
    by_cases hlanguage : w.language = language
    · right
      rw [if_pos (decide_eq_true hlanguage)]
      exact ⟨hlanguage, rfl, rfl⟩
    · left
      rw [if_neg (by simpa using hlanguage)]
      exact ⟨hw, hlanguage⟩
  · rename_i hnone
    rcases mem_insertVariant.1 h with hold | rfl
    · refine .inl ⟨hold, fun hlanguage => hnone ?_⟩
      exact List.any_eq_true.2 ⟨v, hold, decide_eq_true hlanguage⟩
    · exact .inr ⟨rfl, rfl, rfl⟩

theorem mem_upsertTranslation_of_ne {language : Language} {payload : Payload} {v : Variant}
    (hv : v ∈ b.variants) (hne : v.language ≠ language) :
    v ∈ (b.upsertTranslation language payload).variants := by
  unfold upsertTranslation
  split
  · exact mem_setVariants.2 ⟨v, hv, if_neg (by simpa using hne)⟩
  · exact mem_insertVariant.2 (.inl hv)

/-- The lane of a language that is written. -/
theorem exists_upsertTranslation (b : UtteranceBody) (language : Language) (payload : Payload) :
    ∃ v ∈ (b.upsertTranslation language payload).variants, v.language = language ∧
      v.role = .translation ∧ v.payload = payload ∧
      ∀ w ∈ b.variants, w.language = language → Distinct Variant.language b.variants →
        w.revision < v.revision := by
  unfold upsertTranslation
  split
  · rename_i hany
    obtain ⟨w, hw, hlanguage⟩ := List.any_eq_true.1 hany
    refine ⟨_, mem_setVariants.2 ⟨w, hw, rfl⟩, ?_⟩
    rw [if_pos hlanguage]
    refine ⟨of_decide_eq_true hlanguage, rfl, rfl, fun v hv hvl hdistinct => ?_⟩
    rw [eq_of_key_eq hdistinct hv hw (hvl.trans (of_decide_eq_true hlanguage).symm)]
    exact Nat.lt_succ_self _
  · rename_i hnone
    refine ⟨_, mem_insertVariant.2 (.inr rfl), rfl, rfl, rfl, fun w hw hlanguage => ?_⟩
    exact absurd (List.any_eq_true.2 ⟨w, hw, decide_eq_true hlanguage⟩) hnone

theorem Owned.upsertTranslation (hb : Owned b) {language : Language} {payload : Payload}
    (hsource : ∀ v ∈ b.variants, v.role = .source → v.language ≠ language)
    (hfinal : ∀ v ∈ b.variants, v.language = language → v.isFinalTranslation = true →
      payload.isSettled = true) : Owned (b.upsertTranslation language payload) := by
  have hcolumns : (b.upsertTranslation language payload).sourceLanguage = b.sourceLanguage ∧
      (b.upsertTranslation language payload).sourceText = b.sourceText ∧
      (b.upsertTranslation language payload).completion = b.completion ∧
      (Spoken (b.upsertTranslation language payload) → Spoken b) := by
    unfold UtteranceBody.upsertTranslation
    split
    · exact ⟨rfl, rfl, rfl, fun h => h⟩
    · exact ⟨rfl, rfl, rfl, fun h => h⟩
  obtain ⟨hlabel, htext, hcompletion, hspoken⟩ := hcolumns
  refine ⟨?_, fun v hv hrole => ?_, fun h => ?_⟩
  · unfold UtteranceBody.upsertTranslation
    split
    · exact hb.languages.update fun _ => rfl
    · rename_i hnone
      refine hb.languages.concat fun hmem => hnone ?_
      obtain ⟨v, hv, hlanguage⟩ := List.mem_map.1 hmem
      exact List.any_eq_true.2 ⟨v, hv, decide_eq_true hlanguage⟩
  · rcases mem_upsertTranslation hv with ⟨hold, -⟩ | ⟨-, htranslation, -⟩
    · rw [hlabel, htext, hcompletion]
      exact hb.source v hold hrole
    · rw [htranslation] at hrole
      cases hrole
  · obtain ⟨v, hv, hvoices⟩ := hb.voiced (hspoken h)
    by_cases hlanguage : v.language = language
    · obtain ⟨w, hw, -, hrole, hpayload, -⟩ := exists_upsertTranslation b language payload
      refine ⟨w, hw, .inr ?_⟩
      have hsettled : payload.isSettled = true := by
        rcases hvoices with hvs | hvf
        · exact absurd hlanguage (hsource v hv hvs)
        · exact hfinal v hv hlanguage hvf
      simp [Variant.isFinalTranslation, hrole, hpayload, hsettled]
    · exact ⟨v, mem_upsertTranslation_of_ne hv hlanguage, hvoices⟩

/-- What is left of the lanes when a row gets another label, and what becomes of them. -/
theorem mem_relabel {labelled adopted : Language} {v : Variant} :
    v ∈ (b.relabel labelled adopted).variants ↔
      ∃ w ∈ b.variants,
        (w.role = .translation && w.language = adopted && !w.payload.isReady) = false ∧
        (if renames labelled w then { w with language := adopted, revision := w.revision + 1 }
          else w) = v := by
  unfold relabel
  rw [mem_setVariants]
  constructor
  · rintro ⟨w, hw, rfl⟩
    exact ⟨w, (mem_deleteVariants.1 hw).1, (mem_deleteVariants.1 hw).2, rfl⟩
  · rintro ⟨w, hw, hkept, rfl⟩
    exact ⟨w, mem_deleteVariants.2 ⟨hw, hkept⟩, rfl⟩

/-- No lane that is left has the adopted language. -/
theorem Owned.ne_adopted (hb : Owned b) {adopted : Language} (hne : adopted ≠ b.sourceLanguage)
    (hfree : b.adoptedLaneIsOccupied adopted = false) {v : Variant} (hv : v ∈ b.variants)
    (hkept : (v.role = .translation && v.language = adopted && !v.payload.isReady) = false) :
    v.language ≠ adopted := by
  rintro rfl
  cases hrole : v.role with
  | source => exact hne (hb.source v hv hrole).1
  | translation =>
      have hready : v.payload.isReady = true := by simpa [hrole] using hkept
      have hoccupied : b.adoptedLaneIsOccupied v.language = true :=
        List.any_eq_true.2 ⟨v, hv, by simp [Variant.isReadyTranslation, hrole, hready]⟩
      rw [hfree] at hoccupied
      cases hoccupied

theorem Owned.relabel (hb : Owned b) {adopted : Language} (hne : adopted ≠ b.sourceLanguage)
    (hfree : b.adoptedLaneIsOccupied adopted = false) :
    Owned (b.relabel b.sourceLanguage adopted) := by
  have hrenamed : ∀ v ∈ b.variants, v.role = .source → renames b.sourceLanguage v = true := by
    intro v hv hrole
    simp [renames, hrole, (hb.source v hv hrole).1]
  refine ⟨?_, fun v hv hrole => ?_, fun hspoken => ?_⟩
  · unfold UtteranceBody.relabel Distinct setVariants Table.update
    rw [List.map_map]
    have hleft : Distinct Variant.language (Table.delete (fun v : Variant =>
        v.role = .translation && v.language = adopted && !v.payload.isReady) b.variants) :=
      hb.languages.delete
    refine List.Nodup.map_on (fun v hv w hw heq => ?_) (List.Nodup.of_map _ hleft)
    obtain ⟨hv, hvkept⟩ := mem_deleteVariants.1 hv
    obtain ⟨hw, hwkept⟩ := mem_deleteVariants.1 hw
    have hvne := hb.ne_adopted hne hfree hv hvkept
    have hwne := hb.ne_adopted hne hfree hw hwkept
    simp only [Function.comp_apply] at heq
    split at heq
    · rename_i hvr
      split at heq
      · rename_i hwr
        simp only [renames, Bool.and_eq_true, decide_eq_true_eq] at hvr hwr
        exact hb.eq_of_source hv hw hvr.1 hwr.1
      · exact absurd heq.symm hwne
    · split at heq
      · exact absurd heq hvne
      · exact eq_of_key_eq hb.languages hv hw heq
  · obtain ⟨w, hw, -, rfl⟩ := mem_relabel.1 hv
    cases hwr : renames b.sourceLanguage w with
    | true =>
        simp only [renames, Bool.and_eq_true, decide_eq_true_eq] at hwr
        exact ⟨rfl, (hb.source w hw hwr.1).2⟩
    | false =>
        rw [hwr, if_neg Bool.false_ne_true] at hrole
        rw [hrenamed w hw hrole] at hwr
        cases hwr
  · obtain ⟨v, hv, hvoices⟩ := hb.voiced hspoken
    have hkept : (v.role = .translation && v.language = adopted && !v.payload.isReady) = false := by
      rcases hvoices with hsource | hfinal
      · simp [hsource]
      · simp only [Variant.isFinalTranslation, Bool.and_eq_true] at hfinal
        simp [Payload.isReady_of_isSettled hfinal.2]
    refine ⟨_, mem_relabel.2 ⟨v, hv, hkept, rfl⟩, ?_⟩
    split
    · exact hvoices
    · exact hvoices

theorem Owned.claim (hb : Owned b) (language : Language) (text : String) :
    Owned (b.claim language text) := by
  refine ⟨hb.languages.update fun _ => rfl, fun v hv hrole => ?_, fun hspoken => ?_⟩
  · obtain ⟨w, hw, rfl⟩ := mem_setVariants.1 hv
    cases hclaimed : claimable language w with
    | true =>
        rw [hclaimed, if_pos rfl] at hrole
        cases hrole
    | false =>
        rw [hclaimed, if_neg Bool.false_ne_true] at hrole
        exact hb.source w hw hrole
  · obtain ⟨v, hv, hvoices⟩ := hb.voiced hspoken
    refine ⟨_, mem_setVariants.2 ⟨v, hv, rfl⟩, ?_⟩
    cases claimable language v with
    | true => exact .inr rfl
    | false => exact hvoices

/-- The source lane gives way to a Final translation. -/
theorem Owned.coalesceSource (hb : Distinct Variant.language b.variants)
    (hvoiced : ∃ v ∈ b.variants, v.isFinalTranslation = true) : Owned b.coalesceSource := by
  refine ⟨hb.delete, fun v hv hrole => ?_, fun _ => ?_⟩
  · obtain ⟨-, hkept⟩ := mem_deleteVariants.1 hv
    rw [hrole] at hkept
    cases hkept
  · obtain ⟨v, hv, hfinal⟩ := hvoiced
    refine ⟨v, mem_deleteVariants.2 ⟨hv, ?_⟩, .inr hfinal⟩
    simp only [Variant.isFinalTranslation, Bool.and_eq_true, decide_eq_true_eq] at hfinal
    simp [hfinal.1]

theorem Owned.replaceSource (hb : Distinct Variant.language b.variants) :
    Owned (b.replaceSource b.sourceText b.completion) := by
  refine ⟨hb.delete.concat fun hmem => ?_, fun v hv hrole => ?_, fun _ => ?_⟩
  · obtain ⟨v, hv, hlanguage⟩ := List.mem_map.1 hmem
    have hkept := (mem_deleteVariants.1 hv).2
    simp only [Bool.or_eq_false_iff, decide_eq_false_iff_not] at hkept
    exact hkept.2 hlanguage
  · rcases mem_insertVariant.1 hv with hold | rfl
    · have hkept := (mem_deleteVariants.1 hold).2
      simp only [Bool.or_eq_false_iff, decide_eq_false_iff_not] at hkept
      exact absurd hrole hkept.1
    · exact ⟨rfl, rfl⟩
  · exact ⟨_, mem_insertVariant.2 (.inr rfl), .inl rfl⟩

theorem Owned.sourceless (hb : Owned b) : Owned b.sourceless := by
  have hsilent : ∀ c : UtteranceBody, ¬Spoken c.withdrawSource := by
    intro c h
    simp [Spoken, withdrawSource] at h
  unfold UtteranceBody.sourceless
  cases hlane : b.hasSourceLane with
  | true =>
      rw [if_pos rfl]
      refine ⟨hb.languages.delete, fun v hv hrole => ?_, fun h => absurd h (hsilent _)⟩
      have hkept := (mem_deleteVariants.1 hv).2
      rw [hrole] at hkept
      cases hkept
  | false =>
      rw [if_neg Bool.false_ne_true]
      refine ⟨hb.languages, fun v hv hrole => ?_, fun h => absurd h (hsilent _)⟩
      rw [hb.hasSourceLane_of_mem hv hrole] at hlane
      cases hlane

/-! ### Each write -/

theorem Owned.sourceWritten {text : String} {completion : UtteranceCompletion} {coalesces : Bool}
    (hb : Distinct Variant.language b.variants) (htext : b.sourceText = text)
    (hcompletion : b.completion = completion)
    (hcoalesces : coalesces = true → ∃ v ∈ b.variants, v.isFinalTranslation = true)
    (desired : ℕ) : Owned (b.sourceWritten text completion coalesces desired) := by
  subst htext hcompletion
  have hwritten : Owned
      (if coalesces then b.coalesceSource else b.replaceSource b.sourceText b.completion) := by
    cases coalesces with
    | true => exact .coalesceSource hb (hcoalesces rfl)
    | false => exact .replaceSource hb
  unfold UtteranceBody.sourceWritten
  dsimp only
  split
  · exact hwritten.projectSource _
  · exact hwritten

end UtteranceBody

/-- A Final lane is written over only by what extends it. -/
theorem extendsFinalLane_of_write {existing : Variant} {payload : Payload}
    {write : TranslationLaneWrite}
    (h : laneDecision (some existing) payload write = .write)
    (hfinal : existing.isFinalTranslation = true) :
    extendsFinalLane existing payload write = true := by
  by_contra hnot
  simp only [laneDecision, hfinal, if_true] at h
  split at h
  · cases h
  · split at h
    · cases h
    · split at h
      · cases h
      · exact hnot (by simpa using h)

open UtteranceBody in
theorem AuxiliaryRow.owned {s : CaptureStore} {u : Utterance} {b : UtteranceBody} {projects : Bool}
    (h : AuxiliaryRow s u b projects) (hu : Owned u.toUtteranceBody) : Owned b := by
  cases h with
  | lane notSource writes =>
      rename_i language payload write
      have hwritten : Owned (u.upsertTranslation language payload) := by
        refine hu.upsertTranslation (fun v hv hrole hlanguage => ?_) fun v hv hlanguage hfinal => ?_
        · have hsame := (hu.source v hv hrole).1.symm.trans hlanguage
          simp [hu.hasSourceLane_of_mem hv hrole, hsame] at notSource
        · rw [← hlanguage, hu.variant_eq_some hv] at writes
          have hextends := extendsFinalLane_of_write writes hfinal
          simp only [extendsFinalLane, Bool.and_eq_true] at hextends
          exact hextends.1.2
      unfold translationWritten
      split
      · exact hwritten.project _ _
      · exact hwritten
  | relabel adopts overlaid =>
      simp only [Lanes.adopts, Bool.and_eq_true, decide_eq_true_eq, Bool.not_eq_true'] at adopts
      have hlabelled := hu.relabel adopts.1.1.2 adopts.2
      unfold relabelled
      split
      · exact hlabelled.projectSource _
      · exact hlabelled
  | claim claimable inactive => exact (hu.claim _ _).project _ _

open UtteranceBody in
/-- **Lanes stay with their owners**, whatever is written to a row. -/
theorem RowWrite.owned {s : CaptureStore} {u : Utterance} {b : UtteranceBody} {projects : Bool}
    (h : RowWrite s u b projects) (hu : Owned u.toUtteranceBody) : Owned b := by
  cases h with
  | auxiliary write => exact write.owned hu
  | revise incomplete unsettled speaker active =>
      rename_i input startMs endMs
      generalize learnedLanguage input (some u) = sourceLanguage
      have hlanguages : Distinct Variant.language
          (u.revised input sourceLanguage startMs endMs).variants := hu.languages
      refine Owned.sourceWritten hlanguages rfl rfl (fun hcoalesces => ?_) _
      obtain ⟨v, hv, hfinal⟩ := List.any_eq_true.1 hcoalesces
      exact ⟨v, hv, (Bool.and_eq_true_iff.1 hfinal).1⟩
  | withdraw incomplete active => exact hu.sourceless

end Lanes
end ZuTalk
