/-
# Receipts

A lane that becomes Final is given the next desired revision of its session, and the projection of
the session acknowledges revisions up to the desired one.  So a lane has a receipt exactly when it
is Final, no two lanes of a session have the same one, and what has been acknowledged was asked for.
-/

import ZuTalk.Lanes.Rows

namespace ZuTalk
namespace Lanes

open Capture (UtteranceCompletion NewRealtimeUtterance)
open Inbox (UtteranceVariantRole)
open Table UtteranceBody Machine

variable {s t : CaptureStore} {u : Utterance} {b : UtteranceBody}
variable {creates : Option String}

/-! ### Lanes of one row -/

/-- A lane has a receipt exactly when it is Final. -/
def Receipted (v : Variant) : Prop := 0 < v.projectionRevision ↔ v.payload.isSettled = true

/-- Where the receipt of a lane comes from: it has none, or had it before, or it is the one that is
handed out, for the lane of one language. -/
inductive FromReceipt (b : UtteranceBody) (desired : ℕ) (projects : Bool) (language : Language)
    (v : Variant) : Prop
  | none (zero : v.projectionRevision = 0) (unsettled : v.payload.isSettled = false)
  | kept {w : Variant} (mem : w ∈ b.variants) (same : w.language = v.language)
      (receipt : w.projectionRevision = v.projectionRevision)
      (settled : v.payload.isSettled = w.payload.isSettled)
  | fresh (handed : projects = true) (same : v.language = language)
      (receipt : v.projectionRevision = desired) (settled : v.payload.isSettled = true)

theorem FromReceipt.of_mem {desired : ℕ} {projects : Bool} {language : Language} {v : Variant}
    (hv : v ∈ b.variants) : FromReceipt b desired projects language v := .kept hv rfl rfl rfl

theorem Receipted.eq_zero {v : Variant} (h : Receipted v) (hv : v.payload.isSettled = false) :
    v.projectionRevision = 0 := by
  by_contra hpos
  have hsettled := h.1 (Nat.pos_of_ne_zero hpos)
  rw [hv] at hsettled
  cases hsettled

/-- The lanes of a translation that is written, with their receipts. -/
theorem mem_upsertTranslation_receipt {language : Language} {payload : Payload} {v : Variant}
    (h : v ∈ (b.upsertTranslation language payload).variants) :
    (v ∈ b.variants ∧ v.language ≠ language) ∨
      (v.language = language ∧ v.role = .translation ∧ v.payload = payload ∧
        (v.projectionRevision = 0 ∨
          ∃ w ∈ b.variants, w.language = language ∧
            w.projectionRevision = v.projectionRevision)) := by
  rcases mem_upsertTranslation h with hold | ⟨hlanguage, hrole, hpayload⟩
  · exact .inl hold
  · refine .inr ⟨hlanguage, hrole, hpayload, ?_⟩
    unfold upsertTranslation at h
    split at h
    · obtain ⟨w, hw, rfl⟩ := mem_setVariants.1 h
      by_cases hwl : w.language = language
      · right
        rw [if_pos (decide_eq_true hwl)]
        exact ⟨w, hw, hwl, rfl⟩
      · rw [if_neg (by simpa using hwl)] at hlanguage
        exact absurd hlanguage hwl
    · rename_i hnone
      rcases mem_insertVariant.1 h with hold | rfl
      · exact absurd (List.any_eq_true.2 ⟨v, hold, decide_eq_true hlanguage⟩) hnone
      · exact .inl rfl

theorem fromReceipt_translationWritten (hb : Owned b) (hr : ∀ v ∈ b.variants, Receipted v)
    {language : Language} {payload : Payload} {write : TranslationLaneWrite}
    (hsource : ∀ v ∈ b.variants, v.role = .source → v.language ≠ language)
    (hwrite : laneDecision (b.variant language) payload write = .write) (desired : ℕ) :
    ∀ v ∈ (b.translationWritten language payload desired).variants,
      FromReceipt b desired payload.isSettled language v := by
  intro v hv
  unfold translationWritten at hv
  cases hsettled : payload.isSettled with
  | true =>
      rw [hsettled, if_pos rfl] at hv
      obtain ⟨w, hw, rfl⟩ := mem_setVariants.1 hv
      rcases mem_upsertTranslation hw with ⟨hold, hne⟩ | ⟨hlanguage, hrole, hpayload⟩
      · rw [if_neg (by simp [hne])]
        exact .of_mem hold
      · rw [if_pos (by simp [hlanguage, hrole])]
        refine .fresh rfl hlanguage rfl ?_
        rw [← hsettled, ← hpayload]
  | false =>
      rw [hsettled, if_neg Bool.false_ne_true] at hv
      rcases mem_upsertTranslation_receipt hv with ⟨hold, -⟩ | ⟨hlanguage, -, rfl, hreceipt⟩
      · exact .of_mem hold
      · refine .none ?_ hsettled
        rcases hreceipt with hzero | ⟨w, hw, hwl, hsame⟩
        · exact hzero
        · -- a Final lane would not have been written over by one that is not
          rw [← hsame]
          refine (hr w hw).eq_zero (Bool.eq_false_iff.2 fun hfinal => ?_)
          have htranslation : w.role = .translation := by
            cases hrole : w.role with
            | source => exact absurd hwl (hsource w hw hrole)
            | translation => rfl
          rw [← hwl, hb.variant_eq_some hw] at hwrite
          have hextends := extendsFinalLane_of_write hwrite (by
            simp [Variant.isFinalTranslation, htranslation, hfinal])
          simp [extendsFinalLane, hsettled] at hextends

/-- A row has one source lane at most. -/
theorem countP_renames (hb : Owned b) {v : Variant} (hv : v ∈ b.variants)
    (hsource : v.role = .source) : b.variants.countP (renames b.sourceLanguage) = 1 := by
  have hnodup : b.variants.Nodup := .of_map _ hb.languages
  have hrenames : renames b.sourceLanguage v = true := by
    simp [renames, hsource, (hb.source v hv hsource).1]
  have honly : b.variants.filter (renames b.sourceLanguage) = [v] := by
    refine List.perm_singleton.1 ((List.perm_ext_iff_of_nodup (hnodup.filter _)
      (List.nodup_singleton v)).2 fun w => ?_)
    rw [List.mem_filter, List.mem_singleton]
    constructor
    · rintro ⟨hw, hwr⟩
      simp only [renames, Bool.and_eq_true, decide_eq_true_eq] at hwr
      exact hb.eq_of_source hw hv hwr.1 hsource
    · rintro rfl
      exact ⟨hv, hrenames⟩
  rw [List.countP_eq_length_filter, honly, List.length_singleton]

theorem fromReceipt_relabelled (hb : Owned b) (adopted : Language) (desired : ℕ) :
    ∀ v ∈ (b.relabelled adopted desired).variants,
      FromReceipt b desired b.projectsLabel adopted v := by
  have hkept : ∀ v ∈ (b.relabel b.sourceLanguage adopted).variants, v.role ≠ .source →
      v ∈ b.variants := by
    intro v hv hrole
    obtain ⟨w, hw, -, rfl⟩ := mem_relabel.1 hv
    split at hrole
    · rename_i hrenames
      simp only [renames, Bool.and_eq_true, decide_eq_true_eq] at hrenames
      exact absurd hrenames.1 hrole
    · rename_i hrenames
      rwa [if_neg hrenames]
  intro v hv
  unfold relabelled at hv
  split at hv
  · obtain ⟨w, hw, rfl⟩ := mem_setVariants.1 hv
    cases hrole : w.role with
    | translation =>
        rw [if_neg (by simp)]
        exact .of_mem (hkept w hw (by simp [hrole]))
    | source =>
        rw [if_pos (by simp)]
        obtain ⟨x, hx, -, rfl⟩ := mem_relabel.1 hw
        have hxrole : x.role = .source := by
          split at hrole
          · exact hrole
          · exact hrole
        obtain ⟨hxl, hxp⟩ := hb.source x hx hxrole
        have hcomplete : b.sourceLaneIsComplete = x.payload.isSettled := by
          unfold sourceLaneIsComplete
          cases hfound : b.sourceVariant with
          | none => simpa [hxrole] using List.find?_eq_none.1 hfound x hx
          | some y =>
              have hy := List.mem_of_find?_eq_some hfound
              have hyrole : y.role = .source := by simpa using List.find?_some hfound
              rw [hb.eq_of_source hx hy hxrole hyrole]
        have hrenames : renames b.sourceLanguage x = true := by
          simp [renames, hxrole, hxl]
        rw [hrenames, if_pos rfl, hcomplete]
        cases hsettled : x.payload.isSettled with
        | true =>
            refine .fresh ?_ rfl rfl hsettled
            simp [projectsLabel, countP_renames hb hx hxrole, hcomplete, hsettled]
        | false => exact .none rfl hsettled
  · rename_i hcount
    refine .of_mem (hkept v hv fun hrole => hcount ?_)
    obtain ⟨w, hw, -, rfl⟩ := mem_relabel.1 hv
    refine countP_renames hb hw ?_
    split at hrole
    · exact hrole
    · exact hrole

theorem fromReceipt_claimed (hb : Owned b) {language : Language}
    (hclaimable : b.variants.countP (claimable language) = 1) (text : String) (desired : ℕ) :
    ∀ v ∈ (b.claimed language text desired).variants, FromReceipt b desired true language v := by
  intro v hv
  obtain ⟨w, hw, rfl⟩ := mem_setVariants.1 hv
  obtain ⟨x, hx, rfl⟩ := mem_setVariants.1 hw
  cases hclaimed : claimable language x with
  | true =>
      have hxl : x.language = language := by
        simp only [claimable, Bool.and_eq_true, decide_eq_true_eq] at hclaimed
        exact hclaimed.1.1.2
      rw [if_pos rfl, if_pos (by simp [Variant.isFinalTranslation, Payload.isSettled, hxl])]
      exact .fresh rfl hxl rfl rfl
  | false =>
      rw [if_neg Bool.false_ne_true]
      rw [if_neg]
      · exact .of_mem hx
      · -- the lane of that language is the one that is claimed
        intro hfinal
        obtain ⟨y, hy, hyclaimed⟩ := List.countP_pos_iff.1 (hclaimable.symm ▸ Nat.one_pos)
        have hsame : x = y := by
          refine eq_of_key_eq hb.languages hx hy ?_
          simp only [claimable, Bool.and_eq_true, decide_eq_true_eq] at hyclaimed hfinal
          rw [hfinal.2, hyclaimed.1.1.2]
        rw [hsame, hyclaimed] at hclaimed
        cases hclaimed

theorem fromReceipt_sourceWritten {c : UtteranceBody} (hc : c.variants = b.variants) (text : String)
    (completion : UtteranceCompletion) (coalesces : Bool) (desired : ℕ) :
    ∀ v ∈ (c.sourceWritten text completion coalesces desired).variants,
      FromReceipt b desired (completion = .complete && !coalesces) c.sourceLanguage v := by
  intro v hv
  unfold sourceWritten at hv
  cases coalesces with
  | true =>
      have hv : v ∈ c.coalesceSource.variants := by simpa using hv
      exact .of_mem (hc ▸ (mem_deleteVariants.1 hv).1)
  | false =>
      have hkept : ∀ w ∈ (c.replaceSource text completion).variants,
          (w ∈ b.variants ∧ w.role ≠ .source) ∨
            w = ⟨c.sourceLanguage, .source, .ready text completion, c.revision, 0⟩ := by
        intro w hw
        rcases mem_insertVariant.1 hw with hold | hnew
        · obtain ⟨hold, hselects⟩ := mem_deleteVariants.1 hold
          simp only [Bool.or_eq_false_iff, decide_eq_false_iff_not] at hselects
          exact .inl ⟨hc ▸ hold, hselects.1⟩
        · exact .inr hnew
      cases completion with
      | complete =>
          obtain ⟨w, hw, rfl⟩ := mem_setVariants.1
            (show v ∈ ((c.replaceSource text .complete).projectSource desired).variants from hv)
          rcases hkept w hw with ⟨hold, hrole⟩ | rfl
          · rw [if_neg (by simpa using hrole)]
            exact .of_mem hold
          · rw [if_pos (by simp)]
            exact .fresh rfl rfl rfl rfl
      | partially =>
          rcases hkept v (by simpa using hv) with ⟨hold, -⟩ | rfl
          · exact .of_mem hold
          · exact .none rfl rfl

theorem fromReceipt_sourceless (desired : ℕ) (language : Language) :
    ∀ v ∈ b.sourceless.variants, FromReceipt b desired false language v := by
  intro v hv
  unfold sourceless at hv
  split at hv
  · exact .of_mem (mem_deleteVariants.1 hv).1
  · exact .of_mem hv

theorem AuxiliaryRow.fromReceipt {projects : Bool} (h : AuxiliaryRow s u b projects)
    (hu : Owned u.toUtteranceBody) (hr : ∀ v ∈ u.variants, Receipted v) :
    ∃ language, ∀ v ∈ b.variants, FromReceipt u.toUtteranceBody
      (s.desiredRevision u.sessionId + 1) projects language v := by
  cases h with
  | lane notSource writes =>
      refine ⟨_, fromReceipt_translationWritten hu hr (fun v hv hrole hlanguage => ?_) writes _⟩
      have hsame := (hu.source v hv hrole).1.symm.trans hlanguage
      simp [hu.hasSourceLane_of_mem hv hrole, hsame] at notSource
  | relabel adopts overlaid => exact ⟨_, fromReceipt_relabelled hu _ _⟩
  | claim claimable inactive => exact ⟨_, fromReceipt_claimed hu claimable _ _⟩

/-- **Receipts are handed out once**, whatever is written to a row. -/
theorem RowWrite.fromReceipt {projects : Bool} (h : RowWrite s u b projects)
    (hu : Owned u.toUtteranceBody) (hr : ∀ v ∈ u.variants, Receipted v) :
    ∃ language, ∀ v ∈ b.variants, FromReceipt u.toUtteranceBody
      (s.desiredRevision u.sessionId + 1) projects language v := by
  cases h with
  | auxiliary write => exact write.fromReceipt hu hr
  | @revise input startMs endMs incomplete unsettled speaker active =>
      generalize learnedLanguage input (some u) = sourceLanguage
      exact ⟨_, fromReceipt_sourceWritten (b := u.toUtteranceBody)
        (c := u.revised input sourceLanguage startMs endMs) rfl _ _ _ _⟩
  | withdraw incomplete active => exact ⟨und, fromReceipt_sourceless _ _⟩

/-! ### Desired revisions -/

/-- A statement that leaves the desired revisions of the runs alone. -/
theorem desiredRevision_editRuns {selects : Run → Bool} {set : RunBody → RunBody}
    (h : ∀ run ∈ s.runs, selects run = true →
      (set run.toRunBody).desiredRevision = run.desiredRevision) (sessionId : String) :
    (s.editRuns selects set).desiredRevision sessionId = s.desiredRevision sessionId := by
  unfold CaptureStore.desiredRevision
  rw [run_editRuns]
  cases hrun : s.run sessionId with
  | none => rfl
  | some run =>
      rw [Option.map_some, Option.elim_some, Option.elim_some]
      split
      · rename_i hselects
        exact h run (mem_of_run hrun).1 hselects
      · rfl

theorem desiredRevision_bumped_of_ne {sessionId other : String} (hne : other ≠ sessionId) :
    (s.bumped sessionId).desiredRevision other = s.desiredRevision other := by
  unfold CaptureStore.desiredRevision CaptureStore.bumped
  rw [run_editRuns]
  cases hrun : s.run other with
  | none => rfl
  | some run =>
      have hid := (mem_of_run hrun).2
      rw [Option.map_some, if_neg (by simpa [hid] using hne)]

/-- The session of a row has a run. -/
theorem run_isSome_of_mem (hu : u ∈ s.utterances) : (s.run u.sessionId).isSome = true := by
  obtain ⟨run, hrun, hid⟩ := s.captured u hu
  rw [← hid]
  unfold CaptureStore.run
  rw [s.sessions.find?_eq_some hrun]
  rfl

theorem desiredRevision_written (hu : u ∈ s.utterances) (b : UtteranceBody) (projects : Bool) :
    (s.written u b projects).desiredRevision u.sessionId =
      s.desiredRevision u.sessionId + if projects then 1 else 0 := by
  unfold CaptureStore.written
  cases projects with
  | false => rfl
  | true =>
      rw [if_pos rfl, if_pos rfl]
      refine desiredRevision_bumped (s.editUtterance u.id fun _ => b) u.sessionId ?_
      unfold CaptureStore.bumped
      rw [run_editRuns, Option.isSome_map]
      exact run_isSome_of_mem (s := s) hu

theorem desiredRevision_written_of_ne {sessionId : String} (hne : sessionId ≠ u.sessionId)
    (b : UtteranceBody) (projects : Bool) :
    (s.written u b projects).desiredRevision sessionId = s.desiredRevision sessionId := by
  unfold CaptureStore.written
  split
  · exact desiredRevision_bumped_of_ne hne
  · rfl

theorem desiredRevision_insertRun {run : Run} (new : run.desiredRevision = 0)
    (h : s.insertRun run = .ok t) (sessionId : String) :
    t.desiredRevision sessionId = s.desiredRevision sessionId := by
  unfold CaptureStore.desiredRevision CaptureStore.run
  rw [(insertRun_eq_ok h).runs, List.find?_append]
  cases hrun : s.runs.find? (·.sessionId = sessionId) with
  | some found => rfl
  | none =>
      by_cases hsession : run.sessionId = sessionId
      · simp [hsession, new]
      · simp [hsession]

/-- Desired revisions only grow. -/
theorem Write.desiredRevision_le (h : Write creates s t) (sessionId : String) :
    s.desiredRevision sessionId ≤ t.desiredRevision sessionId := by
  have hwritten : ∀ {w : CaptureStore} {u : Utterance} (hu : u ∈ w.utterances) b projects,
      w.desiredRevision sessionId ≤ (w.written u b projects).desiredRevision sessionId := by
    intro w u hu b projects
    by_cases hsession : sessionId = u.sessionId
    · rw [hsession, desiredRevision_written hu]
      exact Nat.le_add_right _ _
    · rw [desiredRevision_written_of_ne hsession]
  cases h with
  | auxiliary write =>
      cases write with
      | row mem write => exact hwritten mem _ _
      | collect | bind | unbind => exact le_refl _
      | fact active incomplete unbound =>
          unfold CaptureStore.writtenFact CaptureStore.upsertFact
          split <;> exact le_refl _
  | row mem write => exact hwritten mem _ _
  | @insert input sequence startMs endMs u w new inserted speaker active =>
      obtain ⟨hrows, hruns, -⟩ := insertUtterance_eq_ok inserted
      have hsame : w.desiredRevision sessionId = s.desiredRevision sessionId := by
        unfold CaptureStore.desiredRevision CaptureStore.run
        rw [hruns]
      rw [← hsame]
      refine hwritten ?_ _ _
      rw [hrows]
      exact List.mem_append_right _ (.head _)
  | runs desired applied state => exact (desiredRevision_editRuns desired sessionId).ge
  | capture created new inserted => exact (desiredRevision_insertRun new.1 inserted _).ge
  | delete | stage | cancel | correct | speak | jobs => exact le_refl _

/-! ### Lanes of the tables -/

/-- Where the receipt of a stored lane comes from. -/
inductive LaneFrom (s t : CaptureStore) (id : String) (language : Language) (v : Utterance)
    (x : Variant) : Prop
  | none (zero : x.projectionRevision = 0) (unsettled : x.payload.isSettled = false)
  | kept {u : Utterance} {w : Variant} (mem : u ∈ s.utterances)
      (row : v.toUtteranceKey = u.toUtteranceKey) (lane : w ∈ u.variants)
      (same : w.language = x.language) (receipt : w.projectionRevision = x.projectionRevision)
      (settled : x.payload.isSettled = w.payload.isSettled)
  | fresh (row : v.id = id) (same : x.language = language)
      (receipt : x.projectionRevision = s.desiredRevision v.sessionId + 1)
      (settled : x.payload.isSettled = true)
      (handed : t.desiredRevision v.sessionId = s.desiredRevision v.sessionId + 1)

/-- A write that leaves the lanes alone. -/
theorem laneFrom_of_same (h : ∀ v ∈ t.utterances, ∃ u ∈ s.utterances,
      v.toUtteranceKey = u.toUtteranceKey ∧ v.variants = u.variants) :
    ∃ id language, ∀ v ∈ t.utterances, ∀ x ∈ v.variants, LaneFrom s t id language v x := by
  refine ⟨"", und, fun v hv x hx => ?_⟩
  obtain ⟨u, hu, hkey, hvariants⟩ := h v hv
  exact .kept hu hkey (hvariants ▸ hx) rfl rfl rfl

theorem laneFrom_written (mem : u ∈ s.utterances) (hu : Owned u.toUtteranceBody)
    (hr : ∀ v ∈ u.variants, Receipted v) {projects : Bool} (write : RowWrite s u b projects) :
    ∃ id language, ∀ v ∈ (s.written u b projects).utterances, ∀ x ∈ v.variants,
      LaneFrom s (s.written u b projects) id language v x := by
  obtain ⟨language, hlanes⟩ := write.fromReceipt hu hr
  refine ⟨u.id, language, fun v hv x hx => ?_⟩
  rcases of_mem_written mem hv with rfl | ⟨hold, -⟩
  · cases hlanes x hx with
    | none zero unsettled => exact .none zero unsettled
    | kept lane same receipt settled => exact .kept mem rfl lane same receipt settled
    | fresh handed same receipt settled =>
        refine .fresh rfl same receipt settled ?_
        rw [desiredRevision_written mem, handed, if_pos rfl]
  · exact .kept hold rfl hx rfl rfl rfl

/-- **One lane a write gets a receipt**, the next of its session; all others keep theirs. -/
theorem Write.laneFrom (h : Write creates s t) (hs : AllOwned s)
    (hr : ∀ u ∈ s.utterances, ∀ v ∈ u.variants, Receipted v) :
    ∃ id language, ∀ v ∈ t.utterances, ∀ x ∈ v.variants, LaneFrom s t id language v x := by
  have hsame : ∀ {w : CaptureStore}, w.utterances = s.utterances →
      ∃ id language, ∀ v ∈ w.utterances, ∀ x ∈ v.variants, LaneFrom s w id language v x := by
    intro w hw
    exact laneFrom_of_same fun v hv => ⟨v, hw ▸ hv, rfl, rfl⟩
  have hdelete : ∀ id, ∃ i language, ∀ v ∈ (s.deleteUtterance id).utterances, ∀ x ∈ v.variants,
      LaneFrom s (s.deleteUtterance id) i language v x := fun id =>
    laneFrom_of_same fun v hv => ⟨v, mem_of_mem_delete hv, rfl, rfl⟩
  cases h with
  | auxiliary write =>
      cases write with
      | row mem write => exact laneFrom_written mem (hs _ mem) (hr _ mem) (.auxiliary write)
      | collect mem empty unedited => exact hdelete _
      | bind mem session => exact hsame rfl
      | unbind => exact hsame rfl
      | fact active incomplete unbound => exact hsame (utterances_upsertFact _ _ _)
  | row mem write => exact laneFrom_written mem (hs _ mem) (hr _ mem) write
  | @insert input sequence startMs endMs u w new inserted speaker active =>
      obtain ⟨hrows, hruns, -⟩ := insertUtterance_eq_ok inserted
      have hmem : u ∈ w.utterances := by
        rw [hrows]
        exact List.mem_append_right _ (.head _)
      have hdesired : w.desiredRevision u.sessionId = s.desiredRevision u.sessionId := by
        unfold CaptureStore.desiredRevision CaptureStore.run
        rw [hruns]
      have hlanes := fromReceipt_sourceWritten (b := u.toUtteranceBody) (c := u.toUtteranceBody)
        rfl input.sourceText input.completion false (s.desiredRevision u.sessionId + 1)
      refine ⟨u.id, u.sourceLanguage, fun v hv x hx => ?_⟩
      rcases of_mem_written hmem hv with rfl | ⟨hold, hne⟩
      · cases hlanes x hx with
        | none zero unsettled => exact .none zero unsettled
        | kept lane same receipt settled =>
            subst new
            cases lane
        | fresh handed same receipt settled =>
            refine .fresh rfl same receipt settled ?_
            rw [desiredRevision_written hmem, hdesired, if_pos (by simpa using handed)]
      · rw [hrows, List.mem_append, List.mem_singleton] at hold
        rcases hold with hold | rfl
        · exact .kept hold rfl hx rfl rfl rfl
        · exact absurd rfl hne
  | delete mem incomplete unread active => exact hdelete _
  | capture created new inserted => exact hsame ((insertRun_eq_ok inserted).utterances)
  | stage | cancel | correct | runs | speak | jobs => exact hsame rfl

/-- What is acknowledged was asked for. -/
def Acknowledged (s : CaptureStore) : Prop :=
  ∀ run ∈ s.runs, run.appliedRevision ≤ run.desiredRevision

theorem Write.acknowledged (h : Write creates s t) (hs : Acknowledged s) : Acknowledged t := by
  have hwritten : ∀ {w : CaptureStore} (u : Utterance) b projects, Acknowledged w →
      Acknowledged (w.written u b projects) := by
    intro w u b projects hw
    unfold CaptureStore.written
    split
    · refine forall_update hw fun run hrun _ hle => ?_
      exact hle.trans (Nat.le_succ _)
    · exact hw
  cases h with
  | auxiliary write =>
      cases write with
      | row mem write => exact hwritten _ _ _ hs
      | collect | bind | unbind => exact hs
      | fact active incomplete unbound =>
          unfold CaptureStore.writtenFact CaptureStore.upsertFact
          split <;> exact hs
  | row mem write => exact hwritten _ _ _ hs
  | insert new inserted speaker active =>
      refine hwritten _ _ _ fun run hrun => hs run ?_
      rwa [← (insertUtterance_eq_ok inserted).2.1]
  | runs desired applied state =>
      refine forall_update hs fun run hrun hselects hle => ?_
      rw [desired run hrun hselects]
      exact (applied run hrun hselects).2 hle
  | capture created new inserted =>
      intro run hrun
      rw [(insertRun_eq_ok inserted).runs, List.mem_append, List.mem_singleton] at hrun
      rcases hrun with hold | rfl
      · exact hs run hold
      · exact new.2.trans_le (Nat.zero_le _)
  | delete | stage | cancel | correct | speak | jobs => exact hs

/-! ### Every run -/

/-- Receipts are given to Final lanes, out of what was asked for, and each to one lane. -/
structure Receipts (s : CaptureStore) : Prop where
  settled : ∀ u ∈ s.utterances, ∀ v ∈ u.variants, Receipted v
  desired : ∀ u ∈ s.utterances, ∀ v ∈ u.variants,
    v.projectionRevision ≤ s.desiredRevision u.sessionId
  distinct : ∀ u ∈ s.utterances, ∀ v ∈ u.variants, ∀ u' ∈ s.utterances, ∀ v' ∈ u'.variants,
    u'.sessionId = u.sessionId → 0 < v.projectionRevision →
      v'.projectionRevision = v.projectionRevision → u'.id = u.id ∧ v'.language = v.language

theorem Write.receipts (h : Write creates s t) (hs : AllOwned s) (hr : Receipts s) :
    Receipts t := by
  obtain ⟨id, language, hlanes⟩ := h.laneFrom hs hr.settled
  refine ⟨fun v hv x hx => ?_, fun v hv x hx => ?_, fun v hv x hx v' hv' x' hx' => ?_⟩
  · cases hlanes v hv x hx with
    | none zero unsettled => simp [Receipted, zero, unsettled]
    | kept mem row lane same receipt settled =>
        have hw := hr.settled _ mem _ lane
        unfold Receipted at hw ⊢
        rw [← receipt, settled]
        exact hw
    | fresh row same receipt settled handed => simp [Receipted, receipt, settled]
  · cases hlanes v hv x hx with
    | none zero unsettled => exact zero ▸ Nat.zero_le _
    | @kept u w mem row lane same receipt settled =>
        have hsession : v.sessionId = u.sessionId := congrArg UtteranceKey.sessionId row
        rw [← receipt, hsession]
        exact (hr.desired u mem w lane).trans (h.desiredRevision_le _)
    | fresh row same receipt settled handed => exact (receipt.trans handed.symm).le
  · intro hsession hpos hequal
    cases hlanes v hv x hx with
    | none zero unsettled => exact absurd zero hpos.ne'
    | @kept u w mem row lane same receipt settled =>
        have husession : v.sessionId = u.sessionId := congrArg UtteranceKey.sessionId row
        have huid : v.id = u.id := congrArg UtteranceKey.id row
        cases hlanes v' hv' x' hx' with
        | none zero unsettled => exact absurd (hequal.symm.trans zero) hpos.ne'
        | @kept u' w' mem' row' lane' same' receipt' settled' =>
            have husession' : v'.sessionId = u'.sessionId := congrArg UtteranceKey.sessionId row'
            have huid' : v'.id = u'.id := congrArg UtteranceKey.id row'
            have hkept := hr.distinct u mem w lane u' mem' w' lane'
              (by rw [← husession', hsession, husession]) (by rw [receipt]; exact hpos)
              (by rw [receipt', hequal, receipt])
            rw [huid, huid', ← same, ← same']
            exact hkept
        | fresh row' same' receipt' settled' handed' =>
            have hle := hr.desired u mem w lane
            rw [hsession, husession] at receipt'
            omega
    | fresh row same receipt settled handed =>
        cases hlanes v' hv' x' hx' with
        | none zero unsettled => exact absurd (hequal.symm.trans zero) hpos.ne'
        | @kept u' w' mem' row' lane' same' receipt' settled' =>
            have husession' : v'.sessionId = u'.sessionId := congrArg UtteranceKey.sessionId row'
            have hle := hr.desired u' mem' w' lane'
            rw [← husession', hsession] at hle
            omega
        | fresh row' same' receipt' settled' handed' =>
            exact ⟨row'.trans row.symm, same'.trans same.symm⟩

theorem receipts_withoutSpeaker (id : String) (hr : Receipts s) :
    Receipts (s.withoutSpeaker id) := by
  have hold : ∀ v ∈ (s.withoutSpeaker id).utterances, ∃ u ∈ s.utterances,
      v.toUtteranceKey = u.toUtteranceKey ∧ v.variants = u.variants := by
    intro v hv
    obtain ⟨u, hu, hkey, hbody⟩ := mem_withoutSpeaker hv
    exact ⟨u, hu, hkey, by rw [hbody]⟩
  refine ⟨fun v hv => ?_, fun v hv => ?_, fun v hv x hx v' hv' x' hx' hsession => ?_⟩
  · obtain ⟨u, hu, -, hlanes⟩ := hold v hv
    rw [hlanes]
    exact hr.settled u hu
  · obtain ⟨u, hu, hkey, hlanes⟩ := hold v hv
    rw [hlanes, hkey]
    exact hr.desired u hu
  · obtain ⟨u, hu, hkey, hlanes⟩ := hold v hv
    obtain ⟨u', hu', hkey', hlanes'⟩ := hold v' hv'
    rw [hkey, hkey'] at hsession
    rw [hkey, hkey']
    exact hr.distinct u hu x (hlanes ▸ hx) u' hu' x' (hlanes' ▸ hx') hsession

theorem desiredRevision_withoutSession {sessionId other : String} (hne : other ≠ sessionId) :
    (s.withoutSession sessionId).desiredRevision other = s.desiredRevision other := by
  unfold CaptureStore.desiredRevision
  rw [run_withoutSession hne]

theorem receipts_withoutSession (sessionId : String) (hr : Receipts s) :
    Receipts (s.withoutSession sessionId) := by
  have hold : ∀ u ∈ (s.withoutSession sessionId).utterances, u ∈ s.utterances :=
    fun u hu => mem_of_mem_delete hu
  refine ⟨fun u hu => hr.settled u (hold u hu), fun u hu v hv => ?_,
    fun u hu v hv u' hu' => hr.distinct u (hold u hu) v hv u' (hold u' hu')⟩
  have hne : u.sessionId ≠ sessionId := by simpa using (List.mem_filter.1 hu).2
  rw [desiredRevision_withoutSession hne]
  exact hr.desired u (hold u hu) v hv

section Runs

variable {toLowercase : Char → List Char} {ops : List Op}

theorem receipts_of_run (h : run (step toLowercase) emptyStore ops = some t) :
    Receipts t ∧ Acknowledged t := by
  have hall : AllOwned t ∧ Receipts t ∧ Acknowledged t := by
    refine run_invariant_of_write (I := fun s => AllOwned s ∧ Receipts s ∧ Acknowledged s) ?_
      (fun hwrite hs => ?_) (fun s id hs => ?_) (fun s sessionId hs => ?_) h
    · refine ⟨fun u hu => ?_, ⟨fun u hu => ?_, fun u hu => ?_, fun u hu => ?_⟩, fun run hrun => ?_⟩
      · cases hu
      · cases hu
      · cases hu
      · cases hu
      · cases hrun
    · exact ⟨hwrite.allOwned hs.1, hwrite.receipts hs.1 hs.2.1, hwrite.acknowledged hs.2.2⟩
    · exact ⟨allOwned_withoutSpeaker id hs.1, receipts_withoutSpeaker id hs.2.1, hs.2.2⟩
    · exact ⟨allOwned_withoutSession sessionId hs.1, receipts_withoutSession sessionId hs.2.1,
        fun run hrun => hs.2.2 run (mem_of_mem_delete hrun)⟩
  exact hall.2

/-- **Receipts are distinct.** In any state the store can be in, a lane has a receipt exactly when
it is Final, the receipt was asked for, and no other lane of its session has it. -/
theorem receipts_are_distinct (h : run (step toLowercase) emptyStore ops = some t)
    (hu : u ∈ t.utterances) {v : Variant} (hv : v ∈ u.variants) :
    (0 < v.projectionRevision ↔ v.payload.isSettled = true) ∧
      v.projectionRevision ≤ t.desiredRevision u.sessionId ∧
      ∀ u' ∈ t.utterances, ∀ v' ∈ u'.variants, u'.sessionId = u.sessionId →
        0 < v.projectionRevision → v'.projectionRevision = v.projectionRevision →
          u' = u ∧ v' = v := by
  obtain ⟨hr, -⟩ := receipts_of_run h
  refine ⟨hr.settled u hu v hv, hr.desired u hu v hv, fun u' hu' v' hv' hsession hpos hequal => ?_⟩
  obtain ⟨hid, hlanguage⟩ := hr.distinct u hu v hv u' hu' v' hv' hsession hpos hequal
  obtain rfl := eq_of_id_eq hu' hu hid
  exact ⟨rfl, eq_of_key_eq (allOwned_of_run h u' hu').languages hv' hv hlanguage⟩

theorem receipts_are_distinct_heard : ∃ u ∈ heardStore.utterances, ∃ v ∈ u.variants,
    0 < v.projectionRevision ∧ v.payload.isSettled = true ∧
      v.projectionRevision ≤ heardStore.desiredRevision u.sessionId := by
  obtain ⟨u, hu, v, hv, hpos⟩ : ∃ u ∈ heardStore.utterances, ∃ v ∈ u.variants,
      0 < v.projectionRevision := by decide +kernel
  obtain ⟨hsettled, hdesired, -⟩ := receipts_are_distinct run_heard hu hv
  exact ⟨u, hu, v, hv, hpos, hsettled.1 hpos, hdesired⟩

end Runs

end Lanes
end ZuTalk
