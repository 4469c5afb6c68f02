/-
# Edits replace what was read

An edit is staged on a Final lane and committed later, when the lane has been projected; any calls
may come in between.  An edit names the revision of the lane and the number of the correction it was
made over (`StagedOn`), and it is committed only over the same two.  These say all there is to say:
revisions of a Final lane are never used twice for different texts, nor numbers for different
corrections.  So what a committed edit replaces is what the user had read.
-/

import ZuTalk.Lanes.Corrections

namespace ZuTalk
namespace Lanes

open Inbox (UtteranceVariantRole)
open Table UtteranceBody Transactions Machine

variable {s t : CaptureStore} {u u' : Utterance} {v v' : Variant} {m : Mutation} {o : Override}

/-- The row, the lane and the number of the correction an edit is made over. -/
structure StagedOn (s : CaptureStore) (m : Mutation) (u : Utterance) (v : Variant) : Prop where
  mem : u ∈ s.utterances
  id : u.id = m.utteranceId
  session : u.sessionId = m.sessionId
  lane : u.variant m.laneLanguage = some v
  settled : v.payload.isSettled = true
  role : laneOf v = m.lane
  variantRevision : v.revision = m.expectedVariantRevision
  editRevision : s.laneEditRevision m.utteranceId m.laneLanguage = m.expectedRevision

/-! ### Staging and committing -/

/-- What is staged. -/
theorem stageReplacement_commits (mutationId utteranceId language targetText : String)
    (expectedRevision : ℕ) (s : CaptureStore) :
    Commits (fun _ t => t = s ∨ ∃ m u v, StagedOn s m u v ∧ m.targetText = targetText ∧
        t = { s with mutations := s.mutations ++ [m] })
      (stageReplacement mutationId utteranceId language targetText expectedRevision) s := by
  refine checked_bind fun _ _ => checked_bind fun _ _ => Commits.get_bind ?_
  refine Commits.require_bind fun u hu => Commits.require_bind fun v hv => ?_
  obtain ⟨hmem, hid⟩ := mem_of_utteranceById hu
  refine Commits.refuse_bind fun hsettled => Commits.check_bind fun _ _ => ?_
  refine Commits.refuse_bind fun _ => Commits.refuse_bind fun hedit => ?_
  dsimp only
  split
  · exact commits_check fun _ _ => .inl rfl
  · refine Commits.refuse_bind fun _ => Commits.modify (.inr ⟨_, u, v, ?_, rfl, rfl⟩)
    refine ⟨hmem, rfl, rfl, hv, by simpa using hsettled, rfl, rfl, ?_⟩
    rw [hid]
    simpa using hedit

/-- What is committed. -/
theorem commitMutation_commits (mutationId : String) (s : CaptureStore) :
    Commits (fun _ t => ∃ m u v, s.mutations.find? (·.id = mutationId) = some m ∧
        StagedOn s m u v ∧ t.overrides =
          upsertOverride (m.committed u v (m.expectedRevision + 1)) s.overrides)
      (commitMutation mutationId) s := by
  refine checked_bind fun _ _ => Commits.get_bind (Commits.require_bind fun m hm => ?_)
  refine Commits.refuse_bind fun _ => Commits.require_bind fun u hu => ?_
  obtain ⟨hmem, hid⟩ := mem_of_utteranceById hu
  refine Commits.refuse_bind fun hsession => Commits.require_bind fun v hv => ?_
  refine Commits.refuse_bind fun hchanged => Commits.check_bind fun _ _ => ?_
  refine Commits.refuse_bind fun hedit => Commits.modify_bind ?_
  obtain ⟨⟨hlane, hsettled⟩, hrevision⟩ : (laneOf v = m.lane ∧ v.payload.isSettled = true) ∧
      v.revision = m.expectedVariantRevision := by simpa using hchanged
  have hedit : s.laneEditRevision m.utteranceId m.laneLanguage = m.expectedRevision := by
    simpa using hedit
  refine Commits.get_bind (Commits.require_bind fun _ _ => (visible_commits _ _).mono ?_)
  rintro shown t ⟨rfl, -⟩
  refine ⟨m, u, v, hm, ⟨hmem, hid, by simpa using hsession, hv, hsettled, hlane, hrevision, hedit⟩,
    ?_⟩
  rw [hedit]

/-! ### What an edit is made over -/

/-- The lane of an edit is settled, and with it the row. -/
theorem StagedOn.settled_row (h : StagedOn s m u v) (hu : Owned u.toUtteranceBody) :
    Settled u.toUtteranceBody := by
  obtain ⟨hmem, -⟩ := mem_of_variant h.lane
  cases hrole : v.role with
  | source => exact .inl ((settled_iff_of_source hu hmem hrole).1 h.settled)
  | translation =>
      obtain ⟨text, hpayload⟩ := Payload.isSettled_iff.1 h.settled
      exact .inr ⟨v, hmem, text, hrole, hpayload⟩

/-- **The revision of a Final lane says what its text is.** -/
theorem StagedOn.payload_eq (h : StagedOn s m u v) (h' : StagedOn t m u' v')
    (hu : Owned u.toUtteranceBody) (hu' : Owned u'.toUtteranceBody)
    (hgoes : Goes u.toUtteranceBody u'.toUtteranceBody) : v'.payload = v.payload := by
  obtain ⟨hmem, hlanguage⟩ := mem_of_variant h.lane
  obtain ⟨hmem', hlanguage'⟩ := mem_of_variant h'.lane
  have hlane : laneOf v' = laneOf v := h'.role.trans h.role.symm
  cases hrole : v.role with
  | source =>
      have hcomplete := (settled_iff_of_source hu hmem hrole).1 h.settled
      obtain ⟨w, hw, hwrole, hpayload, -⟩ := hgoes.source hcomplete v hmem hrole
      have hrole' : v'.role = .source :=
        laneOf_eq_source.1 (hlane.trans (laneOf_eq_source.2 hrole))
      rw [hu'.eq_of_source hmem' hw hrole' hwrole]
      exact hpayload
  | translation =>
      obtain ⟨text, hpayload⟩ := Payload.isSettled_iff.1 h.settled
      obtain ⟨w, hw, hgrown⟩ := hgoes.finals v hmem text ⟨hrole, hpayload⟩
      obtain rfl : v' = w := by
        refine eq_of_key_eq hu'.languages hmem' hw ?_
        rw [hlanguage', hgrown.language, hlanguage]
      exact hgrown.payload (h'.variantRevision.trans h.variantRevision.symm)

/-- A lane without a correction has none of a later number. -/
theorem exists_of_laneEditRevision_pos {utteranceId : String} {language : Language}
    (h : 0 < s.laneEditRevision utteranceId language) :
    ∃ o ∈ s.overrides, o.utteranceId = utteranceId ∧ o.laneLanguage = language := by
  unfold CaptureStore.laneEditRevision at h
  cases hfound : s.overrides.find? fun o =>
      o.utteranceId = utteranceId && o.laneLanguage = language with
  | none => simp [hfound] at h
  | some o => exact ⟨o, List.mem_of_find?_eq_some hfound, by simpa using List.find?_some hfound⟩

/-- **The number of a correction says what it is.** -/
theorem StagedOn.overrides_iff (h : StagedOn s m u v) (h' : StagedOn t m u' v')
    (hs : Corrections s) (ht : Corrections t) (hstand : CorrectionsStand u.sessionId s t)
    (hid : o.utteranceId = m.utteranceId) (hlanguage : o.laneLanguage = m.laneLanguage) :
    o ∈ s.overrides ↔ o ∈ t.overrides := by
  have hforward : ∀ p ∈ s.overrides, p.utteranceId = m.utteranceId →
      p.laneLanguage = m.laneLanguage → p ∈ t.overrides := by
    intro p hp hpid hplanguage
    obtain ⟨-, q, hq, hreplaced⟩ := hstand u h.mem rfl p hp (hpid.trans h.id.symm)
    have hsame : q.editRevision = p.editRevision := by
      rw [← laneEditRevision_eq ht hq, ← laneEditRevision_eq hs hp, hreplaced.utteranceId,
        hreplaced.laneLanguage, hpid, hplanguage, h.editRevision, h'.editRevision]
    exact hreplaced.eq_of_editRevision hsame ▸ hq
  refine ⟨fun ho => hforward o ho hid hlanguage, fun ho => ?_⟩
  obtain ⟨w, -, -, hfits⟩ := ht.fits o ho
  have hpos : 0 < s.laneEditRevision m.utteranceId m.laneLanguage := by
    rw [h.editRevision, ← h'.editRevision, ← hid, ← hlanguage, laneEditRevision_eq ht ho]
    exact hfits.edited
  obtain ⟨p, hp, hpid, hplanguage⟩ := exists_of_laneEditRevision_pos hpos
  have hmem := hforward p hp hpid hplanguage
  rw [eq_of_key_eq ht.distinct ho hmem
    (Prod.ext (hid.trans hpid.symm) (hlanguage.trans hplanguage.symm))]
  exact hp

/-! ### Every run -/

section Runs

variable {toLowercase : Char → List Char} {ops more : List Op} {s' t' : CaptureStore}
variable {mutationId utteranceId language targetText : String} {expectedRevision : ℕ}

/-- **Edits replace what was read.**  From any state the store can be in, an edit is staged, any
calls come that do not delete its session, and the edit is committed: the lane still says what it
said when the edit was staged, with the correction it had then, if any, and no other; and the text
of the edit is its correction now. -/
theorem edits_replace_what_was_read (hs : run (step toLowercase) emptyStore ops = some s)
    (hstage : step toLowercase s (.stageUtteranceVariantReplacement mutationId utteranceId language
      targetText expectedRevision) = some s')
    (hm : m ∈ s'.mutations) (hnew : m ∉ s.mutations)
    (h : run (step toLowercase) s' more = some t)
    (hkept : ∀ op ∈ more, op.purges ≠ some m.sessionId)
    (hpending : t.mutations.find? (·.id = m.id) = some m)
    (hcommit : step toLowercase t (.commitProjectionMutation m.id) = some t')
    (hdone : m ∉ t'.mutations) :
    ∃ u v u' v', StagedOn s m u v ∧ StagedOn t m u' v' ∧ u'.toUtteranceKey = u.toUtteranceKey ∧
      v'.payload = v.payload ∧
      (∀ o : Override, o.utteranceId = m.utteranceId → o.laneLanguage = m.laneLanguage →
        (o ∈ s.overrides ↔ o ∈ t.overrides)) ∧
      ∃ o ∈ t'.overrides, o.utteranceId = m.utteranceId ∧ o.laneLanguage = m.laneLanguage ∧
        o.text = targetText := by
  obtain ⟨u, v, hstaged, htext⟩ : ∃ u v, StagedOn s m u v ∧ m.targetText = targetText := by
    rcases (stageReplacement_commits mutationId utteranceId language targetText expectedRevision
      s).finalState with hsame | hstaged
    · refine absurd ?_ hnew
      rw [← Option.some.inj hstage] at hm
      exact hsame ▸ hm
    · rcases hstaged with hsame | ⟨m', u, v, hstaged, htext, hafter⟩
      · refine absurd ?_ hnew
        rw [← Option.some.inj hstage] at hm
        exact hsame ▸ hm
      · have hmutations : s'.mutations = s.mutations ++ [m'] := by
          rw [← Option.some.inj hstage]
          exact congrArg CaptureStore.mutations hafter
        rw [hmutations] at hm
        rcases List.mem_append.1 hm with hold | hm
        · exact absurd hold hnew
        · rw [List.mem_singleton.1 hm]
          exact ⟨u, v, hstaged, htext⟩
  obtain ⟨u', v', hstaged', hoverrides⟩ : ∃ u' v', StagedOn t m u' v' ∧ t'.overrides =
      upsertOverride (m.committed u' v' (m.expectedRevision + 1)) t.overrides := by
    rcases (silent_commits (commitMutation_commits m.id t)).finalState with
      hsame | ⟨m', u', v', hfound, hstaged', hafter⟩
    · refine absurd ?_ hdone
      rw [← Option.some.inj hcommit]
      have hafter : after toLowercase t (.commitProjectionMutation m.id) = t := hsame
      rw [hafter]
      exact List.mem_of_find?_eq_some hpending
    · obtain rfl := Option.some.inj (hfound.symm.trans hpending)
      refine ⟨u', v', hstaged', ?_⟩
      rw [← Option.some.inj hcommit]
      exact hafter
  have hrun : run (step toLowercase) s (.stageUtteranceVariantReplacement mutationId utteranceId
      language targetText expectedRevision :: more) = some t := by
    rw [run_cons, hstage]
    exact h
  have hkept : ∀ op ∈ Op.stageUtteranceVariantReplacement mutationId utteranceId language
      targetText expectedRevision :: more, op.purges ≠ some u.sessionId := by
    rw [hstaged.session]
    exact List.forall_mem_cons.2 ⟨by simp [Op.purges], hkept⟩
  have hsound := sound_of_run hs
  have hsound' := run_sound hsound hrun
  obtain ⟨w, hw, hkey, hgoes⟩ := run_stands hsound.1 hrun hkept u hstaged.mem rfl
    (hstaged.settled_row (hsound.1 u hstaged.mem))
  obtain rfl : w = u' := by
    refine eq_of_id_eq hw hstaged'.mem ?_
    rw [hstaged'.id, ← hstaged.id]
    exact congrArg UtteranceKey.id hkey
  refine ⟨u, v, w, v', hstaged, hstaged', hkey, ?_, fun o hid hlanguage => ?_, ?_⟩
  · exact hstaged.payload_eq hstaged' (hsound.1 u hstaged.mem) (hsound'.1 w hw) hgoes
  · exact hstaged.overrides_iff hstaged' hsound.2 hsound'.2
      (run_correctionsStand hsound hrun hkept) hid hlanguage
  · exact ⟨_, hoverrides ▸ mem_upsertOverride_self _ _, rfl, rfl, htext⟩

/-- An edit of the French translation is staged. -/
def stagedStore : CaptureStore :=
  after lowerAscii heardStore (.stageUtteranceVariantReplacement "m" "u" "fr" "salut" 0)

/-- Before it is committed the Italian translation and a fact in French come, and there are another
French translation and another edit of it. -/
def meanwhile : List Op :=
  [.upsertTranslationVariant "n" 0 ⟨"it", some "ciao", .ready, some .complete⟩,
    .upsertTranslationInboxItem { heardFact with
      key := ⟨"n", 0, 0, 0, "fr"⟩, translatedText := some "coucou" },
    .upsertTranslationVariant "n" 0 ⟨"fr", some "bonsoir", .ready, some .complete⟩,
    .stageUtteranceVariantReplacement "m2" "u" "fr" "coucou" 0]

/-- The tables when it is committed. -/
def meanwhileStore : CaptureStore := meanwhile.foldl (after lowerAscii) stagedStore

theorem edits_replace_what_was_read_corrected :
    (∃ u ∈ meanwhileStore.utterances, ∃ v ∈ u.variants, v.payload = .ready "ciao" .complete) ∧
      ∃ (u u' : Utterance) (v v' : Variant) (m : Mutation),
        StagedOn heardStore m u v ∧ StagedOn meanwhileStore m u' v' ∧ v'.payload = v.payload ∧
          u'.toUtteranceKey = u.toUtteranceKey ∧
          ∃ o ∈ (after lowerAscii meanwhileStore (.commitProjectionMutation "m")).overrides,
            o.utteranceId = m.utteranceId ∧ o.text = "salut" := by
  refine ⟨by decide +kernel, ?_⟩
  obtain ⟨m, hm, hnew, hid, hpending, hdone⟩ : ∃ m ∈ stagedStore.mutations,
      m ∉ heardStore.mutations ∧ m.id = "m" ∧
        meanwhileStore.mutations.find? (·.id = m.id) = some m ∧
          m ∉ (after lowerAscii meanwhileStore (.commitProjectionMutation "m")).mutations := by
    decide +kernel
  obtain ⟨u, v, u', v', hstaged, hstaged', hkey, hpayload, -, o, ho, hoid, -, htext⟩ :=
    edits_replace_what_was_read run_heard rfl hm hnew (run_step lowerAscii stagedStore meanwhile)
      (by simp [meanwhile, Op.purges]) hpending (by rw [hid]; rfl) hdone
  exact ⟨u, u', v, v', m, hstaged, hstaged', hpayload, hkey, o, ho, hoid, htext⟩

end Runs

end Lanes
end ZuTalk
