/-
# A Final source said again

A provider that reconnects says again what it said.  A Final source that was accepted changes
nothing when it comes again, whatever came in between, and it goes through exactly as long as the
row has not learned another language than it claims.
-/

import ZuTalk.Lanes.Corrections
import ZuTalk.Lanes.Speakers

namespace ZuTalk
namespace Lanes

open Capture (UtteranceCompletion NewRealtimeUtterance)
open Inbox (NotebookCaptureStoreError)
open Table UtteranceBody Transactions Machine

variable {s t : CaptureStore} {u : Utterance} {input : NewRealtimeUtterance} {sequence : I64}

/-! ### What is asked of a source -/

/-- What `upsert_utterance` checks before it looks at the row. -/
structure Submitted (s : CaptureStore) (input : NewRealtimeUtterance) (sequence : I64) : Prop where
  valid : validateUtterance input = .ok ()
  untranslated : (input.translatedLanguage.isSome || input.translatedText.isSome) = false
  active : s.ensureActiveRealtimeSession input.sessionId = .ok ()
  speaker : checkSpeaker s input.sessionId input.sessionSpeakerId = .ok ()
  sequence : u64ToI64 input.sequence "sequence" = .ok sequence

theorem val_of_u64ToI64 {value : ℕ} {field : String} {stored : I64}
    (h : u64ToI64 value field = .ok stored) : stored.val = value := by
  unfold u64ToI64 at h
  split at h
  · cases h
    rfl
  · cases h

/-- A source that is asked for again finds its row. -/
theorem upsertUtterance_final (toLowercase : Char → List Char) (h : Submitted s input sequence)
    (hu : s.utteranceBySequence input.sessionId sequence = some u)
    (hcomplete : u.completion = .complete) (expectedRevision : Option ℕ) :
    upsertUtterance toLowercase input expectedRevision s =
      (refuse (!machineUtteranceMatchesInput u input) (.conflict
        s!"final machine source fact {input.sessionId}:{input.sequence} is immutable") >>=
          fun _ => visible u) s := by
  unfold upsertUtterance
  rw [checked_bind_ok h.valid, refuse_bind_false h.untranslated]
  change (check (s.ensureActiveRealtimeSession input.sessionId) >>= _) s = _
  rw [check_bind_ok h.active, check_bind_ok h.speaker, checked_bind_ok h.sequence, hu]
  have hfinal : u.sourceFactIsComplete = true := decide_eq_true hcomplete
  simp only [Option.filter_some, hfinal, if_true]

theorem Records.of_matches (h : machineUtteranceMatchesInput u input = true) :
    Records input u.toUtteranceBody := by
  unfold machineUtteranceMatchesInput at h
  simp only [Bool.and_eq_true, decide_eq_true_eq] at h
  obtain ⟨⟨⟨⟨⟨⟨⟨⟨-, -⟩, -⟩, hspeaker⟩, -⟩, htext⟩, hstart⟩, hend⟩, hcompletion⟩ := h
  exact ⟨hspeaker, htext, hstart, hend, hcompletion⟩

theorem Records.of_sameColumns {b c : UtteranceBody} (h : Records input b)
    (hsame : SameColumns b c) : Records input c where
  sessionSpeakerId := hsame.sessionSpeakerId.trans h.sessionSpeakerId
  sourceText := hsame.sourceText.trans h.sourceText
  sourceStartMs := by rw [hsame.sourceStartMs, h.sourceStartMs]
  sourceEndMs := by rw [hsame.sourceEndMs, h.sourceEndMs]
  completion := hsame.completion.trans h.completion

/-- A row with the columns of a source matches it but for its identifier and its label. -/
theorem machineUtteranceMatchesInput_iff (hrecords : Records input u.toUtteranceBody)
    (hsession : u.sessionId = input.sessionId) (hsequence : u.sequence.val = input.sequence) :
    machineUtteranceMatchesInput u input = true ↔ u.id = input.id ∧
      (u.sourceLanguage = Language.of input.sourceLanguage ∨ u.sourceLanguage = und ∨
        Language.of input.sourceLanguage = und) := by
  unfold machineUtteranceMatchesInput
  simp [hsession, hsequence, hrecords.sessionSpeakerId, hrecords.sourceText,
    hrecords.sourceStartMs, hrecords.sourceEndMs, hrecords.completion, or_assoc]

/-! ### A source that goes through -/

/-- **A Final source that goes through is there afterwards**, in its row. -/
theorem upsertUtterance_commits (toLowercase : Char → List Char) (hs : AllOwned s)
    (hfinal : input.completion = .complete) (expectedRevision : Option ℕ) :
    Commits (fun _ t => ∃ sequence, Submitted s input sequence ∧ ∃ u ∈ t.utterances,
        u.sessionId = input.sessionId ∧ u.sequence = sequence ∧ Records input u.toUtteranceBody)
      (upsertUtterance toLowercase input expectedRevision) s := by
  refine checked_bind fun _ hvalid => Commits.refuse_bind fun huntranslated => Commits.get_bind ?_
  refine Commits.check_bind fun _ hensured => Commits.check_bind fun _ hspeaker => ?_
  refine checked_bind fun sequence hsequence => ?_
  have hsubmitted : Submitted s input sequence :=
    ⟨hvalid, huntranslated, hensured, hspeaker, hsequence⟩
  split
  · rename_i u hu
    obtain ⟨hfound, -⟩ := Option.filter_eq_some_iff.1 hu
    obtain ⟨hmem, hsession, hseq⟩ := mem_of_utteranceBySequence hfound
    refine Commits.refuse_bind fun hmatches => (visible_commits _ s).mono fun _ t h => ?_
    rw [h.1]
    exact ⟨sequence, hsubmitted, u, hmem, hsession, hseq, .of_matches (by simpa using hmatches)⟩
  · rename_i hincomplete
    refine Commits.bind ((reviseSource_writes rfl hincomplete hspeaker (active_of_ensured hensured)
      expectedRevision).mono fun v t ht => ?_)
    obtain ⟨hwrites, u, hu, hsession, hseq, hrecords⟩ := ht
    have ht := invariant_of_writes (fun h => h.allOwned) hwrites hs
    refine (recomposeRow_writes toLowercase input sequence v.id t).mono fun _ w hw => ?_
    have hleaves := leavesSources_of_auxiliaries hw ht
    obtain ⟨x, hx, hkey⟩ := hleaves.kept u hu (.inl (hrecords.completion.trans hfinal))
    obtain ⟨u', hu', hkey', hkeeps⟩ := hleaves.old x hx
    obtain rfl := eq_of_id_eq hu' hu (congrArg UtteranceKey.id (hkey'.symm.trans hkey))
    refine ⟨sequence, hsubmitted, x, hx, ?_, ?_, ?_⟩
    · rw [hkey]
      exact hsession
    · rw [hkey]
      exact hseq
    · exact hrecords.of_sameColumns hkeeps.columns

/-! ### Every run -/

section Runs

variable {toLowercase : Char → List Char} {ops more : List Op} {s' : CaptureStore}
variable {expectedRevision : Option ℕ} {shown : Utterance}

/-- **A Final source said again changes nothing.**  From any state the store can be in, a Final
source goes through; then come any calls that delete neither its session nor its speaker.  While
the session is active the same source, said again, leaves all tables as they are; and it goes
through exactly when the row has its identifier, and its language or none, or it claims none. -/
theorem final_sources_are_replayed (hs : run (step toLowercase) emptyStore ops = some s)
    (hfinal : input.completion = .complete)
    (haccepted : upsertUtterance toLowercase input expectedRevision s = .ok shown s')
    (h : run (step toLowercase) s' more = some t)
    (hsession : ∀ op ∈ more, op.purges ≠ some input.sessionId)
    (hspeaker : ∀ op ∈ more, ∀ id, input.sessionSpeakerId = some id → op.unspeaks ≠ some id)
    (hactive : t.ensureActiveRealtimeSession input.sessionId = .ok ()) :
    ∃ u ∈ t.utterances, u.sessionId = input.sessionId ∧ u.sequence.val = input.sequence ∧
      ∀ revision, after toLowercase t (.upsertUtterance input revision) = t ∧
        ((∃ again, upsertUtterance toLowercase input revision t = .ok again t) ↔
          u.id = input.id ∧ (u.sourceLanguage = Language.of input.sourceLanguage ∨
            u.sourceLanguage = und ∨ Language.of input.sourceLanguage = und)) := by
  have hstep : step toLowercase s (.upsertUtterance input expectedRevision) = some s' :=
    congrArg some (finalState_of_ok haccepted)
  have hsound := sound_of_run hs
  have hsound' := step_sound hsound hstep
  have hsoundt := run_sound hsound' h
  obtain ⟨sequence, hsubmitted, u, hu, husession, husequence, hrecords⟩ :=
    (upsertUtterance_commits toLowercase hsound.1 hfinal expectedRevision).of_ok haccepted
  have hcomplete : u.completion = .complete := hrecords.completion.trans hfinal
  have hkept : SpeakerStands input.sessionId input.sessionSpeakerId s s' :=
    step_speakerStands hsound.1 hstep (by simp [Op.purges]) (by simp [Op.unspeaks])
  have hstands := run_speakerStands hsound'.1 h hsession hspeaker
  obtain ⟨v, hv, hkey, hvcomplete, hvspeaker⟩ :=
    hstands.rows u hu husession hcomplete hrecords.sessionSpeakerId
  obtain ⟨w, hw, hwkey, hgoes⟩ :=
    run_stands hsound'.1 h (husession ▸ hsession) u hu rfl (.inl hcomplete)
  obtain rfl := eq_of_id_eq hw hv (congrArg UtteranceKey.id (hwkey.trans hkey.symm))
  obtain ⟨-, htext, hstart, hend⟩ := hgoes.columns hcomplete
  have hwrecords : Records input w.toUtteranceBody :=
    ⟨hvspeaker, htext.trans hrecords.sourceText, by rw [hstart, hrecords.sourceStartMs],
      by rw [hend, hrecords.sourceEndMs], hvcomplete.trans hfinal.symm⟩
  have hwsession : w.sessionId = input.sessionId :=
    (congrArg UtteranceKey.sessionId hkey).trans husession
  have hwsequence : w.sequence = sequence :=
    (congrArg UtteranceKey.sequence hkey).trans husequence
  have hagain : Submitted t input sequence :=
    ⟨hsubmitted.valid, hsubmitted.untranslated, hactive,
      hstands.check (hkept.check hsubmitted.speaker), hsubmitted.sequence⟩
  have hvalue : w.sequence.val = input.sequence := by
    rw [hwsequence, val_of_u64ToI64 hsubmitted.sequence]
  have hfound : t.utteranceBySequence input.sessionId sequence = some w := by
    rw [← hwsession, ← hwsequence]
    exact utteranceBySequence_of_mem hw
  have hmatches := machineUtteranceMatchesInput_iff hwrecords hwsession hvalue
  have hvisible := visible_eq_ok (hsoundt.2.applyUtteranceOverrides hw)
  refine ⟨w, hw, hwsession, hvalue, fun revision => ?_⟩
  have heq := upsertUtterance_final toLowercase hagain hfound hvcomplete revision
  cases hm : machineUtteranceMatchesInput w input with
  | true =>
      rw [hm, Bool.not_true, refuse_bind_false rfl, hvisible] at heq
      exact ⟨finalState_of_ok heq, iff_of_true ⟨_, heq⟩ (hmatches.1 hm)⟩
  | false =>
      rw [hm, Bool.not_false] at heq
      refine ⟨finalState_of_error heq, iff_of_false (fun hagain => ?_) fun hsame => ?_⟩
      · obtain ⟨again, hok⟩ := hagain
        rw [heq] at hok
        cases hok
      · rw [hmatches.2 hsame] at hm
        cases hm

theorem final_sources_are_replayed_heard : ∃ u ∈ heardStore.utterances, ∀ revision,
    after lowerAscii heardStore (.upsertUtterance heardSource revision) = heardStore := by
  have hs : run (step lowerAscii) emptyStore (heard.take 3) =
      some ((heard.take 3).foldl (after lowerAscii) emptyStore) := run_step _ _ _
  cases hresult : upsertUtterance lowerAscii heardSource none
      ((heard.take 3).foldl (after lowerAscii) emptyStore) with
  | ok shown s' =>
      have hrest : run (step lowerAscii) s' (heard.drop 4) = some heardStore := by
        rw [run_step, ← finalState_of_ok hresult]
        rfl
      obtain ⟨u, hu, -, -, hreplayed⟩ := final_sources_are_replayed hs rfl hresult hrest
        (by decide) (by decide) (by decide +kernel)
      exact ⟨u, hu, fun revision => (hreplayed revision).1⟩
  | error e s' =>
      have hnone : after lowerAscii ((heard.take 3).foldl (after lowerAscii) emptyStore)
          (.upsertUtterance heardSource none) = _ := finalState_of_error hresult
      have hrow : (after lowerAscii ((heard.take 3).foldl (after lowerAscii) emptyStore)
          (.upsertUtterance heardSource none)).utterances ≠ [] := by decide +kernel
      rw [hnone] at hrow
      exact absurd (by decide +kernel) hrow

end Runs

end Lanes
end ZuTalk
