/-
# Captures begin one at a time, and end once

The runs of the store have one at most that is active.  A capture that is completed, interrupted or
failed stays so: no call leads back to a state in which it records, and `create_run` finds its row
there.  What is left to be done to its rows is translation, correction, and the deletion of a
speaker: no call adds a row to the session or changes what a row of it was heard to say.
-/

import ZuTalk.Lanes.Sources

namespace ZuTalk
namespace Lanes

open Capture (CaptureState)
open Table UtteranceBody Machine

variable {s t : CaptureStore} {u v : Utterance} {b c d : UtteranceBody} {sessionId : String}
variable {creates : Option String}

/-! ### The state of a capture -/

theorem captureSessionIsActive_eq_ok {active : Bool} :
    s.captureSessionIsActive sessionId = .ok active ↔
      ∃ run, s.run sessionId = some run ∧ run.captureState.isActive = active := by
  unfold CaptureStore.captureSessionIsActive
  cases s.run sessionId with
  | none => simp
  | some run => simp

theorem captureSessionIsActive_congr (h : t.runs = s.runs) (sessionId : String) :
    t.captureSessionIsActive sessionId = s.captureSessionIsActive sessionId := by
  unfold CaptureStore.captureSessionIsActive CaptureStore.run
  rw [h]

/-- No transition leads out of an end. -/
theorem isActive_of_validCaptureTransition {expected next : CaptureState}
    (h : validCaptureTransition expected next = true) : expected.isActive = true := by
  cases expected with
  | recording => rfl
  | paused => rfl
  | draining => rfl
  | interrupted => cases h
  | failed => cases h
  | completed => cases h

/-- Every run was there, in the state it is in. -/
theorem mem_runs_written {u : Utterance} {b : UtteranceBody} {projects : Bool} {run : Run}
    (hrun : run ∈ (s.written u b projects).runs) :
    ∃ old ∈ s.runs, old.sessionId = run.sessionId ∧ old.captureState = run.captureState := by
  unfold CaptureStore.written at hrun
  split at hrun
  · obtain ⟨old, hold, ⟨-, rfl⟩ | ⟨-, rfl⟩⟩ := mem_update hrun
    · exact ⟨old, hold, rfl, rfl⟩
    · exact ⟨run, hold, rfl, rfl⟩
  · exact ⟨run, hrun, rfl, rfl⟩

/-- Active runs are of one session. -/
def OneActive (s : CaptureStore) : Prop :=
  ∀ run ∈ s.runs, ∀ other ∈ s.runs, run.captureState.isActive = true →
    other.captureState.isActive = true → run.sessionId = other.sessionId

/-- Where every active run was active before. -/
theorem OneActive.of_runs (hs : OneActive s)
    (h : ∀ run ∈ t.runs, run.captureState.isActive = true →
      ∃ old ∈ s.runs, old.sessionId = run.sessionId ∧ old.captureState.isActive = true) :
    OneActive t := by
  intro run hrun other hother hactive hactive'
  obtain ⟨old, hold, hsession, holdActive⟩ := h run hrun hactive
  obtain ⟨old', hold', hsession', holdActive'⟩ := h other hother hactive'
  rw [← hsession, ← hsession']
  exact hs old hold old' hold' holdActive holdActive'

theorem OneActive.of_same (hs : OneActive s) (h : t.runs = s.runs) : OneActive t :=
  hs.of_runs fun run hrun hactive => ⟨run, h ▸ hrun, rfl, hactive⟩

theorem OneActive.written (hs : OneActive s) (u : Utterance) (b : UtteranceBody)
    (projects : Bool) : OneActive (s.written u b projects) := by
  refine hs.of_runs fun run hrun hactive => ?_
  obtain ⟨old, hold, hsession, hstate⟩ := mem_runs_written hrun
  exact ⟨old, hold, hsession, hstate ▸ hactive⟩

/-- **One capture at a time**, whatever is written. -/
theorem Write.oneActive (h : Write creates s t) (hs : OneActive s) : OneActive t := by
  cases h with
  | auxiliary write =>
      cases write with
      | row mem write => exact hs.written _ _ _
      | collect | bind | unbind => exact hs.of_same rfl
      | fact active incomplete unbound =>
          unfold CaptureStore.writtenFact CaptureStore.upsertFact
          split
          · exact hs.of_same rfl
          · exact hs.of_same rfl
  | row mem write => exact hs.written _ _ _
  | insert new inserted speaker active =>
      exact (hs.of_same (insertUtterance_eq_ok inserted).2.1).written _ _ _
  | runs desired applied state =>
      refine hs.of_runs fun run hrun hactive => ?_
      obtain ⟨old, hold, ⟨hselects, rfl⟩ | ⟨-, rfl⟩⟩ := mem_update hrun
      · refine ⟨old, hold, rfl, ?_⟩
        rcases state old hold hselects with hsame | hvalid
        · exact hsame ▸ hactive
        · exact isActive_of_validCaptureTransition hvalid
      · exact ⟨run, hold, rfl, hactive⟩
  | @capture new t created fresh inserted =>
      have hinserted := insertRun_eq_ok inserted
      intro run hrun other hother hactive hactive'
      rw [hinserted.runs, List.mem_append, List.mem_singleton] at hrun hother
      have halone : ∀ old ∈ s.runs, old.captureState.isActive = true →
          new.captureState.isActive = true → False := by
        intro old hold hold' hnew
        have hnone := List.any_eq_false.1 (hinserted.alone hnew) old hold
        exact hnone hold'
      rcases hrun with hrun | rfl
      · rcases hother with hother | rfl
        · exact hs run hrun other hother hactive hactive'
        · exact (halone run hrun hactive hactive').elim
      · rcases hother with hother | rfl
        · exact (halone other hother hactive' hactive).elim
        · rfl
  | delete | stage | cancel => exact hs.of_same rfl
  | correct mem id lane settled role utteranceRevision variantRevision edited =>
      exact hs.of_same rfl
  | speak running new => exact hs.of_same rfl
  | jobs => exact hs.of_same rfl

theorem run_insertRun {run : Run} (h : s.insertRun run = .ok t) {found : Run}
    (hfound : s.run sessionId = some found) : t.run sessionId = some found := by
  unfold CaptureStore.run at hfound ⊢
  rw [(insertRun_eq_ok h).runs, List.find?_append, hfound]
  rfl

/-- **An end is an end**, whatever is written. -/
theorem Write.stays_inactive (h : Write creates s t)
    (hs : s.captureSessionIsActive sessionId = .ok false) :
    t.captureSessionIsActive sessionId = .ok false := by
  cases h with
  | auxiliary write => exact (write.captureSessionIsActive sessionId).trans hs
  | row mem write => exact (captureSessionIsActive_written _ _ _ sessionId).trans hs
  | insert new inserted speaker active =>
      obtain ⟨-, hruns, -⟩ := insertUtterance_eq_ok inserted
      rw [captureSessionIsActive_written]
      exact (captureSessionIsActive_congr hruns sessionId).trans hs
  | runs desired applied state =>
      obtain ⟨run, hrun, hactive⟩ := captureSessionIsActive_eq_ok.1 hs
      refine captureSessionIsActive_eq_ok.2 ⟨_, by rw [run_editRuns, hrun]; rfl, ?_⟩
      dsimp only
      split
      · rename_i hselects
        rcases state run (mem_of_run hrun).1 hselects with hsame | hvalid
        · exact hsame ▸ hactive
        · rw [isActive_of_validCaptureTransition hvalid] at hactive
          exact absurd hactive.symm Bool.false_ne_true
      · exact hactive
  | capture created new inserted =>
      obtain ⟨run, hrun, hactive⟩ := captureSessionIsActive_eq_ok.1 hs
      exact captureSessionIsActive_eq_ok.2 ⟨run, run_insertRun inserted hrun, hactive⟩
  | delete | stage | cancel | correct | speak | jobs => exact hs

/-! ### The rows of a session that has ended -/

/-- What was heard stays: the words, the times, the revision and the completion, and the label
unless that is in doubt.  The speaker may be deleted. -/
structure Frozen (b c : UtteranceBody) : Prop where
  speaker : c.sessionSpeakerId = b.sessionSpeakerId ∨ c.sessionSpeakerId = none
  source : KeepsSource False { b with sessionSpeakerId := c.sessionSpeakerId } c

theorem KeepsSource.withSpeaker {active : Prop} (h : KeepsSource active b c)
    (speaker : Option String) : KeepsSource active { b with sessionSpeakerId := speaker }
      { c with sessionSpeakerId := speaker } :=
  ⟨⟨rfl, h.columns.sourceText, h.columns.sourceStartMs, h.columns.sourceEndMs, h.columns.revision,
    h.columns.completion⟩, h.label, h.lanes⟩

theorem KeepsSource.frozen {active : Prop} (h : KeepsSource active b c) : Frozen b c := by
  refine ⟨.inl h.columns.sessionSpeakerId, ?_⟩
  rw [h.columns.sessionSpeakerId]
  exact h.mono False.elim

theorem Frozen.refl (b : UtteranceBody) : Frozen b b := ⟨.inl rfl, .refl b⟩

theorem Frozen.trans (hbc : Frozen b c) (hcd : Frozen c d) : Frozen b d := by
  refine ⟨?_, (hbc.source.withSpeaker d.sessionSpeakerId).trans hcd.source⟩
  rcases hcd.speaker with hkept | hgone
  · rcases hbc.speaker with hkept' | hgone'
    · exact .inl (hkept.trans hkept')
    · exact .inr (hkept.trans hgone')
  · exact .inr hgone

theorem Frozen.sourced (h : Frozen b c) (hb : Sourced b) : Sourced c := h.source.columns.sourced hb

/-- No row of the session is new, what was heard stays, and so does a row whose source says
something. -/
structure ReadOnly (sessionId : String) (s t : CaptureStore) : Prop where
  old : ∀ v ∈ t.utterances, v.sessionId = sessionId →
    ∃ u ∈ s.utterances, v.toUtteranceKey = u.toUtteranceKey ∧
      Frozen u.toUtteranceBody v.toUtteranceBody
  kept : ∀ u ∈ s.utterances, u.sessionId = sessionId → Sourced u.toUtteranceBody →
    ∃ v ∈ t.utterances, v.toUtteranceKey = u.toUtteranceKey

theorem ReadOnly.refl (s : CaptureStore) : ReadOnly sessionId s s :=
  ⟨fun v hv _ => ⟨v, hv, rfl, .refl _⟩, fun u hu _ _ => ⟨u, hu, rfl⟩⟩

theorem ReadOnly.trans {w : CaptureStore} (hst : ReadOnly sessionId s t)
    (htw : ReadOnly sessionId t w) : ReadOnly sessionId s w := by
  refine ⟨fun x hx hsession => ?_, fun u hu hsession hsourced => ?_⟩
  · obtain ⟨v, hv, hkey, hfrozen⟩ := htw.old x hx hsession
    have hvsession : v.sessionId = sessionId := by
      rw [← hsession]
      exact (congrArg UtteranceKey.sessionId hkey).symm
    obtain ⟨u, hu, hkey', hfrozen'⟩ := hst.old v hv hvsession
    exact ⟨u, hu, hkey.trans hkey', hfrozen'.trans hfrozen⟩
  · obtain ⟨v, hv, hkey⟩ := hst.kept u hu hsession hsourced
    have hvsession : v.sessionId = sessionId := by
      rw [← hsession]
      exact congrArg UtteranceKey.sessionId hkey
    obtain ⟨u', hu', hkey', hfrozen⟩ := hst.old v hv hvsession
    obtain rfl := eq_of_id_eq hu' hu (congrArg UtteranceKey.id (hkey'.symm.trans hkey))
    obtain ⟨x, hx, hxkey⟩ := htw.kept v hv hvsession (hfrozen.sourced hsourced)
    exact ⟨x, hx, hxkey.trans hkey⟩

/-- What a write makes of a row of a session that has ended. -/
theorem Becomes.frozen (h : Becomes s u b) (hu : Owned u.toUtteranceBody)
    (hinactive : s.captureSessionIsActive u.sessionId = .ok false) :
    Frozen u.toUtteranceBody b := by
  have hended : s.captureSessionIsActive u.sessionId ≠ .ok true := by
    rw [hinactive]
    exact fun h => Bool.false_ne_true (Except.ok.inj h)
  cases h with
  | same => exact .refl _
  | written write =>
      cases write with
      | auxiliary write => exact (write.keepsSource hu).frozen
      | revise incomplete unsettled speaker active => exact absurd active hended
      | withdraw incomplete active => exact absurd active hended

/-- **The rows of a session that has ended are read-only**, whatever is written. -/
theorem Write.readOnly (h : Write creates s t) (hs : AllOwned s)
    (hinactive : s.captureSessionIsActive sessionId = .ok false) : ReadOnly sessionId s t := by
  have hended : ∀ u : Utterance, u.sessionId = sessionId →
      s.captureSessionIsActive u.sessionId ≠ .ok true := by
    rintro u rfl hactive
    rw [hinactive] at hactive
    exact Bool.false_ne_true (Except.ok.inj hactive)
  refine ⟨fun v hv hsession => ?_, fun u hu hsession hsourced => ?_⟩
  · rcases h.origin hv with ⟨u, hu, hkey, hbecomes⟩ | hinserted
    · refine ⟨u, hu, hkey, hbecomes.frozen (hs u hu) ?_⟩
      rw [← congrArg UtteranceKey.sessionId hkey, hsession]
      exact hinactive
    · cases hinserted with
      | source new speaker active => exact absurd active (hended _ hsession)
  · rcases h.fate hu with ⟨v, hv, hkey, -⟩ | hdeleted
    · exact ⟨v, hv, hkey⟩
    · cases hdeleted with
      | collected empty unedited => exact absurd hsourced (not_sourced_of_isEmptyShell empty)
      | removed incomplete unread active => exact absurd active (hended u hsession)

theorem readOnly_withoutSpeaker (id : String) : ReadOnly sessionId s (s.withoutSpeaker id) := by
  refine ⟨fun v hv _ => ?_, fun u hu _ _ => ?_⟩
  · obtain ⟨w, hw, ⟨-, rfl⟩ | ⟨-, rfl⟩⟩ := mem_update hv
    · exact ⟨w, hw, rfl, .inr rfl, ⟨rfl, rfl, rfl, rfl, rfl, rfl⟩, .inl rfl, False.elim⟩
    · exact ⟨v, hw, rfl, .refl _⟩
  · obtain ⟨v, hv, hkey, -⟩ := mem_of_withoutSpeaker hu id
    exact ⟨v, hv, hkey⟩

theorem readOnly_withoutSession {other : String} (hne : sessionId ≠ other) :
    ReadOnly sessionId s (s.withoutSession other) := by
  refine ⟨fun v hv _ => ⟨v, mem_of_mem_delete hv, rfl, .refl _⟩, fun u hu hsession _ => ?_⟩
  refine ⟨u, List.mem_filter.2 ⟨hu, ?_⟩, rfl⟩
  simpa [hsession] using hne

section Runs

variable {toLowercase : Char → List Char} {ops more : List Op}

/-- **One capture at a time**: in any state the store can be in, two runs that are active are the
same. -/
theorem one_capture_at_a_time (h : run (step toLowercase) emptyStore ops = some t)
    {capture other : Run} (hcapture : capture ∈ t.runs) (hother : other ∈ t.runs)
    (hactive : capture.captureState.isActive = true)
    (hactive' : other.captureState.isActive = true) : capture = other := by
  have hone : OneActive t := run_invariant_of_write (fun _ hrun => absurd hrun List.not_mem_nil)
    (fun h => h.oneActive) (fun _ _ hs => hs.of_same rfl)
    (fun _ _ hs => hs.of_runs fun run hrun hactive =>
      ⟨run, mem_of_mem_delete hrun, rfl, hactive⟩) h
  exact eq_of_key_eq t.sessions hcapture hother
    (hone capture hcapture other hother hactive hactive')

/-- A session that has ended, and one that is active. -/
theorem one_capture_at_a_time_heard :
    continuedStore.runs.map (·.captureState) = [.completed, .recording] ∧
      ∃ capture ∈ continuedStore.runs, capture.captureState.isActive = true ∧
        ∀ other ∈ continuedStore.runs, other.captureState.isActive = true → capture = other := by
  refine ⟨by decide +kernel, ?_⟩
  obtain ⟨capture, hcapture, hactive⟩ : ∃ capture ∈ continuedStore.runs,
      capture.captureState.isActive = true := by decide +kernel
  exact ⟨capture, hcapture, hactive, fun other hother hactive' =>
    one_capture_at_a_time run_continued hcapture hother hactive hactive'⟩

/-- The session has ended, and its rows have their lanes in order. -/
def Ended (sessionId : String) (s : CaptureStore) : Prop :=
  AllOwned s ∧ s.captureSessionIsActive sessionId = .ok false

theorem readOnly_of_writes (h : Writes creates s t) (hs : Ended sessionId s) :
    Ended sessionId t ∧ ReadOnly sessionId s t := by
  induction h using Relation.ReflTransGen.head_induction_on with
  | refl => exact ⟨hs, .refl _⟩
  | head hfirst _ ih =>
      have hnext : Ended sessionId _ := ⟨hfirst.allOwned hs.1, hfirst.stays_inactive hs.2⟩
      exact ⟨(ih hnext).1, (hfirst.readOnly hs.1 hs.2).trans (ih hnext).2⟩

theorem step_readOnly {op : Op} (hs : Ended sessionId s) (h : step toLowercase s op = some t)
    (hop : op.purges ≠ some sessionId) : Ended sessionId t ∧ ReadOnly sessionId s t := by
  rcases step_cases toLowercase h with hwrites | ⟨id, -, rfl⟩ | ⟨other, hpurges, rfl⟩
  · exact readOnly_of_writes hwrites hs
  · exact ⟨⟨allOwned_withoutSpeaker id hs.1, hs.2⟩, readOnly_withoutSpeaker id⟩
  · have hne : sessionId ≠ other := fun hother => hop (hother ▸ hpurges)
    refine ⟨⟨allOwned_withoutSession other hs.1, ?_⟩, readOnly_withoutSession hne⟩
    unfold CaptureStore.captureSessionIsActive
    rw [run_withoutSession hne]
    exact hs.2

/-- **A session that has ended is read-only.**  From any state the store can be in, through any
calls that do not delete the session: its capture does not begin again; it gets no new row; what is
left of its rows has the words, the times, the revision and the completion it had, its label unless
that was in doubt, and its speaker unless that was deleted; and a row whose source says anything is
left. -/
theorem ended_sessions_are_read_only (hs : run (step toLowercase) emptyStore ops = some s)
    (hinactive : s.captureSessionIsActive sessionId = .ok false)
    (h : run (step toLowercase) s more = some t)
    (hkept : ∀ op ∈ more, op.purges ≠ some sessionId) :
    t.captureSessionIsActive sessionId = .ok false ∧ ReadOnly sessionId s t := by
  have hended : Ended sessionId s := ⟨allOwned_of_run hs, hinactive⟩
  obtain ⟨hlast, hreadOnly⟩ := run_relation_of (I := Ended sessionId)
    (P := fun op : Op => op.purges ≠ some sessionId) ReadOnly.refl (fun _ _ _ => ReadOnly.trans)
    (fun _ _ _ hs hop hstep => step_readOnly hs hstep hop) hended hkept h
  exact ⟨hlast.2, hreadOnly⟩

theorem ended_sessions_are_read_only_heard :
    ReadOnly "n" (after lowerAscii heardStore .recoverUnfinishedRuns)
      (after lowerAscii (after lowerAscii heardStore .recoverUnfinishedRuns)
        (.upsertTranslationVariant "n" 0 ⟨"es", some "hola", .ready, some .complete⟩)) := by
  have hs : run (step lowerAscii) emptyStore (heard ++ [.recoverUnfinishedRuns]) =
      some (after lowerAscii heardStore .recoverUnfinishedRuns) := by
    rw [run_step, List.foldl_append]
    rfl
  have hinactive : (after lowerAscii heardStore .recoverUnfinishedRuns).captureSessionIsActive
      "n" = .ok false := by decide +kernel
  exact (ended_sessions_are_read_only hs hinactive (run_step lowerAscii _ [_])
    (by simp [Op.purges])).2

end Runs

end Lanes
end ZuTalk
