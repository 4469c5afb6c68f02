/-
# Rows over whole runs

Where a row comes from (`Write.origin`) and what becomes of it (`Write.fate`), for one write.  With
what each kind of write makes of a row this gives, for every run of the capture store, that lanes
have the owner they should have and that nothing a reader could read as settled is ever taken back
while its session stands.
-/

import ZuTalk.Lanes.Goes
import ZuTalk.Lanes.System

namespace ZuTalk
namespace Lanes

open Capture (UtteranceCompletion CaptureState NewRealtimeUtterance)
open Table UtteranceBody Machine

variable {s t : CaptureStore} {u : Utterance}
variable {creates : Option String}

/-! ### One write -/

/-- What a write makes of a row that stays. -/
inductive Becomes (s : CaptureStore) (u : Utterance) : UtteranceBody → Prop
  | same : Becomes s u u.toUtteranceBody
  | written {b : UtteranceBody} {projects : Bool} (write : RowWrite s u b projects) : Becomes s u b

/-- A row that has just been inserted, with its source lane. -/
inductive Inserted (s : CaptureStore) : Utterance → Prop
  | source {input : NewRealtimeUtterance} {sequence : I64} {startMs endMs : Option I64}
      {u : Utterance} {desired : ℕ}
      (new : u = newUtterance input sequence (Language.of input.sourceLanguage) startMs endMs)
      (speaker : checkSpeaker s u.sessionId input.sessionSpeakerId = .ok ())
      (active : s.captureSessionIsActive u.sessionId = .ok true) :
      Inserted s ⟨u.toUtteranceKey,
        u.sourceWritten input.sourceText input.completion false desired⟩

/-- A row that is left alone. -/
theorem becomes_same (hv : u ∈ s.utterances) :
    ∃ v ∈ s.utterances, u.toUtteranceKey = v.toUtteranceKey ∧ Becomes s v u.toUtteranceBody :=
  ⟨u, hv, rfl, .same⟩

/-- **Where a row comes from.** -/
theorem Write.origin (h : Write creates s t) {v : Utterance} (hv : v ∈ t.utterances) :
    (∃ u ∈ s.utterances, v.toUtteranceKey = u.toUtteranceKey ∧ Becomes s u v.toUtteranceBody) ∨
      Inserted s v := by
  cases h with
  | auxiliary write =>
      obtain ⟨u, hu, hkey, rfl | ⟨projects, hwrite⟩⟩ := write.origin hv
      · exact .inl (becomes_same hu)
      · exact .inl ⟨u, hu, hkey, .written (.auxiliary hwrite)⟩
  | row mem write =>
      rcases of_mem_written mem hv with rfl | ⟨hold, -⟩
      · exact .inl ⟨_, mem, rfl, .written write⟩
      · exact .inl (becomes_same hold)
  | insert new inserted speaker active =>
      obtain ⟨hrows, -⟩ := insertUtterance_eq_ok inserted
      rcases of_mem_written (by rw [hrows]; exact List.mem_append_right _ (.head _)) hv with
        rfl | ⟨hold, hne⟩
      · exact .inr (.source new speaker active)
      · rw [hrows, List.mem_append, List.mem_singleton] at hold
        rcases hold with hold | rfl
        · exact .inl (becomes_same hold)
        · exact absurd rfl hne
  | delete mem incomplete unread active => exact .inl (becomes_same (mem_of_mem_delete hv))
  | stage | cancel => exact .inl (becomes_same hv)
  | correct mem id lane settled role utteranceRevision variantRevision edited =>
      exact .inl (becomes_same hv)
  | runs desired applied state => exact .inl (becomes_same hv)
  | capture created new inserted =>
      exact .inl (becomes_same ((insertRun_eq_ok inserted).utterances ▸ hv))
  | speak | jobs => exact .inl (becomes_same hv)

/-- Why a row is deleted. -/
inductive Deleted (s : CaptureStore) (u : Utterance) : Prop
  | collected (empty : u.isEmptyShell = true) (unedited : s.utteranceHasUserState u.id = false)
  | removed (incomplete : u.completion ≠ .complete)
      (unread : u.variants.any Variant.isReadyTranslation = false)
      (active : s.captureSessionIsActive u.sessionId = .ok true)

/-- Nothing in a deleted row is Final and read. -/
theorem Deleted.unread (h : Deleted s u) :
    u.completion ≠ .complete ∧ u.variants.any Variant.isReadyTranslation = false := by
  cases h with
  | collected empty unedited => exact UtteranceBody.of_isEmptyShell empty
  | removed incomplete unread active => exact ⟨incomplete, unread⟩

/-- A row that is left alone stays. -/
theorem stays_same (hu : u ∈ t.utterances) :
    ∃ v ∈ t.utterances, v.toUtteranceKey = u.toUtteranceKey ∧ Becomes s u v.toUtteranceBody :=
  ⟨u, hu, rfl, .same⟩

/-- **What becomes of a row**: only one without anything Final to read is deleted. -/
theorem Write.fate (h : Write creates s t) (hu : u ∈ s.utterances) :
    (∃ v ∈ t.utterances, v.toUtteranceKey = u.toUtteranceKey ∧ Becomes s u v.toUtteranceBody) ∨
      Deleted s u := by
  cases h with
  | auxiliary write =>
      rcases write.fate hu with ⟨v, hv, hkey, rfl | ⟨projects, hwrite⟩⟩ | ⟨hempty, hunedited⟩
      · exact .inl (stays_same hv)
      · exact .inl ⟨v, hv, hkey, .written (.auxiliary hwrite)⟩
      · exact .inr (.collected hempty hunedited)
  | @row w b projects mem write =>
      by_cases hid : u.id = w.id
      · obtain rfl := eq_of_id_eq hu mem hid
        exact .inl ⟨_, mem_written mem b projects, rfl, .written write⟩
      · exact .inl (stays_same (mem_written_of_ne hu hid))
  | @insert input sequence startMs endMs w t' new inserted speaker active =>
      have hid : u.id ≠ w.id := by
        intro hid
        unfold CaptureStore.insertUtterance at inserted
        split at inserted
        · rename_i hnew
          exact hnew.1 (hid ▸ List.mem_map_of_mem hu)
        · cases inserted
      obtain ⟨hrows, -⟩ := insertUtterance_eq_ok inserted
      refine .inl (stays_same (mem_written_of_ne ?_ hid))
      rw [hrows]
      exact List.mem_append_left _ hu
  | @delete w mem incomplete unread active =>
      by_cases hid : u.id = w.id
      · obtain rfl := eq_of_id_eq hu mem hid
        exact .inr (.removed incomplete unread active)
      · exact .inl (stays_same (mem_deleteUtterance hu hid))
  | stage | cancel => exact .inl (stays_same hu)
  | correct mem id lane settled role utteranceRevision variantRevision edited =>
      exact .inl (stays_same hu)
  | runs desired applied state => exact .inl (stays_same hu)
  | capture created new inserted =>
      exact .inl (stays_same ((insertRun_eq_ok inserted).utterances ▸ hu))
  | speak | jobs => exact .inl (stays_same hu)

/-- A row whose speaker is deleted keeps all but the speaker. -/
theorem mem_withoutSpeaker {id : String} {v : Utterance}
    (hv : v ∈ (s.withoutSpeaker id).utterances) :
    ∃ u ∈ s.utterances, v.toUtteranceKey = u.toUtteranceKey ∧
      v.toUtteranceBody = { u.toUtteranceBody with sessionSpeakerId := v.sessionSpeakerId } := by
  obtain ⟨w, hw, ⟨-, rfl⟩ | ⟨-, rfl⟩⟩ := mem_update hv
  · exact ⟨w, hw, rfl, rfl⟩
  · exact ⟨v, hw, rfl, rfl⟩

theorem mem_of_withoutSpeaker (hu : u ∈ s.utterances) (id : String) :
    ∃ v ∈ (s.withoutSpeaker id).utterances, v.toUtteranceKey = u.toUtteranceKey ∧
      v.toUtteranceBody = { u.toUtteranceBody with sessionSpeakerId := v.sessionSpeakerId } := by
  have hset : (if decide (u.sessionSpeakerId = some id) = true then
      { u with sessionSpeakerId := none } else u) ∈ (s.withoutSpeaker id).utterances :=
    mem_update_of_mem hu
  refine ⟨_, hset, ?_⟩
  split
  · exact ⟨rfl, rfl⟩
  · exact ⟨rfl, rfl⟩

/-! ### Owners -/

theorem Becomes.owned {b : UtteranceBody} (h : Becomes s u b) (hu : Owned u.toUtteranceBody) :
    Owned b := by
  cases h with
  | same => exact hu
  | written write => exact write.owned hu

theorem Inserted.owned (h : Inserted s u) : Owned u.toUtteranceBody := by
  cases h with
  | @source input sequence startMs endMs u desired new speaker active =>
      subst new
      have hnone : Distinct Variant.language (newUtterance input sequence
          (Language.of input.sourceLanguage) startMs endMs).variants := List.nodup_nil
      exact Owned.sourceWritten hnone rfl rfl (fun h => absurd h Bool.false_ne_true) _

/-- In every row, lanes have the owner they should have. -/
def AllOwned (s : CaptureStore) : Prop := ∀ u ∈ s.utterances, Owned u.toUtteranceBody

theorem Write.allOwned (h : Write creates s t) (hs : AllOwned s) : AllOwned t := by
  intro v hv
  rcases h.origin hv with ⟨u, hu, -, hbecomes⟩ | hinserted
  · exact hbecomes.owned (hs u hu)
  · exact hinserted.owned

theorem allOwned_withoutSpeaker (id : String) (hs : AllOwned s) :
    AllOwned (s.withoutSpeaker id) := by
  intro v hv
  obtain ⟨u, hu, -, hbody⟩ := mem_withoutSpeaker hv
  have howned := hs u hu
  rw [hbody]
  exact ⟨howned.languages, howned.source, howned.voiced⟩

theorem allOwned_withoutSession (sessionId : String) (hs : AllOwned s) :
    AllOwned (s.withoutSession sessionId) := fun v hv => hs v (mem_of_mem_delete hv)

/-- What every write keeps, any number of writes keep. -/
theorem invariant_of_writes {I : CaptureStore → Prop}
    (hwrite : ∀ {creates s t}, Write creates s t → I s → I t) (h : Writes creates s t) (hs : I s) :
    I t := by
  induction h with
  | refl => exact hs
  | tail _ hlast ih => exact hwrite hlast ih

section Runs

variable {toLowercase : Char → List Char} {ops more : List Op}

/-- What every write and every deletion keeps, every call keeps. -/
theorem step_invariant {I : CaptureStore → Prop}
    (hwrite : ∀ {creates s t}, Write creates s t → I s → I t)
    (hspeaker : ∀ s id, I s → I (s.withoutSpeaker id))
    (hpurge : ∀ s sessionId, I s → I (s.withoutSession sessionId)) {op : Op} (hs : I s)
    (h : step toLowercase s op = some t) : I t := by
  rcases step_cases toLowercase h with hwrites | ⟨id, -, rfl⟩ | ⟨sessionId, -, rfl⟩
  · exact invariant_of_writes hwrite hwrites hs
  · exact hspeaker s id hs
  · exact hpurge s sessionId hs

/-- What a new database has, and every write and every deletion keeps, every run of the capture
store keeps. -/
theorem run_invariant_of_write {I : CaptureStore → Prop} (hempty : I emptyStore)
    (hwrite : ∀ {creates s t}, Write creates s t → I s → I t)
    (hspeaker : ∀ s id, I s → I (s.withoutSpeaker id))
    (hpurge : ∀ s sessionId, I s → I (s.withoutSession sessionId))
    (h : run (step toLowercase) emptyStore ops = some t) : I t :=
  run_invariant (fun _ _ _ hs hstep => step_invariant hwrite hspeaker hpurge hs hstep) hempty h

theorem step_allOwned {op : Op} (hs : AllOwned s) (h : step toLowercase s op = some t) :
    AllOwned t :=
  step_invariant (fun h => h.allOwned) (fun _ => allOwned_withoutSpeaker)
    (fun _ => allOwned_withoutSession) hs h

theorem allOwned_of_run (h : run (step toLowercase) emptyStore ops = some t) : AllOwned t :=
  run_invariant (fun _ _ _ hs hstep => step_allOwned hs hstep)
    (fun _ hu => absurd hu List.not_mem_nil) h

/-- **One owner for each lane**: whatever calls were made, a row has one lane a language and one
source lane at most; the source lane is in the row's language and says what the row says; and a row
that has words of its own, or is Final, has a source lane or a Final translation. -/
theorem lanes_are_owned (h : run (step toLowercase) emptyStore ops = some t)
    (hu : u ∈ t.utterances) :
    (u.variants.map (·.language)).Nodup ∧
      (∀ v ∈ u.variants, ∀ w ∈ u.variants, v.role = .source → w.role = .source → v = w) ∧
      (∀ v ∈ u.variants, v.role = .source →
        v.language = u.sourceLanguage ∧ v.payload = .ready u.sourceText u.completion) ∧
      (u.completion = .complete ∨ u.sourceText ≠ "" →
        ∃ v ∈ u.variants, v.role = .source ∨ v.isFinalTranslation = true) := by
  have howned := allOwned_of_run h u hu
  refine ⟨howned.languages, fun v hv w hw => howned.eq_of_source hv hw, howned.source, ?_⟩
  intro hspoken
  refine howned.voiced ?_
  rcases hspoken with hcomplete | htext
  · exact .inl hcomplete
  · exact .inr (.inl htext)

theorem lanes_are_owned_heard : ∃ u ∈ heardStore.utterances,
    (u.variants.map (·.language)).Nodup ∧
      ∃ v ∈ u.variants, v.role = .source ∨ v.isFinalTranslation = true := by
  obtain ⟨u, hu, hcomplete⟩ : ∃ u ∈ heardStore.utterances, u.completion = .complete := by
    decide +kernel
  obtain ⟨hlanguages, -, -, hvoiced⟩ := lanes_are_owned run_heard hu
  exact ⟨u, hu, hlanguages, hvoiced (.inl hcomplete)⟩

end Runs

/-! ### What is settled stands -/

/-- A row with something Final to read. -/
def Settled (b : UtteranceBody) : Prop :=
  b.completion = .complete ∨ ∃ v ∈ b.variants, ∃ text, IsFinal v text

theorem Goes.settled {b c : UtteranceBody} (h : Goes b c) (hb : Settled b) : Settled c := by
  rcases hb with hcomplete | ⟨v, hv, text, hfinal⟩
  · exact .inl (h.columns hcomplete).1
  · obtain ⟨w, hw, hgrown⟩ := h.finals v hv text hfinal
    obtain ⟨grown, hfinal', -⟩ := hgrown.extended
    exact .inr ⟨w, hw, grown, hfinal'⟩

theorem Becomes.goes {b : UtteranceBody} (h : Becomes s u b) (hu : Owned u.toUtteranceBody) :
    Goes u.toUtteranceBody b := by
  cases h with
  | same => exact .refl _
  | written write => exact write.goes hu

/-- The speaker of a row says nothing about it. -/
theorem goes_speaker (b : UtteranceBody) (speaker : Option String) :
    Goes b { b with sessionSpeakerId := speaker } := by
  have hsame := Goes.refl b
  exact ⟨hsame.revision, hsame.finals, hsame.columns, hsame.label, hsame.source⟩

/-- The settled rows of a session stand, and go on. -/
def Stands (sessionId : String) (s t : CaptureStore) : Prop :=
  ∀ u ∈ s.utterances, u.sessionId = sessionId → Settled u.toUtteranceBody →
    ∃ v ∈ t.utterances, v.toUtteranceKey = u.toUtteranceKey ∧
      Goes u.toUtteranceBody v.toUtteranceBody

theorem Stands.refl (sessionId : String) (s : CaptureStore) : Stands sessionId s s :=
  fun u hu _ _ => ⟨u, hu, rfl, .refl _⟩

theorem Stands.trans {sessionId : String} {w : CaptureStore} (hst : Stands sessionId s t)
    (htw : Stands sessionId t w) : Stands sessionId s w := by
  intro u hu hsession hsettled
  obtain ⟨v, hv, hkey, hgoes⟩ := hst u hu hsession hsettled
  have hvsession : v.sessionId = sessionId := by
    rw [← hsession]
    exact congrArg UtteranceKey.sessionId hkey
  obtain ⟨x, hx, hkey', hgoes'⟩ := htw v hv hvsession (hgoes.settled hsettled)
  exact ⟨x, hx, hkey'.trans hkey, hgoes.trans hgoes'⟩

theorem Write.stands (h : Write creates s t) (hs : AllOwned s) (sessionId : String) :
    Stands sessionId s t := by
  intro u hu _ hsettled
  rcases h.fate hu with ⟨v, hv, hkey, hbecomes⟩ | hdeleted
  · exact ⟨v, hv, hkey, hbecomes.goes (hs u hu)⟩
  · obtain ⟨hincomplete, hunread⟩ := hdeleted.unread
    rcases hsettled with hcomplete | ⟨v, hv, text, hfinal⟩
    · exact absurd hcomplete hincomplete
    · have hread := List.any_eq_false.1 hunread v hv
      simp [Variant.isReadyTranslation, hfinal.role, hfinal.payload, Payload.isReady] at hread

theorem stands_withoutSpeaker (sessionId id : String) :
    Stands sessionId s (s.withoutSpeaker id) := by
  intro u hu _ _
  obtain ⟨v, hv, hkey, hbody⟩ := mem_of_withoutSpeaker hu id
  refine ⟨v, hv, hkey, ?_⟩
  rw [hbody]
  exact goes_speaker _ _

theorem stands_withoutSession {sessionId other : String} (hne : other ≠ sessionId) :
    Stands sessionId s (s.withoutSession other) := by
  intro u hu hsession _
  refine ⟨u, List.mem_filter.2 ⟨hu, ?_⟩, rfl, .refl _⟩
  simpa [hsession] using hne.symm

section Runs

variable {toLowercase : Char → List Char} {ops more : List Op} {sessionId : String}

theorem step_stands {op : Op} (hs : AllOwned s) (h : step toLowercase s op = some t)
    (hop : op.purges ≠ some sessionId) : Stands sessionId s t := by
  rcases step_cases toLowercase h with hwrites | ⟨id, -, rfl⟩ | ⟨other, hpurges, rfl⟩
  · clear h
    induction hwrites using Relation.ReflTransGen.head_induction_on with
    | refl => exact .refl _ _
    | head hfirst _ ih => exact (hfirst.stands hs sessionId).trans (ih (hfirst.allOwned hs))
  · exact stands_withoutSpeaker sessionId id
  · refine stands_withoutSession fun hother => hop ?_
    rw [hpurges, hother]

theorem run_stands (hs : AllOwned s) (h : run (step toLowercase) s more = some t)
    (hkept : ∀ op ∈ more, op.purges ≠ some sessionId) : Stands sessionId s t :=
  (run_relation_of (I := AllOwned) (P := fun op : Op => op.purges ≠ some sessionId)
    (fun s => Stands.refl sessionId s) (fun _ _ _ => Stands.trans)
    (fun _ _ _ hs hop hstep => ⟨step_allOwned hs hstep, step_stands hs hstep hop⟩) hs hkept h).2

/-- **What was Final stays Final**: from any state the store can be in, through any calls that do
not delete its session, a Final translation keeps its row and its lane, is Final, and begins with
the words it had; where it says anything else, its revision is a later one. -/
theorem final_translations_stand (hs : run (step toLowercase) emptyStore ops = some s)
    (h : run (step toLowercase) s more = some t)
    (hkept : ∀ op ∈ more, op.purges ≠ some u.sessionId) (hu : u ∈ s.utterances) {v : Variant}
    (hv : v ∈ u.variants) {text : String} (hfinal : IsFinal v text) :
    ∃ u' ∈ t.utterances, u'.toUtteranceKey = u.toUtteranceKey ∧
      ∃ w ∈ u'.variants, w.language = v.language ∧ v.revision ≤ w.revision ∧
        (w.revision = v.revision → w.payload = v.payload) ∧
        ∃ grown, IsFinal w grown ∧ Extends text grown := by
  obtain ⟨u', hu', hkey, hgoes⟩ :=
    run_stands (allOwned_of_run hs) h hkept u hu rfl (.inr ⟨v, hv, text, hfinal⟩)
  obtain ⟨w, hw, hgrown⟩ := hgoes.finals v hv text hfinal
  exact ⟨u', hu', hkey, w, hw, hgrown.language, hgrown.revision, hgrown.payload, hgrown.extended⟩

/-- The French translation goes on, and begins with what it was. -/
theorem final_translations_stand_heard :
    (∃ u ∈ disputedStore.utterances, ∃ v ∈ u.variants,
        v.payload = .ready "bonjour tous" .complete) ∧
      ∃ u ∈ disputedStore.utterances, ∃ v ∈ u.variants,
        ∃ text, IsFinal v text ∧ Extends "bonjour" text := by
  refine ⟨by decide +kernel, ?_⟩
  obtain ⟨u, hu, v, hv, hrole, hpayload⟩ : ∃ u ∈ heardStore.utterances, ∃ v ∈ u.variants,
      v.role = .translation ∧ v.payload = .ready "bonjour" .complete := by decide +kernel
  obtain ⟨u', hu', -, w, hw, -, -, -, grown, hfinal, hextends⟩ :=
    final_translations_stand run_heard run_disputed (by simp [disputed, Op.purges]) hu hv
      ⟨hrole, hpayload⟩
  exact ⟨u', hu', w, hw, grown, hfinal, hextends⟩

/-- **A Final source stands**: its row, words and place in the audio stay, and so does a source
lane that says them. -/
theorem final_sources_stand (hs : run (step toLowercase) emptyStore ops = some s)
    (h : run (step toLowercase) s more = some t)
    (hkept : ∀ op ∈ more, op.purges ≠ some u.sessionId) (hu : u ∈ s.utterances)
    (hcomplete : u.completion = .complete) :
    ∃ u' ∈ t.utterances, u'.toUtteranceKey = u.toUtteranceKey ∧ u'.completion = .complete ∧
      u'.sourceText = u.sourceText ∧ u'.sourceStartMs = u.sourceStartMs ∧
      u'.sourceEndMs = u.sourceEndMs ∧
      ∀ v ∈ u.variants, v.role = .source →
        ∃ w ∈ u'.variants, w.role = .source ∧ w.payload = v.payload := by
  obtain ⟨u', hu', hkey, hgoes⟩ :=
    run_stands (allOwned_of_run hs) h hkept u hu rfl (.inl hcomplete)
  obtain ⟨hcomplete', htext, hstart, hend⟩ := hgoes.columns hcomplete
  refine ⟨u', hu', hkey, hcomplete', htext, hstart, hend, fun v hv hrole => ?_⟩
  obtain ⟨w, hw, hwrole, hpayload, -⟩ := hgoes.source hcomplete v hv hrole
  exact ⟨w, hw, hwrole, hpayload⟩

theorem final_sources_stand_heard :
    ∃ u ∈ disputedStore.utterances, u.completion = .complete ∧ u.sourceText = "hello" := by
  obtain ⟨u, hu, hcomplete, htext⟩ : ∃ u ∈ heardStore.utterances,
      u.completion = .complete ∧ u.sourceText = "hello" := by decide +kernel
  obtain ⟨u', hu', -, hcomplete', htext', -⟩ :=
    final_sources_stand run_heard run_disputed (by simp [disputed, Op.purges]) hu hcomplete
  exact ⟨u', hu', hcomplete', htext'.trans htext⟩

/-- How often the label of a row is another one after a call. -/
def labelChanges (toLowercase : Char → List Char) (id : String) : CaptureStore → List Op → ℕ
  | _, [] => 0
  | s, op :: rest =>
      (if (s.utteranceById id).map (·.sourceLanguage) =
          ((after toLowercase s op).utteranceById id).map (·.sourceLanguage) then 0 else 1) +
        labelChanges toLowercase id (after toLowercase s op) rest

theorem labelDoubt_le (b : UtteranceBody) : labelDoubt b ≤ 2 := by
  unfold labelDoubt
  split
  · exact le_refl _
  · split
    · exact Nat.le_succ _
    · exact Nat.zero_le _

theorem labelChanges_le_labelDoubt (hs : AllOwned s)
    (hkept : ∀ op ∈ more, op.purges ≠ some u.sessionId) (hu : u ∈ s.utterances)
    (hcomplete : u.completion = .complete) :
    labelChanges toLowercase u.id s more ≤ labelDoubt u.toUtteranceBody := by
  induction more generalizing s u with
  | nil => exact Nat.zero_le _
  | cons op rest ih =>
      obtain ⟨hop, hkept⟩ := List.forall_mem_cons.1 hkept
      have hstep : step toLowercase s op = some (after toLowercase s op) := rfl
      obtain ⟨v, hv, hkey, hgoes⟩ := step_stands hs hstep hop u hu rfl (.inl hcomplete)
      have hnext := step_allOwned hs hstep
      have hid : v.id = u.id := congrArg UtteranceKey.id hkey
      have hsession : v.sessionId = u.sessionId := congrArg UtteranceKey.sessionId hkey
      have hrest := ih hnext (hsession ▸ hkept) hv (hgoes.columns hcomplete).1
      rw [hid] at hrest
      unfold labelChanges
      rw [utteranceById_of_mem hu, ← hid, utteranceById_of_mem hv, hid, Option.map_some,
        Option.map_some]
      rcases hgoes.label hcomplete with hsame | hless
      · have hdoubt : labelDoubt v.toUtteranceBody = labelDoubt u.toUtteranceBody := by
          unfold labelDoubt
          rw [hsame, (hgoes.columns hcomplete).2.1]
        rw [hsame, if_pos rfl]
        omega
      · split
        · omega
        · omega

/-- **A Final row is relabelled twice at most**, in any run that leaves its session: once to be
given a language, and once because its words are in the script of another. -/
theorem labels_change_at_most_twice (hs : run (step toLowercase) emptyStore ops = some s)
    (hkept : ∀ op ∈ more, op.purges ≠ some u.sessionId) (hu : u ∈ s.utterances)
    (hcomplete : u.completion = .complete) : labelChanges toLowercase u.id s more ≤ 2 :=
  (labelChanges_le_labelDoubt (allOwned_of_run hs) hkept hu hcomplete).trans (labelDoubt_le _)

/-- A Final source in no known language. -/
def unlabelled : List Op :=
  [.createRun "r" "n", .claimRealtimeProvenance "n" "soniox" "stt-rt-v5",
    .upsertUtterance { heardSource with
      sessionSpeakerId := none, sourceLanguage := "und", sourceText := "你好" } none]

/-- Two facts of it, of which the first takes it to be English. -/
def newLabels : List Op :=
  [.upsertTranslationInboxItem { heardFact with sourceText := "你好" },
    .upsertTranslationInboxItem { heardFact with
      key := ⟨"n", 0, 0, 0, "fr"⟩, sourceLanguage := "zh", sourceText := "你好" }]

/-- A row that is relabelled twice. -/
theorem labels_change_at_most_twice_heard :
    ∃ u ∈ (unlabelled.foldl (after lowerAscii) emptyStore).utterances,
      1 < labelChanges lowerAscii u.id (unlabelled.foldl (after lowerAscii) emptyStore)
        newLabels ∧
      labelChanges lowerAscii u.id (unlabelled.foldl (after lowerAscii) emptyStore)
        newLabels ≤ 2 := by
  obtain ⟨u, hu, hcomplete, htwice⟩ :
      ∃ u ∈ (unlabelled.foldl (after lowerAscii) emptyStore).utterances, u.completion = .complete ∧
        1 < labelChanges lowerAscii u.id (unlabelled.foldl (after lowerAscii) emptyStore)
          newLabels := by
    decide +kernel
  exact ⟨u, hu, htwice, labels_change_at_most_twice (run_step lowerAscii emptyStore unlabelled)
    (by simp [newLabels, Op.purges]) hu hcomplete⟩

end Runs

end Lanes
end ZuTalk
