/-
# Calls are writes

Every public operation of the capture store that goes through has taken the tables from one state to
another by `Writes`; the operations about translations by `Auxiliaries`.  A source is written,
withdrawn or deleted only while its session is active.
-/

import ZuTalk.Lanes.Origins

namespace ZuTalk
namespace Lanes

open Capture (UtteranceCompletion CaptureState NewRealtimeUtterance)
open Inbox (NotebookCaptureStoreError RealtimeTranslationInboxKey)
open Table Transactions

variable {s t : CaptureStore} {u shown : Utterance}

/-! ### The canonical source -/

theorem utteranceBySequence_of_mem (hu : u ∈ s.utterances) :
    s.utteranceBySequence u.sessionId u.sequence = some u := by
  cases h : s.utteranceBySequence u.sessionId u.sequence with
  | none => simpa using List.find?_eq_none.1 h u hu
  | some v =>
      obtain ⟨hv, hsession, hsequence⟩ := mem_of_utteranceBySequence h
      rw [eq_of_key_eq s.sequences hv hu (Prod.ext hsession hsequence)]

theorem written_written (u : Utterance) (b b' : UtteranceBody) (projects : Bool) :
    (s.written u b false).written ⟨u.toUtteranceKey, b⟩ b' projects = s.written u b' projects := by
  have hedits : (s.editUtterance u.id fun _ => b).editUtterance u.id (fun _ => b') =
      s.editUtterance u.id fun _ => b' := editUtterance_editUtterance u.id _ _
  unfold CaptureStore.written
  rw [if_neg Bool.false_ne_true]
  change (if projects then
      ((s.editUtterance u.id fun _ => b).editUtterance u.id fun _ => b').bumped u.sessionId
    else (s.editUtterance u.id fun _ => b).editUtterance u.id fun _ => b') = _
  rw [hedits]

/-- The lanes of a source that has just been written. -/
theorem writeSourceLane_commits (hu : u ∈ s.utterances) (input : NewRealtimeUtterance)
    (hsession : u.sessionId = input.sessionId) (coalesces : Bool) :
    Commits (fun _ t => t = s.written u
        (u.sourceWritten input.sourceText input.completion coalesces
          (s.desiredRevision u.sessionId + 1)) (input.completion = .complete && !coalesces))
      (writeSourceLane input u coalesces) s := by
  refine Commits.modify_bind ?_
  unfold UtteranceBody.sourceWritten
  cases hprojects : decide (input.completion = .complete) && !coalesces with
  | true =>
      rw [if_pos rfl, if_pos rfl, ← hsession]
      refine Commits.bind ((bump_commits _ _).mono fun revision t h => ?_)
      obtain ⟨rfl, rfl⟩ := h
      refine Commits.modify ?_
      rw [written_of_projection hu]
      rfl
  | false =>
      rw [if_neg Bool.false_ne_true, if_neg Bool.false_ne_true]
      refine Commits.pure ?_
      rw [written_of_edit hu]

theorem insertUtterance_eq_ok (h : s.insertUtterance u = .ok t) :
    t.utterances = s.utterances ++ [u] ∧ t.runs = s.runs ∧ t.inbox = s.inbox ∧
      t.overrides = s.overrides ∧ t.mutations = s.mutations ∧
      (u.sessionId, u.sequence) ∉ s.utterances.map fun v => (v.sessionId, v.sequence) := by
  unfold CaptureStore.insertUtterance at h
  split at h
  · rename_i hnew
    cases h
    exact ⟨rfl, rfl, rfl, rfl, rfl, hnew.2.1⟩
  · cases h

/-- What the insertion of a run does. -/
structure RunInserted (run : Run) (s t : CaptureStore) : Prop where
  runs : t.runs = s.runs ++ [run]
  new : run.sessionId ∉ s.runs.map Run.sessionId
  alone : run.captureState.isActive = true → s.runs.any (·.captureState.isActive) = false
  utterances : t.utterances = s.utterances
  inbox : t.inbox = s.inbox
  overrides : t.overrides = s.overrides
  mutations : t.mutations = s.mutations
  sessionSpeakers : t.sessionSpeakers = s.sessionSpeakers

theorem insertRun_eq_ok {run : Run} (h : s.insertRun run = .ok t) : RunInserted run s t := by
  unfold CaptureStore.insertRun at h
  split at h
  · cases h
  rename_i hnew
  split at h
  · cases h
  split at h
  · cases h
  rename_i hactive
  cases h
  refine ⟨rfl, hnew, fun hrun => ?_, rfl, rfl, rfl, rfl, rfl⟩
  simpa [hrun] using hactive

theorem execute_commits (statement : CaptureStore → Except StoreError CaptureStore)
    (s : CaptureStore) :
    Commits (fun _ t => statement s = .ok t) (execute statement) s :=
  Commits.get_bind (Commits.check_bind fun _ h => h)

/-- The columns of a source that has been accepted. -/
structure Records (input : NewRealtimeUtterance) (b : UtteranceBody) : Prop where
  sessionSpeakerId : b.sessionSpeakerId = input.sessionSpeakerId
  sourceText : b.sourceText = input.sourceText
  sourceStartMs : b.sourceStartMs.map Subtype.val = input.sourceStartMs
  sourceEndMs : b.sourceEndMs.map Subtype.val = input.sourceEndMs
  completion : b.completion = input.completion

theorem map_val_optionU64ToI64 {value : Option ℕ} {field : String} {stored : Option I64}
    (h : optionU64ToI64 value field = .ok stored) : stored.map Subtype.val = value := by
  cases value with
  | none =>
      cases h
      rfl
  | some n =>
      change (u64ToI64 n field).map some = .ok stored at h
      unfold u64ToI64 at h
      split at h
      · cases h
        rfl
      · cases h

theorem Records.sourceWritten {input : NewRealtimeUtterance} {b : UtteranceBody}
    (h : Records input b) (text : String) (completion : UtteranceCompletion) (coalesces : Bool)
    (desired : ℕ) : Records input (b.sourceWritten text completion coalesces desired) := by
  unfold UtteranceBody.sourceWritten
  dsimp only
  split
  · split
    · exact ⟨h.1, h.2, h.3, h.4, h.5⟩
    · exact ⟨h.1, h.2, h.3, h.4, h.5⟩
  · split
    · exact ⟨h.1, h.2, h.3, h.4, h.5⟩
    · exact ⟨h.1, h.2, h.3, h.4, h.5⟩

/-- A source row, and its lanes to come. -/
def SourceRow (s : CaptureStore) (input : NewRealtimeUtterance) (sequence : I64) (coalesces : Bool)
    (t : CaptureStore) : Prop :=
  ∃ u ∈ t.utterances, u.sessionId = input.sessionId ∧ u.sequence = sequence ∧
    Records input u.toUtteranceBody ∧
    Write none s (t.written u (u.sourceWritten input.sourceText input.completion coalesces
      (t.desiredRevision u.sessionId + 1)) (input.completion = .complete && !coalesces))

/-- What `ensure_active_realtime_session` ensures. -/
theorem active_of_ensured {sessionId : String}
    (h : s.ensureActiveRealtimeSession sessionId = .ok ()) :
    s.captureSessionIsActive sessionId = .ok true := by
  unfold CaptureStore.ensureActiveRealtimeSession at h
  unfold CaptureStore.captureSessionIsActive
  split at h
  · cases h
  · split at h
    · rename_i run hrun hactive
      rw [hrun]
      dsimp only
      rw [hactive]
    · cases h

section Source

variable {input : NewRealtimeUtterance} {sequence : I64} {startMs endMs : Option I64}

theorem insertSource_commits
    (hspeaker : checkSpeaker s input.sessionId input.sessionSpeakerId = .ok ())
    (hactive : s.captureSessionIsActive input.sessionId = .ok true)
    (hstart : startMs.map Subtype.val = input.sourceStartMs)
    (hend : endMs.map Subtype.val = input.sourceEndMs) :
    Commits (fun _ t => SourceRow s input sequence false t)
      (execute (·.insertUtterance
        (newUtterance input sequence (Language.of input.sourceLanguage) startMs endMs))) s := by
  refine (execute_commits _ s).mono fun _ t ht => ?_
  obtain ⟨hrows, hruns, -⟩ := insertUtterance_eq_ok ht
  have hdesired : t.desiredRevision = s.desiredRevision := by
    funext sessionId
    unfold CaptureStore.desiredRevision CaptureStore.run
    rw [hruns]
  refine ⟨_, hrows ▸ List.mem_append_right _ (List.mem_singleton_self _), rfl, rfl,
    ⟨rfl, rfl, hstart, hend, rfl⟩, ?_⟩
  rw [hdesired, Bool.not_false, Bool.and_true]
  exact .insert rfl ht hspeaker hactive

theorem reviseRow_commits (hu : u ∈ s.utterances) (hsession : u.sessionId = input.sessionId)
    (hincomplete : u.sourceFactIsComplete = false)
    (hunsettled : (u.variants.any fun v => v.role = .source && v.payload.isSettled) = false)
    (hspeaker : checkSpeaker s input.sessionId input.sessionSpeakerId = .ok ())
    (hactive : s.captureSessionIsActive input.sessionId = .ok true)
    (hstart : startMs.map Subtype.val = input.sourceStartMs)
    (hend : endMs.map Subtype.val = input.sourceEndMs) :
    SourceRow s input u.sequence (u.coalesces (learnedLanguage input (some u)))
      (s.editUtterance u.id
        (·.revised input (learnedLanguage input (some u)) startMs endMs)) := by
  rw [written_of_edit hu]
  refine ⟨_, mem_written hu _ false, hsession, rfl, ⟨rfl, rfl, hstart, hend, rfl⟩, ?_⟩
  rw [written_written]
  exact .row hu (.revise hincomplete hunsettled (hsession ▸ hspeaker) (hsession ▸ hactive))

variable {existing : Option Utterance}

theorem writeUtterance_commits
    (hexisting : s.utteranceBySequence input.sessionId sequence = existing)
    (hincomplete : existing.filter (·.sourceFactIsComplete) = none)
    (hunsettled : ((existing.elim [] (·.variants)).any fun v =>
      v.role = .source && v.payload.isSettled) = false)
    (hspeaker : checkSpeaker s input.sessionId input.sessionSpeakerId = .ok ())
    (hactive : s.captureSessionIsActive input.sessionId = .ok true)
    (expectedRevision : Option ℕ) :
    Commits (fun _ t => SourceRow s input sequence ((existing.elim [] (·.variants)).any fun v =>
        v.isFinalTranslation && v.language = learnedLanguage input existing) t)
      (writeUtterance input expectedRevision sequence existing (learnedLanguage input existing))
      s := by
  refine checked_bind fun startMs hstart => checked_bind fun endMs hend => ?_
  have hstart := map_val_optionU64ToI64 hstart
  have hend := map_val_optionU64ToI64 hend
  cases expectedRevision with
  | none =>
      cases existing with
      | none =>
          have hlanguage : learnedLanguage input none = Language.of input.sourceLanguage := by
            unfold learnedLanguage
            dsimp only
            split <;> rfl
          rw [hlanguage]
          exact insertSource_commits hspeaker hactive hstart hend
      | some u =>
          obtain ⟨hmem, hsession, rfl⟩ := mem_of_utteranceBySequence hexisting
          refine (execute_commits _ s).mono fun _ t ht => ?_
          obtain ⟨-, -, -, -, -, hnew⟩ := insertUtterance_eq_ok ht
          exact (hnew (List.mem_map.2 ⟨u, hmem, Prod.ext hsession rfl⟩)).elim
  | some revision =>
      refine checked_bind fun revision _ => Commits.require_bind fun u hu => Commits.modify ?_
      obtain ⟨rfl, -⟩ := Option.filter_eq_some_iff.1 hu
      obtain ⟨hmem, hsession, rfl⟩ := mem_of_utteranceBySequence hexisting
      refine reviseRow_commits hmem hsession ?_ hunsettled hspeaker hactive hstart hend
      simpa using hincomplete

/-- A source that has been accepted. -/
def Accepted (input : NewRealtimeUtterance) (sequence : I64) (s t : CaptureStore) : Prop :=
  Writes none s t ∧ ∃ u ∈ t.utterances, u.sessionId = input.sessionId ∧ u.sequence = sequence ∧
    Records input u.toUtteranceBody

theorem reviseSource_writes
    (hexisting : s.utteranceBySequence input.sessionId sequence = existing)
    (hincomplete : existing.filter (·.sourceFactIsComplete) = none)
    (hspeaker : checkSpeaker s input.sessionId input.sessionSpeakerId = .ok ())
    (hactive : s.captureSessionIsActive input.sessionId = .ok true)
    (expectedRevision : Option ℕ) :
    Commits (fun _ t => Accepted input sequence s t)
      (reviseSource input expectedRevision sequence existing) s := by
  refine Commits.refuse_bind fun hunsettled => Commits.bind ?_
  refine (writeUtterance_commits hexisting hincomplete hunsettled hspeaker hactive
    expectedRevision).mono fun _ t ht => ?_
  obtain ⟨u, hmem, hsession, rfl, hrecords, hwrite⟩ := ht
  refine Commits.get_bind (Commits.require_bind fun v hv => ?_)
  rw [← hsession, utteranceBySequence_of_mem hmem] at hv
  obtain rfl := Option.some.inj hv
  refine Commits.bind ((writeSourceLane_commits hmem input hsession _).mono fun _ w hw => ?_)
  obtain rfl := hw
  exact Commits.pure ⟨.single hwrite, _, mem_written hmem _ _, hsession, rfl,
    hrecords.sourceWritten _ _ _ _⟩

end Source

theorem recomposeRow_writes (toLowercase : Char → List Char) (input : NewRealtimeUtterance)
    (sequence : I64) (utteranceId : String) :
    Leads Auxiliaries (recomposeRow toLowercase input sequence utteranceId) := by
  refine Leads.bind (revalidateBoundItems_writes toLowercase utteranceId sequence) fun _ => ?_
  refine Leads.bind (applyBoundItems_writes utteranceId sequence) fun stands => ?_
  refine Leads.bind (Leads.refuse _ _) fun _ => Leads.bind Leads.get fun _ => ?_
  exact Leads.bind (Leads.require _ _) fun u => Leads.bind Leads.get fun _ => Leads.check _

theorem upsertUtterance_writes (toLowercase : Char → List Char) (input : NewRealtimeUtterance)
    (expectedRevision : Option ℕ) :
    Leads (Writes none) (upsertUtterance toLowercase input expectedRevision) := by
  intro s
  refine checked_bind fun _ _ => Commits.refuse_bind fun _ => Commits.get_bind ?_
  refine Commits.check_bind fun _ hensured => Commits.check_bind fun _ hspeaker => ?_
  refine checked_bind fun sequence _ => ?_
  split
  · exact Commits.refuse_bind fun _ => (visible_commits _ s).mono fun _ _ h => h.1 ▸ .refl
  · rename_i hincomplete
    refine Commits.bind ((reviseSource_writes rfl hincomplete hspeaker (active_of_ensured hensured)
      expectedRevision).mono fun u t ht => ?_)
    have hrest : Leads (Writes none) (recomposeRow toLowercase input sequence u.id) :=
      (recomposeRow_writes toLowercase input sequence u.id).mono fun _ _ => writes_of_auxiliaries
    exact hrest.from ht.1

theorem withdrawSource_commits (hu : u ∈ s.utterances) :
    Commits (fun _ t => t = s ∨ t = s.written u u.sourceless false) (withdrawSource u) s := by
  refine Commits.ite (fun _ => ?_) fun _ => Commits.pure (.inl rfl)
  unfold UtteranceBody.sourceless
  cases hlane : u.hasSourceLane with
  | true =>
      refine Commits.refuse_bind fun _ => Commits.modify_bind (Commits.modify (.inr ?_))
      rw [written_of_edits hu, if_pos rfl]
  | false =>
      refine Commits.modify (.inr ?_)
      rw [written_of_edit hu, if_neg Bool.false_ne_true]

theorem keepOrDelete_writes {id : String}
    (hactive : ∀ u ∈ s.utterances, u.id = id → s.captureSessionIsActive u.sessionId = .ok true) :
    Commits (fun _ t => Writes none s t) (keepOrDelete id) s := by
  refine Commits.get_bind (Commits.require_bind fun u hu => ?_)
  refine Commits.ite (fun _ => Commits.map ?_) fun hunread => ?_
  · exact (visible_commits u s).mono fun _ _ h => h.1 ▸ .refl
  · obtain ⟨hmem, hid⟩ := mem_of_utteranceById hu
    refine Commits.refuse_bind fun hincomplete => Commits.modify_bind (Commits.pure ?_)
    refine .single (.delete hmem ?_ ?_ (hactive u hmem hid))
    · simpa using hincomplete
    · simpa using hunread

/-- A row of a session that is active. -/
structure Open (s : CaptureStore) (sessionId : String) (u : Utterance) : Prop where
  exists_row : ∃ v ∈ s.utterances, v.toUtteranceKey = u.toUtteranceKey
  session : u.sessionId = sessionId
  active : s.captureSessionIsActive sessionId = .ok true

/-- A row of a session that is active is one after any writes of translations, if it is there. -/
theorem Open.active_of_auxiliaries {sessionId : String} (hu : Open s sessionId u)
    (h : Auxiliaries s t) {v : Utterance} (hv : v ∈ t.utterances) (hid : v.id = u.id) :
    t.captureSessionIsActive v.sessionId = .ok true := by
  obtain ⟨w, hw, hkey⟩ := key_of_auxiliaries h hv
  obtain ⟨x, hx, hxkey⟩ := hu.exists_row
  obtain rfl : w = x := by
    refine eq_of_id_eq hw hx ?_
    rw [← congrArg UtteranceKey.id hkey, hid]
    exact (congrArg UtteranceKey.id hxkey).symm
  have hsession : v.sessionId = sessionId :=
    (congrArg UtteranceKey.sessionId (hkey.trans hxkey)).trans hu.session
  rw [hsession, captureSessionIsActive_of_auxiliaries h]
  exact hu.active

theorem updateWithdrawn_writes {sessionId : String} (hu : Open s sessionId u) (sequence : I64)
    (update : Option (Language × Payload)) :
    Commits (fun v t => Auxiliaries s t ∧ Open t sessionId v)
      (updateWithdrawn sessionId sequence u update) s := by
  cases update with
  | none =>
      refine Commits.get_bind (commits_check fun v hv => ?_)
      cases hfound : s.utteranceById u.id with
      | none =>
          rw [hfound] at hv
          cases hv
      | some w =>
          rw [hfound] at hv
          obtain rfl := Except.ok.inj hv
          obtain ⟨hmem, hid⟩ := mem_of_utteranceById hfound
          obtain ⟨x, hx, hkey⟩ := hu.exists_row
          obtain rfl := eq_of_id_eq hmem hx (hid.trans (congrArg UtteranceKey.id hkey).symm)
          exact ⟨.refl, ⟨w, hmem, rfl⟩,
            (congrArg UtteranceKey.sessionId hkey).trans hu.session, hu.active⟩
  | some update =>
      refine (upsertTranslationVariant_returns _ _ _ _ _ s).mono fun v t h => ?_
      refine ⟨h.1, h.2.1.exists_row, h.2.2, ?_⟩
      rw [captureSessionIsActive_of_auxiliaries h.1]
      exact hu.active

theorem recomposeWithdrawn_writes (toLowercase : Char → List Char) {sessionId : String}
    (hu : Open s sessionId u) (sequence : I64) :
    Commits (fun _ t => Writes none s t) (recomposeWithdrawn toLowercase sessionId sequence u)
      s := by
  refine Commits.bind ((applyBoundItems_writes _ _ s).mono fun stands t ht => ?_)
  refine Commits.ite (fun _ => Commits.pure (writes_of_auxiliaries ht)) fun _ => ?_
  refine Commits.get_bind (Commits.bind ((reconcileItems_writes toLowercase _ _ t).mono
    fun _ w hw => ?_))
  have hauxiliaries := ht.trans hw
  refine (keepOrDelete_writes fun v hv hid => ?_).mono fun _ _ hrest =>
    (writes_of_auxiliaries hauxiliaries).trans hrest
  exact hu.active_of_auxiliaries hauxiliaries hv hid

theorem removePartialUtterance_writes (toLowercase : Char → List Char) (sessionId : String)
    (sequence expectedRevision : ℕ) (update : Option LaneUpdate) :
    Leads (Writes none)
      (removePartialUtterance toLowercase sessionId sequence expectedRevision update) := by
  intro s
  refine checked_bind fun _ _ => checked_bind fun update _ => Commits.get_bind ?_
  refine Commits.check_bind fun _ hensured => checked_bind fun sequence _ => ?_
  have hactive := active_of_ensured hensured
  cases hu : s.utteranceBySequence sessionId sequence with
  | none => exact Commits.pure .refl
  | some u =>
      obtain ⟨hmem, hsession, -⟩ := mem_of_utteranceBySequence hu
      refine Commits.refuse_bind fun _ => Commits.refuse_bind fun hincomplete => ?_
      refine Commits.bind ((withdrawSource_commits hmem).mono fun _ t ht => ?_)
      obtain ⟨hwrites, hopen⟩ : Writes none s t ∧ Open t sessionId u := by
        rcases ht with rfl | rfl
        · exact ⟨.refl, ⟨u, hmem, rfl⟩, hsession, hactive⟩
        · refine ⟨.single (.row hmem (.withdraw hincomplete (hsession ▸ hactive))),
            ⟨_, mem_written hmem _ _, rfl⟩, hsession, ?_⟩
          rw [captureSessionIsActive_written]
          exact hactive
      refine Commits.bind ((updateWithdrawn_writes hopen sequence update).mono fun v w hw => ?_)
      refine (recomposeWithdrawn_writes toLowercase hw.2 sequence).mono fun _ _ hrest => ?_
      exact (hwrites.trans (writes_of_auxiliaries hw.1)).trans hrest

/-! ### Translation lanes, facts and edits -/

theorem upsertLane_writes (write : TranslationLaneWrite) (sessionId : String) (sequence : ℕ)
    (update : LaneUpdate) : Leads Auxiliaries (upsertLane write sessionId sequence update) := by
  refine Leads.bind (Leads.check _) fun _ => Leads.bind (Leads.check _) fun update => ?_
  refine Leads.bind Leads.get fun s => Leads.bind (Leads.check _) fun _ => ?_
  refine Leads.bind (Leads.check _) fun sequence t => ?_
  exact (upsertTranslationVariant_returns _ _ _ _ _ t).mono fun _ _ h => h.1

theorem markWaitingUnavailable_writes (sessionId : String) :
    Leads Auxiliaries (markWaitingUnavailable sessionId) := by
  refine Leads.bind (Leads.check _) fun _ => Leads.bind Leads.get fun s => ?_
  refine Leads.bind (Leads.check _) fun _ => Leads.forM (fun entry => ?_) _
  refine Leads.bind (fun t => ?_) fun _ => Leads.pure _
  exact (upsertTranslationVariant_returns _ _ _ _ _ t).mono fun _ _ h => h.1

section Placing

variable (toLowercase : Char → List Char)

theorem upsertTranslationInboxItem_writes (input : NewRealtimeTranslationInboxItem) :
    Leads Auxiliaries (upsertTranslationInboxItem toLowercase input) := by
  refine fun s => Commits.check_bind fun translation _ => Commits.get_bind ?_
  refine Commits.check_bind fun _ hensured => ?_
  exact upsertInboxItem_writes toLowercase (active_of_ensured hensured) translation

theorem bindTranslationInboxItem_writes (key : RealtimeTranslationInboxKey)
    (canonicalSequence : ℕ) :
    Leads Auxiliaries (bindTranslationInboxItem toLowercase key canonicalSequence) := by
  refine Leads.bind (Leads.check _) fun _ => Leads.bind Leads.get fun s => ?_
  exact Leads.bind (Leads.check _) fun _ =>
    bindWithinSavepoint_writes toLowercase key canonicalSequence

theorem bindIfUnique_writes (key : RealtimeTranslationInboxKey) :
    Leads Auxiliaries (bindIfUnique toLowercase key) := by
  refine Leads.bind (Leads.check _) fun _ => Leads.bind Leads.get fun s => ?_
  refine Leads.bind (Leads.check _) fun _ => Leads.bind (Leads.check _) fun factKey => ?_
  refine Leads.bind (Leads.require _ _) fun f => Leads.ite (Leads.pure _) ?_
  refine Leads.bind (Leads.check _) fun candidates => ?_
  split
  · exact Leads.pure _
  · refine Leads.bind (Leads.attempt (bindWithinSavepoint_writes toLowercase _ _)) fun result => ?_
    cases result with
    | ok utterance => exact Leads.pure _
    | error e => exact Leads.ite (Leads.pure _) (Leads.throw e)

theorem reconcileActive_writes (sessionId : String) :
    Leads Auxiliaries (reconcileActive toLowercase sessionId) :=
  Leads.bind (Leads.check _) fun _ => Leads.bind Leads.get fun _ =>
    Leads.bind (Leads.check _) fun _ => reconcileItems_writes toLowercase _ _

theorem reconcileActiveNear_writes (sessionId : String) (window : Option (ℕ × ℕ)) :
    Leads Auxiliaries (reconcileActiveNear toLowercase sessionId window) :=
  Leads.bind (Leads.check _) fun _ => Leads.bind Leads.get fun _ =>
    Leads.bind (Leads.check _) fun _ => Leads.bind (Leads.check _) fun _ =>
      reconcileItems_writes toLowercase _ _

theorem settleActiveThrough_writes (sessionId : String) (afterEndMs throughEndMs : ℕ) :
    Leads Auxiliaries (settleActiveThrough toLowercase sessionId afterEndMs throughEndMs) :=
  Leads.bind (Leads.check _) fun _ => Leads.ite (Leads.pure _) <|
    Leads.bind Leads.get fun _ => Leads.bind (Leads.check _) fun _ =>
      Leads.bind (Leads.check _) fun _ => settleItems_writes toLowercase _

theorem settleActiveNear_writes (sessionId : String) (window : ℕ × ℕ) (throughEndMs : ℕ) :
    Leads Auxiliaries (settleActiveNear toLowercase sessionId window throughEndMs) :=
  Leads.bind (Leads.check _) fun _ => Leads.ite (Leads.pure _) <|
    Leads.bind Leads.get fun _ => Leads.bind (Leads.check _) fun _ =>
      Leads.bind (Leads.check _) fun _ => settleItems_writes toLowercase _

theorem settleActiveItems_writes (sessionId : String) (keys : List RealtimeTranslationInboxKey) :
    Leads Auxiliaries (settleActiveItems toLowercase sessionId keys) :=
  Leads.bind (Leads.check _) fun _ => Leads.ite (Leads.pure _) <|
    Leads.bind Leads.get fun _ => Leads.bind (Leads.check _) fun _ =>
      Leads.bind (Leads.check _) fun _ => settleItems_writes toLowercase _

theorem replayBoundRow_writes (items : List Fact) (row : String × I64) :
    Leads Auxiliaries (replayBoundRow items row) := by
  refine Leads.bind (Leads.attempt (applyEach_writes row.1 row.2 _)) fun result => ?_
  cases result with
  | ok stands => exact Leads.pure _
  | error e => exact Leads.ite (Leads.pure _) (Leads.throw e)

theorem reconcileAfterRecovery_writes (sessionId : String) :
    Leads Auxiliaries (reconcileAfterRecovery toLowercase sessionId) := by
  refine Leads.bind (Leads.check _) fun _ => Leads.bind Leads.get fun s => ?_
  refine Leads.bind (Leads.check _) fun _ => Leads.ite (Leads.pure _) ?_
  refine Leads.bind (Leads.forM (replayBoundRow_writes _) _) fun _ => ?_
  refine Leads.bind (reconcileItems_writes toLowercase _ _) fun reconciled => ?_
  refine Leads.bind Leads.get fun t => ?_
  exact Leads.bind (settleItems_writes toLowercase _) fun settled => Leads.pure _

end Placing

theorem stageReplacement_writes (mutationId utteranceId language targetText : String)
    (expectedRevision : ℕ) :
    Leads (Writes none)
      (stageReplacement mutationId utteranceId language targetText expectedRevision) := by
  intro s
  refine checked_bind fun _ _ => checked_bind fun _ _ => Commits.get_bind ?_
  refine Commits.require_bind fun u hu => Commits.require_bind fun v hv => ?_
  obtain ⟨hmem, -⟩ := mem_of_utteranceById hu
  refine Commits.refuse_bind fun hsettled => Commits.check_bind fun _ _ => ?_
  refine Commits.refuse_bind fun _ => Commits.refuse_bind fun _ => ?_
  dsimp only
  split
  · exact (Leads.refuse (R := Writes none) _ _) s
  · refine Commits.refuse_bind fun _ => Commits.modify (.single (.stage hmem rfl rfl hv ?_))
    simpa using hsettled

theorem commitMutation_writes (mutationId : String) :
    Leads (Writes none) (commitMutation mutationId) := by
  intro s
  refine checked_bind fun _ _ => Commits.get_bind (Commits.require_bind fun m _ => ?_)
  refine Commits.refuse_bind fun _ => Commits.require_bind fun u hu => ?_
  refine Commits.refuse_bind fun _ => ?_
  obtain ⟨hmem, hid⟩ := mem_of_utteranceById hu
  refine Commits.require_bind fun v hv => Commits.refuse_bind fun hchanged => ?_
  refine Commits.check_bind fun _ _ => Commits.refuse_bind fun _ => Commits.modify_bind ?_
  obtain ⟨⟨hlane, hsettled⟩, -⟩ : (laneOf v = m.lane ∧ v.payload.isSettled = true) ∧
      v.revision = m.expectedVariantRevision := by simpa using hchanged
  have hcorrect : Write none s { s with overrides := upsertOverride (m.committed u v
      (s.laneEditRevision m.utteranceId m.laneLanguage + 1)) s.overrides } :=
    .correct hmem hid hv hsettled hlane rfl rfl rfl
  refine Leads.from (R := Writes none) ?_ (.head hcorrect (.single .cancel))
  exact Leads.bind Leads.get fun t => Leads.bind (Leads.require _ _) fun w =>
    Leads.bind Leads.get fun _ => Leads.check _

theorem cancelMutation_writes (mutationId : String) :
    Leads (Writes none) (cancelMutation mutationId) :=
  Leads.bind (Leads.check _) fun _ => Leads.modify fun _ => .single .cancel

/-! ### Runs and speakers -/

theorem insertsRun_writes {run : Run} (new : run.desiredRevision = 0 ∧ run.appliedRevision = 0) :
    Leads (Writes (some run.sessionId)) (insertsRun run) :=
  Leads.bind (Leads.check _) fun _ => Leads.bind (Leads.check _) fun _ => fun s =>
    (execute_commits _ s).mono fun _ _ h => .single (.capture rfl new h)

/-- A statement that leaves the revisions of the runs alone, and their states or changes them as
they may be changed. -/
theorem editRuns_commits (selects : Run → Bool) (set : RunBody → RunBody)
    (h : ∀ b, (set b).desiredRevision = b.desiredRevision ∧
      (set b).appliedRevision = b.appliedRevision)
    (hstate : ∀ run : Run, selects run = true →
      (set run.toRunBody).captureState = run.captureState ∨
        validCaptureTransition run.captureState (set run.toRunBody).captureState = true) :
    Leads (Writes none) (modify (·.editRuns selects set) : Tx PUnit) := by
  refine Leads.modify fun s => .single (.runs (fun run _ _ => (h _).1) (fun run _ _ => ?_)
    fun run _ => hstate run)
  rw [(h _).2]
  exact ⟨le_refl _, fun hle => hle⟩

theorem claimRealtimeProvenance_writes (sessionId providerId modelId : String) :
    Leads (Writes none) (claimRealtimeProvenance sessionId providerId modelId) := by
  refine Leads.bind (Leads.check _) fun _ => Leads.bind (Leads.check _) fun _ => ?_
  refine Leads.bind (Leads.check _) fun _ => Leads.bind (Leads.refuse _ _) fun _ => ?_
  refine Leads.bind Leads.get fun s => Leads.bind (Leads.require _ _) fun run => ?_
  refine Leads.bind (Leads.refuse _ _) fun _ => Leads.bind (Leads.refuse _ _) fun _ => ?_
  split
  · exact Leads.refuse _ _
  · exact editRuns_commits _ _ (fun _ => ⟨rfl, rfl⟩) fun _ _ => .inl rfl
  · exact Leads.throw _

/-- A run in some state goes on to another, by a valid transition. -/
theorem enters_writes {runId : String} {expected next : CaptureState}
    (hvalid : validCaptureTransition expected next = true) :
    Leads (Writes none) (modify (·.editRuns
      (fun run => run.id = runId && run.captureState = expected)
      fun run => { run with captureState := next }) : Tx PUnit) := by
  refine editRuns_commits _ (fun run => { run with captureState := next }) (fun _ => ⟨rfl, rfl⟩)
    fun run hselects => ?_
  obtain ⟨-, hstate⟩ : run.id = runId ∧ run.captureState = expected := by simpa using hselects
  rw [hstate]
  exact .inr hvalid

theorem transitionCapture_writes (runId : String) (expected next : CaptureState) :
    Leads (Writes none) (transitionCapture runId expected next) := by
  refine fun s => Commits.refuse_bind fun hvalid => Commits.get_bind ?_
  exact Commits.refuse_bind fun _ => enters_writes (by simpa using hvalid) s

/-- Every active run may be interrupted. -/
theorem validCaptureTransition_interrupted {state : CaptureState} (h : state.isActive = true) :
    validCaptureTransition state .interrupted = true := by
  cases state with
  | recording => rfl
  | paused => rfl
  | draining => rfl
  | interrupted => cases h
  | failed => cases h
  | completed => cases h

theorem recoverUnfinishedRuns_writes : Leads (Writes none) recoverUnfinishedRuns :=
  editRuns_commits _ _ (fun _ => ⟨rfl, rfl⟩) fun _ hactive =>
    .inr (validCaptureTransition_interrupted hactive)

theorem recoverDetachedUnfinishedRun_writes (runId : String) :
    Leads (Writes none) (recoverDetachedUnfinishedRun runId) := by
  refine Leads.bind (Leads.check _) fun _ => Leads.bind ?_ fun _ =>
    Leads.bind Leads.get fun s => Leads.refuse _ _
  refine editRuns_commits _ _ (fun _ => ⟨rfl, rfl⟩) fun run hselects => ?_
  obtain ⟨-, hactive⟩ : run.id = runId ∧ run.captureState.isActive = true := by
    simpa using hselects
  exact .inr (validCaptureTransition_interrupted hactive)

theorem interruptFrom_writes {permitted : List CaptureState}
    (hpermitted : ∀ state ∈ permitted, state.isActive = true) (unpermitted unmatched : String)
    (runId : String) (expected : CaptureState) :
    Leads (Writes none) (interruptFrom permitted unpermitted unmatched runId expected) := by
  refine fun s => Commits.refuse_bind fun hmem => Commits.get_bind (Commits.refuse_bind fun _ => ?_)
  have hactive := hpermitted expected (by simpa using hmem)
  exact enters_writes (validCaptureTransition_interrupted hactive) s

theorem ackRealtimeLoroProjection_writes (sessionId : String) (revision : ℕ) :
    Leads (Writes none) (ackRealtimeLoroProjection sessionId revision) := by
  intro s
  refine checked_bind fun revision _ => Commits.get_bind (Commits.require_bind fun run hrun => ?_)
  refine Commits.refuse_bind fun hbeyond => Commits.modify (.single
    (.runs (fun _ _ _ => rfl) ?_ fun _ _ _ => .inl rfl))
  intro other hother hsession
  have hsame : other = run := by
    have hid : run.sessionId = sessionId := by simpa using List.find?_some hrun
    refine eq_of_key_eq s.sessions hother (List.mem_of_find?_eq_some hrun) ?_
    rw [of_decide_eq_true hsession, hid]
  obtain rfl := hsame
  refine ⟨le_max_left _ _, fun hle => max_le hle ?_⟩
  simpa using hbeyond

theorem insertSessionSpeaker_writes (id sessionId : String) :
    Leads (Writes none) (insertSessionSpeaker id sessionId) := fun _ =>
  Commits.get_bind <| Commits.refuse_bind fun hrunning => Commits.refuse_bind fun hnew =>
    Commits.modify (.single (.speak (Option.isNone_eq_false_iff.1 hrunning) hnew))

theorem beginSessionPurge_writes (sessionId : String) :
    Leads (Writes none) (beginSessionPurge sessionId) := by
  refine Leads.bind (Leads.check _) fun _ => Leads.bind Leads.get fun s => ?_
  refine Leads.ite (Leads.pure _) (Leads.bind (Leads.refuse _ _) fun _ => ?_)
  exact Leads.modify fun _ => .single .jobs

theorem completeSessionPurgeJob_writes (sessionId : String) :
    Leads (Writes none) (completeSessionPurgeJob sessionId) :=
  Leads.bind (Leads.check _) fun _ => Leads.modify fun _ => .single .jobs

end Lanes
end ZuTalk
