/-
# Runs of the capture store

`Op` is a call of a public operation of `crates/vt-store/src/notebook_capture_store.rs`.  Each call
is one transaction: `step` goes on where it goes through and stays where it ends in an error.

`step_cases` is what the sections on invariants rest on: a call takes the tables on by `Writes`, or
deletes a speaker or a whole session.  The calls about translations (`Op.isAuxiliary`) go by
`Auxiliaries` alone.
-/

import ZuTalk.Lanes.Calls

namespace ZuTalk
namespace Lanes

open Capture (CaptureState NewRealtimeUtterance)
open Inbox (RealtimeTranslationInboxKey)
open Transactions Machine

/-- A call. -/
inductive Op
  | createRun (id sessionId : String)
  | createCompletedImportRun (id sessionId : String)
  | claimRealtimeProvenance (sessionId providerId modelId : String)
  | transitionCapture (runId : String) (expected next : CaptureState)
  | interruptCapture (runId : String) (expected : CaptureState)
  | interruptLocalPersistence (runId : String) (expected : CaptureState)
  | recoverUnfinishedRuns
  | recoverDetachedUnfinishedRun (runId : String)
  | ackRealtimeLoroProjection (sessionId : String) (revision : ℕ)
  | insertSessionSpeaker (id sessionId : String)
  | deleteSessionSpeaker (id : String)
  | upsertUtterance (input : NewRealtimeUtterance) (expectedRevision : Option ℕ)
  | removePartialUtterance (sessionId : String) (sequence expectedRevision : ℕ)
      (update : Option LaneUpdate)
  | upsertTranslationVariant (sessionId : String) (sequence : ℕ) (update : LaneUpdate)
  | upsertInlineTranslationVariant (sessionId : String) (sequence : ℕ) (update : LaneUpdate)
  | markWaitingTranslationVariantsUnavailable (sessionId : String)
  | upsertTranslationInboxItem (input : NewRealtimeTranslationInboxItem)
  | bindTranslationInboxItem (key : RealtimeTranslationInboxKey) (canonicalSequence : ℕ)
  | bindTranslationInboxItemIfUnique (key : RealtimeTranslationInboxKey)
  | reconcileActiveTranslationInbox (sessionId : String)
  | reconcileActiveTranslationInboxNear (sessionId : String) (window : Option (ℕ × ℕ))
  | settleActiveTranslationInboxThrough (sessionId : String) (afterEndMs throughEndMs : ℕ)
  | settleActiveTranslationInboxNear (sessionId : String) (window : ℕ × ℕ) (throughEndMs : ℕ)
  | settleActiveTranslationInboxItems (sessionId : String)
      (keys : List RealtimeTranslationInboxKey)
  | reconcileTranslationInboxAfterRecovery (sessionId : String)
  | stageUtteranceVariantReplacement (mutationId utteranceId language targetText : String)
      (expectedRevision : ℕ)
  | commitProjectionMutation (mutationId : String)
  | cancelProjectionMutation (mutationId : String)
  | beginSessionPurge (sessionId : String)
  | completeSessionPurgeJob (sessionId : String)
  | purgeSessionArtifacts (sessionId : String)

/-- What a call returns is not looked at. -/
def silent {α : Type} (x : Tx α) : Tx PUnit := (fun _ => PUnit.unit) <$> x

theorem silent_commits {α : Type} {x : Tx α} {s : CaptureStore} {P : CaptureStore → Prop}
    (h : Commits (fun _ t => P t) x s) : Commits (fun _ t => P t) (silent x) s :=
  Commits.map (Q := fun _ t => P t) h

/-- The tables after a call that goes through. -/
theorem finalState_of_ok {α : Type} {x : Tx α} {s t : CaptureStore} {a : α} (h : x s = .ok a t) :
    finalState (transaction (silent x) s) = t := by
  have hsilent : silent x s = .ok PUnit.unit t := by
    change EStateM.map _ x s = _
    rw [EStateM.map, h]
  rw [transaction_ok hsilent]
  rfl

/-- The tables after a call that does not. -/
theorem finalState_of_error {α : Type} {x : Tx α} {s t : CaptureStore} {e : StoreError}
    (h : x s = .error e t) : finalState (transaction (silent x) s) = s := by
  have hsilent : silent x s = .error e t := by
    change EStateM.map _ x s = _
    rw [EStateM.map, h]
  unfold transaction
  rw [hsilent]
  rfl

section Runs

variable (toLowercase : Char → List Char)

/-- The statements of a call. -/
def Op.perform : Op → Tx PUnit
  | createRun id sessionId => Lanes.createRun id sessionId
  | createCompletedImportRun id sessionId => Lanes.createCompletedImportRun id sessionId
  | claimRealtimeProvenance sessionId providerId modelId =>
      Lanes.claimRealtimeProvenance sessionId providerId modelId
  | transitionCapture runId expected next => Lanes.transitionCapture runId expected next
  | interruptCapture runId expected => Lanes.interruptCapture runId expected
  | interruptLocalPersistence runId expected => Lanes.interruptLocalPersistence runId expected
  | recoverUnfinishedRuns => Lanes.recoverUnfinishedRuns
  | recoverDetachedUnfinishedRun runId => Lanes.recoverDetachedUnfinishedRun runId
  | ackRealtimeLoroProjection sessionId revision =>
      Lanes.ackRealtimeLoroProjection sessionId revision
  | insertSessionSpeaker id sessionId => Lanes.insertSessionSpeaker id sessionId
  | deleteSessionSpeaker id => Lanes.deleteSessionSpeaker id
  | upsertUtterance input expectedRevision =>
      silent (Lanes.upsertUtterance toLowercase input expectedRevision)
  | removePartialUtterance sessionId sequence expectedRevision update =>
      silent (Lanes.removePartialUtterance toLowercase sessionId sequence expectedRevision update)
  | upsertTranslationVariant sessionId sequence update =>
      silent (upsertLane .finalIsImmutable sessionId sequence update)
  | upsertInlineTranslationVariant sessionId sequence update =>
      silent (upsertLane .extendInlineTranslation sessionId sequence update)
  | markWaitingTranslationVariantsUnavailable sessionId => markWaitingUnavailable sessionId
  | upsertTranslationInboxItem input =>
      silent (Lanes.upsertTranslationInboxItem toLowercase input)
  | bindTranslationInboxItem key canonicalSequence =>
      silent (Lanes.bindTranslationInboxItem toLowercase key canonicalSequence)
  | bindTranslationInboxItemIfUnique key => silent (bindIfUnique toLowercase key)
  | reconcileActiveTranslationInbox sessionId => silent (reconcileActive toLowercase sessionId)
  | reconcileActiveTranslationInboxNear sessionId window =>
      silent (reconcileActiveNear toLowercase sessionId window)
  | settleActiveTranslationInboxThrough sessionId afterEndMs throughEndMs =>
      silent (settleActiveThrough toLowercase sessionId afterEndMs throughEndMs)
  | settleActiveTranslationInboxNear sessionId window throughEndMs =>
      silent (settleActiveNear toLowercase sessionId window throughEndMs)
  | settleActiveTranslationInboxItems sessionId keys =>
      silent (settleActiveItems toLowercase sessionId keys)
  | reconcileTranslationInboxAfterRecovery sessionId =>
      silent (reconcileAfterRecovery toLowercase sessionId)
  | stageUtteranceVariantReplacement mutationId utteranceId language targetText
      expectedRevision =>
      stageReplacement mutationId utteranceId language targetText expectedRevision
  | commitProjectionMutation mutationId => silent (commitMutation mutationId)
  | cancelProjectionMutation mutationId => cancelMutation mutationId
  | beginSessionPurge sessionId => Lanes.beginSessionPurge sessionId
  | completeSessionPurgeJob sessionId => Lanes.completeSessionPurgeJob sessionId
  | purgeSessionArtifacts sessionId => Lanes.purgeSessionArtifacts sessionId

/-- The tables after a call, whether it goes through or not. -/
def after (s : CaptureStore) (op : Op) : CaptureStore :=
  finalState (transaction (op.perform toLowercase) s)

/-- One call. -/
def step (s : CaptureStore) (op : Op) : Option CaptureStore := some (after toLowercase s op)

/-- The session a call deletes. -/
def Op.purges : Op → Option String
  | purgeSessionArtifacts sessionId => some sessionId
  | _ => none

/-- The session a call creates a run for. -/
def Op.creates : Op → Option String
  | createRun _ sessionId | createCompletedImportRun _ sessionId => some sessionId
  | _ => none

/-- The tables of a new database. -/
def emptyStore : CaptureStore where
  utterances := []
  inbox := []
  runs := []
  sessionSpeakers := []
  overrides := []
  mutations := []
  purgeJobs := []
  ids := List.nodup_nil
  sequences := List.nodup_nil
  facts := List.nodup_nil
  sessions := List.nodup_nil
  captured := fun _ hu => absurd hu List.not_mem_nil

/-- The calls that are about translations. -/
def Op.isAuxiliary : Op → Bool
  | upsertTranslationVariant .. | upsertInlineTranslationVariant ..
  | markWaitingTranslationVariantsUnavailable _ | upsertTranslationInboxItem _
  | bindTranslationInboxItem .. | bindTranslationInboxItemIfUnique _
  | reconcileActiveTranslationInbox _ | reconcileActiveTranslationInboxNear ..
  | settleActiveTranslationInboxThrough .. | settleActiveTranslationInboxNear ..
  | settleActiveTranslationInboxItems .. | reconcileTranslationInboxAfterRecovery _ => true
  | _ => false

/-- **A call about translations goes by the writes of translations and facts.** -/
theorem Op.perform_auxiliaries {op : Op} (h : op.isAuxiliary = true) :
    Leads Auxiliaries (op.perform toLowercase) := by
  cases op with
  | upsertTranslationVariant sessionId sequence update =>
      exact (upsertLane_writes _ sessionId sequence update).map
  | upsertInlineTranslationVariant sessionId sequence update =>
      exact (upsertLane_writes _ sessionId sequence update).map
  | markWaitingTranslationVariantsUnavailable sessionId =>
      exact markWaitingUnavailable_writes sessionId
  | upsertTranslationInboxItem input =>
      exact (upsertTranslationInboxItem_writes toLowercase input).map
  | bindTranslationInboxItem key canonicalSequence =>
      exact (bindTranslationInboxItem_writes toLowercase key canonicalSequence).map
  | bindTranslationInboxItemIfUnique key => exact (bindIfUnique_writes toLowercase key).map
  | reconcileActiveTranslationInbox sessionId =>
      exact (reconcileActive_writes toLowercase sessionId).map
  | reconcileActiveTranslationInboxNear sessionId window =>
      exact (reconcileActiveNear_writes toLowercase sessionId window).map
  | settleActiveTranslationInboxThrough sessionId afterEndMs throughEndMs =>
      exact (settleActiveThrough_writes toLowercase sessionId afterEndMs throughEndMs).map
  | settleActiveTranslationInboxNear sessionId window throughEndMs =>
      exact (settleActiveNear_writes toLowercase sessionId window throughEndMs).map
  | settleActiveTranslationInboxItems sessionId keys =>
      exact (settleActiveItems_writes toLowercase sessionId keys).map
  | reconcileTranslationInboxAfterRecovery sessionId =>
      exact (reconcileAfterRecovery_writes toLowercase sessionId).map
  | _ => cases h

/-- The speaker a call deletes. -/
def Op.unspeaks : Op → Option String
  | deleteSessionSpeaker id => some id
  | _ => none

/-- **A call goes by writes**, unless it deletes a speaker or a session. -/
theorem Op.perform_writes {op : Op} (hspeaker : op.unspeaks = none) (hsession : op.purges = none) :
    Leads (Writes op.creates) (op.perform toLowercase) := by
  cases hop : op.isAuxiliary with
  | true => exact (op.perform_auxiliaries toLowercase hop).mono fun _ _ => writes_of_auxiliaries
  | false =>
      cases op with
      | createRun | createCompletedImportRun => exact insertsRun_writes ⟨rfl, rfl⟩
      | claimRealtimeProvenance sessionId providerId modelId =>
          exact claimRealtimeProvenance_writes sessionId providerId modelId
      | transitionCapture runId expected next =>
          exact transitionCapture_writes runId expected next
      | interruptCapture runId expected => exact interruptFrom_writes (by decide) _ _ runId expected
      | interruptLocalPersistence runId expected =>
          exact interruptFrom_writes (by decide) _ _ runId expected
      | recoverUnfinishedRuns => exact recoverUnfinishedRuns_writes
      | recoverDetachedUnfinishedRun runId => exact recoverDetachedUnfinishedRun_writes runId
      | ackRealtimeLoroProjection sessionId revision =>
          exact ackRealtimeLoroProjection_writes sessionId revision
      | insertSessionSpeaker id sessionId => exact insertSessionSpeaker_writes id sessionId
      | deleteSessionSpeaker id => cases hspeaker
      | upsertUtterance input expectedRevision =>
          exact (upsertUtterance_writes toLowercase input expectedRevision).map
      | removePartialUtterance sessionId sequence expectedRevision update =>
          exact (removePartialUtterance_writes toLowercase sessionId sequence expectedRevision
            update).map
      | stageUtteranceVariantReplacement mutationId utteranceId language targetText
          expectedRevision =>
          exact stageReplacement_writes mutationId utteranceId language targetText
            expectedRevision
      | commitProjectionMutation mutationId => exact (commitMutation_writes mutationId).map
      | cancelProjectionMutation mutationId => exact cancelMutation_writes mutationId
      | beginSessionPurge sessionId => exact beginSessionPurge_writes sessionId
      | completeSessionPurgeJob sessionId => exact completeSessionPurgeJob_writes sessionId
      | purgeSessionArtifacts sessionId => cases hsession
      | _ => cases hop

theorem Op.of_unspeaks {op : Op} {id : String} (h : op.unspeaks = some id) :
    op = .deleteSessionSpeaker id := by
  unfold Op.unspeaks at h
  split at h
  · rw [Option.some.inj h]
  · cases h

theorem Op.of_purges {op : Op} {sessionId : String} (h : op.purges = some sessionId) :
    op = .purgeSessionArtifacts sessionId := by
  unfold Op.purges at h
  split at h
  · rw [Option.some.inj h]
  · cases h

/-- A call that may do one thing, and may do nothing. -/
theorem after_cases {s : CaptureStore} (op : Op) {f : CaptureStore → CaptureStore}
    (h : Commits (fun _ t => t = f s) (op.perform toLowercase) s) :
    after toLowercase s op = s ∨ after toLowercase s op = f s := h.finalState

/-- **What a call does to the tables**: writes, or the deletion of one speaker or one session. -/
theorem step_cases {s t : CaptureStore} {op : Op} (h : step toLowercase s op = some t) :
    Writes op.creates s t ∨ (∃ id, op.unspeaks = some id ∧ t = s.withoutSpeaker id) ∨
      ∃ sessionId, op.purges = some sessionId ∧ t = s.withoutSession sessionId := by
  obtain rfl := Option.some.inj h
  cases hspeaker : op.unspeaks with
  | some id =>
      obtain rfl := Op.of_unspeaks hspeaker
      rcases after_cases toLowercase (.deleteSessionSpeaker id)
        (Commits.check_bind fun _ _ => Commits.modify rfl) with hsame | hgone
      · exact .inl (hsame.symm ▸ .refl)
      · exact .inr (.inl ⟨id, rfl, hgone⟩)
  | none =>
      cases hop : op.purges with
      | none => exact .inl (finalState_transaction (op.perform_writes toLowercase hspeaker hop) s)
      | some sessionId =>
          obtain rfl := Op.of_purges hop
          rcases after_cases toLowercase (.purgeSessionArtifacts sessionId)
            (Commits.check_bind fun _ _ => Commits.modify rfl) with hsame | hgone
          · exact .inl (hsame.symm ▸ .refl)
          · exact .inr (.inr ⟨sessionId, rfl, hgone⟩)

/-- **A call about translations goes by the writes of translations and facts.** -/
theorem step_auxiliaries {s t : CaptureStore} {op : Op} (hop : op.isAuxiliary = true)
    (h : step toLowercase s op = some t) : Auxiliaries s t := by
  obtain rfl := Option.some.inj h
  exact finalState_transaction (op.perform_auxiliaries toLowercase hop) s

/-- A call has always an outcome. -/
theorem run_step (s : CaptureStore) (ops : List Op) :
    run (step toLowercase) s ops = some (ops.foldl (after toLowercase) s) := by
  induction ops generalizing s with
  | nil => rfl
  | cons op rest ih =>
      rw [run_cons]
      exact ih (after toLowercase s op)

end Runs

/-! ### A session -/

/-- What is enough of `char::to_lowercase` for the languages below. -/
def lowerAscii (c : Char) : List Char := [c.toLower]

/-- A Final source. -/
def heardSource : NewRealtimeUtterance :=
  { id := "u"
    sessionId := "n"
    sequence := 0
    sessionSpeakerId := some "ann"
    sourceLanguage := "en"
    sourceText := "hello"
    sourceStartMs := some 0
    sourceEndMs := some 1000
    translatedLanguage := none
    translatedText := none
    completion := .complete
    alignment := .sourceOnly }

/-- A translation of it, as a fact. -/
def heardFact : NewRealtimeTranslationInboxItem :=
  { key := ⟨"n", 0, 0, 0, "de"⟩
    sourceLanguage := "en"
    sourceText := "hello"
    sourceStartMs := some 0
    sourceEndMs := some 1000
    translatedText := some "hallo"
    completion := some .complete
    withdrawn := false }

/-- A session in which one thing is said, and translated three times. -/
def heard : List Op :=
  [.createRun "r" "n", .claimRealtimeProvenance "n" "soniox" "stt-rt-v5",
    .insertSessionSpeaker "ann" "n", .upsertUtterance heardSource none,
    .upsertTranslationVariant "n" 0 ⟨"fr", some "bonjour", .ready, some .complete⟩,
    .upsertTranslationVariant "n" 0 ⟨"it", none, .waiting, none⟩,
    .upsertTranslationInboxItem heardFact, .ackRealtimeLoroProjection "n" 3]

/-- The tables after it. -/
def heardStore : CaptureStore := heard.foldl (after lowerAscii) emptyStore

theorem run_heard : run (step lowerAscii) emptyStore heard = some heardStore :=
  run_step lowerAscii emptyStore heard

/-- A translation of it is corrected. -/
def corrected : List Op :=
  [.stageUtteranceVariantReplacement "m" "u" "fr" "salut" 0, .commitProjectionMutation "m"]

/-- The tables after that. -/
def correctedStore : CaptureStore := corrected.foldl (after lowerAscii) heardStore

theorem run_corrected : run (step lowerAscii) emptyStore (heard ++ corrected) =
    some correctedStore := by
  rw [run_step, List.foldl_append]
  rfl

/-- Calls that try to change what was said: another French translation, and one that goes on;
another source, and its removal; another German fact, and one in French; and a speaker is
deleted. -/
def disputed : List Op :=
  [.upsertTranslationVariant "n" 0 ⟨"fr", some "salut", .ready, some .complete⟩,
    .upsertInlineTranslationVariant "n" 0 ⟨"fr", some "bonjour tous", .ready, some .complete⟩,
    .upsertUtterance { heardSource with sourceText := "hullo" } (some 0),
    .removePartialUtterance "n" 0 0 none,
    .upsertTranslationInboxItem { heardFact with translatedText := some "moin" },
    .upsertTranslationInboxItem { heardFact with
      key := ⟨"n", 0, 0, 0, "fr"⟩, translatedText := some "coucou" },
    .deleteSessionSpeaker "ann"]

/-- The tables after them. -/
def disputedStore : CaptureStore := disputed.foldl (after lowerAscii) heardStore

theorem run_disputed : run (step lowerAscii) heardStore disputed = some disputedStore :=
  run_step lowerAscii heardStore disputed

/-- The session ends, and there is another, in which the source is being edited. -/
def continued : List Op :=
  [.transitionCapture "r" .recording .draining, .transitionCapture "r" .draining .completed,
    .createRun "r2" "n2", .claimRealtimeProvenance "n2" "soniox" "stt-rt-v5",
    .insertSessionSpeaker "bob" "n2",
    .upsertUtterance { heardSource with
      id := "u2", sessionId := "n2", sessionSpeakerId := some "bob" } none,
    .upsertTranslationInboxItem { heardFact with key := ⟨"n2", 0, 0, 0, "de"⟩ },
    .ackRealtimeLoroProjection "n2" 1,
    .stageUtteranceVariantReplacement "m2" "u2" "en" "hello!" 0]

/-- The tables after that. -/
def continuedStore : CaptureStore := continued.foldl (after lowerAscii) correctedStore

theorem run_continued : run (step lowerAscii) emptyStore ((heard ++ corrected) ++ continued) =
    some continuedStore := by
  rw [run_step, List.foldl_append, List.foldl_append]
  rfl

end Lanes
end ZuTalk
