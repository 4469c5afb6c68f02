/-
# Writing one lane

`crates/vt-store/src/notebook_capture_store.rs`: `upsert_translation_variant_from_conn`,
`adopt_translation_inbox_source_language`, `composed_translation_lane_from_conn`,
`claim_auxiliary_final_from_provisional_source`,
`collect_empty_translation_shell_after_withdrawal`, `apply_translation_inbox_to_bound_utterance`
and `apply_utterance_overrides`.
-/

import ZuTalk.Lanes.Store

namespace ZuTalk
namespace Lanes

open Capture (UtteranceCompletion)
open Inbox (NotebookCaptureStoreError RealtimeTranslationInboxKey)
open Table Transactions

/-- What a statement sequence of the store does: it reads and writes the tables and may stop. -/
abbrev Tx := EStateM StoreError CaptureStore

/-- A check of the code, in a transaction. -/
def checked {α : Type} (x : Except NotebookCaptureStoreError α) : Tx α :=
  check (x.mapError .capture)

/-! ### What the user sees -/

/-- A lane shows the text of its override. -/
def Payload.overlaid (text : String) : Payload → Payload
  | .ready _ completion => .ready text completion
  | payload => payload

/-- One override in `apply_utterance_overrides`. -/
def applyOverride (u : Utterance) (o : Override) : Except StoreError Utterance :=
  if o.editRevision = 0 then
    .error (.corruptData s!"utterance {u.id} override has zero edit revision")
  else if u.revision < o.machineUtteranceRevision then
    .error (.corruptData s!"utterance {u.id} override is based on a future machine revision")
  else
    match u.variant o.laneLanguage with
    | none => .error (.corruptData
        s!"utterance {u.id} override references missing language {o.laneLanguage.code}")
    | some variant =>
        if variant.revision < o.machineVariantRevision then
          .error (.corruptData s!"utterance {u.id} override is based on a future variant revision")
        else
          let overlaid := u.setVariants (·.language = o.laneLanguage) fun v =>
            { v with payload := v.payload.overlaid o.text }
          let mismatch := StoreError.corruptData <| s!"utterance {u.id} override lane " ++
            s!"{o.lane.asStr} does not match machine language {o.laneLanguage.code}"
          match o.lane with
          | .source =>
              if variant.role = .source ∧ u.sourceLanguage = o.laneLanguage then
                .ok { u with toUtteranceBody := { overlaid with sourceText := o.text } }
              else .error mismatch
          | .translated =>
              if variant.role = .translation then .ok { u with toUtteranceBody := overlaid }
              else .error mismatch

/-- `apply_utterance_overrides`. -/
def CaptureStore.applyUtteranceOverrides (s : CaptureStore) (u : Utterance) :
    Except StoreError Utterance :=
  (select (fun o : Override => o.utteranceId = u.id)
    (fun a b => compare a.laneLanguage.code b.laneLanguage.code ≠ .gt)
    s.overrides).foldlM applyOverride u

/-- A row as the user sees it. -/
def visible (u : Utterance) : Tx Utterance := do
  let s ← get
  check (s.applyUtteranceOverrides u)

/-- A row read again, as the user sees it. -/
def reloaded (id : String) : Tx Utterance := do
  let s ← get
  let u ← require (s.utteranceById id) (.notFound s!"utterance {id}")
  visible u

/-! ### Writing a translation lane -/

/-- The desired revision of a session is one more. -/
def CaptureStore.bumped (sessionId : String) (s : CaptureStore) : CaptureStore :=
  s.editRuns (·.sessionId = sessionId) fun run =>
    { run with desiredRevision := run.desiredRevision + 1 }

/-- `bump_realtime_loro_desired_revision`. -/
def bumpRealtimeLoroDesiredRevision (sessionId : String) : Tx ℕ := do
  modify (·.bumped sessionId)
  let s ← get
  let run ← require (s.run sessionId) (.notFound s!"capture session {sessionId}")
  return run.desiredRevision

/-- `TranslationLaneWrite`. -/
inductive TranslationLaneWrite
  | finalIsImmutable
  | detachDerivedBinding
  | composeAuxiliarySegments
  | extendInlineTranslation
  deriving DecidableEq, Repr

/-- Whether a write may grow a Final lane. -/
def TranslationLaneWrite.mayExtend (write : TranslationLaneWrite) : Bool :=
  write = .composeAuxiliarySegments || write = .extendInlineTranslation

/-- What comes of a write to a lane. -/
inductive LaneDecision
  | write
  | keep
  | cannotDetach
  | immutable
  deriving DecidableEq, Repr

/-- Whether a lane that is Final takes a write. -/
def extendsFinalLane (existing : Variant) (payload : Payload) (write : TranslationLaneWrite) :
    Bool :=
  write.mayExtend && payload.isSettled && existing.payload.text.any fun settled =>
    payload.text.any fun incoming => preservesSettledLane settled incoming

/-- What `upsert_translation_variant_from_conn` decides by the lane there is. -/
def laneDecision (existing : Option Variant) (payload : Payload) (write : TranslationLaneWrite) :
    LaneDecision :=
  match existing with
  | none => .write
  | some existing =>
      if existing.role = .translation ∧ existing.payload = payload then .keep
      else if existing.isFinalTranslation then
        if write = .detachDerivedBinding then .cannotDetach
        else if !payload.isSettled && !extendsFinalLane existing payload write then .keep
        else if !extendsFinalLane existing payload write then .immutable
        else .write
      else .write

/-- The statements `upsert_translation_variant_from_conn` executes. -/
def writeTranslation (u : Utterance) (language : Language) (payload : Payload) :
    Tx Utterance := do
  modify (·.editUtterance u.id (·.upsertTranslation language payload))
  if payload.isSettled then
    let projectionRevision ← bumpRealtimeLoroDesiredRevision u.sessionId
    modify (·.editUtterance u.id (·.projectTranslation language projectionRevision))
  reloaded u.id

/-- `upsert_translation_variant_from_conn`. -/
def upsertTranslationVariant (sessionId : String) (sequence : I64) (language : Language)
    (payload : Payload) (write : TranslationLaneWrite) : Tx Utterance := do
  let s ← get
  let lane := s!"{sessionId}:{sequence.val}:{language.code}"
  let u ← require (s.utteranceBySequence sessionId sequence)
    (.notFound s!"utterance {sessionId}:{sequence.val}")
  refuse (u.hasSourceLane && u.sourceLanguage = language)
    (.validation s!"translation variant {language.code} duplicates the source language")
  match laneDecision (u.variant language) payload write with
  | .write => writeTranslation u language payload
  | .keep => visible u
  | .cannotDetach =>
      throw (.conflict s!"cannot detach completed derived translation variant {lane}")
  | .immutable => throw (.conflict s!"final machine utterance variant {lane} is immutable")

/-! ### The label of a row -/

/-- Whether a settled row has none of its words in the script of its label, and may have them in
that of another language. -/
def UtteranceBody.mislabelled (b : UtteranceBody) (adopted : Language) : Bool :=
  b.hasSourceLane && b.sourceLaneIsComplete &&
    scriptContradictsLanguage b.sourceText b.sourceLanguage &&
    !scriptContradictsLanguage b.sourceText adopted

/-- A ready translation owns the language that is to be adopted. -/
def UtteranceBody.adoptedLaneIsOccupied (b : UtteranceBody) (adopted : Language) : Bool :=
  b.variants.any fun v => v.language = adopted && v.isReadyTranslation

/-- Whether a fact gives a row its language. -/
def adopts (s : CaptureStore) (f : Fact) (u : Utterance) : Bool :=
  !f.withdrawn && f.sourceLanguage ≠ und && f.sourceLanguage ≠ u.sourceLanguage &&
    (u.sourceLanguage = und ||
      (u.mislabelled f.sourceLanguage && !s.utteranceHasUserState u.id)) &&
    !u.adoptedLaneIsOccupied f.sourceLanguage

/-- The statements `adopt_translation_inbox_source_language` executes. -/
def relabelUtterance (u : Utterance) (adopted : Language) : Tx Utterance := do
  let s ← get
  let renamed := (s.utteranceById u.id).elim 0 fun stored =>
    stored.variants.countP (UtteranceBody.renames u.sourceLanguage)
  modify (·.editUtterance u.id (·.relabel u.sourceLanguage adopted))
  if renamed = 1 then
    if u.sourceLaneIsComplete then
      let projectionRevision ← bumpRealtimeLoroDesiredRevision u.sessionId
      modify (·.editUtterance u.id (·.projectSource projectionRevision))
    else modify (·.editUtterance u.id (·.projectSource 0))
  reloaded u.id

/-- `adopt_translation_inbox_source_language`. -/
def adoptTranslationInboxSourceLanguage (f : Fact) (u : Utterance) : Tx Utterance := do
  let s ← get
  if adopts s f u then relabelUtterance u f.sourceLanguage else pure u

/-! ### The text of a lane -/

/-- `is_dense_script`. -/
def isDenseScript (c : Char) : Bool := isHanOrKana c || isThai c

/-- `needs_separator_between`. -/
def needsSeparatorBetween (accumulated next : List Char) : Bool :=
  match accumulated.getLast?, next.head? with
  | some previous, some following =>
      if Text.isWhitespace previous || Text.isWhitespace following then false
      else if isWidePunctuation previous || isWidePunctuation following then false
      else !(isDenseScript previous && isDenseScript following)
  | _, _ => false

/-- One segment more. -/
def joinSegment (text : List Char) (segment : String) : List Char :=
  let segment := Text.trimEnd segment.toList
  if segment.isEmpty then text
  else if needsSeparatorBetween text segment then text ++ ' ' :: segment
  else text ++ segment

/-- The segments bound to a lane, in the order they were spoken. -/
def CaptureStore.segments (s : CaptureStore) (utteranceId : String) (target : Language) :
    List (String × UtteranceCompletion) :=
  (select (fun f : Fact => f.boundUtteranceId = some utteranceId && f.targetLanguage = target)
    Fact.spoken s.inbox).filterMap (·.translation)

/-- What segments say, and whether all of them are final. -/
def composed (segments : List (String × UtteranceCompletion)) :
    Option (String × UtteranceCompletion) :=
  let text := segments.foldl (fun text segment => joinSegment text segment.1) []
  if text.isEmpty then none
  else some (String.ofList text,
    if segments.all (·.2 = .complete) then .complete else .partially)

/-- `composed_translation_lane_from_conn`. -/
def CaptureStore.composedTranslationLane (s : CaptureStore) (utteranceId : String)
    (target : Language) : Option (String × UtteranceCompletion) :=
  composed (s.segments utteranceId target)

/-! ### A provisional source and a translation-only shell -/

/-- `claim_auxiliary_final_from_provisional_source`. -/
def claimAuxiliaryFinalFromProvisionalSource (u : Utterance) (language : Language)
    (text : String) : Tx Utterance := do
  let s ← get
  let claimed := (s.utteranceById u.id).elim 0 fun stored =>
    stored.variants.countP (UtteranceBody.claimable language)
  let lane := s!"{u.sessionId}:{u.sequence.val}:{language.code}"
  refuse (claimed ≠ 1)
    (.conflict s!"provisional source owner {lane} changed before auxiliary Final")
  modify (·.editUtterance u.id (·.claim language text))
  let projectionRevision ← bumpRealtimeLoroDesiredRevision u.sessionId
  modify (·.editUtterance u.id (·.projectClaimed language projectionRevision))
  reloaded u.id

/-- A row that says nothing any more. -/
def UtteranceBody.isEmptyShell (b : UtteranceBody) : Bool :=
  !b.hasSourceFact && !b.variants.any Variant.isReadyTranslation

/-- `collect_empty_translation_shell_after_withdrawal`. -/
def collectEmptyTranslationShell (u : Utterance) : Tx (Option Utterance) := do
  let s ← get
  if !u.isEmptyShell || s.utteranceHasUserState u.id then pure (some u)
  else
    refuse (s.utteranceById u.id).isNone (.conflict
      s!"translation-only shell {u.id} changed before withdrawal collection")
    modify (·.deleteUtterance u.id)
    pure none

/-! ### A fact and the row it is bound to -/

/-- The target of a fact is the source of the row. -/
def UtteranceBody.targetIsCurrentSource (b : UtteranceBody) (target : Language) : Bool :=
  b.hasSourceLane && b.sourceLanguage = target

/-- A withdrawn fact, in `apply_translation_inbox_to_bound_utterance`. -/
def applyWithdrawal (f : Fact) (canonical : Utterance) (sequence : I64)
    (lane : Option (String × UtteranceCompletion)) (active : Bool) : Tx (Option Utterance) :=
  let existing := canonical.variants.find? fun v =>
    v.role = .translation && v.language = f.targetLanguage
  if existing.any (·.payload.isSettled) then some <$> visible canonical
  else
    match lane with
    | some (text, completion) =>
        let sourceStillOpen := canonical.hasSourceLane && !canonical.sourceLaneIsComplete && active
        let completion := if sourceStillOpen then .partially else completion
        some <$> upsertTranslationVariant f.sessionId sequence f.targetLanguage
          (.ready text completion) .composeAuxiliarySegments
    | none =>
        if existing.any (·.payload = .waiting) then do
          let u ← visible canonical
          collectEmptyTranslationShell u
        else do
          let u ← upsertTranslationVariant f.sessionId sequence f.targetLanguage .waiting
            .finalIsImmutable
          collectEmptyTranslationShell u

/-- A present fact, in `apply_translation_inbox_to_bound_utterance`. -/
def applyTranslation (f : Fact) (canonical : Utterance) (sequence : I64)
    (translation : String × UtteranceCompletion) (lane : Option (String × UtteranceCompletion))
    (active : Bool) : Tx (Option Utterance) :=
  let targetIsCurrentSource := canonical.targetIsCurrentSource f.targetLanguage
  let auxiliaryIsFinal := decide (translation.2 = .complete)
  let sourceIdentityIsMutable :=
    canonical.hasSourceLane && !canonical.sourceLaneIsComplete && auxiliaryIsFinal && active
  let claimsOwner := targetIsCurrentSource && !canonical.sourceLaneIsComplete &&
    auxiliaryIsFinal && !sourceIdentityIsMutable && lane.any (·.2 = .complete)
  if targetIsCurrentSource && !claimsOwner then pure none
  else if claimsOwner then
    some <$> claimAuxiliaryFinalFromProvisionalSource canonical f.targetLanguage
      (lane.getD translation).1
  else
    let (text, completion) := lane.getD translation
    let completion := if sourceIdentityIsMutable then .partially else completion
    some <$> upsertTranslationVariant f.sessionId sequence f.targetLanguage
      (.ready text completion) .composeAuxiliarySegments

/-- `apply_translation_inbox_to_bound_utterance`. -/
def applyTranslationInboxToBoundUtterance (f : Fact) (sequence : I64) :
    Tx (Option Utterance) := do
  let s ← get
  let canonical ← require (s.utteranceBySequence f.sessionId sequence)
    (.notFound s!"utterance {f.sessionId}:{sequence.val}")
  let canonical ← adoptTranslationInboxSourceLanguage f canonical
  let s ← get
  let active ← check (s.captureSessionIsActive f.sessionId)
  let lane := s.composedTranslationLane canonical.id f.targetLanguage
  match f.translation with
  | some translation => applyTranslation f canonical sequence translation lane active
  | none =>
      if canonical.targetIsCurrentSource f.targetLanguage then pure none
      else applyWithdrawal f canonical sequence lane active

end Lanes
end ZuTalk
