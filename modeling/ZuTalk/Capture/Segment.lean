/-
# One row of the transcript while it is being spoken

`crates/vt-ffi/src/notebook_capture_api.rs`: `LaneRevision`,
`RealtimeSegmentRevision`, `EmbeddedRun` and `assemble_segment`.

The provider commits text with final tokens and sends everything it has not
committed again with every response, so both lanes of a row are a committed
text and a speculative tail.
-/

import ZuTalk.Capture.Utterance
import ZuTalk.Stream.Lane
import ZuTalk.Text.Provider
import ZuTalk.Text.Script

namespace ZuTalk
namespace Capture

open ZuTalk.Stream (SttStreamToken SttStreamTranslationStatus)

/-- `identity_conflicts`: both identities are known, and they differ. -/
def identityConflicts (current incoming : Option String) : Bool :=
  match current.filter (· ≠ "und"), incoming.filter (· ≠ "und") with
  | some current, some incoming => current ≠ incoming
  | _, _ => false

/-- `normalized_optional_language`. -/
def normalizedOptionalLanguage (value : Option String) : Option String :=
  (value.map normalizeLanguage).filter fun language => language ≠ "" && language ≠ "und"

/-- `normalized_provider_speaker`. -/
def normalizedProviderSpeaker (value : Option String) : Option String :=
  (value.map Text.trimStr).filter (· ≠ "")

/-- `is_publishable_text`. -/
def isPublishableText (text : String) : Bool := !(Text.trim text.toList).isEmpty

/-- `LaneRevision`. -/
structure LaneRevision where
  committed : String
  pending : String
  committedLanguage : Option String
  pendingLanguage : Option String
  pendingLanguageAmbiguous : Bool
  deriving DecidableEq, Repr

namespace LaneRevision

/-- `LaneRevision::default`. -/
def default : LaneRevision := ⟨"", "", none, none, false⟩

/-- What `begin_response_revision` returns: there was a tail to forget. -/
def hasTail (l : LaneRevision) : Bool :=
  l.pending ≠ "" || l.pendingLanguage.isSome || l.pendingLanguageAmbiguous

/-- The state `begin_response_revision` leaves. -/
def beginResponseRevision (l : LaneRevision) : LaneRevision :=
  { l with pending := "", pendingLanguage := none, pendingLanguageAmbiguous := false }

/-- `push`. -/
def push (l : LaneRevision) (token : SttStreamToken) (language : Option String) : LaneRevision :=
  if token.isFinal then
    { l with
      committed := l.committed ++ token.text
      committedLanguage := language.or l.committedLanguage }
  else
    let l := { l with pending := l.pending ++ token.text }
    match language, l.pendingLanguage with
    | none, _ => l
    | some language, none => { l with pendingLanguage := some language }
    | some language, some current =>
        if current ≠ language then { l with pendingLanguageAmbiguous := true } else l

/-- `unambiguous_pending_language`. -/
def unambiguousPendingLanguage (l : LaneRevision) : Option String :=
  if l.pendingLanguageAmbiguous then none else l.pendingLanguage

/-- What `take_pending` returns. -/
def pendingOnly (l : LaneRevision) : LaneRevision :=
  { l with committed := "", committedLanguage := none }

/-- `text`. -/
def text (l : LaneRevision) (includePending : Bool) : String :=
  normalizeProviderText (if includePending then l.committed ++ l.pending else l.committed)

/-- `is_empty`. -/
def isEmpty (l : LaneRevision) : Bool := l.committed = "" && l.pending = ""

end LaneRevision

/-- `EmbeddedRun`. -/
structure EmbeddedRun where
  byteOffset : ℕ
  startMs : Option ℕ
  rowEndBeforeMs : Option ℕ
  deriving DecidableEq, Repr

/-- `RealtimeSegmentRevision`. -/
structure RealtimeSegmentRevision where
  id : String
  sequence : ℕ
  source : LaneRevision
  translated : LaneRevision
  committedProviderSpeaker : Option String
  pendingProviderSpeaker : Option String
  pendingProviderSpeakerAmbiguous : Bool
  committedSourceLanguageHint : Option String
  pendingSourceLanguageHint : Option String
  committedProviderSpeakerHint : Option String
  pendingProviderSpeakerHint : Option String
  committedSourceStartMs : Option ℕ
  committedSourceEndMs : Option ℕ
  pendingSourceStartMs : Option ℕ
  pendingSourceEndMs : Option ℕ
  persistedTranslationLanguage : Option String
  revision : Option ℕ
  complete : Bool
  sourceDirty : Bool
  translationDirty : Bool
  embeddedWords : ℕ
  embeddedRun : Option EmbeddedRun
  deriving DecidableEq, Repr

namespace RealtimeSegmentRevision

/-- `RealtimeSegmentRevision::new`. -/
def new (sessionId : String) (sequence : ℕ) : RealtimeSegmentRevision where
  id := sessionId ++ ":" ++ toString sequence
  sequence := sequence
  source := .default
  translated := .default
  committedProviderSpeaker := none
  pendingProviderSpeaker := none
  pendingProviderSpeakerAmbiguous := false
  committedSourceLanguageHint := none
  pendingSourceLanguageHint := none
  committedProviderSpeakerHint := none
  pendingProviderSpeakerHint := none
  committedSourceStartMs := none
  committedSourceEndMs := none
  pendingSourceStartMs := none
  pendingSourceEndMs := none
  persistedTranslationLanguage := none
  revision := none
  complete := false
  sourceDirty := false
  translationDirty := false
  embeddedWords := 0
  embeddedRun := none

instance : Inhabited RealtimeSegmentRevision := ⟨new "" 0⟩

/-- `is_empty`. -/
def isEmpty (s : RealtimeSegmentRevision) : Bool := s.source.isEmpty && s.translated.isEmpty

/-- `has_source_text`. -/
def hasSourceText (s : RealtimeSegmentRevision) : Bool := !s.source.isEmpty

/-- `begin_response_revision`. -/
def beginResponseRevision (s : RealtimeSegmentRevision) : RealtimeSegmentRevision :=
  let sourceChanged :=
    s.source.hasTail || s.pendingSourceStartMs.isSome || s.pendingSourceEndMs.isSome
  { s with
    source := s.source.beginResponseRevision
    translated := s.translated.beginResponseRevision
    pendingSourceStartMs := none
    pendingSourceEndMs := none
    pendingProviderSpeaker := none
    pendingSourceLanguageHint := none
    pendingProviderSpeakerHint := none
    pendingProviderSpeakerAmbiguous := false
    sourceDirty := s.sourceDirty || sourceChanged
    translationDirty := s.translationDirty || s.translated.hasTail ||
      (sourceChanged && !s.translated.beginResponseRevision.isEmpty) }

/-- `stable_source_language`. -/
def stableSourceLanguage (s : RealtimeSegmentRevision) : Option String :=
  s.source.committedLanguage.or s.committedSourceLanguageHint

/-- `matching_source_language`. -/
def matchingSourceLanguage (s : RealtimeSegmentRevision) : Option String :=
  s.stableSourceLanguage.or
    (s.source.unambiguousPendingLanguage.or s.pendingSourceLanguageHint)

/-- `matching_provider_speaker`. -/
def matchingProviderSpeaker (s : RealtimeSegmentRevision) : Option String :=
  s.committedProviderSpeaker.or (s.committedProviderSpeakerHint.or
    ((if s.pendingProviderSpeakerAmbiguous then none else s.pendingProviderSpeaker).or
      s.pendingProviderSpeakerHint))

/-- `source_language`. -/
def sourceLanguage (s : RealtimeSegmentRevision) : String := s.stableSourceLanguage.getD "und"

/-- `pending_source_matches_committed_identity`. -/
def pendingSourceMatchesCommittedIdentity (s : RealtimeSegmentRevision) : Bool :=
  let languageIsSafe :=
    if s.stableSourceLanguage.isSome then
      !s.source.pendingLanguageAmbiguous &&
        !identityConflicts s.stableSourceLanguage s.source.unambiguousPendingLanguage
    else true
  let stableSpeaker := s.committedProviderSpeaker.or s.committedProviderSpeakerHint
  let speakerIsSafe :=
    if stableSpeaker.isSome then
      !s.pendingProviderSpeakerAmbiguous && !identityConflicts stableSpeaker s.pendingProviderSpeaker
    else true
  languageIsSafe && speakerIsSafe

/-- The source text a row is shown with: its committed text, and the tail when
its identity is the row's own. -/
def sourceText (s : RealtimeSegmentRevision) : String :=
  s.source.text s.pendingSourceMatchesCommittedIdentity

end RealtimeSegmentRevision

/-- `AssembledRealtimeUtterance`. -/
structure AssembledRealtimeUtterance where
  utterance : NewRealtimeUtterance
  provisionalSourceLanguage : Option String
  sourceDirty : Bool
  translationDirty : Bool
  translationCompletion : Option UtteranceCompletion
  translationClearLanguage : Option String
  removePartial : Bool
  providerSpeaker : Option String
  expectedRevision : Option ℕ
  deriving DecidableEq, Repr

/-- `Option::min` of two optional positions, `None` when neither is known. -/
def earliest (a b : Option ℕ) : Option ℕ :=
  match a, b with
  | some a, some b => some (min a b)
  | a, b => a.or b

/-- The later of two optional positions. -/
def latest (a b : Option ℕ) : Option ℕ :=
  match a, b with
  | some a, some b => some (max a b)
  | a, b => a.or b

/-- What an assembler knows of its capture. -/
structure AssemblerProfile where
  sessionId : String
  selectedLanguages : List String
  captureMode : CaptureMode
  commonCaptionLanguage : Option String
  deriving DecidableEq, Repr

/-- `translation_is_expected` of `assemble_segment`. -/
def AssemblerProfile.expectsTranslation (p : AssemblerProfile) (sourceLanguage : String) : Bool :=
  let selected := p.selectedLanguages.contains sourceLanguage && sourceLanguage ≠ "und"
  match p.captureMode with
  | .transcriptionOnly => false
  | .twoWay => selected
  | .multilingualOneWay => selected && p.commonCaptionLanguage.any (· ≠ sourceLanguage)

/-- `translation_is_pairable` of `assemble_segment`, for an expected one. -/
def AssemblerProfile.pairs (p : AssemblerProfile) (sourceLanguage language : String) : Bool :=
  match p.captureMode with
  | .transcriptionOnly => false
  | .twoWay => language ≠ sourceLanguage && p.selectedLanguages.contains language
  | .multilingualOneWay => p.commonCaptionLanguage = some language

/-- The inline translation `assemble_segment` shows: its language and text. -/
def RealtimeSegmentRevision.inlineTranslation (p : AssemblerProfile) (s : RealtimeSegmentRevision)
    (sourceText : String) : Option (String × String) :=
  let candidate := s.translated.committedLanguage.or s.translated.unambiguousPendingLanguage
  let includePending := !identityConflicts s.translated.committedLanguage
    s.translated.unambiguousPendingLanguage
  match candidate with
  | some language =>
      if sourceText ≠ "" && p.expectsTranslation s.sourceLanguage &&
          p.pairs s.sourceLanguage language then
        let text := polishTranslation (s.translated.text includePending) s.sourceLanguage language
        if isPublishableText text then some (language, text) else none
      else none
  | none => none

/-- `assemble_segment`. -/
def assembleSegment (p : AssemblerProfile) (s : RealtimeSegmentRevision)
    (sourceDirty translationDirty : Bool) : AssembledRealtimeUtterance :=
  let includePendingSource := s.pendingSourceMatchesCommittedIdentity
  let sourceText := if isPublishableText s.sourceText then s.sourceText else ""
  let sourceLanguage := s.sourceLanguage
  let sourceIsUnknown : Bool := sourceLanguage = "und"
  let outsidePair := !sourceIsUnknown && !p.selectedLanguages.contains sourceLanguage
  let inline := s.inlineTranslation p sourceText
  let sourceCompletion : UtteranceCompletion :=
    if s.complete && s.source.committed ≠ "" && s.source.pending = "" then .complete
    else .partially
  let translationCompletion : Option UtteranceCompletion := inline.map fun _ =>
    if sourceText ≠ "" && s.complete && s.translated.committed ≠ "" &&
        s.translated.pending = "" then .complete
    else .partially
  let alignment : UtteranceAlignment :=
    if inline.isSome then .paired
    else if outsidePair then .outsideLanguagePair
    else if p.expectsTranslation sourceLanguage && !s.complete then .translationPending
    else .sourceOnly
  let pendingStart := if includePendingSource then s.pendingSourceStartMs else none
  let pendingEnd := if includePendingSource then s.pendingSourceEndMs else none
  { utterance :=
      { id := s.id
        sessionId := p.sessionId
        sequence := s.sequence
        sessionSpeakerId := none
        sourceLanguage := sourceLanguage
        sourceText := sourceText
        sourceStartMs := earliest s.committedSourceStartMs pendingStart
        sourceEndMs := latest s.committedSourceEndMs pendingEnd
        translatedLanguage := inline.map (·.1)
        translatedText := inline.map (·.2)
        completion := sourceCompletion
        alignment := alignment }
    provisionalSourceLanguage :=
      if sourceIsUnknown then normalizedOptionalLanguage s.matchingSourceLanguage else none
    sourceDirty := sourceDirty
    translationDirty := translationDirty
    translationCompletion := translationCompletion
    translationClearLanguage :=
      if translationDirty && inline.isNone then s.persistedTranslationLanguage else none
    removePartial := s.revision.isSome && sourceText = ""
    providerSpeaker := s.committedProviderSpeaker
    expectedRevision := s.revision }

end Capture
end ZuTalk
