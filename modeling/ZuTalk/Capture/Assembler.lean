/-
# The utterance assembler

`crates/vt-ffi/src/notebook_capture_api.rs`: `RealtimeUtteranceAssembler`.

Tokens arrive in provider order and are put together to rows.  A final source
token goes to the row that is open, unless a change of speaker or language, or
a pause, starts a new one; a third Latin word in a row shows that the two
before it opened that row too, so they are cut off the old one and carried over.

`char::is_alphabetic` is the Unicode property `Alphabetic`, which the functions
here take as an argument.
-/

import ZuTalk.Capture.Segment

namespace ZuTalk
namespace Capture

open ZuTalk.Stream (SttStreamToken SttStreamTranslationStatus)

/-- `SPEAKER_CHANGE_PAUSE_MS`. -/
def speakerChangePauseMs : ℕ := 200

/-- `EMBEDDED_WORD_LIMIT`. -/
def embeddedWordLimit : ℕ := 3

/-- `EMBEDDED_WORD_PAUSE_MS`. -/
def embeddedWordPauseMs : ℕ := 700

/-- `is_latin_language`. -/
def isLatinLanguage (language : String) : Bool :=
  !(["th", "lo", "km", "my", "zh", "yue", "ja", "ko", "ru", "uk", "bg", "sr", "mk", "be", "kk", "el",
    "ar", "fa", "ur", "he", "hi", "mr", "ne"].contains (Text.beforeAny ['-', '_'] language))

/-- `FinalizeBoundary`. -/
inductive FinalizeBoundary
  | providerBoundary | connectionClosing
  deriving DecidableEq, Repr

/-- `RealtimeUtteranceAssembler`. -/
structure RealtimeUtteranceAssembler where
  profile : AssemblerProfile
  nextSequence : ℕ
  segments : List RealtimeSegmentRevision
  latestOriginalSegment : Option ℕ
  latestTranslationSegment : Option ℕ
  unattachedTranslationTokens : ℕ
  deriving DecidableEq, Repr

namespace RealtimeUtteranceAssembler

variable (isAlphabetic : Char → Bool)

/-- `RealtimeUtteranceAssembler::new`, numbering rows from `nextSequence`
(`continuing_at`). -/
def new (sessionId : String) (selectedLanguages : List String) (captureMode : CaptureMode)
    (commonCaptionLanguage : Option String) (nextSequence : ℕ) : RealtimeUtteranceAssembler where
  profile :=
    { sessionId := sessionId
      selectedLanguages := (selectedLanguages.map normalizeLanguage).dedup
      captureMode := captureMode
      commonCaptionLanguage := commonCaptionLanguage.map normalizeLanguage }
  nextSequence := nextSequence
  segments := []
  latestOriginalSegment := none
  latestTranslationSegment := none
  unattachedTranslationTokens := 0

/-- `self.segments[index]`. -/
def segment (a : RealtimeUtteranceAssembler) (index : ℕ) : RealtimeSegmentRevision :=
  a.segments.getD index default

/-- Changes one segment. -/
def modifySegment (a : RealtimeUtteranceAssembler) (index : ℕ)
    (f : RealtimeSegmentRevision → RealtimeSegmentRevision) : RealtimeUtteranceAssembler :=
  { a with segments := a.segments.modify index f }

/-- `create_segment`: the new segment is the last. -/
def createSegment (a : RealtimeUtteranceAssembler) : RealtimeUtteranceAssembler :=
  { a with
    nextSequence := a.nextSequence + 1
    segments := a.segments ++ [.new a.profile.sessionId a.nextSequence] }

/-- The language of a source token's text: the one its letters are written in,
else the provider's label; a token without letters has none. -/
def tokenLanguage (a : RealtimeUtteranceAssembler) (token : SttStreamToken) : Option String :=
  if token.text.toList.any isAlphabetic then
    (languageWrittenIn token.text a.profile.selectedLanguages).or
      (normalizedOptionalLanguage (token.language.or token.sourceLanguage))
  else none

/-- `is_latin_letter` of `source_segment_for_token`. -/
def isLatinLetter (letter : Char) : Bool :=
  isAlphabetic letter && isLatinText (String.singleton letter)

/-- What `source_segment_for_token` compares a final token with a row by. -/
structure TurnEvidence where
  speakerChanges : Bool
  languageChanges : Bool
  pauseMs : Option ℕ
  deriving DecidableEq, Repr

/-- `pause_ms.is_some_and(|pause| pause < EMBEDDED_WORD_PAUSE_MS)`. -/
def TurnEvidence.runsOn (e : TurnEvidence) : Bool := e.pauseMs.any (· < embeddedWordPauseMs)

/-- `paused`. -/
def TurnEvidence.paused (e : TurnEvidence) : Bool := e.pauseMs.all (speakerChangePauseMs ≤ ·)

/-- The evidence between a row and a final token. -/
def turnEvidence (segment : RealtimeSegmentRevision) (token : SttStreamToken)
    (language speaker : Option String) : TurnEvidence where
  speakerChanges := identityConflicts segment.committedProviderSpeaker speaker
  languageChanges := identityConflicts segment.stableSourceLanguage language
  pauseMs := match segment.committedSourceEndMs, token.startMs with
    | some previousEnd, some start => some (start - previousEnd)
    | _, _ => none

/-- `continues_word`. -/
def continuesWord (segment : RealtimeSegmentRevision) (token : SttStreamToken)
    (e : TurnEvidence) : Bool :=
  token.text.toList.head?.any (isLatinLetter isAlphabetic) &&
    segment.source.committed.toList.getLast?.any (isLatinLetter isAlphabetic) &&
    (!e.speakerChanges || !e.paused)

/-- `opens_with_embedded_words`. -/
def opensWithEmbeddedWords (selectedLanguages : List String) (segment : RealtimeSegmentRevision)
    (token : SttStreamToken) (e : TurnEvidence) : Bool :=
  let text := segment.source.committed ++ segment.source.pending
  e.languageChanges && !e.speakerChanges && e.runsOn &&
    (languageWrittenIn token.text selectedLanguages).isSome && isLatinText text &&
    decide (Text.wordCount text < embeddedWordLimit) &&
    !((Text.trimEnd text.toList).getLast?.any (['.', '?', '!'].contains ·) && e.paused)

/-- `embedded`. -/
def isEmbedded (segment : RealtimeSegmentRevision) (token : SttStreamToken)
    (e : TurnEvidence) : Bool :=
  e.languageChanges && !e.speakerChanges &&
    segment.stableSourceLanguage.any (!isLatinLanguage ·) && isLatinText token.text && e.runsOn &&
    decide (segment.embeddedWords + 1 < embeddedWordLimit)

/-- `starts_turn`. -/
def startsTurn (selectedLanguages : List String) (segment : RealtimeSegmentRevision)
    (token : SttStreamToken) (e : TurnEvidence) : Bool :=
  match e.speakerChanges, e.languageChanges with
  | true, true => true
  | true, false => e.paused
  | false, true =>
      !isEmbedded segment token e && !opensWithEmbeddedWords selectedLanguages segment token e
  | false, false => false

/-- `carries_embedded_run`, for a token that starts a turn. -/
def carriesEmbeddedRun (segment : RealtimeSegmentRevision) (token : SttStreamToken)
    (e : TurnEvidence) : Bool :=
  e.languageChanges && !e.speakerChanges && decide (segment.embeddedWords > 0) &&
    isLatinText token.text && e.runsOn

/-- `String::split_off` of a committed text; an offset off the character
boundaries, at which the source panics, leaves the text whole. -/
def splitCommitted (text : String) (byteOffset : ℕ) : String × String :=
  match Text.splitOff text.toList byteOffset with
  | some (head, tail) => (String.ofList head, String.ofList tail)
  | none => (text, "")

/-- The embedded run is cut off a row: the row without it, and the words and
start of the run. -/
def takeEmbeddedRun (s : RealtimeSegmentRevision) :
    RealtimeSegmentRevision × Option (String × Option ℕ) :=
  match s.embeddedRun with
  | none => (s, none)
  | some run =>
      let parts := splitCommitted s.source.committed run.byteOffset
      ({ s with
          source := { s.source with committed := parts.1 }
          committedSourceEndMs := run.rowEndBeforeMs
          embeddedWords := 0
          embeddedRun := none }, some (parts.2, run.startMs))

/-- Marks a row as complete and to be reported. -/
def closeSegment (s : RealtimeSegmentRevision) : RealtimeSegmentRevision :=
  { s with complete := true, sourceDirty := true, translationDirty := true }

/-- A row opened by the carried words. -/
def openWithWords (language speaker : Option String) (words : String) (startMs : Option ℕ)
    (s : RealtimeSegmentRevision) : RealtimeSegmentRevision :=
  { s with
    source := { s.source with committed := words, committedLanguage := language }
    committedSourceStartMs := startMs
    committedSourceEndMs := startMs
    committedProviderSpeaker := speaker }

/-- A final token starts a new row. -/
def startTurn (a : RealtimeUtteranceAssembler) (current : ℕ) (carries : Bool)
    (language speaker : Option String) : RealtimeUtteranceAssembler :=
  let taken := takeEmbeddedRun (a.segment current)
  let row := if carries then taken.1 else a.segment current
  let carried := if carries then taken.2 else none
  let a := (a.modifySegment current fun _ => closeSegment row).createSegment
  match carried with
  | none => a
  | some (words, startMs) =>
      a.modifySegment (a.segments.length - 1) (openWithWords language speaker words startMs)

/-- An embedded word joins the run of its row. -/
def joinEmbeddedRun (token : SttStreamToken) (s : RealtimeSegmentRevision) :
    RealtimeSegmentRevision :=
  { s with
    embeddedRun :=
      if s.embeddedWords = 0 then
        some ⟨Text.byteLen s.source.committed.toList, token.startMs, s.committedSourceEndMs⟩
      else s.embeddedRun
    embeddedWords := s.embeddedWords + 1 }

/-- The row's own language ends the run. -/
def endEmbeddedRun (s : RealtimeSegmentRevision) : RealtimeSegmentRevision :=
  { s with embeddedWords := 0, embeddedRun := none }

/-- Where a token goes when no row is open: to the last empty one of its
speaker, or to a new one. -/
def reopenSegment (a : RealtimeUtteranceAssembler) (speaker : Option String) :
    RealtimeUtteranceAssembler × ℕ :=
  let waiting := fun (s : RealtimeSegmentRevision) =>
    !s.complete && !s.hasSourceText && s.matchingProviderSpeaker = speaker
  match if speaker.isSome then a.segments.reverse.findIdx? waiting else none with
  | some back => (a, a.segments.length - 1 - back)
  | none => (a.createSegment, a.segments.length)

/-- `source_segment_for_token`: the row a source token belongs to, and whether
it is an embedded word. -/
def sourceSegmentForToken (a : RealtimeUtteranceAssembler) (token : SttStreamToken)
    (language speaker : Option String) : RealtimeUtteranceAssembler × ℕ × Bool :=
  match a.latestOriginalSegment.filter fun index => !(a.segment index).complete with
  | none =>
      let opened := a.reopenSegment speaker
      (opened.1, opened.2, false)
  | some current =>
      let segment := a.segment current
      if !token.isFinal || !segment.hasSourceText then (a, current, false)
      else
        let e := turnEvidence segment token language speaker
        if continuesWord isAlphabetic segment token e then
          (a, current, decide (segment.embeddedWords > 0))
        else if startsTurn a.profile.selectedLanguages segment token e then
          (a.startTurn current (carriesEmbeddedRun segment token e) language speaker,
            a.segments.length, false)
        else if isEmbedded segment token e then
          (a.modifySegment current (joinEmbeddedRun token), current, true)
        else if !e.languageChanges then (a.modifySegment current endEmbeddedRun, current, false)
        else (a, current, false)

/-- The speaker a source token leaves on its row. -/
def noteSpeaker (isFinal : Bool) (speaker : Option String) (s : RealtimeSegmentRevision) :
    RealtimeSegmentRevision :=
  match speaker with
  | none => s
  | some speaker =>
      if isFinal then { s with committedProviderSpeaker := some speaker }
      else match s.pendingProviderSpeaker with
        | none => { s with pendingProviderSpeaker := some speaker }
        | some current =>
            if current ≠ speaker then { s with pendingProviderSpeakerAmbiguous := true } else s

/-- The times a source token leaves on its row. -/
def noteTimes (token : SttStreamToken) (s : RealtimeSegmentRevision) : RealtimeSegmentRevision :=
  if token.isFinal then
    { s with
      committedSourceStartMs := earliest s.committedSourceStartMs token.startMs
      committedSourceEndMs := latest s.committedSourceEndMs token.endMs }
  else
    { s with
      pendingSourceStartMs := earliest s.pendingSourceStartMs token.startMs
      pendingSourceEndMs := latest s.pendingSourceEndMs token.endMs }

/-- A row that has become the language of its translation has none yet. -/
def dropSameLanguageTranslation (isFinal : Bool) (s : RealtimeSegmentRevision) :
    RealtimeSegmentRevision :=
  if isFinal && s.translated.committedLanguage.isSome &&
      s.translated.committedLanguage = s.stableSourceLanguage then
    { s with translated := .default, translationDirty := true }
  else s

/-- What a source token does to its row. -/
def pushSource (token : SttStreamToken) (language speaker : Option String)
    (s : RealtimeSegmentRevision) : RealtimeSegmentRevision :=
  let s := { s with source := s.source.push token language }
  let s := noteTimes token (noteSpeaker token.isFinal speaker
    (dropSameLanguageTranslation token.isFinal s))
  { s with sourceDirty := true }

/-- `apply_original_token`. -/
def applyOriginalToken (a : RealtimeUtteranceAssembler) (token : SttStreamToken) :
    RealtimeUtteranceAssembler :=
  let language := a.tokenLanguage isAlphabetic token
  let speaker := normalizedProviderSpeaker token.speaker
  let placed := a.sourceSegmentForToken isAlphabetic token language speaker
  let a := placed.1
  let index := placed.2.1
  let language := if placed.2.2 then (a.segment index).stableSourceLanguage else language
  { a.modifySegment index (pushSource token language speaker) with
    latestOriginalSegment := some index }

/-- `translation_segment`: the row a translation token belongs to. -/
def translationSegment (a : RealtimeUtteranceAssembler) (speaker sourceLanguage : Option String) :
    Option ℕ :=
  let compatible := (List.range a.segments.length).filter fun index =>
    let segment := a.segment index
    segment.hasSourceText && !identityConflicts segment.matchingProviderSpeaker speaker &&
      !identityConflicts segment.matchingSourceLanguage sourceLanguage
  match compatible with
  | [] => none
  | [only] => some only
  | first :: _ =>
      if speaker.isNone || sourceLanguage.isNone then none
      else match a.latestTranslationSegment with
        | some current =>
            if compatible.contains current then some current
            else (compatible.find? (· > current)).or (some first)
        | none => some first

/-- What a translation token does to its row. -/
def pushTranslation (token : SttStreamToken) (sourceLanguage speaker : Option String)
    (s : RealtimeSegmentRevision) : RealtimeSegmentRevision :=
  let s := { s with
    translated := s.translated.push token (normalizedOptionalLanguage token.language) }
  let s := match sourceLanguage with
    | none => s
    | some sourceLanguage =>
        if token.isFinal then
          { s with
            committedSourceLanguageHint := some sourceLanguage
            sourceDirty := s.sourceDirty || (s.source.committedLanguage.isNone &&
              s.committedSourceLanguageHint ≠ some sourceLanguage) }
        else { s with pendingSourceLanguageHint := some sourceLanguage }
  let s := match speaker with
    | none => s
    | some speaker =>
        if token.isFinal then { s with committedProviderSpeakerHint := some speaker }
        else { s with pendingProviderSpeakerHint := some speaker }
  { s with translationDirty := true }

/-- `apply_translation_token`. -/
def applyTranslationToken (a : RealtimeUtteranceAssembler) (token : SttStreamToken) :
    RealtimeUtteranceAssembler :=
  let speaker := normalizedProviderSpeaker token.speaker
  let sourceLanguage := normalizedOptionalLanguage token.sourceLanguage
  match a.translationSegment speaker sourceLanguage with
  | none => { a with unattachedTranslationTokens := a.unattachedTranslationTokens + 1 }
  | some index =>
      { a.modifySegment index (pushTranslation token sourceLanguage speaker) with
        latestTranslationSegment := some index }

/-- `take_dirty_updates`, one segment: nothing is reported of a row that is
clean, that is only speculation, or that has nothing to show and was never
persisted. -/
def report (p : AssemblerProfile) (s : RealtimeSegmentRevision) :
    Option AssembledRealtimeUtterance :=
  if !s.sourceDirty && !s.translationDirty then none
  else if !s.complete && s.stableSourceLanguage.isNone && s.persistedTranslationLanguage.isNone &&
      s.revision.isNone then none
  else if !isPublishableText s.sourceText && s.revision.isNone &&
      s.persistedTranslationLanguage.isNone then none
  else some (assembleSegment p { s with sourceDirty := false, translationDirty := false }
    s.sourceDirty s.translationDirty)

/-- `take_dirty_updates`: the updates, and the assembler with clean rows. -/
def takeDirtyUpdates (a : RealtimeUtteranceAssembler) :
    RealtimeUtteranceAssembler × List AssembledRealtimeUtterance :=
  ({ a with segments := a.segments.map fun s =>
      { s with sourceDirty := false, translationDirty := false } },
    a.segments.filterMap (report a.profile))

/-- The source and the translation tokens of a response, in the order they are
applied. -/
def applyResponse (a : RealtimeUtteranceAssembler) (tokens : List SttStreamToken) :
    RealtimeUtteranceAssembler :=
  let a := { a with segments := a.segments.map (·.beginResponseRevision) }
  let a := (tokens.filter fun token => token.translationStatus = .original ||
    token.translationStatus = .none).foldl (applyOriginalToken isAlphabetic) a
  (tokens.filter fun token => token.translationStatus = .translation).foldl
    applyTranslationToken a

/-- `apply_tokens`. -/
def applyTokens (a : RealtimeUtteranceAssembler) (tokens : List SttStreamToken) :
    RealtimeUtteranceAssembler × List AssembledRealtimeUtterance :=
  (a.applyResponse isAlphabetic tokens).takeDirtyUpdates

/-- `discard_speculation_past_the_boundary`, one segment. -/
def discardSpeculation (s : RealtimeSegmentRevision) : RealtimeSegmentRevision :=
  if s.source.committed ≠ "" || s.source.pending = "" then s
  else
    { s with
      source := s.source.beginResponseRevision
      translated := s.translated.beginResponseRevision
      pendingSourceStartMs := none
      pendingSourceEndMs := none
      pendingProviderSpeaker := none
      pendingProviderSpeakerAmbiguous := false
      pendingSourceLanguageHint := none
      pendingProviderSpeakerHint := none
      sourceDirty := true
      translationDirty := true }

/-- A tail whose identity is not its row's. -/
def hasDetachedTail (s : RealtimeSegmentRevision) : Bool :=
  s.source.pending ≠ "" && !s.pendingSourceMatchesCommittedIdentity

/-- A row without the tail `finalize` detaches from it. -/
def detachTail (s : RealtimeSegmentRevision) : RealtimeSegmentRevision :=
  if hasDetachedTail s then
    { s with
      source := s.source.beginResponseRevision
      translated := s.translated.beginResponseRevision
      pendingProviderSpeaker := none
      pendingProviderSpeakerAmbiguous := false
      pendingSourceLanguageHint := none
      pendingProviderSpeakerHint := none
      pendingSourceStartMs := none
      pendingSourceEndMs := none
      sourceDirty := true
      translationDirty := true }
  else s

/-- The row a detached tail becomes, in the segment created for it. -/
def tailRow (from_ created : RealtimeSegmentRevision) : RealtimeSegmentRevision :=
  closeSegment { created with
    source := from_.source.pendingOnly
    translated := from_.translated.pendingOnly
    pendingProviderSpeaker := from_.pendingProviderSpeaker
    pendingProviderSpeakerAmbiguous := from_.pendingProviderSpeakerAmbiguous
    pendingSourceLanguageHint := from_.pendingSourceLanguageHint
    pendingProviderSpeakerHint := from_.pendingProviderSpeakerHint
    pendingSourceStartMs := from_.pendingSourceStartMs
    pendingSourceEndMs := from_.pendingSourceEndMs }

/-- Detached tails become rows of their own. -/
def keepTail (a : RealtimeUtteranceAssembler) (from_ : RealtimeSegmentRevision) :
    RealtimeUtteranceAssembler :=
  a.createSegment.modifySegment a.segments.length (tailRow from_)

/-- The last loop of `finalize`: every row that holds anything is complete. -/
def completeSegment (s : RealtimeSegmentRevision) : RealtimeSegmentRevision :=
  if !s.isEmpty && !s.complete then closeSegment s else s

/-- `finalize` up to its `take_dirty_updates`. -/
def close (a : RealtimeUtteranceAssembler) (boundary : FinalizeBoundary) :
    RealtimeUtteranceAssembler :=
  let a := if boundary = .providerBoundary then
    { a with segments := a.segments.map discardSpeculation } else a
  let detached := a.segments.filter hasDetachedTail
  let a := { a with segments := a.segments.map detachTail }
  let a := if boundary = .providerBoundary then a else detached.foldl keepTail a
  { a with segments := a.segments.map completeSegment }

/-- `finalize`. -/
def finalize (a : RealtimeUtteranceAssembler) (boundary : FinalizeBoundary) :
    RealtimeUtteranceAssembler × List AssembledRealtimeUtterance :=
  (a.close boundary).takeDirtyUpdates

/-- `advance`. -/
def advance (a : RealtimeUtteranceAssembler) : RealtimeUtteranceAssembler :=
  { a with
    segments := []
    latestOriginalSegment := none
    latestTranslationSegment := none
    unattachedTranslationTokens := 0 }

/-- Changes the first segment with this id. -/
def modifyById (a : RealtimeUtteranceAssembler) (id : String)
    (f : RealtimeSegmentRevision → RealtimeSegmentRevision) : RealtimeUtteranceAssembler :=
  match a.segments.findIdx? (·.id = id) with
  | some index => a.modifySegment index f
  | none => a

/-- `record_persisted`. -/
def recordPersisted (a : RealtimeUtteranceAssembler) (id : String) (revision : ℕ) :
    RealtimeUtteranceAssembler :=
  a.modifyById id fun s => { s with revision := some revision }

/-- `record_translation_persisted`. -/
def recordTranslationPersisted (a : RealtimeUtteranceAssembler) (id : String)
    (language : Option String) : RealtimeUtteranceAssembler :=
  a.modifyById id fun s =>
    { s with persistedTranslationLanguage := language.map normalizeLanguage }

/-- `relinquish_inline_translation_lane`. -/
def relinquishInlineTranslationLane (a : RealtimeUtteranceAssembler) (id language : String) :
    RealtimeUtteranceAssembler :=
  a.modifyById id fun s =>
    if s.persistedTranslationLanguage = some (normalizeLanguage language) then
      { s with persistedTranslationLanguage := none }
    else s

/-- `record_partial_removed`. -/
def recordPartialRemoved (a : RealtimeUtteranceAssembler) (id : String) :
    RealtimeUtteranceAssembler :=
  a.modifyById id fun s => { s with revision := none, persistedTranslationLanguage := none }

/-- `retire_source_segment`. -/
def retireSourceSegment (a : RealtimeUtteranceAssembler) (id : String) :
    RealtimeUtteranceAssembler :=
  match a.segments.findIdx? (·.id = id) with
  | none => a
  | some index =>
      { a.modifySegment index (fun s => { s with
            revision := none
            persistedTranslationLanguage := none
            complete := true
            sourceDirty := false
            translationDirty := false }) with
        latestOriginalSegment := a.latestOriginalSegment.filter (· ≠ index)
        latestTranslationSegment := a.latestTranslationSegment.filter (· ≠ index) }

end RealtimeUtteranceAssembler

end Capture
end ZuTalk
