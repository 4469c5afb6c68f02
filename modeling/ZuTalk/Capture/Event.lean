/-
# Capture events

`crates/vt-ffi/src/notebook_capture_api.rs`: what a capture reports to its client,
and `coalesce_capture_events`, which makes one event of two.

A delta carries the rows and cues that changed; a full snapshot carries all rows
and all cues that are present.  What is true of the run as a whole and never
changes (its profile, its provider and model) is `run`.
-/

import Std.Data.TreeMap.Lemmas
import Std.Data.TreeSet.Lemmas
import ZuTalk.Library.Edits

namespace ZuTalk
namespace Capture

/-- `FfiNotebookCaptureState`. -/
inductive CaptureState
  | recording | paused | draining | completed | interrupted | failed
  deriving DecidableEq, Repr

/-- `isActive`. -/
def CaptureState.isActive (state : CaptureState) : Bool :=
  state = .recording || state = .paused || state = .draining

/-- `FfiNotebookRemoteHealth`. -/
inductive RemoteHealth
  | off | connecting | live | degraded | unavailable
  deriving DecidableEq, Repr

/-- `FfiNotebookProjectionState`. -/
inductive ProjectionState
  | pending | projecting | ready | failed
  deriving DecidableEq, Repr

/-- `FfiNotebookAsyncProjectionState`. -/
inductive AsyncProjectionState
  | none | pending | projecting | ready | failed
  deriving DecidableEq, Repr

/-- `FfiNotebookCaptureLanguageVariant`. -/
structure LanguageVariant where
  language : String
  role : String
  text : Option String
  state : String
  completion : Option String
  projectionRevision : ℕ
  editRevision : ℕ
  deriving DecidableEq, Repr

/-- `FfiNotebookCaptureUtterance`: a row. -/
structure NotebookCaptureUtterance where
  id : String
  sequence : ℕ
  revision : ℕ
  sessionSpeakerId : Option String
  sourceLanguage : String
  sourceText : String
  sourceStartMs : Option ℕ
  sourceEndMs : Option ℕ
  translatedLanguage : Option String
  translatedText : Option String
  completion : String
  alignment : String
  sourceProjectionRevision : ℕ
  sourceEditRevision : ℕ
  languageVariants : List LanguageVariant
  deriving DecidableEq, Repr

/-- What a cue is known by. -/
structure CueKey where
  groupEpoch : ℕ
  providerSequence : ℕ
  targetLanguage : String
  deriving DecidableEq, Repr

/-- `FfiNotebookCaptureTranslationCue`. -/
structure TranslationCue where
  targetLanguage : String
  groupEpoch : ℕ
  providerSequence : ℕ
  sourceLanguage : String
  sourceStartMs : Option ℕ
  sourceEndMs : Option ℕ
  text : String
  completion : String
  withdrawn : Bool
  revision : ℕ
  deriving DecidableEq, Repr

/-- The key of a cue. -/
def TranslationCue.key (cue : TranslationCue) : CueKey :=
  ⟨cue.groupEpoch, cue.providerSequence, cue.targetLanguage⟩

/-- `FfiNotebookCaptureLaneHealth`. -/
structure LaneHealth where
  targetLanguage : Option String
  state : String
  groupEpoch : ℕ
  finalAudioProcMs : Option ℕ
  totalAudioProcMs : Option ℕ
  lagMs : Option ℕ
  inputDiscontinuous : Bool
  deriving DecidableEq, Repr

/-- `FfiNotebookCaptureContextReceipt`. -/
structure ContextReceipt where
  digest : String
  applied : Bool
  provider : String
  model : String
  appliedAt : String
  deriving DecidableEq, Repr

/-- What an event says of the capture as it is now. -/
structure CaptureStatus where
  captureState : CaptureState
  remoteHealth : RemoteHealth
  realtimeLagMs : Option ℕ
  projectionState : ProjectionState
  postStopAsyncState : String
  postStopAsyncProjectionState : AsyncProjectionState
  providerErrorType : Option String
  providerRequestId : Option String
  deriving DecidableEq, Repr

/-- What an event says of the run, the same in all its events. -/
structure CaptureRunFacts where
  mode : Option String
  selectedLanguages : List String
  privacyLevel : Option String
  realtimeProviderId : Option String
  realtimeModelId : Option String
  postStopProviderId : Option String
  postStopModelId : Option String
  deriving DecidableEq, Repr

/-- `FfiNotebookCaptureEvent`. -/
structure NotebookCaptureEvent where
  eventRevision : ℕ
  isFullSnapshot : Bool
  status : CaptureStatus
  run : CaptureRunFacts
  realtimeLoroAppliedRevision : ℕ
  utterances : List NotebookCaptureUtterance
  removedSequences : List ℕ
  translationCues : List TranslationCue
  laneHealth : List LaneHealth
  contextReceipt : Option ContextReceipt
  coversFromRevision : Option ℕ
  /-- A snapshot lists present cues only. -/
  present : isFullSnapshot = true → ∀ cue ∈ translationCues, cue.withdrawn = false
  deriving DecidableEq

namespace NotebookCaptureEvent

/-- The first revision an event stands for. -/
def coversFrom (event : NotebookCaptureEvent) : ℕ :=
  event.coversFromRevision.getD event.eventRevision

/-- Nothing lies between an event and the next. -/
def Contiguous (pending next : NotebookCaptureEvent) : Prop :=
  next.coversFrom ≤ pending.eventRevision + 1

instance (pending next : NotebookCaptureEvent) : Decidable (pending.Contiguous next) :=
  inferInstanceAs (Decidable (_ ≤ _))

end NotebookCaptureEvent

/-! ### One event of two -/

/-- `upsert`, of a row. -/
def upsertRow (rows : Std.TreeMap ℕ NotebookCaptureUtterance) (row : NotebookCaptureUtterance) :
    Std.TreeMap ℕ NotebookCaptureUtterance :=
  if rows[row.sequence]?.any fun current => row.revision < current.revision then rows
  else rows.insert row.sequence row

/-- The cues of two events as they are gone through. -/
structure CueMerge where
  withdrawals : CueKey → Option TranslationCue
  best : CueKey → Option TranslationCue
  order : List CueKey

/-- No cue yet. -/
def CueMerge.empty : CueMerge := ⟨fun _ => none, fun _ => none, []⟩

/-- One cue; a withdrawal is not kept for a snapshot. -/
def CueMerge.add (mergedIsSnapshot : Bool) (m : CueMerge) (cue : TranslationCue) : CueMerge :=
  let order :=
    if (m.withdrawals cue.key).isNone && (m.best cue.key).isNone then m.order ++ [cue.key]
    else m.order
  if cue.withdrawn then
    { withdrawals :=
        if mergedIsSnapshot then m.withdrawals
        else Function.update m.withdrawals cue.key (some cue)
      best := Function.update m.best cue.key none
      order := order }
  else if (m.best cue.key).any fun current => cue.revision < current.revision then
    { m with order := order }
  else { m with best := Function.update m.best cue.key (some cue), order := order }

/-- The cues of keys, each with its withdrawal first and given once. -/
def CueMerge.emit : List CueKey → CueMerge → List TranslationCue
  | [], _ => []
  | key :: order, m =>
      (m.withdrawals key).toList ++ (m.best key).toList ++
        CueMerge.emit order
          { m with
            withdrawals := Function.update m.withdrawals key none
            best := Function.update m.best key none }

/-- The rows of the merged event. -/
def coalescedRows (pending next : NotebookCaptureEvent) : Std.TreeMap ℕ NotebookCaptureUtterance :=
  let rows := pending.utterances.foldl upsertRow ∅
  let rows := next.removedSequences.foldl (fun rows sequence => rows.erase sequence) rows
  next.utterances.foldl upsertRow rows

/-- The removals of the merged event. -/
def coalescedRemovals (mergedIsSnapshot : Bool) (pending next : NotebookCaptureEvent) :
    Std.TreeSet ℕ :=
  let removed := if pending.isFullSnapshot then ∅
    else pending.removedSequences.foldl (fun removed sequence => removed.insert sequence) ∅
  if mergedIsSnapshot then removed
  else next.removedSequences.foldl (fun removed sequence => removed.insert sequence) removed

/-- The cues of the merged event. -/
def coalescedCues (mergedIsSnapshot : Bool) (pending next : NotebookCaptureEvent) : CueMerge :=
  (pending.translationCues ++ next.translationCues).foldl (CueMerge.add mergedIsSnapshot) .empty

/-- The cues of a merged snapshot: none is withdrawn. -/
structure CueMerge.PresentOnly (m : CueMerge) : Prop where
  noWithdrawal : ∀ key, m.withdrawals key = none
  best : ∀ key cue, m.best key = some cue → cue.withdrawn = false

namespace CueMerge.PresentOnly

variable {m : CueMerge}

theorem congr (h : m.PresentOnly) (order : List CueKey) :
    CueMerge.PresentOnly { m with order := order } :=
  ⟨h.noWithdrawal, h.best⟩

theorem update (h : m.PresentOnly) (key : CueKey) {cue : Option TranslationCue}
    (hcue : ∀ c ∈ cue, c.withdrawn = false) (order : List CueKey) :
    CueMerge.PresentOnly
      { m with best := Function.update m.best key cue, order := order } := by
  refine ⟨h.noWithdrawal, fun other c hc => ?_⟩
  dsimp only at hc
  by_cases hkey : other = key
  · subst hkey
    rw [Function.update_self] at hc
    exact hcue c hc
  · rw [Function.update_of_ne hkey] at hc
    exact h.best other c hc

theorem add (h : m.PresentOnly) (cue : TranslationCue) : (m.add true cue).PresentOnly := by
  unfold CueMerge.add
  cases hwithdrawn : cue.withdrawn with
  | true => exact h.update cue.key (by simp) _
  | false =>
      dsimp only
      rw [if_neg Bool.false_ne_true]
      split
      · exact h.congr _
      · exact h.update cue.key (by simpa using hwithdrawn) _

theorem foldl (h : m.PresentOnly) (cues : List TranslationCue) :
    (cues.foldl (CueMerge.add true) m).PresentOnly := by
  induction cues generalizing m with
  | nil => exact h
  | cons cue cues ih => exact ih (h.add cue)

theorem take (h : m.PresentOnly) (key : CueKey) :
    CueMerge.PresentOnly { m with
      withdrawals := Function.update m.withdrawals key none
      best := Function.update m.best key none } := by
  refine ⟨fun other => ?_, (h.update key (by simp) m.order).best⟩
  by_cases hkey : other = key
  · subst hkey
    exact Function.update_self ..
  · exact (Function.update_of_ne hkey ..).trans (h.noWithdrawal other)

theorem emit {order : List CueKey} (h : m.PresentOnly) :
    ∀ cue ∈ CueMerge.emit order m, cue.withdrawn = false := by
  induction order generalizing m with
  | nil => intro cue hcue; cases hcue
  | cons key order ih =>
      intro cue hcue
      rw [CueMerge.emit, h.noWithdrawal key] at hcue
      rcases List.mem_append.1 hcue with hcue | hcue
      · exact h.best key cue (by simpa using hcue)
      · exact ih (h.take key) cue hcue

end CueMerge.PresentOnly

theorem CueMerge.presentOnly_empty : CueMerge.empty.PresentOnly :=
  ⟨fun _ => rfl, fun _ _ h => by cases h⟩

/-- `coalesce_capture_events`. -/
def coalesceCaptureEvents (pending next : NotebookCaptureEvent) : NotebookCaptureEvent :=
  let coversFrom :=
    if pending.Contiguous next then min pending.coversFrom next.coversFrom else next.coversFrom
  if next.isFullSnapshot then { next with coversFromRevision := some coversFrom }
  else
    let mergedIsSnapshot := pending.isFullSnapshot && decide (pending.Contiguous next)
    let cues := coalescedCues mergedIsSnapshot pending next
    { next with
      utterances := (coalescedRows pending next).toList.map (·.2)
      removedSequences := (coalescedRemovals mergedIsSnapshot pending next).toList
      translationCues := CueMerge.emit cues.order cues
      isFullSnapshot := mergedIsSnapshot
      laneHealth := if next.laneHealth = [] then pending.laneHealth else next.laneHealth
      contextReceipt := next.contextReceipt.or pending.contextReceipt
      realtimeLoroAppliedRevision :=
        max next.realtimeLoroAppliedRevision pending.realtimeLoroAppliedRevision
      coversFromRevision := some coversFrom
      present := fun hsnapshot cue hcue => by
        have hcues : cues.PresentOnly := by
          show (coalescedCues mergedIsSnapshot pending next).PresentOnly
          rw [hsnapshot]
          exact CueMerge.presentOnly_empty.foldl _
        exact hcues.emit cue hcue }

end Capture
end ZuTalk
