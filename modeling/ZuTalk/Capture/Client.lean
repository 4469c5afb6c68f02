/-
# The client of a capture

`macos/ZuTalk/ZuTalk/Capture/ActiveBilingualTranscriptStore.swift`: what the client
keeps of the events of one session (`apply`, without a terminal transition of its
own and without lane edits on their way).

`apply_coalesceCaptureEvents` is what an event that stands for two leaves of it:
what the two leave one after the other, unless a snapshot is followed by a gap.
The merged event is then a delta, and the client sees the gap.
-/

import ZuTalk.Capture.Event

namespace ZuTalk
namespace Capture

open Edits

/-- `displayedLagSeconds`. -/
def displayedLagSeconds (lagMs : Option ℕ) : Option ℕ :=
  (lagMs.filter (1000 ≤ ·)).map fun lagMs => (lagMs + 999) / 1000

/-- What is shown of a status: the lag in whole seconds. -/
def CaptureStatus.displayed (status : CaptureStatus) : CaptureStatus :=
  { status with realtimeLagMs := displayedLagSeconds status.realtimeLagMs }

/-- `ActiveBilingualTranscriptStore`, as far as events change it. -/
structure CaptureClient where
  rows : ℕ → Option NotebookCaptureUtterance
  translationCues : CueKey → Option TranslationCue
  status : CaptureStatus
  realtimeLoroAppliedRevision : ℕ
  laneHealth : List LaneHealth
  contextReceipt : Option ContextReceipt
  lastAppliedEventRevision : Option ℕ
  /-- A reload of the whole session is on its way (`utteranceGapRepair`). -/
  repairing : Bool

namespace CaptureClient

/-- `removeUtterances`. -/
def removeUtterances (rows : ℕ → Option NotebookCaptureUtterance) (sequences : List ℕ) :
    ℕ → Option NotebookCaptureUtterance :=
  fun sequence => if sequences.contains sequence then none else rows sequence

/-- `merge`. -/
def merge (rows : ℕ → Option NotebookCaptureUtterance) (updates : List NotebookCaptureUtterance) :
    ℕ → Option NotebookCaptureUtterance :=
  updates.foldl (put (·.revision) (·.sequence)) rows

/-- `hasGap`. -/
def hasGap (c : CaptureClient) (event : NotebookCaptureEvent) : Bool :=
  c.lastAppliedEventRevision.all fun last => last + 1 < event.coversFrom

/-- `reconcileUtterances`. -/
def reconcileUtterances (c : CaptureClient) (event : NotebookCaptureEvent) : CaptureClient :=
  if event.isFullSnapshot then
    { c with
      rows := merge (fun _ => none) event.utterances
      lastAppliedEventRevision := some event.eventRevision
      repairing := false }
  else if c.lastAppliedEventRevision = some event.eventRevision then c
  else
    { c with
      rows := merge (removeUtterances c.rows event.removedSequences) event.utterances
      lastAppliedEventRevision := some event.eventRevision
      repairing := c.repairing || c.hasGap event }

/-- `reconcileTranslationCues` of a delta, one cue. -/
def reconcileCue (cues : CueKey → Option TranslationCue) (cue : TranslationCue) :
    CueKey → Option TranslationCue :=
  if cue.withdrawn then Function.update cues cue.key none
  else if (cues cue.key).any fun existing => cue.revision < existing.revision || existing = cue then
    cues
  else Function.update cues cue.key (some cue)

/-- `reconcileTranslationCues`. -/
def reconcileTranslationCues (c : CaptureClient) (event : NotebookCaptureEvent) : CaptureClient :=
  if event.isFullSnapshot then
    { c with
      translationCues :=
        best (·.revision) TranslationCue.key
          (event.translationCues.filter fun cue => !cue.withdrawn) }
  else { c with translationCues := event.translationCues.foldl reconcileCue c.translationCues }

/-- `reconcileLaneHealth`. -/
def reconcileLaneHealth (c : CaptureClient) (event : NotebookCaptureEvent) : CaptureClient :=
  if !event.status.captureState.isActive then { c with laneHealth := [] }
  else if event.laneHealth = [] then c
  else { c with laneHealth := event.laneHealth }

/-- `apply`. -/
def apply (c : CaptureClient) (event : NotebookCaptureEvent) : CaptureClient :=
  if !event.isFullSnapshot && c.lastAppliedEventRevision.any (event.eventRevision < ·) then c
  else
    let c := { c with
      status := event.status.displayed
      realtimeLoroAppliedRevision :=
        max c.realtimeLoroAppliedRevision event.realtimeLoroAppliedRevision }
    let c := c.reconcileUtterances event
    let c := c.reconcileTranslationCues event
    let c := c.reconcileLaneHealth event
    { c with contextReceipt := (event.contextReceipt.filter (·.applied)).or c.contextReceipt }

/-- An event is after all the client has seen. -/
def Before (c : CaptureClient) (event : NotebookCaptureEvent) : Prop :=
  ∀ last ∈ c.lastAppliedEventRevision, last < event.eventRevision

instance (c : CaptureClient) (event : NotebookCaptureEvent) : Decidable (c.Before event) := by
  unfold Before
  infer_instance

end CaptureClient

/-! ### What an event does to a row and to a cue -/

namespace NotebookCaptureEvent

/-- The edit of a row. -/
def rowEdit (event : NotebookCaptureEvent) (sequence : ℕ) : Edit NotebookCaptureUtterance where
  clears := event.isFullSnapshot || event.removedSequences.contains sequence
  put := best (·.revision) (·.sequence) event.utterances sequence

end NotebookCaptureEvent

/-- What one cue does to the cue of a key. -/
def cueEdit (key : CueKey) (cue : TranslationCue) : Edit TranslationCue :=
  if cue.key = key then
    if cue.withdrawn then ⟨true, none⟩ else ⟨false, some cue⟩
  else Edit.keep

/-- What the cues of a list do to the cue of a key. -/
abbrev cueEdits (key : CueKey) (cues : List TranslationCue) : Edit TranslationCue :=
  Edit.all (·.revision) (cueEdit key) cues

/-- The edit of a cue. -/
def NotebookCaptureEvent.cueEdit (event : NotebookCaptureEvent) (key : CueKey) :
    Edit TranslationCue :=
  let edit := cueEdits key event.translationCues
  { edit with clears := event.isFullSnapshot || edit.clears }

namespace CaptureClient

theorem reconcileCue_apply (cues : CueKey → Option TranslationCue) (cue : TranslationCue)
    (key : CueKey) :
    reconcileCue cues cue key = (cueEdit key cue).act (·.revision) (cues key) := by
  unfold reconcileCue cueEdit
  by_cases hkey : cue.key = key
  · subst hkey
    rw [if_pos rfl]
    split
    · simp [Edit.act]
    · cases hcue : cues cue.key with
      | none => simp [Edit.act]
      | some existing =>
          by_cases hrank : cue.revision < existing.revision
          · simp [Edit.act, newer, later, hrank, hcue]
          · by_cases hsame : existing = cue
            · simp [Edit.act, newer, later, hsame, hcue]
            · simp [Edit.act, newer, later, hrank, hsame]
  · rw [if_neg hkey, Edit.keep_act]
    split
    · exact Function.update_of_ne (Ne.symm hkey) ..
    · split
      · rfl
      · exact Function.update_of_ne (Ne.symm hkey) ..

/-- Cues none of which is withdrawn only put cues in. -/
theorem cueEdits_of_present {cues : List TranslationCue} (h : ∀ cue ∈ cues, cue.withdrawn = false)
    (key : CueKey) : cueEdits key cues = ⟨false, best (·.revision) TranslationCue.key cues key⟩ := by
  induction cues with
  | nil => rfl
  | cons cue cues ih =>
      have hrest := ih fun c hc => h c (List.mem_cons_of_mem cue hc)
      rw [cueEdits] at hrest
      rw [cueEdits, Edit.all_cons, hrest, best_cons]
      unfold cueEdit Edit.comp
      rw [h cue List.mem_cons_self]
      by_cases hkey : cue.key = key
      · simp [hkey]
      · simp [hkey, Edit.keep]

/-! ### What an event leaves of the client -/

section Apply

variable {c : CaptureClient} {event : NotebookCaptureEvent}

theorem merge_apply (rows : ℕ → Option NotebookCaptureUtterance)
    (updates : List NotebookCaptureUtterance) (sequence : ℕ) :
    merge rows updates sequence =
      newer (·.revision) (rows sequence) (best (·.revision) (·.sequence) updates sequence) :=
  foldl_put ..

/-- The cues of the client after an event. -/
theorem reconcileTranslationCues_eq (c : CaptureClient) (event : NotebookCaptureEvent) :
    (c.reconcileTranslationCues event).translationCues =
      fun key => (event.cueEdit key).act (·.revision) (c.translationCues key) := by
  funext key
  unfold reconcileTranslationCues NotebookCaptureEvent.cueEdit
  cases hfull : event.isFullSnapshot with
  | true =>
      have hcues : event.translationCues.filter (fun cue => !cue.withdrawn) = event.translationCues :=
        List.filter_eq_self.2 fun cue hcue => by simp [event.present hfull cue hcue]
      simp [hcues, Edit.act, cueEdits_of_present (event.present hfull)]
  | false =>
      simp only [Bool.false_eq_true, if_false, Bool.false_or]
      exact Edit.act_all _ (fun m cue => reconcileCue_apply m cue key) ..

/-- The rows of the client after an event it has not seen. -/
theorem reconcileUtterances_eq (c : CaptureClient) (event : NotebookCaptureEvent) :
    c.reconcileUtterances event =
      if event.isFullSnapshot = false ∧ c.lastAppliedEventRevision = some event.eventRevision then c
      else
        { c with
          rows := fun sequence => (event.rowEdit sequence).act (·.revision) (c.rows sequence)
          lastAppliedEventRevision := some event.eventRevision
          repairing := !event.isFullSnapshot && (c.repairing || c.hasGap event) } := by
  unfold reconcileUtterances NotebookCaptureEvent.rowEdit Edit.act
  cases hfull : event.isFullSnapshot with
  | true =>
      have hrows : merge (fun _ => none) event.utterances =
          best (·.revision) (·.sequence) event.utterances := rfl
      simp [hrows]
  | false =>
      have hrows : merge (removeUtterances c.rows event.removedSequences) event.utterances =
          fun sequence => newer (·.revision)
            (if event.removedSequences.contains sequence then none else c.rows sequence)
            (best (·.revision) (·.sequence) event.utterances sequence) :=
        funext fun sequence => merge_apply ..
      simp [hrows]

/-- **What an event leaves of the client.** -/
theorem apply_eq (c : CaptureClient) (event : NotebookCaptureEvent) :
    c.apply event =
      if !event.isFullSnapshot && c.lastAppliedEventRevision.any (event.eventRevision < ·) then c
      else
        { c.reconcileUtterances event with
          translationCues := fun key =>
            (event.cueEdit key).act (·.revision) (c.translationCues key)
          status := event.status.displayed
          realtimeLoroAppliedRevision :=
            max c.realtimeLoroAppliedRevision event.realtimeLoroAppliedRevision
          laneHealth :=
            if !event.status.captureState.isActive then []
            else if event.laneHealth = [] then c.laneHealth else event.laneHealth
          contextReceipt := (event.contextReceipt.filter (·.applied)).or c.contextReceipt } := by
  unfold apply
  split
  · rfl
  · rw [← reconcileTranslationCues_eq]
    unfold reconcileUtterances reconcileTranslationCues reconcileLaneHealth hasGap
    dsimp only
    split_ifs <;> rfl

/-- An event after all the client has seen is applied. -/
theorem apply_of_before (h : c.Before event) :
    c.apply event =
      { rows := fun sequence => (event.rowEdit sequence).act (·.revision) (c.rows sequence)
        translationCues := fun key =>
          (event.cueEdit key).act (·.revision) (c.translationCues key)
        status := event.status.displayed
        realtimeLoroAppliedRevision :=
          max c.realtimeLoroAppliedRevision event.realtimeLoroAppliedRevision
        laneHealth :=
          if !event.status.captureState.isActive then []
          else if event.laneHealth = [] then c.laneHealth else event.laneHealth
        contextReceipt := (event.contextReceipt.filter (·.applied)).or c.contextReceipt
        lastAppliedEventRevision := some event.eventRevision
        repairing := !event.isFullSnapshot && (c.repairing || c.hasGap event) } := by
  have hlate : (c.lastAppliedEventRevision.any fun last => event.eventRevision < last) = false := by
    rw [Option.any_eq_false]
    intro last hlast
    exact decide_eq_false (Nat.lt_asymm (h last hlast))
  have hagain : c.lastAppliedEventRevision ≠ some event.eventRevision := fun hsame =>
    absurd (h event.eventRevision hsame) (lt_irrefl _)
  rw [apply_eq, hlate, Bool.and_false, if_neg Bool.false_ne_true, reconcileUtterances_eq,
    if_neg fun hboth => hagain hboth.2]

namespace Before

theorem rows_apply (h : c.Before event) (sequence : ℕ) :
    (c.apply event).rows sequence =
      (event.rowEdit sequence).act (·.revision) (c.rows sequence) := by
  rw [apply_of_before h]

theorem translationCues_apply (h : c.Before event) (key : CueKey) :
    (c.apply event).translationCues key =
      (event.cueEdit key).act (·.revision) (c.translationCues key) := by
  rw [apply_of_before h]

theorem status_apply (h : c.Before event) : (c.apply event).status = event.status.displayed := by
  rw [apply_of_before h]

theorem lastAppliedEventRevision_apply (h : c.Before event) :
    (c.apply event).lastAppliedEventRevision = some event.eventRevision := by
  rw [apply_of_before h]

theorem repairing_apply (h : c.Before event) :
    (c.apply event).repairing = (!event.isFullSnapshot && (c.repairing || c.hasGap event)) := by
  rw [apply_of_before h]

end Before

end Apply

end CaptureClient

end Capture
end ZuTalk
