/-
# Moving a session to another notebook

The transcripts of `crates/vt-ffi/src/session_move.rs`: the slice of the session is put into the
transcript of the target notebook, the pointers are flipped, and the slice is taken out of the
source.  An attempt goes from one durable effect to the next (`advance`); the process may stop at
any of them, and the documents are then read from disk again (`step`).  A plan is only made while
the session is not in the target notebook.

On lists of blocks, the slice of the target is the one that was put in, and the slices of other
sessions are what they were there (`sliceOf_insertSlice`, `sliceOf_insertSlice_other`).
-/

import ZuTalk.Library.Machine
import ZuTalk.Transcripts.Deletion

namespace ZuTalk
namespace Transcripts

open Mirror Sections

/-! ### The documents -/

/-- A transcript on disk, and the facade it is open in. -/
structure BlockDocument where
  stored : List (String × Node TranscriptSchema)
  handle : Option TranscriptProjection

namespace BlockDocument

/-- The facade: the one that is open, or one of what is on disk. -/
def facade (document : BlockDocument) : TranscriptProjection :=
  document.handle.getD (openTranscript document.stored)

/-- `open_transcript_block_document`. -/
def opened (document : BlockDocument) : BlockDocument :=
  { document with handle := some document.facade }

/-- `persist_block_document`: nothing is written of a document that is not open. -/
def persisted (document : BlockDocument) : BlockDocument :=
  { document with stored := document.handle.elim document.stored (·.roots) }

/-- What a restart of the process leaves. -/
def closed (document : BlockDocument) : BlockDocument := { document with handle := none }

/-- The blocks a later `open` of the file reads. -/
def storedBlocks (document : BlockDocument) : List UtteranceBlock :=
  (openTranscript document.stored).blocks

end BlockDocument

/-- `SessionMovePlan`, what it says of the transcript. -/
structure SessionMovePlan where
  sessionId : String
  laterSessionIds : List String

/-- How far an attempt is. -/
inductive MovePhase
  | idle
  | copy
  | persistTarget
  | commit
  | clear
  | persistSource
  deriving DecidableEq

/-- The transcripts of two notebooks, and whether the session is in the target. -/
structure Notebooks where
  source : BlockDocument
  target : BlockDocument
  moved : Bool
  phase : MovePhase

/-- `first_later_capture_block`. -/
def firstLaterCaptureBlock (blocks : List UtteranceBlock) (laterSessionIds : List String) :
    Option String :=
  (blocks.find? fun block => laterSessionIds.any fun sessionId =>
    block.owner = captureOwner sessionId).map (·.id)

namespace Notebooks

/-- `copy_transcript_slice`, before the target is persisted: the number of blocks put in. -/
def copyTranscriptSlice (plan : SessionMovePlan) (n : Notebooks) :
    Notebooks × Except TranscriptProjectionError ℕ :=
  let source := n.source.opened
  match source.facade.sessionSlice plan.sessionId with
  | .error e => ({ n with source := source }, .error e)
  | .ok [] => ({ n with source := source }, .ok 0)
  | .ok (block :: slice) =>
      let target := n.target.facade
      let spliced := target.spliceSessionSlice (block :: slice)
        (firstLaterCaptureBlock target.blocks plan.laterSessionIds)
      ({ n with source := source, target := { n.target with handle := some spliced.1 } },
        spliced.2)

/-- `roll_back_copied_sections`: a target that is not open is left alone. -/
def rollBackCopiedSections (plan : SessionMovePlan) (n : Notebooks) : Notebooks :=
  match n.target.handle with
  | none => n
  | some target =>
      let removed := target.removeSessionSlice plan.sessionId
      let document := { n.target with handle := some removed.1 }
      match removed.2 with
      | .error _ => { n with target := document }
      | .ok _ => { n with target := document.persisted }

/-- `clear_section_from_source`, before the source is persisted: the number of blocks removed. -/
def clearSectionFromSource (plan : SessionMovePlan) (n : Notebooks) :
    Notebooks × Except TranscriptProjectionError ℕ :=
  let removed := n.source.facade.removeSessionSlice plan.sessionId
  ({ n with source := { n.source with handle := some removed.1 } }, removed.2)

/-- What follows a step that changed a document, one that changed none, and one that failed. -/
def follow (result : Except TranscriptProjectionError ℕ) (changed unchanged : MovePhase) :
    MovePhase :=
  match result with
  | .error _ => .idle
  | .ok 0 => unchanged
  | .ok (_ + 1) => changed

/-- `move_session_to_notebook_inner`, up to its next durable effect.  A session that is in the
target notebook is not moved there again. -/
def advance (plan : SessionMovePlan) (n : Notebooks) : Notebooks :=
  match n.phase with
  | .idle => if n.moved then n else { n with phase := .copy }
  | .copy =>
      let copied := n.copyTranscriptSlice plan
      let after := match copied.2 with
        | .error _ => copied.1.rollBackCopiedSections plan
        | .ok _ => copied.1
      { after with phase := follow copied.2 .persistTarget .commit }
  | .persistTarget => { n with target := n.target.persisted, phase := .commit }
  | .commit => { n with moved := true, phase := .clear }
  | .clear =>
      let cleared := n.clearSectionFromSource plan
      { cleared.1 with phase := follow cleared.2 .persistSource .idle }
  | .persistSource => { n with source := n.source.persisted, phase := .idle }

/-- The process stops. -/
def restarted (n : Notebooks) : Notebooks :=
  { n with source := n.source.closed, target := n.target.closed, phase := .idle }

end Notebooks

/-- What happens to a move. -/
inductive MoveEvent
  | advance
  | crash
  deriving DecidableEq

/-- The notebooks after an event. -/
def moveStep (plan : SessionMovePlan) (n : Notebooks) : MoveEvent → Option Notebooks
  | .advance => some (n.advance plan)
  | .crash => some n.restarted

/-! ### The slice in the target -/

/-- A block of a session that was recorded later. -/
def isLater (laterSessionIds : List String) (block : UtteranceBlock) : Bool :=
  laterSessionIds.any fun sessionId => block.owner = captureOwner sessionId

/-- The blocks with a slice before the first that was recorded later. -/
def insertSlice (laterSessionIds : List String) (slice blocks : List UtteranceBlock) :
    List UtteranceBlock :=
  blocks.takeWhile (!isLater laterSessionIds ·) ++ slice ++
    blocks.dropWhile (!isLater laterSessionIds ·)

theorem captureOwner_ne_userOwner (sessionId : String) : captureOwner sessionId ≠ userOwner := by
  intro h
  have hlist := congrArg String.toList h
  rw [captureOwner, String.toList_append] at hlist
  cases hlist

theorem captureOwner_injective : Function.Injective captureOwner := fun a b h => by
  have hlist := congrArg String.toList h
  rw [captureOwner, captureOwner, String.toList_append, String.toList_append] at hlist
  exact String.toList_injective (List.append_cancel_left hlist)

section Insert

variable {sessionId other : String} {laterSessionIds : List String}
  {blocks slice before after : List UtteranceBlock}

/-- A block of a session that was recorded later is no annotation. -/
theorem not_user_of_isLater {block : UtteranceBlock} (h : isLater laterSessionIds block = true) :
    decide (block.owner = userOwner) = false := by
  obtain ⟨later, -, howner⟩ := List.any_eq_true.1 h
  have howner' := of_decide_eq_true howner
  rw [howner', decide_eq_false_iff_not]
  exact captureOwner_ne_userOwner later

/-- Where the slice is put in, something recorded later comes next, or nothing does. -/
theorem isLater_of_head {block : UtteranceBlock}
    (h : block ∈ (blocks.dropWhile (!isLater laterSessionIds ·)).head?) :
    isLater laterSessionIds block = true := by
  have hnot := List.head?_dropWhile_not (!isLater laterSessionIds ·) blocks
  rw [Option.mem_def.1 h] at hnot
  simpa using hnot

/-- **The slice goes before the first block that was recorded later**, or to the end. -/
theorem spliceCursor_first (hdistinct : (blocks.map (·.id)).Nodup) :
    spliceCursor blocks (firstLaterCaptureBlock blocks laterSessionIds) =
      some (blocks.takeWhile (!isLater laterSessionIds ·)).length := by
  have hsplit := List.takeWhile_append_dropWhile (p := (!isLater laterSessionIds ·)) (l := blocks)
  have hfind : blocks.find? (isLater laterSessionIds) =
      (blocks.dropWhile (!isLater laterSessionIds ·)).head? :=
    List.find?_eq_head?_dropWhile_not _ _
  have hfirst : firstLaterCaptureBlock blocks laterSessionIds =
      (blocks.find? (isLater laterSessionIds)).map (·.id) := rfl
  rw [hfirst, hfind]
  generalize blocks.takeWhile (!isLater laterSessionIds ·) = left at hsplit ⊢
  generalize blocks.dropWhile (!isLater laterSessionIds ·) = right at hsplit ⊢
  obtain rfl := hsplit
  cases right with
  | nil => rw [List.append_nil, List.head?_nil, Option.map_none, spliceCursor]
  | cons block right =>
      have hnone : left.findIdx? (·.id = block.id) = none := by
        rw [List.findIdx?_eq_none_iff]
        intro a ha
        rw [decide_eq_false_iff_not]
        rintro heq
        rw [List.map_append] at hdistinct
        refine List.disjoint_of_nodup_append hdistinct (List.mem_map_of_mem ha) ?_
        rw [heq]
        exact List.mem_map_of_mem List.mem_cons_self
      rw [List.head?_cons, Option.map_some, spliceCursor, List.findIdx?_append, hnone,
        Option.none_or, List.findIdx?_cons]
      simp

theorem insertSlice_perm (laterSessionIds : List String) (slice blocks : List UtteranceBlock) :
    (insertSlice laterSessionIds slice blocks).Perm (slice ++ blocks) := by
  have hsplit := List.takeWhile_append_dropWhile (p := (!isLater laterSessionIds ·)) (l := blocks)
  have hswap := (@List.perm_append_comm _ (blocks.takeWhile (!isLater laterSessionIds ·))
    slice).append_right (blocks.dropWhile (!isLater laterSessionIds ·))
  rwa [List.append_assoc slice, hsplit] at hswap

theorem WellFormed.insertSlice (h : WellFormed (slice ++ blocks)) :
    WellFormed (insertSlice laterSessionIds slice blocks) where
  distinct := ((insertSlice_perm laterSessionIds slice blocks).map _).nodup_iff.2 h.distinct
  valid block hblock := h.valid block ((insertSlice_perm ..).mem_iff.1 hblock)

/-- A slice that is new comes in whole. -/
theorem spliceBlocks_insertSlice (h : ((slice ++ blocks).map (·.id)).Nodup) :
    spliceBlocks blocks (blocks.takeWhile (!isLater laterSessionIds ·)).length slice =
      insertSlice laterSessionIds slice blocks := by
  have hfresh := ((insertSlice_perm laterSessionIds slice blocks).map (·.id)).nodup_iff.2 h
  have hsplice := spliceBlocks_fresh hfresh
  rwa [List.takeWhile_append_dropWhile] at hsplice

/-- The slice is what `session_slice` reads of a document exactly where the sections agree. -/
theorem sliceOf_eq_iff : sliceOf sessionId blocks = sliceOf sessionId before ↔
    (sectionOf sessionId blocks).items = (sectionOf sessionId before).items := by
  unfold sliceOf
  cases (sectionOf sessionId blocks).items <;> cases (sectionOf sessionId before).items <;> simp

/-- **The slice in the target is the one that was put in**, where the target had none. -/
theorem sliceOf_insertSlice {left right : List UtteranceBlock}
    (hsection : sectionOf sessionId before = .found left slice right)
    (hwithout : ∀ block ∈ blocks, block.owner ≠ captureOwner sessionId) :
    sliceOf sessionId (insertSlice laterSessionIds slice blocks) = .ok slice := by
  obtain ⟨-, hpiece⟩ := isSection_of_cut hsection
  have hnone : ∀ block ∈ blocks, decide (block.owner = captureOwner sessionId) = false :=
    fun block hblock => decide_eq_false (hwithout block hblock)
  have hthere : IsSection
      (fun block : UtteranceBlock => decide (block.owner = captureOwner sessionId))
      (fun block => decide (block.owner = userOwner))
      (blocks.takeWhile (!isLater laterSessionIds ·)) slice
      (blocks.dropWhile (!isLater laterSessionIds ·)) :=
    ⟨fun block hblock => hnone block ((List.takeWhile_sublist _).mem hblock), hpiece.head,
      hpiece.piece, fun block hblock => hnone block ((List.dropWhile_sublist _).mem hblock),
      fun block hblock => not_user_of_isLater (isLater_of_head hblock)⟩
  have hcut : sectionOf sessionId (insertSlice laterSessionIds slice blocks) = .found _ slice _ :=
    hthere.cut
  rw [sliceOf, hcut]
  rfl

/-- The blocks of a slice are the session's and annotations: they are no other session's. -/
theorem not_other_of_section (hsection : sectionOf sessionId blocks = .found before slice after)
    (hne : other ≠ sessionId) :
    ∀ block ∈ slice, decide (block.owner = captureOwner other) = false := by
  intro block hblock
  have hpiece := (isSection_of_cut hsection).2.piece block hblock
  rw [Bool.or_eq_true, decide_eq_true_iff, decide_eq_true_iff] at hpiece
  rw [decide_eq_false_iff_not]
  intro howner
  rcases hpiece with hown | huser
  · exact hne (captureOwner_injective (howner.symm.trans hown))
  · exact captureOwner_ne_userOwner other (howner.symm.trans huser)

theorem head_of_section (hsection : sectionOf sessionId blocks = .found before slice after) :
    slice ≠ [] ∧ ∀ block ∈ slice.head?, decide (block.owner = userOwner) = false := by
  obtain ⟨first, rest, rfl, hfirst⟩ := (isSection_of_cut hsection).2.head
  refine ⟨List.cons_ne_nil _ _, fun block hblock => ?_⟩
  obtain rfl := Option.some.inj hblock
  rw [of_decide_eq_true hfirst, decide_eq_false_iff_not]
  exact captureOwner_ne_userOwner sessionId

/-- **The slice of another session in the target is what it was.**  Where the session stood on both
sides, a block that was recorded later stands between: it was in pieces before. -/
theorem sliceOf_insertSlice_other {left right : List UtteranceBlock}
    (hsection : sectionOf sessionId before = .found left slice right) (hne : other ≠ sessionId) :
    sliceOf other (insertSlice laterSessionIds slice blocks) = sliceOf other blocks := by
  obtain ⟨hsliceNe, hhead⟩ := head_of_section hsection
  have hsplit := List.takeWhile_append_dropWhile (p := (!isLater laterSessionIds ·)) (l := blocks)
  have hnext : ∀ block ∈ (blocks.dropWhile (!isLater laterSessionIds ·)).head?,
      decide (block.owner = userOwner) = false := fun block hblock =>
    not_user_of_isLater (isLater_of_head hblock)
  have hinsert := @items_insert_iff _ (fun block : UtteranceBlock => decide (block.owner =
    captureOwner other)) (fun block => decide (block.owner = userOwner))
    (blocks.takeWhile (!isLater laterSessionIds ·)) (blocks.dropWhile (!isLater laterSessionIds ·))
    slice (not_other_of_section hsection hne) hsliceNe hhead hnext
  rw [hsplit] at hinsert
  refine sliceOf_eq_iff.2 (hinsert.2 ?_)
  rintro ⟨⟨block, hblock, hown⟩, hafter, hpiece⟩
  refine hpiece ?_
  have hnotLater : isLater laterSessionIds block = false := by
    simpa using List.mem_takeWhile_imp hblock
  cases hright : blocks.dropWhile (!isLater laterSessionIds ·) with
  | nil =>
      rw [hright] at hafter
      obtain ⟨block, hmem, -⟩ := hafter
      exact absurd hmem List.not_mem_nil
  | cons first rest =>
      have hlater : isLater laterSessionIds first = true := isLater_of_head (by rw [hright]; rfl)
      have hfirst : decide (first.owner = captureOwner other) = false := by
        rw [decide_eq_false_iff_not]
        intro howner
        have hsame : isLater laterSessionIds first = isLater laterSessionIds block := by
          rw [isLater, isLater, howner, of_decide_eq_true hown]
        rw [hsame, hnotLater] at hlater
        cases hlater
      have hrest : ∃ block ∈ rest, decide (block.owner = captureOwner other) = true := by
        rw [hright] at hafter
        obtain ⟨block, hmem, hblock⟩ := hafter
        rcases List.mem_cons.1 hmem with rfl | hmem
        · rw [hfirst] at hblock
          cases hblock
        · exact ⟨block, hmem, hblock⟩
      have hcut := @cut_interleaved _ (fun block : UtteranceBlock => decide (block.owner =
        captureOwner other)) (fun block => decide (block.owner = userOwner))
        (blocks.takeWhile (!isLater laterSessionIds ·)) rest [first] ⟨block, hblock, hown⟩ hrest
        (fun other hother => by
          obtain rfl := Option.some.inj hother
          exact ⟨hfirst, not_user_of_isLater hlater⟩) (List.cons_ne_nil _ _)
      rw [List.append_assoc, List.singleton_append, ← hright, hsplit] at hcut
      rw [hcut]
      rfl

/-- A session that stands on both sides, and is in one piece where nothing stands between. -/
def Straddles (sessionId : String) (before after : List UtteranceBlock) : Prop :=
  (∃ block ∈ before, block.owner = captureOwner sessionId) ∧
    (∃ block ∈ after, block.owner = captureOwner sessionId) ∧
      (sectionOf sessionId (before ++ after)).items ≠ none

/-- **The slice of another session in the source is what it was** exactly where it does not
straddle the slice that goes. -/
theorem sliceOf_outside_other_iff
    (hsection : sectionOf sessionId blocks = .found before slice after) (hne : other ≠ sessionId) :
    sliceOf other (before ++ after) = sliceOf other blocks ↔ ¬ Straddles other before after := by
  obtain ⟨hsliceNe, hhead⟩ := head_of_section hsection
  obtain ⟨rfl, hpiece⟩ := isSection_of_cut hsection
  have hinsert := @items_insert_iff _ (fun block : UtteranceBlock => decide (block.owner =
    captureOwner other)) (fun block => decide (block.owner = userOwner)) before after slice
    (not_other_of_section hsection hne) hsliceNe hhead hpiece.next
  rw [sliceOf_eq_iff, eq_comm]
  refine hinsert.trans (not_congr (and_congr ?_ (and_congr ?_ Iff.rfl)))
  · simp
  · simp

end Insert

end Transcripts
end ZuTalk
