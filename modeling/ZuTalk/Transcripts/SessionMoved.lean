/-
# A session that is moved

Every attempt to move a session, whatever stops it and however often it is made again
(`session_move_iff`): the transcripts converge, and at every moment one of them has the whole slice.

The changes to the source leave a slice at the tail, another session may stand around the slice, and
after the pointers are flipped no attempt gets as far as the source again.  So this is where the
slice is followed by another block that no session needs, and no stop comes between the flip and
the clear.
-/

import ZuTalk.Transcripts.SessionMove

namespace ZuTalk
namespace Transcripts

open Mirror Sections Machine

/-! ### What a document has -/

/-- A document that has these blocks, on disk and in the facade it is open in. -/
structure BlockDocument.Has (document : BlockDocument) (blocks : List UtteranceBlock) : Prop where
  stored : TranscriptDocument document.stored blocks
  handle : ∀ p ∈ document.handle, Holds p blocks []

/-- A document that is open with changes: what is on disk, and what is in the facade. -/
structure BlockDocument.Edited (document : BlockDocument)
    (onDisk blocks extra : List UtteranceBlock) : Prop where
  stored : TranscriptDocument document.stored onDisk
  handle : ∃ p, document.handle = some p ∧ Holds p blocks extra

section Documents

variable {document : BlockDocument} {blocks onDisk extra : List UtteranceBlock}

theorem BlockDocument.Has.facade (h : document.Has blocks) (hwell : WellFormed blocks) :
    Holds document.facade blocks [] := by
  unfold BlockDocument.facade
  cases hhandle : document.handle with
  | none => exact holds_open h.stored hwell.distinct hwell.valid
  | some p => exact h.handle p hhandle

theorem BlockDocument.Has.opened (h : document.Has blocks) (hwell : WellFormed blocks) :
    document.opened.Has blocks where
  stored := h.stored
  handle _ hp := Option.some.inj hp ▸ h.facade hwell

theorem BlockDocument.Has.closed (h : document.Has blocks) : document.closed.Has blocks where
  stored := h.stored
  handle := nofun

theorem storedBlocks_eq (h : TranscriptDocument document.stored blocks)
    (hwell : WellFormed blocks) : document.storedBlocks = blocks :=
  (holds_open h hwell.distinct hwell.valid).blocks_eq

/-- What is left behind keeps the blocks well formed. -/
theorem WellFormed.leftover {newBlocks : List UtteranceBlock} (h : WellFormed blocks)
    (hnew : WellFormed newBlocks) : WellFormed (newBlocks ++ leftoverBlocks blocks newBlocks) where
  distinct := nodup_leftoverBlocks h.distinct hnew.distinct
  valid block hblock := by
    rcases List.mem_append.1 hblock with hblock | hblock
    · exact hnew.valid block hblock
    · unfold leftoverBlocks at hblock
      split at hblock
      · exact h.valid block ((List.rtakeWhile_suffix _ blocks).mem hblock)
      · exact absurd hblock List.not_mem_nil

theorem BlockDocument.Edited.closed (h : document.Edited onDisk blocks extra) :
    document.closed.Has onDisk where
  stored := h.stored
  handle := nofun

theorem BlockDocument.Edited.persisted (h : document.Edited onDisk blocks []) :
    document.persisted.Has blocks := by
  obtain ⟨p, hhandle, hholds⟩ := h.handle
  refine ⟨?_, fun p' hp' => ?_⟩
  · have hdocument := hholds.document
    rw [List.append_nil] at hdocument
    unfold BlockDocument.persisted
    rw [hhandle]
    exact hdocument
  · obtain rfl := Option.some.inj (hhandle.symm.trans hp')
    exact hholds

end Documents

/-! ### What a move does -/

/-- How many steps an attempt still takes. -/
def Notebooks.remaining (n : Notebooks) : ℕ :=
  match n.phase with
  | .idle => if n.moved then 0 else 6
  | .copy => 5
  | .persistTarget => 4
  | .commit => 3
  | .clear => 2
  | .persistSource => 1

/-- The attempt has ended, and the session is in the target notebook. -/
def Notebooks.Finished (n : Notebooks) : Prop := n.phase = .idle ∧ n.moved = true

/-- The transcripts a move leads to. -/
structure Converged (plan : SessionMovePlan) (start : Notebooks) (slice : List UtteranceBlock)
    (n : Notebooks) : Prop where
  target : n.target.storedBlocks =
    insertSlice plan.laterSessionIds slice start.target.storedBlocks
  source : n.source.storedBlocks = outsideSlice plan.sessionId start.source.storedBlocks
  moved : n.target.facade.sessionSlice plan.sessionId = .ok slice
  others : ∀ other ≠ plan.sessionId,
    n.target.facade.sessionSlice other = start.target.facade.sessionSlice other ∧
      n.source.facade.sessionSlice other = start.source.facade.sessionSlice other

/-- Nothing of the slice is lost: it is whole in one of the documents, an attempt that is not
stopped ends, and where one has ended the transcripts have converged. -/
structure Lossless (plan : SessionMovePlan) (start : Notebooks) (slice : List UtteranceBlock)
    (n : Notebooks) : Prop where
  whole : sliceOf plan.sessionId n.target.storedBlocks = .ok slice ∨
    sliceOf plan.sessionId n.source.storedBlocks = .ok slice
  ends : ((Notebooks.advance plan)^[6] n).Finished
  converged : n.Finished → Converged plan start slice n

/-- The slice can neither be read nor removed, and the documents are what they were. -/
structure Refused (plan : SessionMovePlan) (start : Notebooks) (e : TranscriptProjectionError)
    (n : Notebooks) : Prop where
  read : n.source.facade.sessionSlice plan.sessionId = .error e
  removal : n.source.facade.removeSessionSlice plan.sessionId = (n.source.facade, .error e)
  source : n.source.storedBlocks = start.source.storedBlocks
  target : n.target.storedBlocks = start.target.storedBlocks

/-- What a move promises of the notebooks, in whatever state they are. -/
def MovesWell (plan : SessionMovePlan) (start n : Notebooks) : Prop :=
  match start.source.facade.sessionSlice plan.sessionId with
  | .ok slice => Lossless plan start slice n
  | .error e => Refused plan start e n

/-- Two transcripts before a session is moved: blocks with ids of their own, and none of the session
in the target. -/
structure MoveStart (plan : SessionMovePlan) (S T : List UtteranceBlock) (n : Notebooks) :
    Prop where
  idle : n.phase = .idle
  notMoved : n.moved = false
  source : n.source.Has S
  target : n.target.Has T
  wellFormed : WellFormed (S ++ T)
  without : ∀ block ∈ T, block.owner ≠ captureOwner plan.sessionId

/-- The slice does not stand last, the facade takes its blocks, and no other session straddles
it. -/
def Movable (plan : SessionMovePlan) (S : List UtteranceBlock) : Prop :=
  match sectionOf plan.sessionId S with
  | .found before slice after => after ≠ [] ∧ Spliceable slice ∧
      ∀ other, ¬ Straddles other before after
  | _ => True

/-- A crash between the flip and the clear finds nothing of the session in the source. -/
def Timely (plan : SessionMovePlan) (n : Notebooks) (event : MoveEvent) : Prop :=
  event = .crash → n.moved = true → n.phase ≠ .idle →
    sliceOf plan.sessionId n.source.storedBlocks = .ok []

/-! ### The steps -/

section Steps

variable {plan : SessionMovePlan} {n : Notebooks} {S T before slice after : List UtteranceBlock}

/-- A slice that is not there, or that cannot be read, is not copied. -/
theorem copy_of_absent (hsource : n.source.Has S) (hwell : WellFormed S)
    (hslice : sliceOf plan.sessionId S = .ok []) :
    n.copyTranscriptSlice plan = ({ n with source := n.source.opened }, .ok 0) := by
  have hread : n.source.opened.facade.sessionSlice plan.sessionId = .ok [] :=
    ((hsource.facade hwell).sessionSlice_eq plan.sessionId).trans hslice
  unfold Notebooks.copyTranscriptSlice
  dsimp only
  rw [hread]

theorem copy_of_interleaved (hsource : n.source.Has S) (hwell : WellFormed S)
    {e : TranscriptProjectionError} (hslice : sliceOf plan.sessionId S = .error e) :
    n.copyTranscriptSlice plan = ({ n with source := n.source.opened }, .error e) := by
  have hread : n.source.opened.facade.sessionSlice plan.sessionId = .error e :=
    ((hsource.facade hwell).sessionSlice_eq plan.sessionId).trans hslice
  unfold Notebooks.copyTranscriptSlice
  dsimp only
  rw [hread]

theorem copy_of_found (hsource : n.source.Has S) (hwell : WellFormed S)
    (hsection : sectionOf plan.sessionId S = .found before slice after) :
    n.copyTranscriptSlice plan =
      let spliced := n.target.facade.spliceSessionSlice slice
        (firstLaterCaptureBlock n.target.facade.blocks plan.laterSessionIds)
      ({ n with source := n.source.opened,
                target := { n.target with handle := some spliced.1 } }, spliced.2) := by
  obtain ⟨block, rest, rfl⟩ := List.exists_cons_of_ne_nil (head_of_section hsection).1
  have hslice : sliceOf plan.sessionId S = .ok (block :: rest) := by
    rw [sliceOf, hsection]
    rfl
  have hread : n.source.opened.facade.sessionSlice plan.sessionId = .ok (block :: rest) :=
    ((hsource.facade hwell).sessionSlice_eq plan.sessionId).trans hslice
  unfold Notebooks.copyTranscriptSlice
  dsimp only
  rw [hread]

/-- A slice that is new comes in whole, before the first block that was recorded later. -/
theorem Holds.splice_new {p : TranscriptProjection} (h : Holds p T [])
    (hspliceable : Spliceable slice) (hwell : WellFormed (slice ++ T)) (hne : slice ≠ []) :
    ∃ p' inserted, p.spliceSessionSlice slice
        (firstLaterCaptureBlock p.blocks plan.laterSessionIds) = (p', .ok (inserted + 1)) ∧
      Holds p' (insertSlice plan.laterSessionIds slice T) [] := by
  have hinserted := @spliceBlocks_insertSlice plan.laterSessionIds T slice hwell.distinct
  have hlength : (insertSlice plan.laterSessionIds slice T).length - T.length = slice.length := by
    rw [(insertSlice_perm ..).length_eq, List.length_append, Nat.add_sub_cancel]
  obtain ⟨block, rest, rfl⟩ := List.exists_cons_of_ne_nil hne
  obtain ⟨p', hcommit, hholds⟩ := h.commitItems (WellFormed.insertSlice hwell)
    (block :: rest).length
  refine ⟨p', rest.length, ?_, ?_⟩
  · rw [h.spliceSessionSlice_eq hspliceable, h.blocks_eq, spliceCursor_first h.distinct]
    dsimp only
    rw [hinserted, hlength, if_neg (by simp)]
    exact hcommit
  · rwa [leftoverBlocks_of_subset fun other hother => List.mem_map_of_mem
      ((insertSlice_perm ..).mem_iff.2 (List.mem_append_right _ hother))] at hholds

/-- A slice that is there is not put in again. -/
theorem Holds.splice_again {p : TranscriptProjection} {blocks : List UtteranceBlock}
    (h : Holds p blocks []) (hspliceable : Spliceable slice) (hthere : ∀ block ∈ slice,
      block ∈ blocks) :
    p.spliceSessionSlice slice (firstLaterCaptureBlock p.blocks plan.laterSessionIds) =
      (p, .ok 0) := by
  rw [h.spliceSessionSlice_eq hspliceable, h.blocks_eq, spliceCursor_first h.distinct]
  dsimp only
  rw [spliceBlocks_present fun block hblock => List.mem_map_of_mem (hthere block hblock),
    Nat.sub_self, if_pos rfl]

/-- A rollback leaves a target without the session as it was. -/
theorem rollBack_without (htarget : n.target.Has T)
    (hwithout : ∀ block ∈ T, block.owner ≠ captureOwner plan.sessionId) :
    (n.rollBackCopiedSections plan).target.Has T ∧
      (n.rollBackCopiedSections plan).source = n.source ∧
      (n.rollBackCopiedSections plan).moved = n.moved := by
  unfold Notebooks.rollBackCopiedSections
  cases hhandle : n.target.handle with
  | none => exact ⟨htarget, rfl, rfl⟩
  | some p =>
      have hholds := htarget.handle p hhandle
      have habsent : sectionOf plan.sessionId T = .absent :=
        cut_absent fun block hblock => decide_eq_false (hwithout block hblock)
      have hremoved : p.removeSessionSlice plan.sessionId = (p, .ok 0) := by
        rw [hholds.removeSessionSlice_eq, habsent]
      dsimp only
      rw [hremoved]
      have hedited : BlockDocument.Edited { n.target with handle := some p } T T [] :=
        ⟨htarget.stored, p, rfl, hholds⟩
      exact ⟨hedited.persisted, rfl, rfl⟩

/-- The slice goes from the facade of the source; the document keeps what is left behind. -/
theorem clear_of_found (hsource : n.source.Has S) (hwell : WellFormed S)
    (hsection : sectionOf plan.sessionId S = .found before slice after) :
    ∃ source removed,
      n.clearSectionFromSource plan = ({ n with source := source }, .ok (removed + 1)) ∧
      source.Edited S (before ++ after) (leftoverBlocks S (before ++ after)) := by
  obtain ⟨block, rest, rfl⟩ := List.exists_cons_of_ne_nil (head_of_section hsection).1
  obtain ⟨p, hcall, hholds⟩ := (hsource.facade hwell).removed plan.sessionId hsection
  rw [List.append_nil] at hholds
  refine ⟨{ n.source with handle := some p }, rest.length, ?_, hsource.stored, p, rfl, hholds⟩
  unfold Notebooks.clearSectionFromSource
  rw [hcall]
  rfl

theorem clear_of_absent (hsource : n.source.Has S) (hwell : WellFormed S)
    (hsection : sectionOf plan.sessionId S = .absent) :
    n.clearSectionFromSource plan = ({ n with source := n.source.opened }, .ok 0) := by
  unfold Notebooks.clearSectionFromSource
  rw [(hsource.facade hwell).removeSessionSlice_eq, hsection]
  rfl

end Steps

/-! ### A move of a slice that the target takes -/

section Moves

variable {plan : SessionMovePlan} {n : Notebooks} {S T before slice after : List UtteranceBlock}

variable (plan S T before slice after) in
/-- How far a move is, where no stop has come between the flip and the clear. -/
inductive MoveStage : Notebooks → Prop
  | waiting {n : Notebooks} (phase : n.phase = .idle ∨ n.phase = .copy) (moved : n.moved = false)
      (source : n.source.Has S)
      (target : n.target.Has T ∨ n.target.Has (insertSlice plan.laterSessionIds slice T)) :
      MoveStage n
  | copied {n : Notebooks} (phase : n.phase = .persistTarget) (moved : n.moved = false)
      (source : n.source.Has S)
      (target : n.target.Edited T (insertSlice plan.laterSessionIds slice T) []) : MoveStage n
  | ready {n : Notebooks} (phase : n.phase = .commit) (moved : n.moved = false)
      (source : n.source.Has S)
      (target : n.target.Has (insertSlice plan.laterSessionIds slice T)) : MoveStage n
  | flipped {n : Notebooks} (phase : n.phase = .clear) (moved : n.moved = true)
      (source : n.source.Has S)
      (target : n.target.Has (insertSlice plan.laterSessionIds slice T)) : MoveStage n
  | removed {n : Notebooks} (phase : n.phase = .persistSource) (moved : n.moved = true)
      (source : n.source.Edited S (before ++ after) (leftoverBlocks S (before ++ after)))
      (target : n.target.Has (insertSlice plan.laterSessionIds slice T)) : MoveStage n
  | done {n : Notebooks} (phase : n.phase = .idle) (moved : n.moved = true)
      (stored : TranscriptDocument n.source.stored
        (before ++ after ++ leftoverBlocks S (before ++ after)))
      (handle : ∀ p ∈ n.source.handle, Holds p (before ++ after)
        (leftoverBlocks S (before ++ after)))
      (target : n.target.Has (insertSlice plan.laterSessionIds slice T)) : MoveStage n

/-- What a move rests on: blocks with ids of their own, and a slice in one piece that the facade
takes. -/
structure MoveSlice (plan : SessionMovePlan) (S T before slice after : List UtteranceBlock) :
    Prop where
  section_eq : sectionOf plan.sessionId S = .found before slice after
  spliceable : Spliceable slice
  wellFormed : WellFormed (S ++ T)
  without : ∀ block ∈ T, block.owner ≠ captureOwner plan.sessionId

namespace MoveSlice

variable (h : MoveSlice plan S T before slice after)

include h

theorem source_wellFormed : WellFormed S := h.wellFormed.sublist (List.sublist_append_left S T)

theorem target_wellFormed : WellFormed T := h.wellFormed.sublist (List.sublist_append_right S T)

theorem slice_wellFormed : WellFormed (slice ++ T) := by
  refine h.wellFormed.sublist (List.Sublist.append ?_ (List.Sublist.refl T))
  rw [(isSection_of_cut h.section_eq).1, List.append_assoc]
  exact (List.sublist_append_left slice after).trans (List.sublist_append_right before _)

theorem inserted_wellFormed : WellFormed (insertSlice plan.laterSessionIds slice T) :=
  WellFormed.insertSlice h.slice_wellFormed

/-- **What a step does to a move**: it goes on, and the attempt takes a step less. -/
theorem advance (hstage : MoveStage plan S T before slice after n) :
    MoveStage plan S T before slice after (n.advance plan) ∧
      (n.advance plan).remaining ≤ n.remaining - 1 := by
  cases hstage with
  | waiting phase moved source target =>
      rcases phase with hphase | hphase
      · have hadvance : n.advance plan = { n with phase := .copy } := by
          rw [Notebooks.advance, hphase, moved]
          rfl
        rw [hadvance]
        refine ⟨.waiting (.inr rfl) moved source target, ?_⟩
        simp [Notebooks.remaining, hphase, moved]
      · have hcopy := copy_of_found source h.source_wellFormed h.section_eq
        have hopened := source.opened h.source_wellFormed
        dsimp only at hcopy
        have hremaining : n.remaining = 5 := by rw [Notebooks.remaining, hphase]
        rw [Notebooks.advance, hphase, hremaining]
        dsimp only
        rcases target with htarget | htarget
        · obtain ⟨p', inserted, hsplice, hholds⟩ := @Holds.splice_new plan T slice _
            (htarget.facade h.target_wellFormed) h.spliceable h.slice_wellFormed
            (head_of_section h.section_eq).1
          rw [hcopy, hsplice]
          exact ⟨.copied rfl moved hopened ⟨htarget.stored, p', rfl, hholds⟩, le_rfl⟩
        · have hholds := htarget.facade h.inserted_wellFormed
          have hsplice := @Holds.splice_again plan slice _ _ hholds h.spliceable
            fun block hblock => (insertSlice_perm ..).mem_iff.2 (List.mem_append_left T hblock)
          rw [hcopy, hsplice]
          refine ⟨.ready rfl moved hopened (htarget.opened h.inserted_wellFormed), ?_⟩
          simp [Notebooks.remaining, Notebooks.follow]
  | copied phase moved source target =>
      have hadvance : n.advance plan =
          { n with target := n.target.persisted, phase := .commit } := by
        rw [Notebooks.advance, phase]
      rw [hadvance]
      refine ⟨.ready rfl moved source target.persisted, ?_⟩
      simp [Notebooks.remaining, phase]
  | ready phase moved source target =>
      have hadvance : n.advance plan = { n with moved := true, phase := .clear } := by
        rw [Notebooks.advance, phase]
      rw [hadvance]
      refine ⟨.flipped rfl rfl source target, ?_⟩
      simp [Notebooks.remaining, phase]
  | flipped phase moved source target =>
      obtain ⟨document, removed, hclear, hedited⟩ :=
        clear_of_found source h.source_wellFormed h.section_eq
      rw [Notebooks.advance, phase]
      dsimp only
      rw [hclear]
      refine ⟨.removed rfl moved hedited target, ?_⟩
      simp [Notebooks.remaining, Notebooks.follow, phase]
  | removed phase moved source target =>
      have hadvance : n.advance plan = { n with source := n.source.persisted, phase := .idle } := by
        rw [Notebooks.advance, phase]
      obtain ⟨p, hhandle, hholds⟩ := source.handle
      rw [hadvance]
      refine ⟨.done rfl moved ?_ (fun p' hp' => ?_) target, ?_⟩
      · dsimp only
        rw [BlockDocument.persisted, hhandle]
        exact hholds.document
      · obtain rfl := Option.some.inj (hhandle.symm.trans hp')
        exact hholds
      · simp [Notebooks.remaining, phase, moved]
  | done phase moved stored handle target =>
      have hadvance : n.advance plan = n := by
        rw [Notebooks.advance, phase, moved]
        rfl
      rw [hadvance]
      refine ⟨.done phase moved stored handle target, ?_⟩
      simp [Notebooks.remaining, phase, moved]

/-- A stop that comes in time leaves a move where it can be made again. -/
theorem crash (hstage : MoveStage plan S T before slice after n)
    (htimely : Timely plan n .crash) : MoveStage plan S T before slice after n.restarted := by
  have hlate : ∀ {document : BlockDocument}, TranscriptDocument document.stored S →
      sliceOf plan.sessionId document.storedBlocks ≠ .ok [] := by
    intro document hstored hnil
    rw [storedBlocks_eq hstored h.source_wellFormed, sliceOf, h.section_eq] at hnil
    exact (head_of_section h.section_eq).1 (Except.ok.inj hnil)
  cases hstage with
  | waiting phase moved source target =>
      exact .waiting (.inl rfl) moved source.closed (target.imp (·.closed) (·.closed))
  | copied phase moved source target =>
      exact .waiting (.inl rfl) moved source.closed (.inl target.closed)
  | ready phase moved source target =>
      exact .waiting (.inl rfl) moved source.closed (.inr target.closed)
  | flipped phase moved source target =>
      exact absurd (htimely rfl moved (by rw [phase]; decide)) (hlate source.stored)
  | removed phase moved source target =>
      exact absurd (htimely rfl moved (by rw [phase]; decide)) (hlate source.stored)
  | done phase moved stored handle target =>
      exact .done rfl moved stored (fun _ hp => absurd hp (Option.not_mem_none _)) target.closed

end MoveSlice

/-- A move that takes a step less with each ends after as many. -/
theorem remaining_iterate {I : Notebooks → Prop} (hstep : ∀ n, I n → I (n.advance plan) ∧
    (n.advance plan).remaining ≤ n.remaining - 1) (hn : I n) (k : ℕ) :
    I ((Notebooks.advance plan)^[k] n) ∧
      ((Notebooks.advance plan)^[k] n).remaining ≤ n.remaining - k := by
  induction k with
  | zero => exact ⟨hn, le_rfl⟩
  | succ k ih =>
      obtain ⟨hI, hle⟩ := ih
      obtain ⟨hI', hle'⟩ := hstep _ hI
      rw [Function.iterate_succ_apply']
      exact ⟨hI', by omega⟩

theorem finished_of_remaining (h : n.remaining = 0) : n.Finished := by
  unfold Notebooks.remaining at h
  cases hphase : n.phase <;> rw [hphase] at h <;> simp at h
  exact ⟨hphase, h⟩

theorem remaining_le (n : Notebooks) : n.remaining ≤ 6 := by
  unfold Notebooks.remaining
  cases n.phase <;> cases n.moved <;> simp

theorem finished_iterate {I : Notebooks → Prop} (hstep : ∀ n, I n → I (n.advance plan) ∧
    (n.advance plan).remaining ≤ n.remaining - 1) (hn : I n) :
    I ((Notebooks.advance plan)^[6] n) ∧ ((Notebooks.advance plan)^[6] n).Finished := by
  obtain ⟨hI, hle⟩ := remaining_iterate hstep hn 6
  refine ⟨hI, finished_of_remaining ?_⟩
  have hsix := remaining_le n
  omega

/-- Where a move has ended, nothing of the slice is in the facade of the source any more. -/
theorem MoveStage.finished (hstage : MoveStage plan S T before slice after n)
    (hfinished : n.Finished) :
    TranscriptDocument n.source.stored (before ++ after ++ leftoverBlocks S (before ++ after)) ∧
      (∀ p ∈ n.source.handle, Holds p (before ++ after) (leftoverBlocks S (before ++ after))) ∧
        n.target.Has (insertSlice plan.laterSessionIds slice T) := by
  obtain ⟨hidle, hmoved⟩ := hfinished
  cases hstage with
  | waiting phase moved source target => rw [moved] at hmoved; cases hmoved
  | copied phase moved source target => rw [phase] at hidle; cases hidle
  | ready phase moved source target => rw [phase] at hidle; cases hidle
  | flipped phase moved source target => rw [phase] at hidle; cases hidle
  | removed phase moved source target => rw [phase] at hidle; cases hidle
  | done phase moved stored handle target => exact ⟨stored, handle, target⟩

/-- At every moment the slice is whole in one of the documents. -/
theorem MoveSlice.whole (h : MoveSlice plan S T before slice after)
    (hstage : MoveStage plan S T before slice after n) :
    sliceOf plan.sessionId n.target.storedBlocks = .ok slice ∨
      sliceOf plan.sessionId n.source.storedBlocks = .ok slice := by
  have hsource : TranscriptDocument n.source.stored S →
      sliceOf plan.sessionId n.source.storedBlocks = .ok slice := fun hstored => by
    rw [storedBlocks_eq hstored h.source_wellFormed, sliceOf, h.section_eq]
    rfl
  have htarget : n.target.Has (insertSlice plan.laterSessionIds slice T) →
      sliceOf plan.sessionId n.target.storedBlocks = .ok slice := fun hstored => by
    rw [storedBlocks_eq hstored.stored h.inserted_wellFormed]
    exact sliceOf_insertSlice h.section_eq h.without
  cases hstage with
  | waiting phase moved source target => exact .inr (hsource source.stored)
  | copied phase moved source target => exact .inr (hsource source.stored)
  | ready phase moved source target => exact .inr (hsource source.stored)
  | flipped phase moved source target => exact .inr (hsource source.stored)
  | removed phase moved source target => exact .inl (htarget target)
  | done phase moved stored handle target => exact .inl (htarget target)

/-- What a move leads to, where nothing is left behind and no other session straddles the slice. -/
theorem MoveSlice.lossless (h : MoveSlice plan S T before slice after) {start : Notebooks}
    (hsource : start.source.Has S) (htarget : start.target.Has T) (hafter : after ≠ [])
    (hothers : ∀ other, ¬ Straddles other before after)
    (hstage : MoveStage plan S T before slice after n) : Lossless plan start slice n := by
  have hleft : leftoverBlocks S (before ++ after) = [] :=
    (leftover_removed_iff h.source_wellFormed h.section_eq).2 hafter
  have hkept : WellFormed (before ++ after) :=
    h.source_wellFormed.sublist (sublist_outside h.section_eq)
  refine ⟨h.whole hstage, (finished_iterate (fun n hn => h.advance hn) hstage).2,
    fun hfinished => ?_⟩
  obtain ⟨hstored, hhandle, hthere⟩ := hstage.finished hfinished
  rw [hleft] at hstored hhandle
  rw [List.append_nil] at hstored
  have hgone : n.source.Has (before ++ after) := ⟨hstored, hhandle⟩
  have hsourceFacade := hsource.facade h.source_wellFormed
  have htargetFacade := htarget.facade h.target_wellFormed
  have hgoneFacade := hgone.facade hkept
  have hthereFacade := hthere.facade h.inserted_wellFormed
  refine ⟨?_, ?_, ?_, fun other hne => ⟨?_, ?_⟩⟩
  · rw [storedBlocks_eq hthere.stored h.inserted_wellFormed,
      storedBlocks_eq htarget.stored h.target_wellFormed]
  · rw [storedBlocks_eq hstored hkept, storedBlocks_eq hsource.stored h.source_wellFormed,
      outsideSlice, h.section_eq]
  · rw [hthereFacade.sessionSlice_eq]
    exact sliceOf_insertSlice h.section_eq h.without
  · rw [hthereFacade.sessionSlice_eq, htargetFacade.sessionSlice_eq]
    exact sliceOf_insertSlice_other h.section_eq hne
  · rw [hgoneFacade.sessionSlice_eq, hsourceFacade.sessionSlice_eq]
    exact (sliceOf_outside_other_iff h.section_eq hne).2 (hothers other)

/-! ### A session without a slice, and one whose slice cannot be moved -/

/-- Both documents are what they were, and a pointer that was flipped is followed by a clear. -/
structure Untouched (S T : List UtteranceBlock) (n : Notebooks) : Prop where
  source : n.source.Has S
  target : n.target.Has T
  phase : n.phase = .idle ∨ n.phase = .copy ∨ n.phase = .commit ∨ n.phase = .clear
  moved : n.phase = .clear → n.moved = true

theorem Untouched.advance (h : Untouched S T n) (hwell : WellFormed S)
    (hsection : sectionOf plan.sessionId S = .absent) :
    Untouched S T (n.advance plan) ∧ (n.advance plan).remaining ≤ n.remaining - 1 := by
  have hopened := h.source.opened hwell
  rcases h.phase with hphase | hphase | hphase | hphase
  · cases hmoved : n.moved with
    | true =>
        have hadvance : n.advance plan = n := by
          rw [Notebooks.advance, hphase, hmoved]
          rfl
        rw [hadvance]
        refine ⟨h, ?_⟩
        simp [Notebooks.remaining, hphase, hmoved]
    | false =>
        have hadvance : n.advance plan = { n with phase := .copy } := by
          rw [Notebooks.advance, hphase, hmoved]
          rfl
        rw [hadvance]
        refine ⟨⟨h.source, h.target, .inr (.inl rfl), fun hclear => by cases hclear⟩, ?_⟩
        simp [Notebooks.remaining, hphase, hmoved]
  · have hslice : sliceOf plan.sessionId S = .ok [] := by
      rw [sliceOf, hsection]
      rfl
    rw [Notebooks.advance, hphase, copy_of_absent h.source hwell hslice]
    refine ⟨⟨hopened, h.target, .inr (.inr (.inl rfl)), fun hclear => by cases hclear⟩, ?_⟩
    simp [Notebooks.remaining, Notebooks.follow, hphase]
  · have hadvance : n.advance plan = { n with moved := true, phase := .clear } := by
      rw [Notebooks.advance, hphase]
    rw [hadvance]
    refine ⟨⟨h.source, h.target, .inr (.inr (.inr rfl)), fun _ => rfl⟩, ?_⟩
    simp [Notebooks.remaining, hphase]
  · rw [Notebooks.advance, hphase, clear_of_absent h.source hwell hsection]
    refine ⟨⟨hopened, h.target, .inl rfl, fun hclear => by cases hclear⟩, ?_⟩
    simp [Notebooks.remaining, Notebooks.follow, hphase, h.moved hphase]

theorem Untouched.crash (h : Untouched S T n) : Untouched S T n.restarted :=
  ⟨h.source.closed, h.target.closed, .inl rfl, fun hclear => by cases hclear⟩

/-- Every attempt fails before the flip, and the documents are what they were. -/
structure Refusing (S T : List UtteranceBlock) (n : Notebooks) : Prop where
  source : n.source.Has S
  target : n.target.Has T
  phase : n.phase = .idle ∨ n.phase = .copy
  moved : n.moved = false

theorem Refusing.crash (h : Refusing S T n) : Refusing S T n.restarted :=
  ⟨h.source.closed, h.target.closed, .inl rfl, h.moved⟩

/-- A slice that is interleaved, or that the facade does not take. -/
def Immovable (plan : SessionMovePlan) (S : List UtteranceBlock) : Prop :=
  match sectionOf plan.sessionId S with
  | .absent => False
  | .interleaved => True
  | .found _ slice _ => ¬ Spliceable slice

theorem Refusing.advance (h : Refusing S T n) (hwell : WellFormed (S ++ T))
    (hwithout : ∀ block ∈ T, block.owner ≠ captureOwner plan.sessionId)
    (himmovable : Immovable plan S) : Refusing S T (n.advance plan) := by
  have hwellS : WellFormed S := hwell.sublist (List.sublist_append_left S T)
  have hwellT : WellFormed T := hwell.sublist (List.sublist_append_right S T)
  rcases h.phase with hphase | hphase
  · have hadvance : n.advance plan = { n with phase := .copy } := by
      rw [Notebooks.advance, hphase, h.moved]
      rfl
    rw [hadvance]
    exact ⟨h.source, h.target, .inr rfl, h.moved⟩
  · have hcopy : ∃ copied e, n.copyTranscriptSlice plan = (copied, .error e) ∧
        copied.source.Has S ∧ copied.target.Has T ∧ copied.moved = n.moved := by
      unfold Immovable at himmovable
      cases hsection : sectionOf plan.sessionId S with
      | absent => rw [hsection] at himmovable; exact himmovable.elim
      | interleaved =>
          have hslice : sliceOf plan.sessionId S =
              .error (.sessionSliceInterleaved plan.sessionId) := by
            rw [sliceOf, hsection]
            rfl
          exact ⟨_, _, copy_of_interleaved h.source hwellS hslice, h.source.opened hwellS,
            h.target, rfl⟩
      | found before slice after =>
          rw [hsection] at himmovable
          obtain ⟨e, hsplice⟩ := @splice_refused n.target.facade slice himmovable
            (firstLaterCaptureBlock n.target.facade.blocks plan.laterSessionIds)
          have hfound := copy_of_found h.source hwellS hsection
          dsimp only at hfound
          rw [hsplice] at hfound
          exact ⟨_, e, hfound, h.source.opened hwellS, h.target.opened hwellT, rfl⟩
    obtain ⟨copied, e, hcopied, hsource, htarget, hmoved⟩ := hcopy
    obtain ⟨hrolled, hkept, hpointers⟩ := rollBack_without htarget hwithout
    rw [Notebooks.advance, hphase]
    dsimp only
    rw [hcopied]
    exact ⟨hkept ▸ hsource, hrolled, .inl rfl, hpointers.trans (hmoved.trans h.moved)⟩

end Moves

/-! ### Every run -/

section Runs

variable {plan : SessionMovePlan} {start n : Notebooks} {S T : List UtteranceBlock}

/-- A run of steps none of which is a stop. -/
theorem run_advances (k : ℕ) (n : Notebooks) :
    run (moveStep plan) n (List.replicate k .advance) = some ((Notebooks.advance plan)^[k] n) := by
  induction k generalizing n with
  | zero => rfl
  | succ k ih => rw [List.replicate_succ, run_cons, Function.iterate_succ_apply, ← ih]; rfl

theorem along_advances (k : ℕ) (n : Notebooks) :
    Along (moveStep plan) (Timely plan) n (List.replicate k .advance) :=
  Along.of_forall fun event hevent t hcrash => by
    rw [List.eq_of_mem_replicate hevent] at hcrash
    cases hcrash

theorem MoveStart.source_wellFormed (h : MoveStart plan S T start) : WellFormed S :=
  h.wellFormed.sublist (List.sublist_append_left S T)

theorem MoveStart.target_wellFormed (h : MoveStart plan S T start) : WellFormed T :=
  h.wellFormed.sublist (List.sublist_append_right S T)

theorem MoveStart.slice (h : MoveStart plan S T start) (sessionId : String) :
    start.source.facade.sessionSlice sessionId = sliceOf sessionId S :=
  (h.source.facade h.source_wellFormed).sessionSlice_eq sessionId

theorem MoveStart.untouched (h : MoveStart plan S T start) : Untouched S T start :=
  ⟨h.source, h.target, .inl h.idle, fun hclear => by rw [h.idle] at hclear; cases hclear⟩

theorem MoveStart.refusing (h : MoveStart plan S T start) : Refusing S T start :=
  ⟨h.source, h.target, .inl h.idle, h.notMoved⟩

/-- A session without a slice: a move changes nothing but the pointers. -/
theorem MoveStart.lossless_absent (h : MoveStart plan S T start)
    (hsection : sectionOf plan.sessionId S = .absent) (huntouched : Untouched S T n) :
    Lossless plan start [] n := by
  have hnone : sliceOf plan.sessionId T = .ok [] := by
    have habsent : sectionOf plan.sessionId T = .absent :=
      cut_absent fun block hblock => decide_eq_false (h.without block hblock)
    rw [sliceOf, habsent]
    rfl
  have hsourceThen := h.source.facade h.source_wellFormed
  have hsourceNow := huntouched.source.facade h.source_wellFormed
  have htargetThen := h.target.facade h.target_wellFormed
  have htargetNow := huntouched.target.facade h.target_wellFormed
  have hstoredThen := storedBlocks_eq h.target.stored h.target_wellFormed
  have hstoredNow := storedBlocks_eq huntouched.target.stored h.target_wellFormed
  have hends := (finished_iterate (fun n hn => hn.advance h.source_wellFormed hsection)
    huntouched).2
  refine ⟨.inl (by rw [hstoredNow, hnone]), hends, fun _ => ⟨?_, ?_, ?_, fun other _ => ?_⟩⟩
  · rw [hstoredNow, hstoredThen, insertSlice, List.append_nil, List.takeWhile_append_dropWhile]
  · rw [storedBlocks_eq huntouched.source.stored h.source_wellFormed,
      storedBlocks_eq h.source.stored h.source_wellFormed, outsideSlice, hsection]
  · rw [htargetNow.sessionSlice_eq, hnone]
  · rw [htargetNow.sessionSlice_eq, htargetThen.sessionSlice_eq, hsourceNow.sessionSlice_eq,
      hsourceThen.sessionSlice_eq]
    exact ⟨rfl, rfl⟩

/-- A session that is interleaved: it can neither be read nor removed. -/
theorem MoveStart.refused (h : MoveStart plan S T start)
    (hsection : sectionOf plan.sessionId S = .interleaved) (hrefusing : Refusing S T n) :
    Refused plan start (.sessionSliceInterleaved plan.sessionId) n := by
  have hfacade := hrefusing.source.facade h.source_wellFormed
  refine ⟨?_, ?_, ?_, ?_⟩
  · rw [hfacade.sessionSlice_eq, sliceOf, hsection]
    rfl
  · rw [hfacade.removeSessionSlice_eq, hsection]
  · rw [storedBlocks_eq hrefusing.source.stored h.source_wellFormed,
      storedBlocks_eq h.source.stored h.source_wellFormed]
  · rw [storedBlocks_eq hrefusing.target.stored h.target_wellFormed,
      storedBlocks_eq h.target.stored h.target_wellFormed]

/-- Every run in time of a session that can be moved does what a move promises. -/
theorem MoveStart.movesWell (h : MoveStart plan S T start) (hmovable : Movable plan S)
    {events : List MoveEvent} (htimely : Along (moveStep plan) (Timely plan) start events)
    (hrun : run (moveStep plan) start events = some n) : MovesWell plan start n := by
  unfold MovesWell
  rw [h.slice, sliceOf]
  unfold Movable at hmovable
  cases hsection : sectionOf plan.sessionId S with
  | absent =>
      refine h.lossless_absent hsection (run_invariant (fun s event t hs hstep => ?_)
        h.untouched hrun)
      cases event with
      | advance => exact Option.some.inj hstep ▸ (hs.advance h.source_wellFormed hsection).1
      | crash => exact Option.some.inj hstep ▸ hs.crash
  | interleaved =>
      have himmovable : Immovable plan S := by
        rw [Immovable, hsection]
        trivial
      refine h.refused hsection (run_invariant (fun s event t hs hstep => ?_) h.refusing hrun)
      cases event with
      | advance => exact Option.some.inj hstep ▸ hs.advance h.wellFormed h.without himmovable
      | crash => exact Option.some.inj hstep ▸ hs.crash
  | found before slice after =>
      rw [hsection] at hmovable
      obtain ⟨hafter, hspliceable, hothers⟩ := hmovable
      have hslice : MoveSlice plan S T before slice after :=
        ⟨hsection, hspliceable, h.wellFormed, h.without⟩
      refine hslice.lossless h.source h.target hafter hothers ?_
      refine htimely.invariant (fun s event t hs hP hstep => ?_)
        (.waiting (.inl h.idle) h.notMoved h.source (.inl h.target)) hrun
      cases event with
      | advance => exact Option.some.inj hstep ▸ (hslice.advance hs).1
      | crash => exact Option.some.inj hstep ▸ hslice.crash hs hP

/-- A session whose runs in time all do what a move promises can be moved. -/
theorem MoveStart.movable (h : MoveStart plan S T start)
    (hruns : ∀ events n, Along (moveStep plan) (Timely plan) start events →
      run (moveStep plan) start events = some n → MovesWell plan start n) : Movable plan S := by
  have hfirst := hruns [] start trivial rfl
  have hlast := hruns _ _ (along_advances 6 start) (run_advances 6 start)
  unfold MovesWell at hfirst hlast
  rw [h.slice, sliceOf] at hfirst hlast
  unfold Movable
  cases hsection : sectionOf plan.sessionId S with
  | absent => trivial
  | interleaved => trivial
  | found before slice after =>
      rw [hsection] at hfirst hlast
      have hends : ((Notebooks.advance plan)^[6] start).Finished := Lossless.ends hfirst
      have hspliceable : Spliceable slice := by
        by_contra hnot
        have himmovable : Immovable plan S := by
          rw [Immovable, hsection]
          exact hnot
        have hrefusing := run_invariant (I := Refusing S T) (fun s event t hs hstep => by
          cases event with
          | advance => exact Option.some.inj hstep ▸ hs.advance h.wellFormed h.without himmovable
          | crash => exact Option.some.inj hstep ▸ hs.crash) h.refusing (run_advances 6 start)
        exact Bool.noConfusion (hrefusing.moved.symm.trans hends.2)
      have hslice : MoveSlice plan S T before slice after :=
        ⟨hsection, hspliceable, h.wellFormed, h.without⟩
      obtain ⟨hstage, -⟩ := finished_iterate (fun n hn => hslice.advance hn)
        (.waiting (.inl h.idle) h.notMoved h.source (.inl h.target))
      obtain ⟨hstored, hhandle, -⟩ := hstage.finished hends
      have hconverged : Converged plan start slice _ := Lossless.converged hlast hends
      have hkept : WellFormed (before ++ after) :=
        h.source_wellFormed.sublist (sublist_outside hsection)
      have hleft : leftoverBlocks S (before ++ after) = [] := by
        have hsource := hconverged.source
        rw [storedBlocks_eq hstored (h.source_wellFormed.leftover hkept),
          storedBlocks_eq h.source.stored h.source_wellFormed, outsideSlice, hsection] at hsource
        exact List.append_right_eq_self.1 hsource
      refine ⟨(leftover_removed_iff h.source_wellFormed hsection).1 hleft, hspliceable,
        fun other hstraddles => ?_⟩
      by_cases hne : other = plan.sessionId
      · subst hne
        obtain ⟨block, hblock, howner⟩ := hstraddles.1
        have hnot := (isSection_of_cut hsection).2.none_before block hblock
        exact of_decide_eq_false hnot howner
      · have hother := (hconverged.others other hne).2
        rw [hleft] at hstored hhandle
        rw [List.append_nil] at hstored
        have hgone : BlockDocument.Has _ (before ++ after) := ⟨hstored, hhandle⟩
        rw [(hgone.facade hkept).sessionSlice_eq, h.slice] at hother
        exact (sliceOf_outside_other_iff hsection hne).1 hother hstraddles

/-- The session is in the target notebook, and the source is what it was. -/
structure LeftBehind (S : List UtteranceBlock) (n : Notebooks) : Prop where
  phase : n.phase = .idle
  moved : n.moved = true
  stored : TranscriptDocument n.source.stored S

theorem LeftBehind.step (h : LeftBehind S n) {event : MoveEvent} {after : Notebooks}
    (hstep : moveStep plan n event = some after) : LeftBehind S after := by
  cases event with
  | advance =>
      have hadvance : n.advance plan = n := by
        rw [Notebooks.advance, h.phase, h.moved]
        rfl
      exact Option.some.inj hstep ▸ hadvance.symm ▸ h
  | crash => exact Option.some.inj hstep ▸ ⟨rfl, h.moved, h.stored⟩

/-- Between the flip and the end of an attempt, the source on disk is what it was. -/
theorem MoveStage.stored {before slice after : List UtteranceBlock}
    (hstage : MoveStage plan S T before slice after n) (hphase : n.phase ≠ .idle) :
    TranscriptDocument n.source.stored S := by
  cases hstage with
  | waiting phase moved source target => exact source.stored
  | copied phase moved source target => exact source.stored
  | ready phase moved source target => exact source.stored
  | flipped phase moved source target => exact source.stored
  | removed phase moved source target => exact source.stored
  | done phase moved stored handle target => exact absurd phase hphase

/-- The same after any run. -/
theorem MoveStart.stored_of_run (h : MoveStart plan S T start) {events : List MoveEvent}
    (hrun : run (moveStep plan) start events = some n) (hphase : n.phase ≠ .idle) :
    TranscriptDocument n.source.stored S := by
  by_cases himmovable : Immovable plan S
  · have hrefusing := run_invariant (I := Refusing S T) (fun s event t hs hstep => by
      cases event with
      | advance => exact Option.some.inj hstep ▸ hs.advance h.wellFormed h.without himmovable
      | crash => exact Option.some.inj hstep ▸ hs.crash) h.refusing hrun
    exact hrefusing.source.stored
  unfold Immovable at himmovable
  cases hsection : sectionOf plan.sessionId S with
  | absent =>
      have huntouched := run_invariant (I := Untouched S T) (fun s event t hs hstep => by
        cases event with
        | advance => exact Option.some.inj hstep ▸ (hs.advance h.source_wellFormed hsection).1
        | crash => exact Option.some.inj hstep ▸ hs.crash) h.untouched hrun
      exact huntouched.source.stored
  | interleaved =>
      rw [hsection] at himmovable
      exact absurd trivial himmovable
  | found before slice after =>
      rw [hsection] at himmovable
      have hslice : MoveSlice plan S T before slice after :=
        ⟨hsection, not_not.1 himmovable, h.wellFormed, h.without⟩
      have hstages : MoveStage plan S T before slice after n ∨ LeftBehind S n := by
        refine run_invariant
          (I := fun n => MoveStage plan S T before slice after n ∨ LeftBehind S n)
          (fun s event t hs hstep => ?_)
          (.inl (.waiting (.inl h.idle) h.notMoved h.source (.inl h.target))) hrun
        rcases hs with hstage | hleft
        · cases event with
          | advance => exact .inl (Option.some.inj hstep ▸ (hslice.advance hstage).1)
          | crash =>
              obtain rfl := Option.some.inj hstep
              by_cases hlate : s.moved = true ∧ s.phase ≠ .idle
              · exact .inr ⟨rfl, hlate.1, hstage.stored hlate.2⟩
              · exact .inl (hslice.crash hstage fun _ hmoved hphase =>
                  absurd ⟨hmoved, hphase⟩ hlate)
        · exact .inr (hleft.step hstep)
      rcases hstages with hstage | hleft
      · exact hstage.stored hphase
      · exact absurd hleft.phase hphase

/-- **A session that is moved.**  Whatever the two documents and the session: every run of attempts
and stops in which no stop comes between the flip and the clear does what a move promises exactly
where the session can be moved.  After a stop between the flip and the clear the source stays what
it was, whatever comes then. -/
theorem session_move_iff (h : MoveStart plan S T start) :
    ((∀ events n, Along (moveStep plan) (Timely plan) start events →
        run (moveStep plan) start events = some n → MovesWell plan start n) ↔ Movable plan S) ∧
      ∀ events n, run (moveStep plan) start events = some n → n.moved = true → n.phase ≠ .idle →
        ∀ more last, run (moveStep plan) n (.crash :: more) = some last →
          last.source.storedBlocks = start.source.storedBlocks := by
  refine ⟨⟨h.movable, fun hmovable events n htimely hrun => h.movesWell hmovable htimely hrun⟩,
    fun events n hrun hmoved hphase more last hmore => ?_⟩
  have hstored := h.stored_of_run hrun hphase
  have hleft : LeftBehind S n.restarted := ⟨rfl, hmoved, hstored⟩
  have hlast := run_invariant (fun s event t hs hstep => LeftBehind.step hs hstep) hleft hmore
  rw [storedBlocks_eq hlast.stored h.source_wellFormed,
    storedBlocks_eq h.source.stored h.source_wellFormed]

instance Timely.decidable (plan : SessionMovePlan) (n : Notebooks) (event : MoveEvent) :
    Decidable (Timely plan n event) := by
  unfold Timely
  infer_instance

/-- A notebook with what was said in two sessions, and one that is empty. -/
def twoNotebooks : Notebooks where
  source := ⟨twoSessions.roots, none⟩
  target := ⟨[], none⟩
  moved := false
  phase := .idle

theorem moveStart_twoNotebooks (plan : SessionMovePlan) :
    MoveStart plan [spoken.block, answered.block] [] twoNotebooks where
  idle := rfl
  notMoved := rfl
  source := by
    have hholds := tidied_twoSessions.holds
    have hblocks : twoSessions.blocks = [spoken.block, answered.block] := by decide +kernel
    have hdocument := hholds.document
    rw [List.append_nil, hblocks] at hdocument
    exact ⟨hdocument, nofun⟩
  target := ⟨empty_document, nofun⟩
  wellFormed := by
    have hwell := tidied_twoSessions.holds.wellFormed
    have hblocks : twoSessions.blocks = [spoken.block, answered.block] := by decide +kernel
    rw [hblocks] at hwell
    rwa [List.append_nil]
  without := nofun

/-- What was said in the first session is moved, though the process stops before the flip. -/
theorem session_move_spoken :
    let n := (Notebooks.advance ⟨"s1", []⟩)^[6]
      ((Notebooks.advance ⟨"s1", []⟩)^[3] twoNotebooks).restarted
    n.target.storedBlocks = [spoken.block] ∧ n.source.storedBlocks = [answered.block] := by
  intro n
  have hrun : run (moveStep ⟨"s1", []⟩) twoNotebooks
      (List.replicate 3 .advance ++ .crash :: List.replicate 6 .advance) = some n := rfl
  have htimely : Along (moveStep ⟨"s1", []⟩) (Timely ⟨"s1", []⟩) twoNotebooks
      (List.replicate 3 .advance ++ .crash :: List.replicate 6 .advance) := by decide +kernel
  have hsection : sectionOf "s1" [spoken.block, answered.block] =
      .found [] [spoken.block] [answered.block] := rfl
  have hmovable : Movable ⟨"s1", []⟩ [spoken.block, answered.block] := by
    rw [Movable, hsection]
    refine ⟨List.cons_ne_nil _ _, ?_, fun other hstraddles => ?_⟩
    · intro block hblock
      obtain rfl := List.mem_singleton.1 hblock
      exact ⟨by decide, by decide⟩
    · obtain ⟨block, hblock, -⟩ := hstraddles.1
      exact absurd hblock List.not_mem_nil
  have hwell :=
    (session_move_iff (moveStart_twoNotebooks ⟨"s1", []⟩)).1.2 hmovable _ _ htimely hrun
  have hslice : twoNotebooks.source.facade.sessionSlice "s1" = .ok [spoken.block] := by
    decide +kernel
  unfold MovesWell at hwell
  rw [hslice] at hwell
  have hfinished : n.Finished := ⟨by decide +kernel, by decide +kernel⟩
  have hconverged := Lossless.converged hwell hfinished
  exact ⟨hconverged.target.trans (by decide +kernel), hconverged.source.trans (by decide +kernel)⟩

/-- **The last slice stays in the source**, and so does one that a stop after the flip leaves there,
whatever attempts follow. -/
theorem last_slice_stays :
    (let n := (Notebooks.advance ⟨"s2", []⟩)^[6] twoNotebooks
     n.Finished ∧ n.target.storedBlocks = [answered.block] ∧
       n.source.storedBlocks = [spoken.block, answered.block]) ∧
    (let n := ((Notebooks.advance ⟨"s1", []⟩)^[4] twoNotebooks).restarted
     ∀ attempts, ((Notebooks.advance ⟨"s1", []⟩)^[attempts] n).target.storedBlocks =
        [spoken.block] ∧
       ((Notebooks.advance ⟨"s1", []⟩)^[attempts] n).source.storedBlocks =
        [spoken.block, answered.block]) := by
  refine ⟨⟨⟨by decide +kernel, by decide +kernel⟩, by decide +kernel, by decide +kernel⟩, ?_⟩
  intro n attempts
  have hstays : (Notebooks.advance ⟨"s1", []⟩)^[attempts] n = n := by
    refine Function.iterate_fixed ?_ attempts
    have hphase : n.phase = .idle := rfl
    have hmoved : n.moved = true := by decide +kernel
    rw [Notebooks.advance, hphase, hmoved]
    rfl
  rw [hstays]
  exact ⟨by decide +kernel, by decide +kernel⟩

end Runs

end Transcripts
end ZuTalk
