/-
# Blocks that are deleted

`purge_session_blocks` and `remove_session_slice` of
`crates/vt-store/src/transcript_projection.rs`, and what a later `open` of the document reads.

The facade takes the new blocks whatever the changes to the document were, and the changes leave
blocks at the tail that are not wanted any more.  So along a run that takes none away from the end
the facade shows what the document has (`Tidied.holds`), and a deletion after it reaches the document
exactly where it takes none away from the end (`deletion_reaches_document_iff`).
-/

import ZuTalk.Transcripts.Runs
import ZuTalk.Transcripts.Slices

namespace ZuTalk
namespace Transcripts

open Checks Mirror Sections

/-- The blocks a later `open` of the document reads. -/
def documentBlocks (p : TranscriptProjection) : List UtteranceBlock := (openTranscript p.roots).blocks

/-- The last block is one the session captured. -/
def endsWithCapture (sessionId : String) (blocks : List UtteranceBlock) : Bool :=
  blocks.getLast?.any (·.owner = captureOwner sessionId)

/-- The slice of the session stands last. -/
def endsWithSlice (sessionId : String) (blocks : List UtteranceBlock) : Bool :=
  match sectionOf sessionId blocks with
  | .found _ _ [] => true
  | _ => false

/-- An edit of the facade. -/
inductive Edit
  | call (verb : Verb)
  | spliceSessionSlice (slice : List UtteranceBlock) (beforeBlockId : Option String)
  | removeSessionSlice (sessionId : String)

namespace Edit

/-- The facade after an edit. -/
def apply (p : TranscriptProjection) : Edit → TranscriptProjection
  | .call verb => (verb.call p).1
  | .spliceSessionSlice slice beforeBlockId => (p.spliceSessionSlice slice beforeBlockId).1
  | .removeSessionSlice sessionId => (p.removeSessionSlice sessionId).1

/-- An annotation is inserted under a fresh id. -/
def Fresh (blocks : List UtteranceBlock) : Edit → Prop
  | .call verb => verb.Fresh blocks
  | _ => True

/-- Nothing is taken away from the end. -/
def Tidy (blocks : List UtteranceBlock) : Edit → Prop
  | .call (.purgeSessionBlocks sessionId) => endsWithCapture sessionId blocks = false
  | .removeSessionSlice sessionId => endsWithSlice sessionId blocks = false
  | _ => True

end Edit

/-- The facades that come of a document with distinct blocks, by edits that insert annotations
under fresh ids and take nothing away from the end. -/
inductive Tidied : TranscriptProjection → Prop
  | opened {roots : List (String × Node TranscriptSchema)} {blocks : List UtteranceBlock}
      (document : TranscriptDocument roots blocks) (blocksWellFormed : WellFormed blocks) :
      Tidied (openTranscript roots)
  | edited {p : TranscriptProjection} (tidied : Tidied p) {edit : Edit}
      (fresh : edit.Fresh p.blocks) (tidy : edit.Tidy p.blocks) : Tidied (edit.apply p)

/-! ### What an edit leaves behind -/

section Left

variable {p : TranscriptProjection} {blocks newBlocks : List UtteranceBlock} {sessionId : String}

/-- A block that is changed keeps its id. -/
theorem ids_mutate {blockId : String} {f : UtteranceBlock → UtteranceBlock}
    (h : Verb.mutate blocks blockId f = .ok newBlocks) (hid : ∀ block, (f block).id = block.id) :
    newBlocks.map (·.id) = blocks.map (·.id) := by
  obtain ⟨before, block, after, rfl, rfl⟩ := mutate_eq_ok h
  rw [List.map_append, List.map_append, List.map_cons, List.map_cons, hid]

/-- Machine writes keep the ids that are there. -/
theorem ids_upserts {upserts : List MachineBlockUpsert}
    (h : upserts.foldlM upsertBlock blocks = .ok newBlocks) :
    ∀ block ∈ blocks, block.id ∈ newBlocks.map (·.id) := by
  intro block hblock
  obtain ⟨others, hothers, hsublist⟩ := List.sublistForall₂_iff.1 (kept_upserts h)
  obtain ⟨i, hi, rfl⟩ := List.mem_iff_getElem.1 hblock
  have hother : i < others.length := hothers.length_eq ▸ hi
  have hkept := (List.forall₂_iff_get.1 hothers).2 i hi hother
  rw [← (show others[i].id = blocks[i].id from hkept.id)]
  exact List.mem_map_of_mem (hsublist.mem (List.getElem_mem hother))

/-- A call that purges nothing from the end leaves nothing behind. -/
theorem leftover_onBlocks {verb : Verb} (htidy : (Edit.call verb).Tidy blocks)
    (h : verb.onBlocks blocks = .ok newBlocks) : leftoverBlocks blocks newBlocks = [] := by
  cases verb with
  | machineUpsertBlocks upserts =>
      obtain ⟨⟨⟩, -, hupserts⟩ := bind_eq_ok.1 h
      exact leftoverBlocks_of_subset (ids_upserts hupserts)
  | machineUpsertBlock write frozenLanes insertBefore =>
      obtain ⟨⟨⟩, -, hupsert⟩ := bind_eq_ok.1 h
      refine leftoverBlocks_of_subset (@ids_upserts _ _ [⟨write, frozenLanes, insertBefore⟩] ?_)
      rw [List.foldlM_cons, hupsert]
      rfl
  | userReplaceLane blockId lane text =>
      obtain ⟨⟨⟩, -, hmutate⟩ := bind_eq_ok.1 h
      refine leftoverBlocks_of_subset fun block hblock => ?_
      rw [ids_mutate hmutate fun _ => rfl]
      exact List.mem_map_of_mem hblock
  | userReplaceText blockId text =>
      refine leftoverBlocks_of_subset fun block hblock => ?_
      rw [ids_mutate h fun _ => rfl]
      exact List.mem_map_of_mem hblock
  | insertAnnotation index id text =>
      rw [Verb.onBlocks] at h
      split at h
      · cases h
      · obtain rfl := Except.ok.inj h
        refine leftoverBlocks_of_subset fun block hblock => List.mem_map_of_mem ?_
        exact (List.mem_insertIdx (min_le_right _ _)).2 (.inr hblock)
  | purgeSessionBlocks sessionId =>
      obtain rfl := Except.ok.inj h
      refine leftoverBlocks_eq_nil fun block hblock => List.mem_map_of_mem ?_
      refine List.mem_filter.2 ⟨List.mem_of_getLast? hblock, ?_⟩
      have hnot : (blocks.getLast?.any (·.owner = captureOwner sessionId)) = false := htidy
      rw [Option.mem_def.1 hblock, Option.any_some] at hnot
      simpa using hnot

/-- A slice is left behind exactly where it stands last. -/
theorem leftover_removed_iff (hwell : WellFormed blocks)
    {before middle after : List UtteranceBlock}
    (h : sectionOf sessionId blocks = .found before middle after) :
    leftoverBlocks blocks (before ++ after) = [] ↔ after ≠ [] := by
  obtain ⟨hblocks, hsection⟩ := isSection_of_cut h
  obtain ⟨first, rest, hmiddle, -⟩ := hsection.head
  constructor
  · rintro hleft rfl
    have hne : middle ≠ [] := hmiddle ▸ List.cons_ne_nil first rest
    have hlast : middle.getLast hne ∈ blocks.getLast? := by
      rw [hblocks, List.append_nil, List.getLast?_append_of_ne_nil _ hne]
      exact List.getLast?_eq_some_getLast hne
    refine leftoverBlocks_ne_nil (sublist_outside h) hlast ?_ hleft
    rw [List.append_nil]
    have hdistinct := hwell.distinct
    rw [hblocks, List.append_nil, List.map_append] at hdistinct
    exact fun hmem => List.disjoint_of_nodup_append hdistinct hmem
      (List.mem_map_of_mem (List.getLast_mem hne))
  · intro hafter
    refine leftoverBlocks_eq_nil fun block hblock => List.mem_map_of_mem ?_
    rw [hblocks, List.getLast?_append_of_ne_nil _ hafter] at hblock
    exact List.mem_append_right _ (List.mem_of_getLast? hblock)

end Left

/-! ### The document -/

section Document

variable {p : TranscriptProjection} {blocks extra : List UtteranceBlock} {sessionId : String}

/-- A later `open` reads the blocks of the facade, and those the document has besides. -/
theorem Holds.documentBlocks_eq (h : Holds p blocks extra)
    (hdistinct : ((blocks ++ extra).map (·.id)).Nodup) : documentBlocks p = blocks ++ extra :=
  (holds_open h.document hdistinct h.valid).blocks_eq

/-- **Along a tidy run the facade shows what the document has.** -/
theorem Tidied.holds (h : Tidied p) : Holds p p.blocks [] := by
  induction h with
  | opened document blocksWellFormed =>
      have hopen := holds_open document blocksWellFormed.distinct blocksWellFormed.valid
      exact hopen.blocks_eq.symm ▸ hopen
  | @edited p tidied edit fresh tidy ih =>
      cases edit with
      | call verb =>
          rcases ih.call fresh with ⟨e, -, hcall⟩ | ⟨newBlocks, p', honBlocks, hcall, hholds⟩
          · rw [Edit.apply, hcall]
            exact ih
          · rw [leftover_onBlocks tidy honBlocks, List.append_nil] at hholds
            rw [Edit.apply, hcall]
            exact hholds.blocks_eq.symm ▸ hholds
      | spliceSessionSlice slice beforeBlockId =>
          rcases ih.spliced slice beforeBlockId with
            ⟨e, hcall⟩ | ⟨p', newBlocks, inserted, hcall, -, hholds⟩
          · rw [Edit.apply, hcall]
            exact ih
          · rw [Edit.apply, hcall]
            exact hholds.blocks_eq.symm ▸ hholds
      | removeSessionSlice sessionId =>
          rw [Edit.apply]
          cases hsection : sectionOf sessionId p.blocks with
          | absent =>
              rw [ih.removeSessionSlice_eq, hsection]
              exact ih
          | interleaved =>
              rw [ih.removeSessionSlice_eq, hsection]
              exact ih
          | found before middle after =>
              obtain ⟨p', hcall, hholds⟩ := ih.removed sessionId hsection
              have hafter : after ≠ [] := by
                rintro rfl
                have hends : endsWithSlice sessionId p.blocks = false := tidy
                rw [endsWithSlice, hsection] at hends
                cases hends
              rw [(leftover_removed_iff ih.wellFormed hsection).2 hafter, List.append_nil] at hholds
              rw [hcall]
              exact hholds.blocks_eq.symm ▸ hholds

/-- What the document has after a purge. -/
theorem Holds.purged (h : Holds p blocks []) (sessionId : String) :
    ∃ p' removed, p.purgeSessionBlocks sessionId = (p', .ok removed) ∧
      documentBlocks p' = blocks.filter (·.owner ≠ captureOwner sessionId) ++
        leftoverBlocks blocks (blocks.filter (·.owner ≠ captureOwner sessionId)) := by
  have hpurge := purgeSessionBlocks_eq h sessionId
  dsimp only at hpurge
  split at hpurge
  · next hlength =>
      have hall : blocks.filter (·.owner ≠ captureOwner sessionId) = blocks :=
        List.filter_sublist.eq_of_length hlength
      refine ⟨p, 0, hpurge, ?_⟩
      rw [hall, leftoverBlocks_self]
      exact h.documentBlocks_eq (by rw [List.append_nil]; exact h.distinct)
  · obtain ⟨p', hcommit, hholds⟩ := h.commitItems
      (h.wellFormed.filter (·.owner ≠ captureOwner sessionId))
      (blocks.length - (blocks.filter (·.owner ≠ captureOwner sessionId)).length)
    rw [List.append_nil] at hholds
    refine ⟨p', _, hpurge.trans hcommit, hholds.documentBlocks_eq ?_⟩
    exact nodup_leftoverBlocks h.distinct hholds.distinct

/-- What is left of a purge is nothing exactly where the last block is not the session's. -/
theorem leftover_purged_iff (blocks : List UtteranceBlock) (hwell : WellFormed blocks) :
    leftoverBlocks blocks (blocks.filter (·.owner ≠ captureOwner sessionId)) = [] ↔
      endsWithCapture sessionId blocks = false := by
  unfold endsWithCapture
  cases hlast : blocks.getLast? with
  | none =>
      obtain rfl := List.getLast?_eq_none_iff.1 hlast
      exact iff_of_true (leftoverBlocks_self []) rfl
  | some last =>
      rw [Option.any_some, decide_eq_false_iff_not]
      constructor
      · intro hleft howner
        refine leftoverBlocks_ne_nil List.filter_sublist hlast (fun hmem => ?_) hleft
        obtain ⟨other, hother, hid⟩ := List.mem_map.1 hmem
        obtain ⟨hmemOther, hkept⟩ := List.mem_filter.1 hother
        have heq : other = last := List.inj_on_of_nodup_map hwell.distinct hmemOther
          (List.mem_of_getLast? hlast) hid
        rw [heq] at hkept
        exact of_decide_eq_true hkept howner
      · intro howner
        refine leftoverBlocks_eq_nil fun block hblock => List.mem_map_of_mem ?_
        obtain rfl := Option.some.inj (hlast.symm.trans hblock)
        exact List.mem_filter.2 ⟨List.mem_of_getLast? hlast, decide_eq_true howner⟩

/-- What the document has after a removal that went well. -/
theorem Holds.documentBlocks_removed (h : Holds p blocks []) {before middle after}
    (hsection : sectionOf sessionId blocks = .found before middle after) :
    ∃ p', p.removeSessionSlice sessionId = (p', .ok middle.length) ∧
      documentBlocks p' = before ++ after ++ leftoverBlocks blocks (before ++ after) := by
  obtain ⟨p', hcall, hholds⟩ := h.removed sessionId hsection
  rw [List.append_nil] at hholds
  exact ⟨p', hcall, hholds.documentBlocks_eq (nodup_leftoverBlocks h.distinct hholds.distinct)⟩

/-- **A deletion reaches the document exactly where it takes nothing away from the end.**  After any
run that took nothing away from the end: a purge of a session leaves the document with the blocks
that the session did not capture, and a removal of its slice with the blocks outside the slice. -/
theorem deletion_reaches_document_iff (h : Tidied p) (sessionId : String) :
    ((∀ p' removed, p.purgeSessionBlocks sessionId = (p', .ok removed) →
        documentBlocks p' =
          (documentBlocks p).filter (·.owner ≠ captureOwner sessionId)) ↔
      endsWithCapture sessionId p.blocks = false) ∧
    ((∀ p' removed, p.removeSessionSlice sessionId = (p', .ok removed) →
        documentBlocks p' = outsideSlice sessionId (documentBlocks p)) ↔
      endsWithSlice sessionId p.blocks = false) := by
  have hholds := h.holds
  have hdocument : documentBlocks p = p.blocks := by
    rw [hholds.documentBlocks_eq (by rw [List.append_nil]; exact hholds.distinct), List.append_nil]
  rw [hdocument]
  constructor
  · obtain ⟨p', removed, hcall, hleft⟩ := hholds.purged sessionId
    rw [← leftover_purged_iff p.blocks hholds.wellFormed]
    constructor
    · intro hreaches
      exact List.self_eq_append_right.1 ((hreaches p' removed hcall).symm.trans hleft)
    · intro hnil p'' removed' hcall'
      obtain ⟨rfl, -⟩ := Prod.mk.inj (hcall.symm.trans hcall')
      rw [hleft, hnil, List.append_nil]
  · cases hsection : sectionOf sessionId p.blocks with
    | absent =>
        refine iff_of_true (fun p' removed hcall => ?_) (by rw [endsWithSlice, hsection])
        rw [hholds.removeSessionSlice_eq, hsection] at hcall
        obtain ⟨rfl, -⟩ := Prod.mk.inj hcall
        rw [hdocument, outsideSlice, hsection]
    | interleaved =>
        refine iff_of_true (fun p' removed hcall => ?_) (by rw [endsWithSlice, hsection])
        rw [hholds.removeSessionSlice_eq, hsection] at hcall
        cases (Prod.mk.inj hcall).2
    | found before middle after =>
        obtain ⟨p', hcall, hleft⟩ := hholds.documentBlocks_removed hsection
        have houtside : outsideSlice sessionId p.blocks = before ++ after := by
          rw [outsideSlice, hsection]
        have hends : endsWithSlice sessionId p.blocks = false ↔ after ≠ [] := by
          rw [endsWithSlice, hsection]
          cases after <;> simp
        rw [hends, ← leftover_removed_iff hholds.wellFormed hsection, houtside]
        constructor
        · intro hreaches
          exact List.self_eq_append_right.1 ((hreaches p' _ hcall).symm.trans hleft)
        · intro hnil p'' removed' hcall'
          obtain ⟨rfl, -⟩ := Prod.mk.inj (hcall.symm.trans hcall')
          rw [hleft, hnil, List.append_nil]

/-- What was said in another session. -/
def answered : MachineBlockWrite :=
  ⟨"utterance:2", captureOwner "s2", "adios", .empty⟩

/-- A facade with what was said in two sessions. -/
def twoSessions : TranscriptProjection :=
  Edit.apply (Edit.apply (openTranscript []) (.call (.machineUpsertBlock spoken [] none)))
    (.call (.machineUpsertBlock answered [] none))

theorem tidied_twoSessions : Tidied twoSessions := by
  have hopened : Tidied (openTranscript []) := .opened empty_document ⟨List.nodup_nil, nofun⟩
  have hspoken := @Tidied.edited _ hopened (.call (.machineUpsertBlock spoken [] none)) trivial trivial
  exact @Tidied.edited _ hspoken (.call (.machineUpsertBlock answered [] none)) trivial trivial

/-- The blocks of the first session go from the document. -/
theorem deletion_reaches_document_answered :
    documentBlocks (twoSessions.purgeSessionBlocks "s1").1 = [answered.block] ∧
      documentBlocks (twoSessions.removeSessionSlice "s1").1 = [answered.block] := by
  obtain ⟨hpurge, hremove⟩ := deletion_reaches_document_iff tidied_twoSessions "s1"
  have hdocument : documentBlocks twoSessions = [spoken.block, answered.block] := by
    decide +kernel
  constructor
  · have hcall : (twoSessions.purgeSessionBlocks "s1").2 = .ok 1 := by decide +kernel
    have hreaches := hpurge.2 (by decide +kernel) (twoSessions.purgeSessionBlocks "s1").1 1
      (Prod.ext rfl hcall)
    rw [hreaches, hdocument]
    decide
  · have hcall : (twoSessions.removeSessionSlice "s1").2 = .ok 1 := by decide +kernel
    have hreaches := hremove.2 (by decide +kernel) (twoSessions.removeSessionSlice "s1").1 1
      (Prod.ext rfl hcall)
    rw [hreaches, hdocument]
    decide

/-- **What was said last stays in the document**: a purge of its session and a removal of its slice
return `Ok`, and the facade shows nothing of it any more. -/
theorem last_blocks_stay :
    ∃ p, Tidied p ∧ documentBlocks p = [spoken.block, answered.block] ∧
      (p.purgeSessionBlocks "s2").2 = .ok 1 ∧
      (p.purgeSessionBlocks "s2").1.blocks = [spoken.block] ∧
      documentBlocks (p.purgeSessionBlocks "s2").1 = [spoken.block, answered.block] ∧
      (p.removeSessionSlice "s2").2 = .ok 1 ∧
      documentBlocks (p.removeSessionSlice "s2").1 = [spoken.block, answered.block] :=
  ⟨twoSessions, tidied_twoSessions, by decide +kernel, by decide +kernel, by decide +kernel,
    by decide +kernel, by decide +kernel, by decide +kernel⟩

end Document

end Transcripts
end ZuTalk
