/-
# The slice of a session

`session_slice`, `splice_session_slice` and `remove_session_slice` of
`crates/vt-store/src/transcript_projection.rs` on a plain list of blocks.

The slice is the section of the session, annotations being loose (`sessionSliceRange_eq`).  A slice
that is put in skips the blocks that are there (`spliceBlocks`): all of it comes in, or nothing.
-/

import ZuTalk.Library.Sections
import ZuTalk.Transcripts.Facade

namespace ZuTalk
namespace Transcripts

open Checks Mirror Sections

/-! ### Sections -/

/-- The section of a session in a list of blocks. -/
def sectionOf (sessionId : String) (blocks : List UtteranceBlock) : Cut UtteranceBlock :=
  cut (·.owner = captureOwner sessionId) (·.owner = userOwner) blocks

/-- The places of the items that a session captured. -/
def capturePlaces (owner : String) (start : ℕ) (items : List Value) : List ℕ :=
  ((items.zipIdx start).filter fun entry => blockOwner entry.1 = owner).map (·.2)

theorem capturePlaces_append (owner : String) (start : ℕ) (items more : List Value) :
    capturePlaces owner start (items ++ more) =
      capturePlaces owner start items ++ capturePlaces owner (start + items.length) more := by
  unfold capturePlaces
  rw [List.zipIdx_append, List.filter_append, List.map_append]

theorem capturePlaces_none {owner : String} {items : List Value}
    (h : ∀ item ∈ items, decide (blockOwner item = owner) = false) (start : ℕ) :
    capturePlaces owner start items = [] := by
  unfold capturePlaces
  rw [List.map_eq_nil_iff, List.filter_eq_nil_iff]
  intro entry hentry
  rw [h entry.1 (List.fst_mem_of_mem_zipIdx hentry)]
  exact Bool.false_ne_true

theorem capturePlaces_cons {owner : String} {item : Value} (h : blockOwner item = owner)
    (start : ℕ) (items : List Value) :
    capturePlaces owner start (item :: items) =
      start :: capturePlaces owner (start + 1) items := by
  unfold capturePlaces
  rw [List.zipIdx_cons, List.filter_cons_of_pos (by simpa using h), List.map_cons]

/-- The places from the first item of the owner to its last. -/
theorem capturePlaces_core {owner : String} {before core post : List Value}
    (h : IsCore (fun item => decide (blockOwner item = owner)) before core post) :
    ∃ rest, capturePlaces owner 0 (before ++ (core ++ post)) = before.length :: rest ∧
      rest.getLast?.getD before.length + 1 = before.length + core.length := by
  obtain ⟨first, rest, hhead, hfirst⟩ := h.head
  obtain ⟨front, last, htail, hlast⟩ := h.last
  have hfirst' := of_decide_eq_true hfirst
  have hlast' := of_decide_eq_true hlast
  refine ⟨capturePlaces owner (before.length + 1) rest, ?_, ?_⟩
  · rw [capturePlaces_append, capturePlaces_append, capturePlaces_none h.none_before,
      capturePlaces_none h.none_post, Nat.zero_add, hhead, capturePlaces_cons hfirst',
      List.nil_append, List.append_nil]
  · cases front with
    | nil =>
        obtain ⟨rfl, rfl⟩ := List.cons.inj (hhead.symm.trans htail)
        rw [hhead]
        rfl
    | cons other front =>
        obtain ⟨rfl, hrest⟩ := List.cons.inj (hhead.symm.trans htail)
        have hrest' : rest = front ++ [last] := hrest
        rw [hhead, hrest', capturePlaces_append, capturePlaces_cons hlast', List.getLast?_append]
        simp [capturePlaces]
        omega

/-- **The range of a session is that of its section**; it is refused where that is interleaved. -/
theorem sessionSliceRange_eq (items : List Value) (sessionId : String) :
    sessionSliceRange items sessionId =
      match cut (fun item => blockOwner item = captureOwner sessionId)
        (fun item => blockOwner item = userOwner) items with
      | .absent => .ok none
      | .interleaved => .error (.sessionSliceInterleaved sessionId)
      | .found before middle _ => .ok (some (before.length, before.length + middle.length)) := by
  set owner := captureOwner sessionId with howner
  by_cases hown : ∃ item ∈ items, decide (blockOwner item = owner) = true
  · obtain ⟨before, core, post, rfl, hcore⟩ := exists_core hown
    obtain ⟨rest, hplaces, hlast⟩ := capturePlaces_core hcore
    have htake : ((before ++ (core ++ post)).take (before.length + core.length)).drop
        before.length = core := by
      rw [List.take_length_add_append, List.drop_left, List.take_left]
    have hdrop : (before ++ (core ++ post)).drop (before.length + core.length) = post := by
      rw [List.drop_length_add_append, List.drop_left]
    have hforeign : (core.any fun item => blockOwner item ≠ owner && blockOwner item ≠ userOwner) =
        core.any fun item => !decide (blockOwner item = owner) &&
          !decide (blockOwner item = userOwner) := by
      simp only [ne_eq, decide_not]
    rw [hcore.cut, sessionSliceRange]
    unfold capturePlaces at hplaces
    rw [← howner, hplaces]
    dsimp only
    rw [hlast, htake, hdrop, hforeign]
    split
    · rfl
    · dsimp only
      rw [List.length_append, Nat.add_assoc]
  · have hnone : ∀ item ∈ items, decide (blockOwner item = owner) = false := fun item hitem =>
      (Bool.not_eq_true _).mp fun h => hown ⟨item, hitem, h⟩
    rw [cut_absent hnone, sessionSliceRange]
    have hplaces := capturePlaces_none hnone 0
    unfold capturePlaces at hplaces
    rw [← howner, hplaces]

/-- The slice of a session in a list of blocks; it is refused where it is interleaved. -/
def sliceOf (sessionId : String) (blocks : List UtteranceBlock) :
    Except TranscriptProjectionError (List UtteranceBlock) :=
  (sectionOf sessionId blocks).items.elim (.error (.sessionSliceInterleaved sessionId)) .ok

/-- The blocks outside the slice of a session. -/
def outsideSlice (sessionId : String) (blocks : List UtteranceBlock) : List UtteranceBlock :=
  match sectionOf sessionId blocks with
  | .found before _ after => before ++ after
  | _ => blocks

theorem cut_toJson (sessionId : String) (blocks : List UtteranceBlock) :
    cut (fun item => decide (blockOwner item = captureOwner sessionId))
        (fun item => decide (blockOwner item = userOwner)) (blocks.map UtteranceBlock.toJson) =
      (sectionOf sessionId blocks).map UtteranceBlock.toJson :=
  cut_map UtteranceBlock.toJson blocks

/-! ### Blocks put in -/

/-- The blocks that are not there, put in at the cursor. -/
def spliceBlocks (blocks : List UtteranceBlock) (cursor : ℕ) :
    List UtteranceBlock → List UtteranceBlock
  | [] => blocks
  | block :: slice =>
      if blocks.any (·.id = block.id) then spliceBlocks blocks cursor slice
      else spliceBlocks (blocks.insertIdx cursor block) (cursor + 1) slice

theorem spliceItems_toJson (blocks : List UtteranceBlock) (cursor : ℕ)
    (slice : List UtteranceBlock) :
    spliceItems (blocks.map UtteranceBlock.toJson) cursor slice =
      (spliceBlocks blocks cursor slice).map UtteranceBlock.toJson := by
  induction slice generalizing blocks cursor with
  | nil => rfl
  | cons block slice ih =>
      have hany : ((blocks.map UtteranceBlock.toJson).any fun item =>
          itemId item = some block.id) = blocks.any (·.id = block.id) := by
        rw [List.any_map]
        refine congrArg (List.any blocks) (funext fun other => ?_)
        simp
      rw [spliceItems, spliceBlocks, hany, ← List.map_insertIdx, ih, ih]
      split <;> rfl

/-- New blocks are put in one after the other. -/
theorem spliceBlocks_fresh {left slice right : List UtteranceBlock}
    (h : ((left ++ slice ++ right).map (·.id)).Nodup) :
    spliceBlocks (left ++ right) left.length slice = left ++ slice ++ right := by
  induction slice generalizing left with
  | nil => rw [spliceBlocks, List.append_nil]
  | cons block slice ih =>
      have hassoc : left ++ block :: slice ++ right = (left ++ [block]) ++ slice ++ right := by simp
      rw [hassoc] at h ⊢
      have hnot : ¬ ((left ++ right).any fun other => decide (other.id = block.id)) = true := by
        intro hany
        obtain ⟨other, hother, heq⟩ := List.any_eq_true.1 hany
        have heq' := of_decide_eq_true heq
        rw [List.append_assoc, List.append_assoc, List.map_append] at h
        rcases List.mem_append.1 hother with hother | hother
        · refine List.disjoint_of_nodup_append h (List.mem_map_of_mem hother) ?_
          rw [heq']
          exact List.mem_map_of_mem (List.mem_append_left _ List.mem_cons_self)
        · have hright := (List.nodup_append'.1 h).2.1
          rw [List.singleton_append, List.map_cons] at hright
          refine (List.nodup_cons.1 hright).1 ?_
          rw [← heq']
          exact List.mem_map_of_mem (List.mem_append_right _ hother)
      rw [spliceBlocks, if_neg hnot, Rows.insertIdx_at, ← ih h]
      simp

/-- Blocks that are there are skipped. -/
theorem spliceBlocks_present {blocks : List UtteranceBlock} {slice : List UtteranceBlock}
    (h : ∀ block ∈ slice, block.id ∈ blocks.map (·.id)) (cursor : ℕ) :
    spliceBlocks blocks cursor slice = blocks := by
  induction slice with
  | nil => rfl
  | cons block slice ih =>
      obtain ⟨hblock, hslice⟩ := List.forall_mem_cons.1 h
      obtain ⟨other, hother, heq⟩ := List.mem_map.1 hblock
      rw [spliceBlocks, if_pos (List.any_eq_true.2 ⟨other, hother, by simpa using heq⟩), ih hslice]

/-- What is put in keeps the blocks well formed and in their order. -/
theorem WellFormed.splice {blocks slice : List UtteranceBlock} {cursor : ℕ}
    (h : WellFormed blocks) (hcursor : cursor ≤ blocks.length)
    (hvalid : ∀ block ∈ slice, block.Valid) :
    WellFormed (spliceBlocks blocks cursor slice) ∧
      blocks.Sublist (spliceBlocks blocks cursor slice) := by
  induction slice generalizing blocks cursor with
  | nil => exact ⟨h, List.Sublist.refl _⟩
  | cons block slice ih =>
      obtain ⟨hblock, hslice⟩ := List.forall_mem_cons.1 hvalid
      rw [spliceBlocks]
      split
      · exact ih h hcursor hslice
      · next hnot =>
          have hinsert := insertIdx_eq block hcursor
          have hblocks := List.take_append_drop cursor blocks
          have hfresh : block.id ∉ blocks.map (·.id) := fun hmem => by
            obtain ⟨other, hother, heq⟩ := List.mem_map.1 hmem
            exact hnot (List.any_eq_true.2 ⟨other, hother, by simpa using heq⟩)
          have hwell : WellFormed (blocks.insertIdx cursor block) := by
            rw [hinsert]
            exact WellFormed.insert (hblocks.symm ▸ h) hblock (hblocks.symm ▸ hfresh)
          obtain ⟨hspliced, hsublist⟩ := @ih _ (cursor + 1) hwell
            (by rw [List.length_insertIdx_of_le_length hcursor]; omega) hslice
          refine ⟨hspliced, List.Sublist.trans ?_ hsublist⟩
          have hsublist' : (blocks.take cursor ++ blocks.drop cursor).Sublist
              (blocks.take cursor ++ block :: blocks.drop cursor) :=
            (List.Sublist.refl _).append (List.sublist_cons_self _ _)
          rwa [hblocks, ← hinsert] at hsublist'

/-! ### What is left of the old blocks -/

section Leftover

variable {blocks newBlocks : List UtteranceBlock}

/-- Nothing is left behind where the last block stays. -/
theorem leftoverBlocks_eq_nil (h : ∀ block ∈ blocks.getLast?, block.id ∈ newBlocks.map (·.id)) :
    leftoverBlocks blocks newBlocks = [] := by
  unfold leftoverBlocks
  split
  · refine List.rtakeWhile_eq_nil_iff.2 fun hne hgone => ?_
    exact of_decide_eq_true hgone (h _ (List.getLast?_eq_some_getLast hne))
  · rfl

theorem leftoverBlocks_of_subset (h : ∀ block ∈ blocks, block.id ∈ newBlocks.map (·.id)) :
    leftoverBlocks blocks newBlocks = [] :=
  leftoverBlocks_eq_nil fun block hblock => h block (List.mem_of_getLast? hblock)

/-- Where the last block is taken away, something is left behind. -/
theorem leftoverBlocks_ne_nil (hsublist : newBlocks.Sublist blocks) {block : UtteranceBlock}
    (hlast : block ∈ blocks.getLast?) (hgone : block.id ∉ newBlocks.map (·.id)) :
    leftoverBlocks blocks newBlocks ≠ [] := by
  have hids : ((newBlocks.map (·.id)).filter (· ∈ blocks.map (·.id))).Sublist
      (blocks.map (·.id)) := List.filter_sublist.trans (hsublist.map _)
  rw [leftoverBlocks, if_pos hids]
  intro hnil
  have hne : blocks ≠ [] := List.ne_nil_of_mem (List.mem_of_getLast? hlast)
  have heq : blocks.getLast hne = block :=
    Option.some.inj ((List.getLast?_eq_some_getLast hne).symm.trans hlast)
  refine List.rtakeWhile_eq_nil_iff.1 hnil hne ?_
  rw [heq]
  exact decide_eq_true hgone

/-- What is left behind are old blocks, and none of the new. -/
theorem nodup_leftoverBlocks (h : (blocks.map (·.id)).Nodup)
    (hnew : (newBlocks.map (·.id)).Nodup) :
    ((newBlocks ++ leftoverBlocks blocks newBlocks).map (·.id)).Nodup := by
  rw [List.map_append]
  unfold leftoverBlocks
  split
  · have hsuffix := List.rtakeWhile_suffix (fun block => block.id ∉ newBlocks.map (·.id)) blocks
    refine List.Nodup.append hnew ((hsuffix.sublist.map _).nodup h) fun id hmem hleft => ?_
    obtain ⟨block, hblock, rfl⟩ := List.mem_map.1 hleft
    have hgone := List.mem_rtakeWhile_imp hblock
    exact of_decide_eq_true hgone hmem
  · rwa [List.map_nil, List.append_nil]

end Leftover

/-! ### What the facade does -/

section Facade

variable {p : TranscriptProjection} {blocks extra : List UtteranceBlock} (sessionId : String)

theorem Holds.sessionSliceRange_eq (h : Holds p blocks extra) :
    sessionSliceRange (stateItems p.state) sessionId =
      match sectionOf sessionId blocks with
      | .absent => .ok none
      | .interleaved => .error (.sessionSliceInterleaved sessionId)
      | .found before middle _ => .ok (some (before.length, before.length + middle.length)) := by
  rw [h.stateItems_eq, Transcripts.sessionSliceRange_eq, cut_toJson]
  cases sectionOf sessionId blocks with
  | absent => rfl
  | interleaved => rfl
  | found before middle after =>
      rw [Cut.map]
      dsimp only
      rw [List.length_map, List.length_map]

/-- `session_slice` reads the slice. -/
theorem Holds.sessionSlice_eq (h : Holds p blocks extra) :
    p.sessionSlice sessionId = sliceOf sessionId blocks := by
  unfold TranscriptProjection.sessionSlice sliceOf
  rw [h.sessionSliceRange_eq, h.blocks_eq]
  cases hsection : sectionOf sessionId blocks with
  | absent => rfl
  | interleaved => rfl
  | found before middle after =>
      obtain ⟨rfl, -⟩ := isSection_of_cut hsection
      have htake : ((before ++ middle ++ after).take (before.length + middle.length)).drop
          before.length = middle := by
        rw [List.append_assoc, List.take_length_add_append, List.drop_left, List.take_left]
      exact congrArg Except.ok htake

/-- `remove_session_slice` takes the slice out. -/
theorem Holds.removeSessionSlice_eq (h : Holds p blocks extra) :
    p.removeSessionSlice sessionId =
      match sectionOf sessionId blocks with
      | .absent => (p, .ok 0)
      | .interleaved => (p, .error (.sessionSliceInterleaved sessionId))
      | .found before middle after =>
          TranscriptProjection.commitItems p ((before ++ after).map UtteranceBlock.toJson)
            middle.length := by
  unfold TranscriptProjection.removeSessionSlice
  dsimp only
  rw [h.sessionSliceRange_eq]
  cases hsection : sectionOf sessionId blocks with
  | absent => rfl
  | interleaved => rfl
  | found before middle after =>
      obtain ⟨hblocks, -⟩ := isSection_of_cut hsection
      have hitems : (blocks.map UtteranceBlock.toJson).take before.length ++
          (blocks.map UtteranceBlock.toJson).drop (before.length + middle.length) =
            (before ++ after).map UtteranceBlock.toJson := by
        rw [← List.map_take, ← List.map_drop, ← List.map_append, hblocks, List.append_assoc,
          List.take_left, List.drop_length_add_append, List.drop_left]
      dsimp only
      rw [h.stateItems_eq, hitems, Nat.add_sub_cancel_left]

theorem WellFormed.sublist {newBlocks : List UtteranceBlock} (h : WellFormed blocks)
    (hsublist : newBlocks.Sublist blocks) : WellFormed newBlocks where
  distinct := (hsublist.map _).nodup h.distinct
  valid block hblock := h.valid block (hsublist.mem hblock)

/-- The blocks outside a slice are the others, in their order. -/
theorem sublist_outside {sessionId : String} {before middle after : List UtteranceBlock}
    (h : sectionOf sessionId blocks = .found before middle after) :
    (before ++ after).Sublist blocks := by
  rw [(isSection_of_cut h).1, List.append_assoc]
  exact (List.Sublist.refl before).append (List.sublist_append_right middle after)

/-- What is left after a removal: the blocks outside the slice, and what stays at the tail. -/
theorem Holds.removed (h : Holds p blocks extra) {before middle after : List UtteranceBlock}
    (hsection : sectionOf sessionId blocks = .found before middle after) :
    ∃ p', p.removeSessionSlice sessionId = (p', .ok middle.length) ∧
      Holds p' (before ++ after) (leftoverBlocks blocks (before ++ after) ++ extra) := by
  have hsublist := sublist_outside hsection
  obtain ⟨p', hcommit, hholds⟩ := h.commitItems (h.wellFormed.sublist hsublist) middle.length
  refine ⟨p', ?_, hholds⟩
  rw [h.removeSessionSlice_eq, hsection]
  exact hcommit

/-- Where a slice is put in: before a block, or at the end. -/
def spliceCursor (blocks : List UtteranceBlock) (beforeBlockId : Option String) : Option ℕ :=
  match beforeBlockId with
  | none => some blocks.length
  | some anchor => blocks.findIdx? (·.id = anchor)

/-- What `splice_session_slice` takes: blocks with ids, and lanes of the eight languages. -/
def Spliceable (slice : List UtteranceBlock) : Prop :=
  ∀ block ∈ slice, block.id ≠ "" ∧ ∀ lane ∈ block.lanes.keys, lane ∈ supportedLanes

theorem Spliceable.valid {slice : List UtteranceBlock} (h : Spliceable slice) :
    ∀ block ∈ slice, block.Valid := fun block hblock =>
  ⟨(h block hblock).1, Lanes.named_of_supported (h block hblock).2⟩

theorem spliceCursor_le {beforeBlockId : Option String} {cursor : ℕ}
    (h : spliceCursor blocks beforeBlockId = some cursor) : cursor ≤ blocks.length := by
  unfold spliceCursor at h
  cases beforeBlockId with
  | none => exact (Option.some.inj h).ge
  | some anchor => exact (List.findIdx?_eq_some_iff_findIdx_eq.1 h).1.le

/-- `splice_session_slice` puts the blocks in that are not there. -/
theorem Holds.spliceSessionSlice_eq (h : Holds p blocks extra) {slice : List UtteranceBlock}
    (hslice : Spliceable slice) (beforeBlockId : Option String) :
    p.spliceSessionSlice slice beforeBlockId =
      match spliceCursor blocks beforeBlockId with
      | none => (p, .error (.blockNotFound (beforeBlockId.getD "")))
      | some cursor =>
          let spliced := spliceBlocks blocks cursor slice
          if spliced.length - blocks.length = 0 then (p, .ok 0)
          else TranscriptProjection.commitItems p (spliced.map UtteranceBlock.toJson)
            (spliced.length - blocks.length) := by
  have hids : (slice.any fun block => decide (block.id = "")) = false :=
    List.any_eq_false.2 fun block hblock => by simpa using (hslice block hblock).1
  have hlanes : (slice.forM fun block => validateLanes block.lanes.keys) = .ok () :=
    forM_eq_ok.2 fun block hblock => validateLanes_eq_ok.2 (hslice block hblock).2
  unfold TranscriptProjection.spliceSessionSlice
  rw [hids, if_neg Bool.false_ne_true, hlanes]
  dsimp only
  rw [h.stateItems_eq]
  cases beforeBlockId with
  | none =>
      dsimp only [spliceCursor]
      rw [spliceItems_toJson, List.length_map, List.length_map]
  | some anchor =>
      have hid : ((fun item : Value => decide (itemId item = some anchor)) ∘
          UtteranceBlock.toJson) = fun block => decide (block.id = anchor) := by
        funext block
        simp
      dsimp only [spliceCursor]
      rw [List.findIdx?_map, hid]
      cases blocks.findIdx? fun block => decide (block.id = anchor) with
      | none => rfl
      | some cursor =>
          dsimp only
          rw [spliceItems_toJson, List.length_map, List.length_map]

/-- A slice the facade does not take changes nothing. -/
theorem splice_refused {slice : List UtteranceBlock} (hslice : ¬ Spliceable slice)
    (beforeBlockId : Option String) :
    ∃ e, p.spliceSessionSlice slice beforeBlockId = (p, .error e) := by
  unfold TranscriptProjection.spliceSessionSlice
  split
  · exact ⟨_, rfl⟩
  · next hids =>
      cases hlanes : slice.forM fun block => validateLanes block.lanes.keys with
      | error e => exact ⟨e, rfl⟩
      | ok u =>
          refine absurd (fun block hblock => ⟨fun hid => hids ?_, ?_⟩) hslice
          · exact List.any_eq_true.2 ⟨block, hblock, decide_eq_true hid⟩
          · exact validateLanes_eq_ok.1 (forM_eq_ok.1 hlanes block hblock)

/-- A slice is put in or refused: nothing of what is there goes. -/
theorem Holds.spliced (h : Holds p blocks extra) (slice : List UtteranceBlock)
    (beforeBlockId : Option String) :
    (∃ e, p.spliceSessionSlice slice beforeBlockId = (p, .error e)) ∨
      ∃ p' newBlocks inserted, p.spliceSessionSlice slice beforeBlockId = (p', .ok inserted) ∧
        blocks.Sublist newBlocks ∧ Holds p' newBlocks extra := by
  by_cases hslice : Spliceable slice
  · rw [h.spliceSessionSlice_eq hslice]
    cases hcursor : spliceCursor blocks beforeBlockId with
    | none => exact .inl ⟨_, rfl⟩
    | some cursor =>
        dsimp only
        split
        · exact .inr ⟨p, blocks, 0, rfl, List.Sublist.refl _, h⟩
        · obtain ⟨hwell, hsublist⟩ :=
            h.wellFormed.splice (spliceCursor_le hcursor) hslice.valid
          obtain ⟨p', hcommit, hholds⟩ := h.commitItems hwell
            ((spliceBlocks blocks cursor slice).length - blocks.length)
          rw [leftoverBlocks_of_subset fun block hblock =>
            List.mem_map_of_mem (hsublist.mem hblock), List.nil_append] at hholds
          exact .inr ⟨p', _, _, hcommit, hsublist, hholds⟩
  · exact .inl (splice_refused hslice beforeBlockId)

end Facade

end Transcripts
end ZuTalk
