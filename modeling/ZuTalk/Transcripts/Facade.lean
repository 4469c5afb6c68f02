/-
# The facade and plain lists of blocks

Every verb of the facade does to `blocks()` what it does to a plain list of blocks, or is refused
and changes nothing (`Holds.call`): the mirror underneath never fails.  The verbs keep the blocks
distinct and valid, so this holds along every run (`Reached.refines`).
-/

import ZuTalk.Library.Checks
import ZuTalk.Library.Rows
import ZuTalk.Transcripts.Opened
import Mathlib.Data.List.Forall2

namespace ZuTalk
namespace Transcripts

open Checks Mirror

/-! ### The verbs -/

/-- A call of the facade. -/
inductive Verb
  | machineUpsertBlocks (upserts : List MachineBlockUpsert)
  | machineUpsertBlock (write : MachineBlockWrite) (frozenLanes : List String)
      (insertBefore : Option String)
  | userReplaceLane (blockId lane text : String)
  | userReplaceText (blockId text : String)
  | insertAnnotation (index : ℕ) (id text : String)
  | purgeSessionBlocks (sessionId : String)

namespace Verb

/-- What a call does to the facade. -/
def call (p : TranscriptProjection) :
    Verb → TranscriptProjection × Except TranscriptProjectionError Unit
  | .machineUpsertBlocks upserts => p.machineUpsertBlocks upserts
  | .machineUpsertBlock write frozenLanes insertBefore =>
      p.machineUpsertBlock write frozenLanes insertBefore
  | .userReplaceLane blockId lane text => p.userReplaceLane blockId lane text
  | .userReplaceText blockId text => p.userReplaceText blockId text
  | insertAnnotation index id text => TranscriptProjection.insertAnnotation p index id text
  | .purgeSessionBlocks sessionId =>
      ((p.purgeSessionBlocks sessionId).1, (p.purgeSessionBlocks sessionId).2.map fun _ => ())

/-- The first block with an id, changed. -/
def mutate (blocks : List UtteranceBlock) (blockId : String)
    (f : UtteranceBlock → UtteranceBlock) :
    Except TranscriptProjectionError (List UtteranceBlock) :=
  (updateFirst (·.id = blockId) f blocks).elim (.error (.blockNotFound blockId)) .ok

/-- What a call does to a plain list of blocks. -/
def onBlocks (blocks : List UtteranceBlock) :
    Verb → Except TranscriptProjectionError (List UtteranceBlock)
  | .machineUpsertBlocks upserts => do
      checkUpserts upserts
      upserts.foldlM upsertBlock blocks
  | .machineUpsertBlock write frozenLanes insertBefore => do
      checkUpserts [⟨write, frozenLanes, insertBefore⟩]
      upsertBlock blocks ⟨write, frozenLanes, insertBefore⟩
  | .userReplaceLane blockId lane text => do
      validateLanes [lane]
      mutate blocks blockId fun block => { block with lanes := block.lanes.insert lane text }
  | .userReplaceText blockId text =>
      mutate blocks blockId fun block => { block with text := text }
  | insertAnnotation index id text =>
      if id = "" then .error .emptyBlockId
      else .ok (blocks.insertIdx (min index blocks.length) ⟨id, userOwner, text, .empty⟩)
  | .purgeSessionBlocks sessionId =>
      .ok (blocks.filter (·.owner ≠ captureOwner sessionId))

/-- An annotation is inserted under a fresh id. -/
def Fresh (blocks : List UtteranceBlock) : Verb → Prop
  | insertAnnotation _ id _ => id ∉ blocks.map (·.id)
  | _ => True

end Verb

/-! ### What a machine write does -/

section Upsert

theorem updateFirst_eq_some {α : Type*} {p : α → Bool} {f : α → α} {l l' : List α}
    (h : updateFirst p f l = some l') :
    ∃ before a after, l = before ++ a :: after ∧ p a = true ∧ l' = before ++ f a :: after := by
  induction l generalizing l' with
  | nil => cases h
  | cons a l ih =>
      rw [updateFirst] at h
      split at h
      · rename_i hp
        exact ⟨[], a, l, rfl, hp, (Option.some.inj h).symm⟩
      · obtain ⟨l'', hl, rfl⟩ := Option.map_eq_some_iff.1 h
        obtain ⟨before, b, after, rfl, hp, rfl⟩ := ih hl
        exact ⟨a :: before, b, after, rfl, hp, rfl⟩

theorem updateFirst_eq_none {α : Type*} {p : α → Bool} {f : α → α} {l : List α}
    (h : updateFirst p f l = none) : ∀ a ∈ l, p a = false := by
  induction l with
  | nil => exact nofun
  | cons a l ih =>
      rw [updateFirst] at h
      split at h
      · cases h
      · rename_i hp
        exact List.forall_mem_cons.2
          ⟨Bool.eq_false_of_not_eq_true hp, ih (Option.map_eq_none_iff.1 h)⟩

theorem insertIdx_eq {α : Type*} {l : List α} {index : ℕ} (a : α) (h : index ≤ l.length) :
    l.insertIdx index a = l.take index ++ a :: l.drop index := by
  have hinsert := Rows.insertIdx_at (l.take index) (l.drop index) a
  rwa [List.take_append_drop, List.length_take_of_le h] at hinsert

/-- **What a machine write can do**: update the block with its id, or put a new one in. -/
theorem upsertBlock_cases {blocks newBlocks : List UtteranceBlock} {upsert : MachineBlockUpsert}
    (h : upsertBlock blocks upsert = .ok newBlocks) :
    (∃ before block after, blocks = before ++ block :: after ∧ block.id = upsert.write.id ∧
      newBlocks = before ++ block.update upsert :: after) ∨
    (upsert.write.id ∉ blocks.map (·.id) ∧ ∃ before after, blocks = before ++ after ∧
      newBlocks = before ++ upsert.write.block :: after) := by
  unfold upsertBlock at h
  cases hupdate : updateFirst (fun block => decide (block.id = upsert.write.id))
      (UtteranceBlock.update upsert) blocks with
  | some updated =>
      rw [hupdate] at h
      obtain rfl := Except.ok.inj h
      obtain ⟨before, block, after, rfl, hid, rfl⟩ := updateFirst_eq_some hupdate
      exact .inl ⟨before, block, after, rfl, of_decide_eq_true hid, rfl⟩
  | none =>
      rw [hupdate] at h
      have hnot : upsert.write.id ∉ blocks.map (·.id) := fun hmem => by
        obtain ⟨block, hblock, heq⟩ := List.mem_map.1 hmem
        exact of_decide_eq_false (updateFirst_eq_none hupdate block hblock) heq
      refine .inr ⟨hnot, ?_⟩
      dsimp only at h
      cases hanchor : upsert.insertBefore with
      | none =>
          rw [hanchor] at h
          obtain rfl := Except.ok.inj h
          exact ⟨blocks, [], (List.append_nil _).symm, rfl⟩
      | some anchor =>
          rw [hanchor] at h
          dsimp only at h
          cases hindex : blocks.findIdx? fun block => decide (block.id = anchor) with
          | none =>
              rw [hindex] at h
              cases h
          | some index =>
              rw [hindex] at h
              obtain rfl := Except.ok.inj h
              exact ⟨blocks.take index, blocks.drop index, (List.take_append_drop ..).symm,
                insertIdx_eq _ (List.findIdx?_eq_some_iff_findIdx_eq.1 hindex).1.le⟩

/-- Blocks with ids of their own, each as the facade writes it. -/
structure WellFormed (blocks : List UtteranceBlock) : Prop where
  distinct : (blocks.map (·.id)).Nodup
  valid : ∀ block ∈ blocks, block.Valid

theorem mem_keys_insert {lanes : Lanes} {lane other text : String}
    (h : other ∈ (lanes.insert lane text).keys) : other = lane ∨ other ∈ lanes.keys := by
  obtain ⟨entry, hentry, rfl⟩ := List.mem_map.1 h
  rcases mem_insertEntry hentry with rfl | hentry
  · exact .inl rfl
  · exact .inr (List.mem_map_of_mem hentry)

theorem mem_keys_write {frozenLanes : List String} {written : List (String × String)}
    {lanes : Lanes} {lane : String} (h : lane ∈ (lanes.write frozenLanes written).keys) :
    lane ∈ lanes.keys ∨ lane ∈ written.map Prod.fst := by
  induction written generalizing lanes with
  | nil => exact .inl h
  | cons entry written ih =>
      rw [Lanes.write, List.foldl_cons] at h
      rw [List.map_cons, List.mem_cons]
      split at h
      · exact (ih h).imp_right .inr
      · rcases ih h with h | h
        · exact (mem_keys_insert h).elim (fun h => .inr (.inl h)) .inl
        · exact .inr (.inr h)

/-- A frozen lane keeps its text, and no lane goes. -/
theorem get_write (frozenLanes : List String) (written : List (String × String)) (lanes : Lanes)
    (lane : String) :
    (lane ∈ frozenLanes → (lanes.write frozenLanes written).get lane = lanes.get lane) ∧
      ((lanes.get lane).isSome → ((lanes.write frozenLanes written).get lane).isSome) := by
  induction written generalizing lanes with
  | nil => exact ⟨fun _ => rfl, fun h => h⟩
  | cons entry written ih =>
      rw [Lanes.write, List.foldl_cons]
      split
      · exact ih lanes
      · rename_i hfrozen
        obtain ⟨hkept, hsome⟩ := ih (lanes.insert entry.1 entry.2)
        have hget : (lanes.insert entry.1 entry.2).get lane =
            if lane = entry.1 then some entry.2 else lanes.get lane := lookup_insertEntry ..
        refine ⟨fun hmem => ?_, fun h => hsome ?_⟩
        · refine (hkept hmem).trans ?_
          rw [hget, if_neg]
          rintro rfl
          exact hfrozen hmem
        · rw [hget]
          split
          · rfl
          · exact h

/-- What a machine write may carry. -/
def MachineBlockUpsert.Allowed (upsert : MachineBlockUpsert) : Prop :=
  upsert.write.id ≠ "" ∧ ∀ lane ∈ upsert.write.lanes.keys, lane ∈ supportedLanes

theorem validateLanes_eq_ok {lanes : List String} :
    validateLanes lanes = .ok () ↔ ∀ lane ∈ lanes, lane ∈ supportedLanes := by
  unfold validateLanes
  cases hfind : lanes.find? (· ∉ supportedLanes) with
  | some lane =>
      refine iff_of_false nofun fun h => ?_
      have hnot : lane ∉ supportedLanes := by simpa using List.find?_some hfind
      exact hnot (h lane (List.mem_of_find?_eq_some hfind))
  | none =>
      refine iff_of_true rfl fun lane hlane => ?_
      simpa using List.find?_eq_none.1 hfind lane hlane

/-- The checks before anything is applied. -/
theorem checkUpserts_eq_ok {upserts : List MachineBlockUpsert} :
    checkUpserts upserts = .ok () ↔ ∀ upsert ∈ upserts, upsert.Allowed := by
  refine forM_eq_ok.trans (forall₂_congr fun upsert _ => ?_)
  unfold MachineBlockUpsert.Allowed
  by_cases hid : upsert.write.id = ""
  · rw [if_pos hid]
    exact iff_of_false nofun fun h => h.1 hid
  · rw [if_neg hid, validateLanes_eq_ok]
    exact ⟨fun h => ⟨hid, h⟩, And.right⟩

theorem UtteranceBlock.Valid.update {block : UtteranceBlock} (h : block.Valid)
    {upsert : MachineBlockUpsert} (hallowed : upsert.Allowed) : (block.update upsert).Valid where
  id_ne := h.id_ne
  lanes lane hlane := (mem_keys_write hlane).elim (h.lanes lane)
    (Lanes.named_of_supported hallowed.2 lane)

theorem WellFormed.insert {before after : List UtteranceBlock} {block : UtteranceBlock}
    (h : WellFormed (before ++ after)) (hvalid : block.Valid)
    (hnot : block.id ∉ (before ++ after).map (·.id)) : WellFormed (before ++ block :: after) where
  distinct := by
    have hperm : (block :: (before ++ after)).Perm (before ++ block :: after) :=
      List.perm_middle.symm
    exact (hperm.map (·.id)).nodup (List.nodup_cons.2 ⟨hnot, h.distinct⟩)
  valid other hother := by
    rcases List.mem_append.1 hother with hother | hother
    · exact h.valid other (List.mem_append_left _ hother)
    · rcases List.mem_cons.1 hother with rfl | hother
      · exact hvalid
      · exact h.valid other (List.mem_append_right _ hother)

theorem WellFormed.replace {before after : List UtteranceBlock} {block block' : UtteranceBlock}
    (h : WellFormed (before ++ block :: after)) (hid : block'.id = block.id)
    (hvalid : block'.Valid) : WellFormed (before ++ block' :: after) where
  distinct := by
    have hdistinct := h.distinct
    rw [List.map_append, List.map_cons] at hdistinct ⊢
    rwa [hid]
  valid other hother := by
    rcases List.mem_append.1 hother with hother | hother
    · exact h.valid other (List.mem_append_left _ hother)
    · rcases List.mem_cons.1 hother with rfl | hother
      · exact hvalid
      · exact h.valid other (List.mem_append_right _ (List.mem_cons_of_mem _ hother))

/-- A machine write keeps the blocks well formed. -/
theorem WellFormed.upsert {blocks newBlocks : List UtteranceBlock} {upsert : MachineBlockUpsert}
    (h : WellFormed blocks) (hallowed : upsert.Allowed)
    (hupsert : upsertBlock blocks upsert = .ok newBlocks) : WellFormed newBlocks := by
  rcases upsertBlock_cases hupsert with
    ⟨before, block, after, rfl, -, rfl⟩ | ⟨hnot, before, after, rfl, rfl⟩
  · refine h.replace rfl (UtteranceBlock.Valid.update (h.valid block ?_) hallowed)
    exact List.mem_append_right _ List.mem_cons_self
  · exact h.insert ⟨hallowed.1, Lanes.named_of_supported hallowed.2⟩ hnot

/-- The machine writes of a batch keep the blocks well formed. -/
theorem WellFormed.upserts {blocks newBlocks : List UtteranceBlock}
    {upserts : List MachineBlockUpsert} (h : WellFormed blocks)
    (hallowed : ∀ upsert ∈ upserts, upsert.Allowed)
    (hupserts : upserts.foldlM upsertBlock blocks = .ok newBlocks) : WellFormed newBlocks :=
  foldlM_invariant (fun _ upsert _ hmem hblocks hstep =>
    hblocks.upsert (hallowed upsert hmem) hstep) h hupserts

end Upsert

/-! ### A call keeps the blocks well formed -/

section Verbs

variable {blocks newBlocks : List UtteranceBlock}

theorem mutate_eq_ok {blockId : String} {f : UtteranceBlock → UtteranceBlock}
    (h : Verb.mutate blocks blockId f = .ok newBlocks) :
    ∃ before block after, blocks = before ++ block :: after ∧
      newBlocks = before ++ f block :: after := by
  unfold Verb.mutate at h
  cases hupdate : updateFirst (fun block => decide (block.id = blockId)) f blocks with
  | none =>
      rw [hupdate] at h
      cases h
  | some updated =>
      rw [hupdate] at h
      obtain rfl := Except.ok.inj h
      obtain ⟨before, block, after, rfl, -, rfl⟩ := updateFirst_eq_some hupdate
      exact ⟨before, block, after, rfl, rfl⟩

/-- A change of one block that keeps its id keeps the blocks well formed. -/
theorem WellFormed.mutate {blockId : String} {f : UtteranceBlock → UtteranceBlock}
    (h : WellFormed blocks) (hmutate : Verb.mutate blocks blockId f = .ok newBlocks)
    (hid : ∀ block, (f block).id = block.id)
    (hvalid : ∀ block : UtteranceBlock, block.Valid → (f block).Valid) : WellFormed newBlocks := by
  obtain ⟨before, block, after, rfl, rfl⟩ := mutate_eq_ok hmutate
  refine h.replace (hid block) (hvalid block (h.valid block ?_))
  exact List.mem_append_right _ List.mem_cons_self

theorem WellFormed.filter (h : WellFormed blocks) (p : UtteranceBlock → Bool) :
    WellFormed (blocks.filter p) where
  distinct := (List.filter_sublist.map _).nodup h.distinct
  valid block hblock := h.valid block (List.mem_of_mem_filter hblock)

/-- **A call keeps the blocks well formed.** -/
theorem WellFormed.onBlocks {verb : Verb} (h : WellFormed blocks) (hfresh : verb.Fresh blocks)
    (hok : verb.onBlocks blocks = .ok newBlocks) : WellFormed newBlocks := by
  cases verb with
  | machineUpsertBlocks upserts =>
      obtain ⟨⟨⟩, hcheck, hupserts⟩ := bind_eq_ok.1 hok
      exact h.upserts (checkUpserts_eq_ok.1 hcheck) hupserts
  | machineUpsertBlock write frozenLanes insertBefore =>
      obtain ⟨⟨⟩, hcheck, hupsert⟩ := bind_eq_ok.1 hok
      exact h.upsert (checkUpserts_eq_ok.1 hcheck _ List.mem_cons_self) hupsert
  | userReplaceLane blockId lane text =>
      obtain ⟨⟨⟩, hcheck, hmutate⟩ := bind_eq_ok.1 hok
      have hlane : lane ∈ supportedLanes := validateLanes_eq_ok.1 hcheck lane List.mem_cons_self
      refine h.mutate hmutate (fun _ => rfl) fun block hblock => ⟨hblock.id_ne, ?_⟩
      intro other hother
      rcases mem_keys_insert hother with rfl | hother
      · rintro rfl
        exact absurd hlane (by decide)
      · exact hblock.lanes other hother
  | userReplaceText blockId text =>
      exact h.mutate hok (fun _ => rfl) fun block hblock => ⟨hblock.id_ne, hblock.lanes⟩
  | insertAnnotation index id text =>
      rw [Verb.onBlocks] at hok
      split at hok
      · cases hok
      · rename_i hid
        obtain rfl := Except.ok.inj hok
        rw [insertIdx_eq _ (min_le_right index blocks.length)]
        have hblocks := List.take_append_drop (min index blocks.length) blocks
        refine WellFormed.insert (hblocks.symm ▸ h) ⟨hid, nofun⟩ ?_
        rw [hblocks]
        exact hfresh
  | purgeSessionBlocks sessionId =>
      obtain rfl := Except.ok.inj hok
      exact h.filter _

end Verbs

/-! ### What a call does to the facade -/

section Call

variable {p : TranscriptProjection} {blocks extra newBlocks : List UtteranceBlock}

theorem Holds.stateItems_eq (h : Holds p blocks extra) :
    stateItems p.state = blocks.map UtteranceBlock.toJson := by
  obtain ⟨documentMeta, purgeReceipts, hstate⟩ := h.state
  rw [hstate]
  rfl

theorem filterMap_itemBlock (blocks : List UtteranceBlock) :
    (blocks.map UtteranceBlock.toJson).filterMap itemBlock = blocks := by
  have hread : itemBlock ∘ UtteranceBlock.toJson = some := funext itemBlock_toJson
  rw [List.filterMap_map, hread, List.filterMap_some]

theorem Holds.blocks_eq (h : Holds p blocks extra) : p.blocks = blocks := by
  rw [TranscriptProjection.blocks, h.stateItems_eq, filterMap_itemBlock]

theorem Holds.wellFormed (h : Holds p blocks extra) : WellFormed blocks where
  distinct := h.distinct
  valid block hblock := h.valid block (List.mem_append_left _ hblock)

/-- Well-formed blocks are always taken. -/
theorem Holds.commitItems {α : Type} (h : Holds p blocks extra) (hnew : WellFormed newBlocks)
    (result : α) :
    ∃ p', TranscriptProjection.commitItems p (newBlocks.map UtteranceBlock.toJson) result =
        (p', .ok result) ∧ Holds p' newBlocks (leftoverBlocks blocks newBlocks ++ extra) := by
  obtain ⟨p', hcommit, hholds⟩ := h.commit hnew.distinct hnew.valid
  refine ⟨p', ?_, hholds⟩
  unfold TranscriptProjection.commitItems
  rw [hcommit]
  rfl

/-- A step that changes nothing holds the blocks it had. -/
theorem Holds.same (h : Holds p blocks extra) :
    Holds p blocks (leftoverBlocks blocks blocks ++ extra) := by
  rw [leftoverBlocks_self]
  exact h

theorem map_filter_owner (blocks : List UtteranceBlock) (owner : String) :
    (blocks.map UtteranceBlock.toJson).filter (fun item =>
        (item.get "owner").bind Value.asStr ≠ some owner) =
      (blocks.filter (·.owner ≠ owner)).map UtteranceBlock.toJson := by
  rw [List.filter_map]
  refine congrArg (List.map UtteranceBlock.toJson) (List.filter_congr fun block _ => ?_)
  have howner : (block.toJson.get "owner").bind Value.asStr = some block.owner := rfl
  rw [Function.comp_apply, howner]
  exact decide_eq_decide.2 (not_congr (Option.some_inj))

theorem mutateBlock_eq (h : Holds p blocks extra) (blockId : String) {change : Value → Value}
    {f : UtteranceBlock → UtteranceBlock}
    (hchange : ∀ block : UtteranceBlock, change block.toJson = (f block).toJson) :
    TranscriptProjection.mutateBlock p blockId change =
      match Verb.mutate blocks blockId f with
      | .error e => (p, .error e)
      | .ok newBlocks =>
          TranscriptProjection.commitItems p (newBlocks.map UtteranceBlock.toJson) () := by
  have hid : ((fun item : Value => decide (itemId item = some blockId)) ∘
      UtteranceBlock.toJson) = fun block => decide (block.id = blockId) := by
    funext block
    simp
  unfold TranscriptProjection.mutateBlock Verb.mutate
  rw [h.stateItems_eq, updateFirst_map hchange, hid]
  cases updateFirst (fun block => decide (block.id = blockId)) f blocks with
  | none => rfl
  | some updated => rfl

theorem machineUpsertBlocks_eq (h : Holds p blocks extra) {upserts : List MachineBlockUpsert}
    (hne : upserts ≠ []) :
    TranscriptProjection.machineUpsertBlocks p upserts =
      match (Verb.machineUpsertBlocks upserts).onBlocks blocks with
      | .error e => (p, .error e)
      | .ok newBlocks =>
          TranscriptProjection.commitItems p (newBlocks.map UtteranceBlock.toJson) () := by
  have hempty : upserts.isEmpty = false := Bool.eq_false_of_not_eq_true fun h =>
    hne (List.isEmpty_iff.1 h)
  rw [TranscriptProjection.machineUpsertBlocks, hempty, if_neg Bool.false_ne_true, Verb.onBlocks]
  cases checkUpserts upserts with
  | error e => rfl
  | ok u =>
      dsimp only
      rw [h.stateItems_eq, foldlM_map applyMachineUpsert_toJson]
      simp only [bind, Except.bind]
      cases upserts.foldlM upsertBlock blocks with
      | error e => rfl
      | ok newBlocks => rfl

theorem purgeSessionBlocks_eq (h : Holds p blocks extra) (sessionId : String) :
    TranscriptProjection.purgeSessionBlocks p sessionId =
      let kept := blocks.filter (·.owner ≠ captureOwner sessionId)
      if kept.length = blocks.length then (p, .ok 0)
      else TranscriptProjection.commitItems p (kept.map UtteranceBlock.toJson)
        (blocks.length - kept.length) := by
  have hle : (blocks.filter (·.owner ≠ captureOwner sessionId)).length ≤ blocks.length :=
    List.length_filter_le _ _
  unfold TranscriptProjection.purgeSessionBlocks
  rw [h.stateItems_eq]
  dsimp only
  rw [map_filter_owner, List.length_map, List.length_map]
  refine ite_congr (propext ⟨fun h => ?_, fun h => ?_⟩) (fun _ => rfl) fun _ => rfl
  · omega
  · omega

/-- What a call and the plain list do alike. -/
def Agree (p : TranscriptProjection) (blocks extra : List UtteranceBlock) (verb : Verb) : Prop :=
  (∃ e, verb.onBlocks blocks = .error e ∧ verb.call p = (p, .error e)) ∨
    ∃ newBlocks p', verb.onBlocks blocks = .ok newBlocks ∧ verb.call p = (p', .ok ()) ∧
      Holds p' newBlocks (leftoverBlocks blocks newBlocks ++ extra)

theorem Holds.agree (h : Holds p blocks extra) {verb : Verb} (hfresh : verb.Fresh blocks)
    (hcall : verb.call p = match verb.onBlocks blocks with
      | .error e => (p, .error e)
      | .ok newBlocks =>
          TranscriptProjection.commitItems p (newBlocks.map UtteranceBlock.toJson) ()) :
    Agree p blocks extra verb := by
  cases honBlocks : verb.onBlocks blocks with
  | error e =>
      rw [honBlocks] at hcall
      exact .inl ⟨e, honBlocks, hcall⟩
  | ok newBlocks =>
      rw [honBlocks] at hcall
      obtain ⟨p', hcommit, hholds⟩ := h.commitItems (h.wellFormed.onBlocks hfresh honBlocks) ()
      exact .inr ⟨newBlocks, p', honBlocks, hcall.trans hcommit, hholds⟩

/-- **A call does to the facade what it does to the plain list**: it is refused alike and changes
nothing, or the facade has the new blocks. -/
theorem Holds.call (h : Holds p blocks extra) {verb : Verb} (hfresh : verb.Fresh blocks) :
    Agree p blocks extra verb := by
  cases verb with
  | machineUpsertBlocks upserts =>
      by_cases hne : upserts = []
      · subst hne
        exact .inr ⟨blocks, p, rfl, rfl, h.same⟩
      · exact h.agree hfresh (machineUpsertBlocks_eq h hne)
  | machineUpsertBlock write frozenLanes insertBefore =>
      refine h.agree hfresh (Eq.trans (machineUpsertBlocks_eq h (List.cons_ne_nil _ _)) ?_)
      have hone : (Verb.machineUpsertBlocks [⟨write, frozenLanes, insertBefore⟩]).onBlocks blocks =
          (Verb.machineUpsertBlock write frozenLanes insertBefore).onBlocks blocks := by
        simp [Verb.onBlocks]
      rw [hone]
  | userReplaceLane blockId lane text =>
      refine h.agree hfresh ?_
      rw [Verb.call, TranscriptProjection.userReplaceLane, Verb.onBlocks]
      cases validateLanes [lane] with
      | error e => rfl
      | ok u => exact mutateBlock_eq h blockId fun block => setLane_toJson block lane text
  | userReplaceText blockId text =>
      exact h.agree hfresh (mutateBlock_eq h blockId fun block => setKey_text block text)
  | insertAnnotation index id text =>
      refine h.agree hfresh ?_
      rw [Verb.call, TranscriptProjection.insertAnnotation, Verb.onBlocks]
      split
      · rfl
      · dsimp only
        rw [h.stateItems_eq, List.length_map, List.map_insertIdx]
        rfl
  | purgeSessionBlocks sessionId =>
      have hcall := purgeSessionBlocks_eq h sessionId
      dsimp only at hcall
      split at hcall
      · rename_i hlength
        have hsame : blocks.filter (fun block => decide (block.owner ≠ captureOwner sessionId)) =
            blocks := List.filter_sublist.eq_of_length hlength
        refine .inr ⟨blocks, p, congrArg Except.ok hsame, ?_, h.same⟩
        rw [Verb.call, hcall]
        rfl
      · obtain ⟨p', hcommit, hholds⟩ := h.commitItems (h.wellFormed.filter _) (blocks.length -
          (blocks.filter fun block => block.owner ≠ captureOwner sessionId).length)
        refine .inr ⟨_, p', rfl, ?_, hholds⟩
        rw [Verb.call, hcall, hcommit]
        rfl

end Call

end Transcripts
end ZuTalk
