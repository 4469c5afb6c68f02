/-
# Runs of the facade

The verbs one after the other, on a document that was opened.  Along every run the facade and the
plain list agree, a batch is its writes one after the other, and machine writes keep the blocks that
are there (`Reached.refines`).
-/

import ZuTalk.Transcripts.Facade

namespace ZuTalk
namespace Transcripts

open Checks Mirror

/-- The facades that come of a document with distinct blocks, by calls that insert annotations
under fresh ids. -/
inductive Reached : TranscriptProjection → Prop
  | opened {roots : List (String × Node TranscriptSchema)} {blocks : List UtteranceBlock}
      (document : TranscriptDocument roots blocks) (blocksWellFormed : WellFormed blocks) :
      Reached (openTranscript roots)
  | called {p : TranscriptProjection} (reached : Reached p) {verb : Verb}
      (fresh : verb.Fresh p.blocks) : Reached (verb.call p).1

/-- `machine_upsert_block` for one write after the other, until one is refused. -/
def runUpserts (p : TranscriptProjection) :
    List MachineBlockUpsert → TranscriptProjection × Except TranscriptProjectionError Unit
  | [] => (p, .ok ())
  | upsert :: upserts =>
      match p.machineUpsertBlock upsert.write upsert.frozenLanes upsert.insertBefore with
      | (p', .ok ()) => runUpserts p' upserts
      | (p', .error e) => (p', .error e)

/-- What machine writes leave of a block: its id and owner, its lanes, and the text of the lanes
that are frozen in all the writes to it. -/
structure Kept (upserts : List MachineBlockUpsert) (block block' : UtteranceBlock) : Prop where
  id : block'.id = block.id
  owner : block'.owner = block.owner
  lanes : ∀ lane, (block.lanes.get lane).isSome → (block'.lanes.get lane).isSome
  frozen : ∀ lane, (∀ upsert ∈ upserts, upsert.write.id = block.id → lane ∈ upsert.frozenLanes) →
    block'.lanes.get lane = block.lanes.get lane

/-! ### What machine writes keep -/

section Kept

variable {upserts : List MachineBlockUpsert} {blocks newBlocks : List UtteranceBlock}

instance : Std.Refl (Kept upserts) where
  refl _ := ⟨rfl, rfl, fun _ h => h, fun _ _ => rfl⟩

instance : IsTrans UtteranceBlock (Kept upserts) where
  trans _ _ _ h h' := {
    id := h'.id.trans h.id
    owner := h'.owner.trans h.owner
    lanes := fun lane hlane => h'.lanes lane (h.lanes lane hlane)
    frozen := fun lane hlane => (h'.frozen lane fun upsert hmem hid =>
      hlane upsert hmem (hid.trans h.id)).trans (h.frozen lane hlane) }

theorem Kept.update {upsert : MachineBlockUpsert} {block : UtteranceBlock}
    (hmem : upsert ∈ upserts) (hid : block.id = upsert.write.id) :
    Kept upserts block (block.update upsert) where
  id := rfl
  owner := rfl
  lanes lane := (get_write _ _ _ lane).2
  frozen lane hlane := (get_write _ _ _ lane).1 (hlane upsert hmem hid.symm)

/-- A machine write keeps the blocks, in their order. -/
theorem kept_upsertBlock {upsert : MachineBlockUpsert} (hmem : upsert ∈ upserts)
    (h : upsertBlock blocks upsert = .ok newBlocks) :
    List.SublistForall₂ (Kept upserts) blocks newBlocks := by
  rcases upsertBlock_cases h with
    ⟨before, block, after, rfl, hid, rfl⟩ | ⟨-, before, after, rfl, rfl⟩
  · refine List.sublistForall₂_iff.2 ⟨_, List.rel_append (List.forall₂_refl before) ?_,
      List.Sublist.refl _⟩
    exact List.Forall₂.cons (Kept.update hmem hid) (List.forall₂_refl after)
  · exact ((List.sublist_cons_self _ _).append_left before).sublistForall₂

/-- So do the writes of a batch. -/
theorem kept_upserts (h : upserts.foldlM upsertBlock blocks = .ok newBlocks) :
    List.SublistForall₂ (Kept upserts) blocks newBlocks :=
  foldlM_invariant (fun _ _ _ hmem hkept hstep =>
    IsTrans.trans _ _ _ hkept (kept_upsertBlock hmem hstep)) (refl blocks) h

end Kept

/-! ### Runs -/

section Runs

variable {p : TranscriptProjection} {blocks extra : List UtteranceBlock}

theorem Reached.holds (h : Reached p) : ∃ extra, Holds p p.blocks extra := by
  induction h with
  | opened document blocksWellFormed =>
      have hopen := holds_open document blocksWellFormed.distinct blocksWellFormed.valid
      exact ⟨[], hopen.blocks_eq.symm ▸ hopen⟩
  | called reached fresh ih =>
      obtain ⟨extra, hholds⟩ := ih
      rcases hholds.call fresh with ⟨e, -, hcall⟩ | ⟨newBlocks, p', -, hcall, hholds'⟩
      · rw [hcall]
        exact ⟨extra, hholds⟩
      · rw [hcall]
        exact ⟨_, hholds'.blocks_eq.symm ▸ hholds'⟩

/-- Writes that go well one after the other are allowed, and go well on the plain list. -/
theorem Holds.runUpserts (h : Holds p blocks extra) {upserts : List MachineBlockUpsert}
    (hok : (Transcripts.runUpserts p upserts).2 = .ok ()) :
    (∀ upsert ∈ upserts, upsert.Allowed) ∧
      upserts.foldlM upsertBlock blocks = .ok (Transcripts.runUpserts p upserts).1.blocks := by
  induction upserts generalizing p blocks extra with
  | nil => exact ⟨nofun, congrArg Except.ok h.blocks_eq.symm⟩
  | cons upsert upserts ih =>
      have hcall : p.machineUpsertBlock upsert.write upsert.frozenLanes upsert.insertBefore =
          (Verb.machineUpsertBlock upsert.write upsert.frozenLanes upsert.insertBefore).call p :=
        rfl
      rw [Transcripts.runUpserts, hcall] at hok ⊢
      have hfresh : (Verb.machineUpsertBlock upsert.write upsert.frozenLanes
          upsert.insertBefore).Fresh blocks := trivial
      rcases h.call hfresh with ⟨e, -, herror⟩ | ⟨newBlocks, p', honBlocks, hp', hholds⟩
      · rw [herror] at hok
        cases hok
      · rw [hp'] at hok ⊢
        obtain ⟨⟨⟩, hcheck, hupsert⟩ := bind_eq_ok.1 honBlocks
        obtain ⟨hallowed, hrest⟩ := ih hholds hok
        refine ⟨List.forall_mem_cons.2
          ⟨checkUpserts_eq_ok.1 hcheck _ List.mem_cons_self, hallowed⟩, ?_⟩
        rw [List.foldlM_cons]
        exact bind_eq_ok.2 ⟨newBlocks, hupsert, hrest⟩

/-- **The facade refines the plain list of blocks.**  Along every run: a call gives what it gives on
the plain list, or is refused with the same error and changes nothing; a batch gives what its writes
give one after the other, when all of those go well; and a batch of machine writes keeps the blocks
that are there, in their order. -/
theorem Reached.refines (h : Reached p) :
    (∀ verb : Verb, verb.Fresh p.blocks →
      match verb.onBlocks p.blocks with
      | .ok blocks => (verb.call p).2 = .ok () ∧ (verb.call p).1.blocks = blocks
      | .error e => verb.call p = (p, .error e)) ∧
    (∀ upserts, (runUpserts p upserts).2 = .ok () →
      (p.machineUpsertBlocks upserts).2 = .ok () ∧
        (p.machineUpsertBlocks upserts).1.blocks = (runUpserts p upserts).1.blocks) ∧
    ∀ upserts, (p.machineUpsertBlocks upserts).2 = .ok () →
      List.SublistForall₂ (Kept upserts) p.blocks (p.machineUpsertBlocks upserts).1.blocks := by
  obtain ⟨extra, hholds⟩ := h.holds
  refine ⟨fun verb hfresh => ?_, fun upserts hok => ?_, fun upserts hok => ?_⟩
  · rcases hholds.call hfresh with ⟨e, honBlocks, hcall⟩ | ⟨newBlocks, p', honBlocks, hcall, hp'⟩
    · rw [honBlocks]
      exact hcall
    · rw [honBlocks, hcall]
      exact ⟨rfl, hp'.blocks_eq⟩
  · obtain ⟨hallowed, hrun⟩ := hholds.runUpserts hok
    have hbatch : (Verb.machineUpsertBlocks upserts).onBlocks p.blocks =
        .ok (runUpserts p upserts).1.blocks :=
      bind_eq_ok.2 ⟨(), checkUpserts_eq_ok.2 hallowed, hrun⟩
    have hfresh : (Verb.machineUpsertBlocks upserts).Fresh p.blocks := trivial
    rcases hholds.call hfresh with ⟨e, honBlocks, -⟩ | ⟨newBlocks, p', honBlocks, hcall, hp'⟩
    · rw [hbatch] at honBlocks
      cases honBlocks
    · obtain rfl := Except.ok.inj (hbatch.symm.trans honBlocks)
      have hbatchCall : p.machineUpsertBlocks upserts = (p', .ok ()) := hcall
      rw [hbatchCall]
      exact ⟨rfl, hp'.blocks_eq⟩
  · have hfresh : (Verb.machineUpsertBlocks upserts).Fresh p.blocks := trivial
    rcases hholds.call hfresh with ⟨e, -, hcall⟩ | ⟨newBlocks, p', honBlocks, hcall, hp'⟩
    · have hbatchCall : p.machineUpsertBlocks upserts = (p, .error e) := hcall
      rw [hbatchCall] at hok
      cases hok
    · have hbatchCall : p.machineUpsertBlocks upserts = (p', .ok ()) := hcall
      rw [hbatchCall, hp'.blocks_eq]
      obtain ⟨⟨⟩, -, hupserts⟩ := bind_eq_ok.1 honBlocks
      exact kept_upserts hupserts

/-- A document with nothing in it. -/
theorem empty_document : TranscriptDocument [] [] where
  sorted := List.Pairwise.nil
  keys := nofun
  utterances := nofun
  absent _ := rfl
  maps := nofun

/-- What was said first. -/
def spoken : MachineBlockWrite :=
  ⟨"utterance:1", captureOwner "s1", "hola", Lanes.empty.insert "en" "hello"⟩

/-- Its lane is frozen in the write that comes next. -/
theorem Reached.refines_spoken :
    let p := (TranscriptProjection.machineUpsertBlock (openTranscript []) spoken [] none).1
    let again : MachineBlockUpsert :=
      ⟨{ spoken with text := "hola!", lanes := Lanes.empty.insert "en" "hi" }, ["en"], none⟩
    p.blocks = [spoken.block] ∧ (p.machineUpsertBlocks [again]).2 = .ok () ∧
      (p.machineUpsertBlocks [again]).1.blocks = [{ spoken.block with text := "hola!" }] := by
  intro p again
  have hreached : Reached p :=
    @Reached.called _ (.opened empty_document ⟨List.nodup_nil, nofun⟩)
      (.machineUpsertBlock spoken [] none) trivial
  have hp : p.blocks = [spoken.block] := by decide +kernel
  have hcall := hreached.refines.1 (.machineUpsertBlocks [again]) trivial
  have honBlocks : (Verb.machineUpsertBlocks [again]).onBlocks p.blocks =
      .ok [{ spoken.block with text := "hola!" }] := by
    rw [hp]
    rfl
  rw [honBlocks] at hcall
  exact ⟨hp, hcall⟩

end Runs

end Transcripts
end ZuTalk
