/-
# Transcripts that are opened

`TranscriptProjection::open`: a document with the roots of the schema is opened with its blocks
(`holds_open`), for its containers are registered by their places, and a block's JSON says what
they are.
-/

import ZuTalk.Transcripts.Document

namespace ZuTalk
namespace Transcripts

open Mirror

/-! ### Registered containers -/

section Register

variable {σ : Type} {S : Schemas σ}

mutual

/-- Registering does not show. -/
theorem deepValue_register : ∀ (schema : Option σ) (node : Node σ),
    (node.register S schema).deepValue = node.deepValue
  | _, .value _ => rfl
  | schema, .map _ _ entries => congrArg Value.object (deepEntries_register schema entries)
  | schema, .list _ _ items =>
      congrArg Value.array (deepItems_register (S.listItem schema) items)
  | schema, .movableList _ _ items =>
      congrArg Value.array (deepItems_register (S.listItem schema) items)
  | _, .text _ _ _ => rfl

theorem deepItems_register : ∀ (schema : Option σ) (items : List (Node σ)),
    Node.deepItems (Node.registerItems S schema items) = Node.deepItems items
  | _, [] => rfl
  | schema, item :: items => by
      rw [Node.registerItems, Node.deepItems, Node.deepItems, deepValue_register,
        deepItems_register]

theorem deepEntries_register : ∀ (schema : Option σ) (entries : List (String × Node σ)),
    Node.deepEntries (Node.registerEntries S schema entries) = Node.deepEntries entries
  | _, [] => rfl
  | schema, (_, node) :: entries => by
      rw [Node.registerEntries, Node.deepEntries, Node.deepEntries, deepValue_register,
        deepEntries_register]

end

theorem registerItems_eq (schema : Option σ) (items : List (Node σ)) :
    Node.registerItems S schema items = items.map (Node.register S schema) := by
  induction items with
  | nil => rfl
  | cons item items ih => rw [Node.registerItems, ih, List.map_cons]

theorem registerEntries_eq (schema : Option σ) (entries : List (String × Node σ)) :
    Node.registerEntries S schema entries =
      entries.map fun entry => (entry.1, entry.2.register S (S.mapField schema entry.1)) := by
  induction entries with
  | nil => rfl
  | cons entry entries ih => rw [Node.registerEntries, ih, List.map_cons]

/-- Where the schema has no container, any may be. -/
theorem fits_none (node : Node σ) : node.Fits S none := by
  cases node with
  | value v => trivial
  | map id own entries | list id own items | movableList id own items | text id own content =>
      exact nofun

end Register

theorem mapChild_lanes (lane : String) :
    transcriptSchemas.mapChild (some .lanes) lane = none ∨
      transcriptSchemas.mapChild (some .lanes) lane = some .text ∧
        transcriptSchemas.mapField (some .lanes) lane = some .text := by
  unfold Schemas.mapChild
  cases hfield : transcriptSchemas.mapField (some .lanes) lane with
  | none => exact .inl rfl
  | some field =>
      obtain ⟨other, -, heq⟩ := List.mem_map.1
        (Entries.mem_of_lookup (hfield : (transcriptSchemas.fields .lanes).lookup lane = _))
      obtain ⟨-, rfl⟩ := Prod.mk.inj heq
      exact .inr ⟨rfl, rfl⟩

/-- A string is a text where one is to be. -/
theorem fits_register_text {node : Node TranscriptSchema} {text : String}
    (h : node.deepValue = .string text) :
    (node.register transcriptSchemas (some .text)).Fits transcriptSchemas (some .text) := by
  cases node with
  | value v => trivial
  | text id own content => exact fun _ => ⟨rfl, is_text⟩
  | map id own entries | list id own items | movableList id own items => cases h

/-- The lanes of a block are a map of texts. -/
theorem fits_register_lanes {node : Node TranscriptSchema} {lanes : Lanes}
    (h : node.deepValue = lanes.toJson) :
    (node.register transcriptSchemas (some .lanes)).Fits transcriptSchemas (some .lanes) := by
  cases node with
  | value v => trivial
  | text id own content | list id own items | movableList id own items => cases h
  | map id own entries =>
      refine fun _ => ⟨rfl, is_lanes, Node.fitEntries_iff.2 fun entry hentry => ?_⟩
      rw [registerEntries_eq] at hentry
      obtain ⟨old, hold, rfl⟩ := List.mem_map.1 hentry
      have hdeep : (old.1, old.2.deepValue) ∈ Node.deepEntries entries := by
        rw [Node.deepEntries_eq]
        exact List.mem_map_of_mem (f := fun entry => (entry.1, entry.2.deepValue)) hold
      rw [Value.object.inj h] at hdeep
      obtain ⟨lane, -, heq⟩ := List.mem_map.1 hdeep
      rcases mapChild_lanes old.1 with hchild | ⟨hchild, hfield⟩
      · rw [hchild]
        exact fits_none _
      · rw [hchild, hfield]
        exact fits_register_text (Prod.mk.inj heq).2.symm

/-- **A block's JSON says what its containers are.** -/
theorem fits_register_block {node : Node TranscriptSchema} {block : UtteranceBlock}
    (h : node.deepValue = block.toJson) :
    (node.register transcriptSchemas (some .utterance)).Fits transcriptSchemas
      (some .utterance) := by
  cases node with
  | value v => trivial
  | text id own content | list id own items | movableList id own items => cases h
  | map id own entries =>
      refine fun _ => ⟨rfl, is_utterance, Node.fitEntries_iff.2 fun entry hentry => ?_⟩
      rw [registerEntries_eq] at hentry
      obtain ⟨⟨key, node⟩, hold, rfl⟩ := List.mem_map.1 hentry
      have hdeep : (key, node.deepValue) ∈ Node.deepEntries entries := by
        rw [Node.deepEntries_eq]
        exact List.mem_map_of_mem (f := fun entry => (entry.1, entry.2.deepValue)) hold
      rw [Value.object.inj h] at hdeep
      simp only [List.mem_cons, List.not_mem_nil, or_false, Prod.mk.injEq] at hdeep
      rcases hdeep with ⟨rfl, -⟩ | ⟨rfl, hlanes⟩ | ⟨rfl, -⟩ | ⟨rfl, htext⟩
      · exact fits_none _
      · exact fits_register_lanes hlanes
      · exact fits_none _
      · exact fits_register_text htext

/-! ### The state -/

section Entries

variable {α : Type*}

theorem lookup_insertEntry (key : String) (value : α) (entries : List (String × α))
    (other : String) :
    (insertEntry key value entries).lookup other =
      if other = key then some value else entries.lookup other := by
  split
  · rename_i heq
    rw [heq, lookup_insertEntry_self]
  · rename_i hne
    exact lookup_insertEntry_of_ne value entries hne

/-- Entries that come in one after the other, by key. -/
theorem foldl_insertEntry {source : List (String × α)} (hnodup : (source.map Prod.fst).Nodup)
    {target : List (String × α)} (hsorted : Sorted target) :
    Sorted (source.foldl (fun target entry => insertEntry entry.1 entry.2 target) target) ∧
      ∀ key, (source.foldl (fun target entry => insertEntry entry.1 entry.2 target) target).lookup
        key = (source.lookup key).or (target.lookup key) := by
  induction source generalizing target with
  | nil => exact ⟨hsorted, fun key => rfl⟩
  | cons entry source ih =>
      obtain ⟨hnot, hrest⟩ := List.nodup_cons.1 hnodup
      have hinsert : Sorted (insertEntry entry.1 entry.2 target) := hsorted.insertEntry entry.2
      obtain ⟨hsorted', hlookup⟩ := ih hrest hinsert
      refine ⟨hsorted', fun key => ?_⟩
      rw [List.foldl_cons, hlookup, lookup_insertEntry, List.lookup_cons]
      by_cases heq : key = entry.1
      · have hnone : source.lookup key = none := List.lookup_eq_none_iff.2 fun other hother =>
          bne_iff_ne.2 fun h => hnot (heq ▸ h ▸ List.mem_map_of_mem hother)
        rw [hnone, if_pos heq, heq, beq_self_eq_true]
        rfl
      · rw [if_neg heq, beq_false_of_ne heq]

/-- The roots, in order, are what is under the three keys. -/
theorem eq_roots {entries : List (String × α)} {a b c : α} (hsorted : Sorted entries)
    (hkeys : ∀ entry ∈ entries, entry.1 ∈ [utterancesKey, documentMetaKey, purgeReceiptsKey])
    (ha : entries.lookup utterancesKey = some a) (hb : entries.lookup documentMetaKey = some b)
    (hc : entries.lookup purgeReceiptsKey = some c) :
    entries = [(utterancesKey, a), (documentMetaKey, b), (purgeReceiptsKey, c)] := by
  have hthree : Sorted [(utterancesKey, a), (documentMetaKey, b), (purgeReceiptsKey, c)] :=
    sorted_iff.2 (by decide : [utterancesKey, documentMetaKey, purgeReceiptsKey].Pairwise (· < ·))
  refine hsorted.ext hthree fun key => ?_
  by_cases hmem : key ∈ [utterancesKey, documentMetaKey, purgeReceiptsKey]
  · simp only [List.mem_cons, List.not_mem_nil, or_false] at hmem
    rcases hmem with rfl | rfl | rfl
    · exact ha
    · exact hb
    · exact hc
  · have hnone : ∀ {l : List (String × α)}, (∀ entry ∈ l, entry.1 ∈
        [utterancesKey, documentMetaKey, purgeReceiptsKey]) → l.lookup key = none := fun h =>
      List.lookup_eq_none_iff.2 fun entry hentry => bne_iff_ne.2 fun heq =>
        hmem (heq ▸ h entry hentry)
    rw [hnone hkeys, hnone]
    intro entry hentry
    simp only [List.mem_cons, List.not_mem_nil, or_false] at hentry
    rcases hentry with rfl | rfl | rfl
    · exact List.mem_cons_self
    · exact List.mem_cons_of_mem _ List.mem_cons_self
    · exact List.mem_cons_of_mem _ (List.mem_cons_of_mem _ List.mem_cons_self)

end Entries

section Opening

variable {roots : List (String × Node TranscriptSchema)} {blocks : List UtteranceBlock}

/-- The state a document is opened with. -/
theorem state_open (h : TranscriptDocument roots blocks) :
    ∃ documentMeta purgeReceipts,
      shallowAssign defaultState (.object (Node.deepEntries roots)) =
        transcriptState blocks documentMeta purgeReceipts := by
  have hnodup : ((Node.deepEntries roots).map Prod.fst).Nodup := by
    rw [keys_deepEntries]
    exact h.sorted.nodup
  have hdefault : Sorted defaultState.objectEntries :=
    sorted_iff.2 (by decide : [utterancesKey, documentMetaKey, purgeReceiptsKey].Pairwise (· < ·))
  obtain ⟨hsorted, hlookup⟩ := foldl_insertEntry hnodup hdefault
  have hroot : ∀ key, (Node.deepEntries roots).lookup key =
      (roots.lookup key).map Node.deepValue := fun key => objectGet_deepEntries roots key
  have hmap : ∀ key ∈ [documentMetaKey, purgeReceiptsKey], ∃ entries,
      ((Node.deepEntries roots).lookup key).or (defaultState.objectEntries.lookup key) =
        some (.object entries) := by
    intro key hkey
    rw [hroot]
    cases hnode : roots.lookup key with
    | some node =>
        obtain ⟨id, schema, entries, rfl⟩ := h.maps key hkey node hnode
        exact ⟨_, rfl⟩
    | none =>
        simp only [List.mem_cons, List.not_mem_nil, or_false] at hkey
        rcases hkey with rfl | rfl
        · exact ⟨[], rfl⟩
        · exact ⟨[], rfl⟩
  have hitems : ((Node.deepEntries roots).lookup utterancesKey).or
      (defaultState.objectEntries.lookup utterancesKey) =
        some (.array (blocks.map UtteranceBlock.toJson)) := by
    rw [hroot]
    cases hnode : roots.lookup utterancesKey with
    | some node =>
        obtain ⟨id, schema, items, rfl, hitems⟩ := h.utterances node hnode
        rw [← hitems, ← Node.deepItems_eq]
        rfl
    | none =>
        rw [h.absent hnode]
        rfl
  obtain ⟨documentMeta, hmeta⟩ := hmap documentMetaKey (by decide)
  obtain ⟨purgeReceipts, hreceipts⟩ := hmap purgeReceiptsKey (by decide)
  refine ⟨documentMeta, purgeReceipts, congrArg Value.object (eq_roots hsorted ?_ ?_ ?_ ?_)⟩
  · intro entry hentry
    have hsome := Entries.lookup_of_mem hsorted.nodup hentry
    rw [hlookup, hroot] at hsome
    cases hnode : roots.lookup entry.1 with
    | some node => exact h.keys _ (Entries.mem_of_lookup hnode)
    | none =>
        rw [hnode] at hsome
        exact List.mem_map_of_mem (f := Prod.fst) (Entries.mem_of_lookup hsome)
  · rw [hlookup, hitems]
  · rw [hlookup, hmeta]
  · rw [hlookup, hreceipts]

/-- The list of blocks, as it is registered. -/
theorem list_open (h : TranscriptDocument roots blocks) :
    ∃ id items, (rootContainer roots utterancesKey .list).register transcriptSchemas
        (some .utterances) = .list id (some .utterances) items ∧
      items.map Node.deepValue = blocks.map UtteranceBlock.toJson ∧
      Node.FitItems transcriptSchemas (some .utterance) items := by
  have hregister : ∀ items : List (Node TranscriptSchema),
      items.map Node.deepValue = blocks.map UtteranceBlock.toJson →
        (Node.registerItems transcriptSchemas (some .utterance) items).map Node.deepValue =
          blocks.map UtteranceBlock.toJson ∧
        Node.FitItems transcriptSchemas (some .utterance)
          (Node.registerItems transcriptSchemas (some .utterance) items) := by
    intro items hitems
    constructor
    · rw [← Node.deepItems_eq, deepItems_register, Node.deepItems_eq, hitems]
    · rw [registerItems_eq]
      refine Node.fitItems_iff.2 fun item hitem => ?_
      obtain ⟨node, hnode, rfl⟩ := List.mem_map.1 hitem
      have hdeep : node.deepValue ∈ blocks.map UtteranceBlock.toJson :=
        hitems ▸ List.mem_map_of_mem hnode
      obtain ⟨block, -, hblock⟩ := List.mem_map.1 hdeep
      exact fits_register_block hblock.symm
  cases hnode : roots.lookup utterancesKey with
  | some node =>
      obtain ⟨id, schema, items, rfl, hitems⟩ := h.utterances node hnode
      refine ⟨id, _, ?_, hregister items hitems⟩
      rw [rootContainer, hnode]
      rfl
  | none =>
      refine ⟨.created, [], ?_, ?_, trivial⟩
      · rw [rootContainer, hnode]
        rfl
      · rw [h.absent hnode]
        rfl

/-- The other roots are maps. -/
theorem map_open {l : List (String × Node TranscriptSchema)} {key : String}
    (schema : Option TranscriptSchema)
    (h : ∀ node, l.lookup key = some node → ∃ id schema entries, node = .map id schema entries) :
    ∃ id entries, (rootContainer l key .map).register transcriptSchemas schema =
      .map id schema entries := by
  cases hnode : l.lookup key with
  | some node =>
      obtain ⟨id, own, entries, rfl⟩ := h node hnode
      refine ⟨id, Node.registerEntries transcriptSchemas schema entries, ?_⟩
      rw [rootContainer, hnode]
      rfl
  | none =>
      refine ⟨.created, [], ?_⟩
      rw [rootContainer, hnode]
      rfl

theorem keys_openRoot {α : Type*} {entries : List (String × α)} {keys : List String}
    {key : String} {value : α} (hkey : key ∈ keys) (h : ∀ entry ∈ entries, entry.1 ∈ keys) :
    ∀ entry ∈ insertEntry key value entries, entry.1 ∈ keys := by
  intro entry hentry
  rcases mem_insertEntry hentry with rfl | hentry
  · exact hkey
  · exact h entry hentry

/-- The roots a document is opened with. -/
theorem roots_open (h : TranscriptDocument roots blocks)
    (documentMeta purgeReceipts : List (String × Value)) :
    ∃ id items rest, openRoots transcriptSchemas .default .root roots
        (transcriptState blocks documentMeta purgeReceipts) =
          (utterancesKey, .list id (some .utterances) items) :: rest ∧
      TranscriptDocument ((utterancesKey, .list id (some .utterances) items) :: rest) blocks ∧
      Node.FitItems transcriptSchemas (some .utterance) items := by
  obtain ⟨id, items, hlist, hitems, hfits⟩ := list_open h
  let first := insertEntry utterancesKey ((rootContainer roots utterancesKey .list).register
    transcriptSchemas (some .utterances)) roots
  let second := insertEntry documentMetaKey ((rootContainer first documentMetaKey .map).register
    transcriptSchemas (some .documentMeta)) first
  let third := insertEntry purgeReceiptsKey ((rootContainer second purgeReceiptsKey .map).register
    transcriptSchemas (some .purgeReceipts)) second
  have hopen : openRoots transcriptSchemas .default .root roots
      (transcriptState blocks documentMeta purgeReceipts) = third := rfl
  have hsorted : Sorted third :=
    ((h.sorted.insertEntry _).insertEntry _).insertEntry _
  have hkeys : ∀ entry ∈ third,
      entry.1 ∈ [utterancesKey, documentMetaKey, purgeReceiptsKey] :=
    keys_openRoot (by decide) (keys_openRoot (by decide) (keys_openRoot (by decide) h.keys))
  have hmap : ∀ key ∈ [documentMetaKey, purgeReceiptsKey], ∃ id schema entries,
      third.lookup key = some (.map id schema entries) := by
    have hne : documentMetaKey ≠ purgeReceiptsKey := by decide
    intro key hkey
    have hold : key ≠ utterancesKey := by
      rintro rfl
      exact absurd hkey (by decide)
    have hfirst : first.lookup key = roots.lookup key := lookup_insertEntry_of_ne _ _ hold
    rcases List.mem_cons.1 hkey with rfl | hkey'
    · obtain ⟨i, entries, hnode⟩ := map_open (l := first) (some .documentMeta)
        (fun node hnode => h.maps _ hkey node (hfirst ▸ hnode))
      refine ⟨i, some .documentMeta, entries, ?_⟩
      rw [lookup_insertEntry_of_ne _ _ hne, lookup_insertEntry_self, hnode]
    · obtain rfl := List.mem_singleton.1 hkey'
      have hsecond : second.lookup purgeReceiptsKey = roots.lookup purgeReceiptsKey :=
        (lookup_insertEntry_of_ne _ _ hne.symm).trans hfirst
      obtain ⟨i, entries, hnode⟩ := map_open (l := second) (some .purgeReceipts)
        (fun node hnode => h.maps _ hkey node (hsecond ▸ hnode))
      refine ⟨i, some .purgeReceipts, entries, ?_⟩
      rw [lookup_insertEntry_self, hnode]
  have hutterances : third.lookup utterancesKey = some (.list id (some .utterances) items) := by
    have hne : utterancesKey ≠ purgeReceiptsKey := by decide
    have hne' : utterancesKey ≠ documentMetaKey := by decide
    rw [lookup_insertEntry, if_neg hne, lookup_insertEntry, if_neg hne', lookup_insertEntry_self,
      hlist]
  obtain ⟨metaId, metaSchema, documentMeta, hmeta⟩ := hmap documentMetaKey (by decide)
  obtain ⟨receiptsId, receiptsSchema, purgeReceipts, hreceipts⟩ :=
    hmap purgeReceiptsKey (by decide)
  have hthird := eq_roots hsorted hkeys hutterances hmeta hreceipts
  refine ⟨id, items, _, hopen.trans hthird, ?_, hfits⟩
  rw [← hthird]
  refine ⟨hsorted, hkeys, fun node hnode => ?_, fun hnone => ?_, fun key hkey node hnode => ?_⟩
  · rw [hutterances] at hnode
    exact ⟨id, _, items, (Option.some.inj hnode).symm, hitems⟩
  · rw [hutterances] at hnone
    cases hnone
  · obtain ⟨i, schema, entries, hentries⟩ := hmap key hkey
    exact ⟨i, schema, entries, Option.some.inj (hnode.symm.trans hentries)⟩

/-- **A document is opened with its blocks.** -/
theorem holds_open (h : TranscriptDocument roots blocks) (hdistinct : (blocks.map (·.id)).Nodup)
    (hvalid : ∀ block ∈ blocks, block.Valid) : Holds (openTranscript roots) blocks [] := by
  obtain ⟨documentMeta, purgeReceipts, hstate⟩ := state_open h
  obtain ⟨id, items, rest, hroots, hdocument, hfits⟩ := roots_open h documentMeta purgeReceipts
  have hopen : openTranscript roots = ⟨Node.numberEntries 0
      ((utterancesKey, .list id (some .utterances) items) :: rest),
        transcriptState blocks documentMeta purgeReceipts⟩ := by
    unfold openTranscript Inner.opened
    rw [hstate]
    exact congrArg (fun roots => Mirror.Inner.mk (Node.numberEntries 0 roots) _) hroots
  rw [hopen]
  refine holds_numbered hdistinct ?_ ?_ hfits
  · rw [List.append_nil]
    exact hvalid
  · rw [List.append_nil]
    exact hdocument

end Opening

end Transcripts
end ZuTalk
