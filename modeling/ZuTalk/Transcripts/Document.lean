/-
# Transcripts that are open

A document with the roots of the schema and a list of blocks (`TranscriptDocument`), and a facade
that has it open (`Holds`).  A state with other blocks is always taken (`Holds.commit`): from then
on the facade has the new blocks, and the document has them and those that are left behind.
-/

import ZuTalk.Transcripts.Projection

namespace ZuTalk
namespace Transcripts

open Mirror

/-- A block the mirror can tell from others: its id and its lanes have names. -/
structure UtteranceBlock.Valid (block : UtteranceBlock) : Prop where
  id_ne : block.id ≠ ""
  lanes : block.lanes.Named

/-- The lanes of the eight languages have names. -/
theorem Lanes.named_of_supported {lanes : Lanes} (h : ∀ lane ∈ lanes.keys, lane ∈ supportedLanes) :
    lanes.Named := by
  rintro lane hlane rfl
  exact absurd (h _ hlane) (by decide)

/-- A document with the roots of the schema, whose items are these blocks. -/
structure TranscriptDocument (roots : List (String × Node TranscriptSchema))
    (blocks : List UtteranceBlock) : Prop where
  sorted : Sorted roots
  keys : ∀ entry ∈ roots, entry.1 ∈ [utterancesKey, documentMetaKey, purgeReceiptsKey]
  utterances : ∀ node, roots.lookup utterancesKey = some node → ∃ id schema items,
    node = .list id schema items ∧
      items.map Node.deepValue = blocks.map UtteranceBlock.toJson
  absent : roots.lookup utterancesKey = none → blocks = []
  maps : ∀ key ∈ [documentMetaKey, purgeReceiptsKey], ∀ node, roots.lookup key = some node →
    ∃ id schema entries, node = .map id schema entries

/-- The state with these blocks. -/
def transcriptState (blocks : List UtteranceBlock)
    (documentMeta purgeReceipts : List (String × Value)) : Value :=
  .object [(utterancesKey, .array (blocks.map UtteranceBlock.toJson)),
    (documentMetaKey, .object documentMeta), (purgeReceiptsKey, .object purgeReceipts)]

/-- A facade that has these blocks, of a document that has some more after them. -/
structure Holds (p : TranscriptProjection) (blocks extra : List UtteranceBlock) : Prop where
  distinct : (blocks.map (·.id)).Nodup
  valid : ∀ block ∈ blocks ++ extra, block.Valid
  state : ∃ documentMeta purgeReceipts,
    p.state = transcriptState blocks documentMeta purgeReceipts
  document : TranscriptDocument p.roots (blocks ++ extra)
  opened : ∃ id items rest,
    p.roots = (utterancesKey, .list id (some .utterances) items) :: rest ∧
      Node.FitItems transcriptSchemas (some .utterance) items
  nodup : (Node.entryIds p.roots).Nodup
  numbered : ∀ i ∈ Node.entryIds p.roots, ∃ n, i = .numbered n

/-- The last of the blocks, of which none is wanted any more, where those that are wanted are in
order. -/
def leftoverBlocks (blocks newBlocks : List UtteranceBlock) : List UtteranceBlock :=
  if ((newBlocks.map (·.id)).filter (· ∈ blocks.map (·.id))).Sublist (blocks.map (·.id)) then
    blocks.rtakeWhile fun block => block.id ∉ newBlocks.map (·.id)
  else []

/-! ### What is left of the old blocks -/

section Leftover

variable {blocks newBlocks : List UtteranceBlock}

theorem rtakeWhile_map {α β : Type*} {p : β → Bool} (f : α → β) (l : List α) :
    (l.map f).rtakeWhile p = (l.rtakeWhile (p ∘ f)).map f := by
  rw [List.rtakeWhile, List.rtakeWhile, ← List.map_reverse, List.takeWhile_map, List.map_reverse]

theorem selectId_toJson {block : UtteranceBlock} (h : block.id ≠ "") :
    selectId itemId block.toJson = some block.id := by
  rw [selectId, itemId_toJson, Option.filter_some, if_pos (decide_eq_true h)]

theorem map_selectId (h : ∀ block ∈ blocks, block.Valid) :
    (blocks.map UtteranceBlock.toJson).map (selectId itemId) =
      (blocks.map (·.id)).map some := by
  rw [List.map_map, List.map_map]
  exact List.map_congr_left fun block hblock => selectId_toJson (h block hblock).id_ne

theorem keyed_blocks (h : ∀ block ∈ blocks, block.Valid)
    (hdistinct : (blocks.map (·.id)).Nodup) :
    Keyed itemId (blocks.map UtteranceBlock.toJson) where
  some item hitem := by
    obtain ⟨block, hblock, rfl⟩ := List.mem_map.1 hitem
    rw [selectId_toJson (h block hblock).id_ne]
    rfl
  distinct := by
    rw [map_selectId h]
    exact hdistinct.map (Option.some_injective _)

/-- What the changes leave of the items is the JSON of what is left of the blocks. -/
theorem leftover_toJson (h : ∀ block ∈ blocks, block.Valid)
    (h' : ∀ block ∈ newBlocks, block.Valid) :
    leftover itemId (blocks.map UtteranceBlock.toJson) (newBlocks.map UtteranceBlock.toJson) =
      (leftoverBlocks blocks newBlocks).map UtteranceBlock.toJson := by
  have hfilter : (((newBlocks.map UtteranceBlock.toJson).map (selectId itemId)).filter
      (· ∈ (blocks.map UtteranceBlock.toJson).map (selectId itemId))) =
        ((newBlocks.map (·.id)).filter (· ∈ blocks.map (·.id))).map some := by
    rw [map_selectId h, map_selectId h', List.filter_map]
    refine congrArg (List.map some) (List.filter_congr fun i _ => decide_eq_decide.2 ?_)
    exact List.mem_map_of_injective (Option.some_injective _)
  have hsub : ∀ ids : List String, (ids.map some).Sublist ((blocks.map (·.id)).map some) ↔
      ids.Sublist (blocks.map (·.id)) := by
    intro ids
    refine ⟨fun hids => ?_, fun hids => hids.map some⟩
    obtain ⟨others, hothers, heq⟩ := List.sublist_map_iff.1 hids
    exact List.map_injective_iff.2 (Option.some_injective _) heq ▸ hothers
  have hgone : (blocks.map UtteranceBlock.toJson).rtakeWhile
      (gone itemId (newBlocks.map UtteranceBlock.toJson)) =
        (blocks.rtakeWhile fun block => block.id ∉ newBlocks.map (·.id)).map
          UtteranceBlock.toJson := by
    rw [rtakeWhile_map]
    refine congrArg (List.map UtteranceBlock.toJson) (rtakeWhile_congr fun block hblock => ?_)
    refine decide_eq_decide.2 (not_congr ?_)
    rw [map_selectId h', selectId_toJson (h block hblock).id_ne]
    exact List.mem_map_of_injective (Option.some_injective _)
  unfold leftover leftoverBlocks
  rw [hfilter, hgone, map_selectId h, apply_ite (List.map UtteranceBlock.toJson)]
  exact ite_congr (propext (hsub _)) (fun _ => rfl) fun _ => rfl

end Leftover

/-! ### Documents and numbers -/

section Documents

variable {roots rest : List (String × Node TranscriptSchema)} {blocks : List UtteranceBlock}

theorem keys_numberEntries (n : ℕ) (entries : List (String × Node TranscriptSchema)) :
    (Node.numberEntries n entries).map Prod.fst = entries.map Prod.fst := by
  induction entries generalizing n with
  | nil => rfl
  | cons entry entries ih =>
      obtain ⟨key, node⟩ := entry
      rw [Node.numberEntries, List.map_cons, List.map_cons, ih]

theorem lookup_numberEntries (n : ℕ) (entries : List (String × Node TranscriptSchema))
    (key : String) :
    ∃ k, (Node.numberEntries n entries).lookup key = (entries.lookup key).map (Node.number k) := by
  induction entries generalizing n with
  | nil => exact ⟨0, rfl⟩
  | cons entry entries ih =>
      obtain ⟨other, node⟩ := entry
      rw [Node.numberEntries, List.lookup_cons, List.lookup_cons]
      cases key == other with
      | true => exact ⟨n, rfl⟩
      | false => exact ih (n + node.ids.length)

theorem sorted_iff {α : Type*} {entries : List (String × α)} :
    Sorted entries ↔ (entries.map Prod.fst).Pairwise (· < ·) := by
  rw [List.pairwise_map]
  rfl

/-- The numbers of its containers do not matter to a document. -/
theorem TranscriptDocument.number (h : TranscriptDocument roots blocks) (n : ℕ) :
    TranscriptDocument (Node.numberEntries n roots) blocks where
  sorted := by
    rw [sorted_iff, keys_numberEntries, ← sorted_iff]
    exact h.sorted
  keys entry hentry := by
    have hmem : entry.1 ∈ roots.map Prod.fst :=
      keys_numberEntries n roots ▸ List.mem_map_of_mem hentry
    obtain ⟨other, hother, heq⟩ := List.mem_map.1 hmem
    exact heq ▸ h.keys other hother
  utterances node hnode := by
    obtain ⟨k, hk⟩ := lookup_numberEntries n roots utterancesKey
    rw [hk] at hnode
    obtain ⟨old, hold, rfl⟩ := Option.map_eq_some_iff.1 hnode
    obtain ⟨id, schema, items, rfl, hitems⟩ := h.utterances old hold
    refine ⟨_, schema, _, rfl, ?_⟩
    rw [← Node.deepItems_eq, Node.deepItems_number, Node.deepItems_eq, hitems]
  absent hnone := by
    obtain ⟨k, hk⟩ := lookup_numberEntries n roots utterancesKey
    rw [hk, Option.map_eq_none_iff] at hnone
    exact h.absent hnone
  maps key hkey node hnode := by
    obtain ⟨k, hk⟩ := lookup_numberEntries n roots key
    rw [hk] at hnode
    obtain ⟨old, hold, rfl⟩ := Option.map_eq_some_iff.1 hnode
    obtain ⟨id, schema, entries, rfl⟩ := h.maps key hkey old hold
    exact ⟨_, schema, _, rfl⟩

/-- A document with other items. -/
theorem TranscriptDocument.replace {id : ContainerId} {schema : Option TranscriptSchema}
    {items items' : List (Node TranscriptSchema)} {blocks' : List UtteranceBlock}
    (h : TranscriptDocument ((utterancesKey, .list id schema items) :: rest) blocks)
    (hitems : items'.map Node.deepValue = blocks'.map UtteranceBlock.toJson) :
    TranscriptDocument ((utterancesKey, .list id schema items') :: rest) blocks' where
  sorted := by
    have hsorted := sorted_iff.1 h.sorted
    exact sorted_iff.2 hsorted
  keys entry hentry := by
    rcases List.mem_cons.1 hentry with rfl | hentry
    · exact List.mem_cons_self
    · exact h.keys entry (List.mem_cons_of_mem _ hentry)
  utterances node hnode := by
    rw [List.lookup_cons_self] at hnode
    exact ⟨id, schema, items', (Option.some.inj hnode).symm, hitems⟩
  absent hnone := by
    rw [List.lookup_cons_self] at hnone
    cases hnone
  maps key hkey node hnode := by
    have hne : key ≠ utterancesKey := by
      rintro rfl
      exact absurd hkey (by decide)
    rw [List.lookup_cons, beq_false_of_ne hne] at hnode
    refine h.maps key hkey node ?_
    rw [List.lookup_cons, beq_false_of_ne hne]
    exact hnode

end Documents

/-! ### Committing -/

section Commit

variable {p : TranscriptProjection} {blocks extra newBlocks : List UtteranceBlock}

theorem validate_state (blocks : List UtteranceBlock)
    (documentMeta purgeReceipts : List (String × Value)) :
    validateSchema transcriptSchemas (transcriptState blocks documentMeta purgeReceipts) .root =
      [] := by
  have hblocks := validate_blocks blocks 0
  refine List.append_eq_nil_iff.2 ⟨List.flatMap_eq_nil_iff.2 fun field hfield => ?_, rfl⟩
  simp only [transcriptSchemas, List.mem_cons, List.not_mem_nil, or_false] at hfield
  dsimp only
  rw [lookup_entryChecks, List.map_eq_nil_iff]
  rcases hfield with rfl | rfl | rfl
  · exact hblocks
  · rfl
  · rfl

/-- What changes of the roots: the items, if anything. -/
theorem changes_root {documentMeta purgeReceipts : List (String × Value)} {id : ContainerId}
    {items : List (Node TranscriptSchema)} {rest : List (String × Node TranscriptSchema)}
    {changes : List Change}
    (hstate : p.state = transcriptState blocks documentMeta purgeReceipts)
    (hroots : p.roots = (utterancesKey, .list id (some .utterances) items) :: rest)
    (hne : blocks.map UtteranceBlock.toJson ≠ newBlocks.map UtteranceBlock.toJson)
    (hchanges : diffListWithIdSelector transcriptSchemas id (some .utterance) itemId
      (Node.itemDiffers transcriptSchemas .default items) (blocks.map UtteranceBlock.toJson)
      (newBlocks.map UtteranceBlock.toJson) = .ok changes) :
    p.changes transcriptConfig (transcriptState newBlocks documentMeta purgeReceipts) =
      .ok changes := by
  have hutterances : diffEntry transcriptSchemas .default none
      (fun key type => (rootContainer p.roots key type).differ transcriptSchemas .default)
      (some .root) (transcriptState blocks documentMeta purgeReceipts)
      (utterancesKey, .array (newBlocks.map UtteranceBlock.toJson)) = .ok changes := by
    have hold : (transcriptState blocks documentMeta purgeReceipts).objectGet utterancesKey =
        some (.array (blocks.map UtteranceBlock.toJson)) := rfl
    have hroot : rootContainer p.roots utterancesKey .list =
        .list id (some .utterances) items := by
      rw [hroots]
      rfl
    have harray : Value.array (blocks.map UtteranceBlock.toJson) ≠
        .array (newBlocks.map UtteranceBlock.toJson) := fun h => hne (Value.array.inj h)
    unfold diffEntry
    dsimp only
    rw [hold]
    refine (if_neg Bool.false_ne_true).trans ((if_neg harray).trans ?_)
    have htype : ((((some TranscriptSchema.root).bind fun s =>
        if transcriptSchemas.kind s = .map ∨ transcriptSchemas.kind s = .root then
          transcriptSchemas.field s utterancesKey else none).bind
            transcriptSchemas.containerType).or (tryInferContainerType
              (.array (newBlocks.map UtteranceBlock.toJson)) .default)).filter (fun type =>
                isValueOfContainerType type (.array (newBlocks.map UtteranceBlock.toJson)) &&
                  isValueOfContainerType type (.array (blocks.map UtteranceBlock.toJson))) =
        some .list := rfl
    rw [htype]
    dsimp only
    rw [hroot]
    exact hchanges
  have hmeta : ∀ key entries, (transcriptState blocks documentMeta purgeReceipts).objectGet key =
      some (.object entries) → diffEntry transcriptSchemas .default none
        (fun key type => (rootContainer p.roots key type).differ transcriptSchemas .default)
        (some .root) (transcriptState blocks documentMeta purgeReceipts) (key, .object entries) =
          .ok [] := fun key entries h => diffEntry_same h rfl
  have hall : ∀ entry ∈ (transcriptState newBlocks documentMeta purgeReceipts).objectEntries,
      diffEntry transcriptSchemas .default none
        (fun key type => (rootContainer p.roots key type).differ transcriptSchemas .default)
        (some .root) (transcriptState blocks documentMeta purgeReceipts) entry =
          .ok (if entry.1 = utterancesKey then changes else []) := by
    intro entry hentry
    simp only [transcriptState, Value.objectEntries, List.mem_cons, List.not_mem_nil, or_false]
      at hentry
    rcases hentry with rfl | rfl | rfl
    · exact hutterances
    · exact hmeta documentMetaKey documentMeta rfl
    · exact hmeta purgeReceiptsKey purgeReceipts rfl
  have hdiff := diffMap_eq_ok hall
  unfold Inner.changes
  rw [hstate]
  refine Eq.trans (if_neg Bool.false_ne_true) (Eq.trans hdiff ?_)
  exact congrArg Except.ok (List.append_nil changes)

/-- Nothing changes of the roots when nothing changes of the items. -/
theorem changes_root_same {documentMeta purgeReceipts : List (String × Value)}
    (hstate : p.state = transcriptState blocks documentMeta purgeReceipts) :
    p.changes transcriptConfig (transcriptState blocks documentMeta purgeReceipts) = .ok [] := by
  have hall : ∀ entry ∈ (transcriptState blocks documentMeta purgeReceipts).objectEntries,
      diffEntry transcriptSchemas .default none
        (fun key type => (rootContainer p.roots key type).differ transcriptSchemas .default)
        (some .root) (transcriptState blocks documentMeta purgeReceipts) entry = .ok [] := by
    intro entry hentry
    simp only [transcriptState, Value.objectEntries, List.mem_cons, List.not_mem_nil, or_false]
      at hentry
    rcases hentry with rfl | rfl | rfl
    · exact diffEntry_same rfl rfl
    · exact diffEntry_same rfl rfl
    · exact diffEntry_same rfl rfl
  have hdiff := diffMap_eq_ok hall
  unfold Inner.changes
  rw [hstate]
  exact Eq.trans (if_neg Bool.false_ne_true) hdiff

/-- A list with these items, committed, is a facade with these blocks. -/
theorem holds_numbered {documentMeta purgeReceipts : List (String × Value)} {id : ContainerId}
    {items : List (Node TranscriptSchema)} {rest : List (String × Node TranscriptSchema)}
    (hdistinct : (blocks.map (·.id)).Nodup) (hvalid : ∀ block ∈ blocks ++ extra, block.Valid)
    (hdocument : TranscriptDocument ((utterancesKey, .list id (some .utterances) items) :: rest)
      (blocks ++ extra))
    (hfits : Node.FitItems transcriptSchemas (some .utterance) items) :
    Holds ⟨Node.numberEntries 0 ((utterancesKey, .list id (some .utterances) items) :: rest),
      transcriptState blocks documentMeta purgeReceipts⟩ blocks extra where
  distinct := hdistinct
  valid := hvalid
  state := ⟨documentMeta, purgeReceipts, rfl⟩
  document := hdocument.number 0
  opened := ⟨_, _, _, rfl, fits_numberItems 1 hfits⟩
  nodup := Node.nodup_entryIds_number 0 _
  numbered i hi := by
    rw [Node.entryIds_number] at hi
    obtain ⟨n, -, rfl⟩ := List.mem_map.1 hi
    exact ⟨n, rfl⟩

theorem toJson_injective : Function.Injective UtteranceBlock.toJson := fun a b h =>
  Option.some.inj ((itemBlock_toJson a).symm.trans ((congrArg itemBlock h).trans
    (itemBlock_toJson b)))

@[simp] theorem leftoverBlocks_self (blocks : List UtteranceBlock) :
    leftoverBlocks blocks blocks = [] := by
  unfold leftoverBlocks
  split
  · refine List.rtakeWhile_eq_nil_iff.2 fun hne hgone => ?_
    exact of_decide_eq_true hgone (List.mem_map_of_mem (List.getLast_mem hne))
  · rfl

/-- The list takes other blocks. -/
theorem writes_blocks {id : ContainerId} {items more : List (Node TranscriptSchema)}
    (hitems : items.map Node.deepValue = blocks.map UtteranceBlock.toJson)
    (hdistinct : (blocks.map (·.id)).Nodup) (hdistinct' : (newBlocks.map (·.id)).Nodup)
    (hvalid : ∀ block ∈ blocks, block.Valid) (hvalid' : ∀ block ∈ newBlocks, block.Valid)
    (hfits : Node.FitItems transcriptSchemas (some .utterance) (items ++ more))
    (hnodup : (Node.list id (some TranscriptSchema.utterances) (items ++ more)).ids.Nodup)
    (hnumbered : ∀ i ∈ (Node.list id (some TranscriptSchema.utterances) (items ++ more)).ids,
      i ≠ .created) :
    ∃ changes, diffListWithIdSelector transcriptSchemas id (some .utterance) itemId
        (Node.itemDiffers transcriptSchemas .default (items ++ more))
        (blocks.map UtteranceBlock.toJson) (newBlocks.map UtteranceBlock.toJson) =
          .ok changes ∧
      Writes transcriptSchemas .default changes (.list id (some .utterances) (items ++ more))
        (.array (newBlocks.map UtteranceBlock.toJson ++
          (leftoverBlocks blocks newBlocks).map UtteranceBlock.toJson ++
            more.map Node.deepValue)) := by
  have hids : ∀ i ∈ Node.itemIds items, i ∈ Node.itemIds (items ++ more) := by
    intro i hi
    rw [Node.itemIds_eq, List.flatMap_append, ← Node.itemIds_eq]
    exact List.mem_append_left _ hi
  have hitemIds : (Node.itemIds items).Nodup := by
    have hall := (List.nodup_cons.1 hnodup).2
    rw [Node.itemIds_eq, List.flatMap_append, ← Node.itemIds_eq] at hall
    exact (List.nodup_append'.1 hall).1
  have hfits' : Node.FitItems transcriptSchemas (some .utterance) items :=
    Node.fitItems_iff.2 fun item hitem =>
      (Node.fitItems_iff.1 hfits) item (List.mem_append_left _ hitem)
  have hwrite := @itemsWrite_blocks id items blocks newBlocks hitems
    (fun block hblock => (hvalid block hblock).lanes)
    (fun block hblock => (hvalid' block hblock).lanes) hfits' hitemIds
    fun i hi => hnumbered i (List.mem_cons_of_mem _ (hids i hi))
  have hkeyed := keyed_blocks hvalid hdistinct
  rw [← hitems] at hkeyed
  have hlist := writes_keyedList hkeyed (keyed_blocks hvalid' hdistinct') hwrite hnodup hnumbered
  rw [hitems, leftover_toJson hvalid hvalid'] at hlist
  exact hlist

/-- **A commit of other blocks succeeds**: the facade has them, and the document has them, those
that are left behind, and what it had besides. -/
theorem Holds.commit (h : Holds p blocks extra) (hdistinct : (newBlocks.map (·.id)).Nodup)
    (hvalid : ∀ block ∈ newBlocks, block.Valid) :
    ∃ p', TranscriptProjection.commit p
        (withItems p.state (newBlocks.map UtteranceBlock.toJson)) = (p', .ok ()) ∧
      Holds p' newBlocks (leftoverBlocks blocks newBlocks ++ extra) := by
  obtain ⟨documentMeta, purgeReceipts, hstate⟩ := h.state
  obtain ⟨id, items, rest, hroots, hfits⟩ := h.opened
  have hnew : withItems p.state (newBlocks.map UtteranceBlock.toJson) =
      transcriptState newBlocks documentMeta purgeReceipts := by
    rw [hstate]
    rfl
  have hdocument := h.document
  rw [hroots] at hdocument
  have hitems : items.map Node.deepValue = (blocks ++ extra).map UtteranceBlock.toJson := by
    obtain ⟨_, _, _, heq, hmap⟩ := hdocument.utterances _ List.lookup_cons_self
    obtain ⟨-, -, rfl⟩ := Node.list.inj heq
    exact hmap
  have hids : ∀ i ∈ (Node.list id (some TranscriptSchema.utterances) items).ids,
      i ∈ Node.entryIds p.roots := by
    intro i hi
    rw [hroots, Node.entryIds]
    exact List.mem_append_left _ hi
  have hnumbered : ∀ i ∈ (Node.list id (some TranscriptSchema.utterances) items).ids,
      ∃ n, i = .numbered n := fun i hi => h.numbered i (hids i hi)
  have hleft : ∀ block ∈ leftoverBlocks blocks newBlocks, block ∈ blocks := by
    intro block hblock
    unfold leftoverBlocks at hblock
    split at hblock
    · exact (List.rtakeWhile_suffix _ _).subset hblock
    · cases hblock
  have hvalid' : ∀ block ∈ newBlocks ++ (leftoverBlocks blocks newBlocks ++ extra),
      block.Valid := by
    intro block hblock
    rcases List.mem_append.1 hblock with hblock | hblock
    · exact hvalid block hblock
    · rcases List.mem_append.1 hblock with hblock | hblock
      · exact h.valid block (List.mem_append_left _ (hleft block hblock))
      · exact h.valid block (List.mem_append_right _ hblock)
  -- what is left to show is that the list takes some changes to what it is to be
  suffices hex : ∃ changes items', p.changes transcriptConfig
      (transcriptState newBlocks documentMeta purgeReceipts) = .ok changes ∧
      Takes transcriptSchemas .default changes (.list id (some .utterances) items) ∧
      (Node.list id (some TranscriptSchema.utterances) items).patch transcriptSchemas .default
        changes = .list id (some .utterances) items' ∧
      items'.map Node.deepValue =
        (newBlocks ++ (leftoverBlocks blocks newBlocks ++ extra)).map UtteranceBlock.toJson ∧
      Node.FitItems transcriptSchemas (some .utterance) items' by
    obtain ⟨changes, items', hchanges, htakes, hpatch, hitems', hfits'⟩ := hex
    have hset : p.setState transcriptConfig
        (transcriptState newBlocks documentMeta purgeReceipts) =
          (⟨Node.numberEntries 0 ((utterancesKey, .list id (some .utterances) items') :: rest),
            transcriptState newBlocks documentMeta purgeReceipts⟩, none) := by
      rw [← hpatch]
      exact @Inner.setState_of_takes _ transcriptConfig p _ [] rest utterancesKey _ changes
        (validate_state newBlocks documentMeta purgeReceipts) hchanges hroots h.nodup hnumbered
        htakes
    refine ⟨⟨Node.numberEntries 0 ((utterancesKey, .list id (some .utterances) items') :: rest),
      transcriptState newBlocks documentMeta purgeReceipts⟩, ?_,
      holds_numbered hdistinct hvalid' (hdocument.replace hitems') hfits'⟩
    rw [hnew, TranscriptProjection.commit, hset]
  by_cases hsame : blocks.map UtteranceBlock.toJson = newBlocks.map UtteranceBlock.toJson
  · obtain rfl : blocks = newBlocks := List.map_injective_iff.2 toJson_injective hsame
    refine ⟨[], items, changes_root_same hstate, ⟨nofun, fun _ _ hne => absurd rfl hne⟩,
      Node.patch_nil _ _ _, ?_, hfits⟩
    rw [leftoverBlocks_self]
    exact hitems
  · rw [List.map_append] at hitems
    obtain ⟨its, more, rfl, hits, hmore⟩ := List.map_eq_append_iff.1 hitems
    have hlist : (Node.list id (some TranscriptSchema.utterances) (its ++ more)).ids.Nodup := by
      have hall := h.nodup
      rw [hroots, Node.entryIds] at hall
      exact (List.nodup_append'.1 hall).1
    obtain ⟨changes, hdiff, hwrites⟩ := writes_blocks hits h.distinct hdistinct
      (fun block hblock => h.valid block (List.mem_append_left _ hblock)) hvalid hfits hlist
      fun i hi => by
        obtain ⟨n, rfl⟩ := hnumbered i hi
        exact nofun
    refine ⟨changes, _, changes_root hstate hroots hsame hdiff, hwrites.toTakes, rfl, ?_, ?_⟩
    · have hvalue := Value.array.inj hwrites.value
      rw [Node.deepItems_eq, hmore] at hvalue
      rw [List.map_append, List.map_append, ← List.append_assoc]
      exact hvalue
    · have hfit : (Node.list id (some TranscriptSchema.utterances) (its ++ more)).Fits
          transcriptSchemas (some .utterances) := by
        refine fun _ => ⟨rfl, ?_, hfits⟩
        rintro s ⟨⟩
        exact ⟨rfl, rfl⟩
      have hpatched : ((Node.list id (some TranscriptSchema.utterances) (its ++ more)).patch
          transcriptSchemas .default changes).Fits transcriptSchemas (some .utterances) :=
        fits_patch hfit
      exact (hpatched rfl).2.2

end Commit

end Transcripts
end ZuTalk
