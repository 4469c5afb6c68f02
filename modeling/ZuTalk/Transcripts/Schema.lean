/-
# The schema of a transcript

`transcript_schema` of `crates/vt-store/src/document_schema.rs`.  The JSON of a block is valid and
makes a new container that holds it, and the container of a block takes that of another
(`itemsWrite_blocks`).
-/

import ZuTalk.Transcripts.Block

namespace ZuTalk
namespace Transcripts

open Mirror

/-- The schemas of a transcript. -/
inductive TranscriptSchema
  | root | documentMeta | purgeReceipts | utterances | utterance | requiredString | text | lanes
  deriving DecidableEq, Repr

/-- `TRANSCRIPT_UTTERANCES`. -/
def utterancesKey : String := "utterances"

/-- `DOCUMENT_META`. -/
def documentMetaKey : String := "zutalk_document_meta"

/-- The key of the purge receipts. -/
def purgeReceiptsKey : String := "zutalk_session_purge_receipts"

/-- `transcript_schema`. -/
def transcriptSchemas : Schemas TranscriptSchema where
  kind
    | .root => .root
    | .documentMeta | .purgeReceipts | .utterance | .lanes => .map
    | .utterances => .list
    | .requiredString => .plainString
    | .text => .text
  fields
    | .root => [(utterancesKey, .utterances), (documentMetaKey, .documentMeta),
        (purgeReceiptsKey, .purgeReceipts)]
    | .utterance => [("id", .requiredString), ("lanes", .lanes), ("owner", .requiredString),
        ("text", .text)]
    | .lanes => ["de", "en", "es", "fr", "ja", "ko", "th", "zh"].map fun lane => (lane, .text)
    | _ => []
  item
    | .utterances => some .utterance
    | _ => none
  idSelector
    | .utterances => some itemId
    | _ => none
  required
    | .requiredString => true
    | _ => false

/-- The mirror of a transcript, with `MirrorOptions::default`. -/
def transcriptConfig : MirrorConfig TranscriptSchema :=
  ⟨transcriptSchemas, .root, true, .default⟩

/-! ### Validation -/

theorem lookup_entryChecks {σ : Type} (S : Schemas σ) (entries : List (String × Value))
    (key : String) :
    (entryChecks S entries).lookup key = (entries.lookup key).map (validateSchema S) := by
  induction entries with
  | nil => rfl
  | cons entry entries ih =>
      obtain ⟨k, v⟩ := entry
      rw [entryChecks, List.lookup_cons, List.lookup_cons, ih]
      cases key == k <;> rfl

theorem validate_lanes (lanes : Lanes) :
    validateSchema transcriptSchemas lanes.toJson .lanes = [] := by
  refine List.flatMap_eq_nil_iff.2 fun field hfield => ?_
  obtain ⟨lane, -, rfl⟩ := List.mem_map.1 hfield
  dsimp only
  rw [lookup_entryChecks, lookup_map Value.string]
  cases lanes.entries.lookup lane <;> rfl

/-- **The JSON of a block is valid.** -/
theorem validate_toJson (block : UtteranceBlock) :
    validateSchema transcriptSchemas block.toJson .utterance = [] := by
  have hlanes := validate_lanes block.lanes
  refine List.flatMap_eq_nil_iff.2 fun field hfield => ?_
  simp only [transcriptSchemas, List.mem_cons, List.not_mem_nil, or_false] at hfield
  dsimp only
  rw [lookup_entryChecks, List.map_eq_nil_iff]
  rcases hfield with rfl | rfl | rfl | rfl
  · rfl
  · exact hlanes
  · rfl
  · rfl

theorem validate_blocks (blocks : List UtteranceBlock) (index : ℕ) :
    itemErrors transcriptSchemas (blocks.map UtteranceBlock.toJson) .utterance index = [] := by
  induction blocks generalizing index with
  | nil => rfl
  | cons block blocks ih =>
      rw [List.map_cons, itemErrors, validate_toJson, ih]
      rfl

/-! ### New blocks -/

section Fresh

variable {options : InferContainerOptions}

theorem deepValue_build_lanes (lanes : Lanes) :
    (Node.build transcriptSchemas lanes.toJson .map (some .lanes)).deepValue = lanes.toJson := by
  have hentries : ∀ entries : List (String × String),
      Node.deepEntries (Node.buildEntries transcriptSchemas
        (entries.map fun entry => (entry.1, Value.string entry.2)) (some .lanes)) =
      entries.map fun entry => (entry.1, Value.string entry.2) := by
    intro entries
    induction entries with
    | nil => rfl
    | cons entry entries ih =>
        rw [List.map_cons, Node.buildEntries, Node.deepEntries, ih]
        split
        · split
          · rename_i type _ htype
            cases type with
            | text => rfl
            | map | list | movableList => cases htype
          · rfl
        · rfl
  exact congrArg Value.object (hentries lanes.entries)

/-- A new block holds what it is made from. -/
theorem deepValue_build (block : UtteranceBlock) :
    (Node.build transcriptSchemas block.toJson .map (some .utterance)).deepValue =
      block.toJson := by
  have hlanes := deepValue_build_lanes block.lanes
  change Value.object [("id", .string block.id),
    ("lanes", (Node.build transcriptSchemas block.lanes.toJson .map (some .lanes)).deepValue),
    ("owner", .string block.owner), ("text", .string block.text)] = _
  rw [hlanes]
  rfl

/-- A block comes into the list as a container of its own. -/
theorem inserts_toJson (id : ContainerId) (block : UtteranceBlock) :
    Inserts transcriptSchemas options id (some .utterance) (some .utterances) block.toJson
      (Node.build transcriptSchemas block.toJson .map (some .utterance)) where
  value := deepValue_build block
  created _ := Node.ids_build
  applies index items h := by
    change (insertAt items index _).elim _ _ = _
    rw [insertAt, if_pos h]
    rfl

end Fresh

/-! ### Blocks that are there -/

section Update

variable {options : InferContainerOptions}

theorem is_utterance : transcriptSchemas.Is .map (some .utterance) := by
  rintro s ⟨⟩
  exact ⟨rfl, rfl⟩

theorem is_lanes : transcriptSchemas.Is .map (some .lanes) := by
  rintro s ⟨⟩
  exact ⟨rfl, rfl⟩

theorem is_text : transcriptSchemas.Is .text (some .text) := by
  rintro s ⟨⟩
  exact ⟨rfl, rfl⟩

/-- Entries with a value in key order are in key order. -/
theorem sorted_of_deepEntries {entries : List (String × Node TranscriptSchema)}
    (h : Sorted (Node.deepEntries entries)) : Sorted entries := by
  have hmap : (entries.map fun entry => (entry.1, entry.2.deepValue)).Pairwise
      fun a b => a.1 < b.1 := Node.deepEntries_eq entries ▸ h
  have hpairs := List.pairwise_map.1 hmap
  exact hpairs

theorem keys_deepEntries (entries : List (String × Node TranscriptSchema)) :
    (Node.deepEntries entries).map Prod.fst = entries.map Prod.fst := by
  rw [Node.deepEntries_eq, List.map_map]
  rfl

/-- The lanes have names. -/
def Lanes.Named (lanes : Lanes) : Prop := ∀ lane ∈ lanes.keys, lane ≠ ""

/-- The lanes of a block take those of another. -/
theorem writes_lanes {id : ContainerId} {entries : List (String × Node TranscriptSchema)}
    {lanes lanes' : Lanes} (hnamed : lanes.Named) (hnamed' : lanes'.Named)
    (hentries : Value.object (Node.deepEntries entries) = lanes.toJson)
    (hnodup : (Node.map id (some .lanes) entries).ids.Nodup)
    (hnumbered : ∀ i ∈ (Node.map id (some .lanes) entries).ids, i ≠ .created) :
    ∃ changes, diffMapContainer transcriptSchemas .default id
        (fun key _ => ((Node.entryDiffers transcriptSchemas .default entries).lookup key).bind
          fun d => d) (some .lanes) (.object (Node.deepEntries entries)) lanes'.toJson =
          .ok changes ∧
      Writes transcriptSchemas .default changes (.map id (some .lanes) entries)
        lanes'.toJson := by
  have hdeep : Node.deepEntries entries =
      lanes.entries.map fun entry => (entry.1, Value.string entry.2) := Value.object.inj hentries
  have hkeys : entries.map Prod.fst = lanes.keys := by
    rw [← keys_deepEntries, hdeep, List.map_map]
    rfl
  refine writes_diffMapContainer is_lanes ?_ hnodup hnumbered ?_ ?_ ?_
  · refine sorted_of_deepEntries ?_
    rw [hdeep]
    exact lanes.sorted.map _
  · exact lanes'.sorted.map _
  · intro key hkey
    exact hnamed key (hkeys ▸ hkey)
  · intro entry hentry
    obtain ⟨⟨lane, text⟩, hlane, rfl⟩ := List.mem_map.1 hentry
    have hne : lane ≠ "" := hnamed' lane (List.mem_map_of_mem hlane)
    cases hfield : transcriptSchemas.mapField (some .lanes) lane with
    | none =>
        refine writes_plain is_lanes hne ?_ rfl
        rw [hfield]
        rfl
    | some field =>
        have hmem : (lane, field) ∈ transcriptSchemas.fields .lanes :=
          Entries.mem_of_lookup hfield
        obtain ⟨other, -, heq⟩ := List.mem_map.1 hmem
        obtain ⟨-, rfl⟩ := Prod.mk.inj heq
        exact writes_textField is_lanes hne hfield is_text text

/-- The keys of a block are in order. -/
theorem sorted_block (id owner text lanes : Value) :
    Sorted [("id", id), ("lanes", lanes), ("owner", owner), ("text", text)] := by
  have hkeys : ([("id", id), ("lanes", lanes), ("owner", owner), ("text", text)].map
      Prod.fst).Pairwise (· < ·) := (by decide : ["id", "lanes", "owner", "text"].Pairwise (· < ·))
  exact List.pairwise_map.1 hkeys

/-- The container of a block takes another block. -/
theorem writes_block {id : ContainerId} {entries : List (String × Node TranscriptSchema)}
    {block block' : UtteranceBlock} (hnamed : block.lanes.Named) (hnamed' : block'.lanes.Named)
    (hentries : Value.object (Node.deepEntries entries) = block.toJson)
    (hfits : Node.FitEntries transcriptSchemas (some .utterance) entries)
    (hnodup : (Node.map id (some .utterance) entries).ids.Nodup)
    (hnumbered : ∀ i ∈ (Node.map id (some .utterance) entries).ids, i ≠ .created) :
    ∃ changes, diffMapContainer transcriptSchemas .default id
        (fun key _ => ((Node.entryDiffers transcriptSchemas .default entries).lookup key).bind
          fun d => d) (some .utterance) (.object (Node.deepEntries entries)) block'.toJson =
          .ok changes ∧
      Writes transcriptSchemas .default changes (.map id (some .utterance) entries)
        block'.toJson := by
  have hdeep : Node.deepEntries entries = [("id", .string block.id),
      ("lanes", block.lanes.toJson), ("owner", .string block.owner),
      ("text", .string block.text)] := Value.object.inj hentries
  refine writes_diffMapContainer is_utterance (sorted_of_deepEntries ?_) hnodup hnumbered ?_ ?_ ?_
  · rw [hdeep]
    exact sorted_block ..
  · exact sorted_block ..
  · rw [← keys_deepEntries, hdeep]
    exact (by decide : ∀ key ∈ ["id", "lanes", "owner", "text"], key ≠ "")
  · intro entry hentry
    simp only [List.mem_cons, List.not_mem_nil, or_false] at hentry
    rcases hentry with rfl | rfl | rfl | rfl
    · exact writes_plain is_utterance (by decide : "id" ≠ "") rfl rfl
    · refine writes_mapField is_utterance (by decide : "lanes" ≠ "") rfl is_lanes hfits
        (deepValue_build_lanes block'.lanes) fun j inner hlookup => ?_
      have hmem := Entries.mem_of_lookup hlookup
      have hids : ∀ i ∈ (Node.map j (some .lanes) inner).ids, i ∈ Node.entryIds entries :=
        fun i hi => mem_entryIds.2 ⟨_, hmem, hi⟩
      refine writes_lanes hnamed hnamed' ?_ ?_ fun i hi =>
        hnumbered i (List.mem_cons_of_mem _ (hids i hi))
      · have hlanes := objectGet_deepEntries entries "lanes"
        rw [hdeep, hlookup] at hlanes
        exact (Option.some.inj hlanes).symm
      · have hentryIds := (List.nodup_cons.1 hnodup).2
        rw [Node.entryIds_eq] at hentryIds
        exact (List.nodup_flatMap.1 hentryIds).1 _ hmem
    · exact writes_plain is_utterance (by decide : "owner" ≠ "") rfl rfl
    · exact writes_textField is_utterance (by decide : "text" ≠ "") rfl is_text block'.text

/-- **Blocks come into the list, and items take other blocks**, where they are what the schema
says. -/
theorem itemsWrite_blocks {id : ContainerId} {items : List (Node TranscriptSchema)}
    {blocks newBlocks : List UtteranceBlock}
    (hitems : items.map Node.deepValue = blocks.map UtteranceBlock.toJson)
    (hnamed : ∀ block ∈ blocks, block.lanes.Named)
    (hnamed' : ∀ block ∈ newBlocks, block.lanes.Named)
    (hfits : Node.FitItems transcriptSchemas (some .utterance) items)
    (hnodup : (Node.itemIds items).Nodup) (hnumbered : ∀ i ∈ Node.itemIds items, i ≠ .created) :
    ItemsWrite transcriptSchemas .default id (some .utterance) (some .utterances) itemId
      (fun v => Node.build transcriptSchemas v .map (some .utterance)) items
      (newBlocks.map UtteranceBlock.toJson) where
  fresh v hv := by
    obtain ⟨block, -, rfl⟩ := List.mem_map.1 hv
    exact inserts_toJson id block
  update node hnode v hv _ differ hdiffer := by
    obtain ⟨block', hblock', rfl⟩ := List.mem_map.1 hv
    have hdeep : node.deepValue ∈ blocks.map UtteranceBlock.toJson :=
      hitems ▸ List.mem_map_of_mem hnode
    obtain ⟨block, hblock, hjson⟩ := List.mem_map.1 hdeep
    have hfit := (Node.fitItems_iff.1 hfits) node hnode
    have hids : ∀ i ∈ node.ids, i ∈ Node.itemIds items := fun i hi =>
      mem_itemIds.2 ⟨node, hnode, hi⟩
    cases node with
    | value v => cases hdiffer
    | text j own content => cases hjson
    | list j own inner | movableList j own inner => cases hjson
    | map j own entries =>
        obtain ⟨rfl, -, hentries⟩ := hfit rfl
        obtain rfl := Option.some.inj hdiffer
        refine writes_block (hnamed block hblock) (hnamed' block' hblock') hjson.symm hentries ?_
          fun i hi => hnumbered i (hids i hi)
        rw [Node.itemIds_eq] at hnodup
        exact (List.nodup_flatMap.1 hnodup).1 _ hnode

end Update

end Transcripts
end ZuTalk
