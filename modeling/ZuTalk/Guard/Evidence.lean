/-
# What an update from elsewhere leaves of the evidence

`crates/vt-store/src/block_guard.rs`, and `import_remote_update` of
`crates/vt-store/src/editor_bridge.rs`.

The blocks of a transcript that belong to a capture are evidence: which there are, in which
order, under which id and owner.  Whatever is admitted deletes no block, inserts none but the
user's, and changes a block that is not the user's under its `text` and `lanes` alone
(`fieldString_eq`); the roots of the document's foundation stay as they are.

What a user's block may become is not checked: an update may hand it to a capture.  Along a run
of admitted updates the evidence is kept exactly if no update does that (`evidence_kept_iff`).
-/

import ZuTalk.Guard.Admission
import ZuTalk.Library.Machine

namespace ZuTalk
namespace Guard

open Checks Containers

/-- The list of blocks of a transcript. -/
def UTTERANCES : ContainerID := .root TRANSCRIPT_UTTERANCES .list

/-- The blocks of a transcript. -/
def blocks (doc : LoroDoc) : List ValueOrContainer := doc.listItems UTTERANCES

theorem utterances_path (doc : LoroDoc) : doc.Path [UTTERANCES] UTTERANCES := .root trivial

/-- Whether an owner is a capture, `capture:<session_id>`. -/
def isCapture (owner : String) : Bool := "capture:".toList.isPrefixOf owner.toList

/-- Whether a block belongs to a capture. -/
def captureOwned (doc : LoroDoc) (block : ValueOrContainer) : Bool :=
  (itemString doc "owner" block).any isCapture

/-- The evidence: the blocks of captures in order, each with its id and owner. -/
def captureBlocks (doc : LoroDoc) : List (ValueOrContainer × Option String × Option String) :=
  ((blocks doc).filter (captureOwned doc)).map fun block =>
    (block, itemString doc "id" block, itemString doc "owner" block)

/-- The names of the roots that are facts of this device. -/
def IsFoundation (name : String) : Prop := name = DOCUMENT_META ∨ name = PURGE_RECEIPTS

/-- The evidence of a transcript, every block of it and its foundation are as they were. -/
structure EvidenceKept (before after : LoroDoc) : Prop where
  captures : captureBlocks after = captureBlocks before
  blocks : (blocks before).Sublist (blocks after)
  foundation : ∀ name, IsFoundation name → ∀ containerType path c,
    path.head? = some (.root name containerType) →
      (before.Path path c ↔ after.Path path c) ∧
        (before.Path path c → after.content c = before.content c)

theorem EvidenceKept.refl (doc : LoroDoc) : EvidenceKept doc doc :=
  ⟨rfl, List.Sublist.refl _, fun _ _ _ _ _ _ => ⟨Iff.rfl, fun _ => rfl⟩⟩

/-- The update hands a block of the user to a capture. -/
def HandsOver {Update : Type} (importUpdate : LoroDoc → Update →
    Option (LoroDoc × List (Event ContainerID LoroValue))) (doc : LoroDoc) (update : Update) :
    Prop :=
  ∃ after events, importUpdate doc update = some (after, events) ∧
    ∃ block ∈ blocks doc, itemString doc "owner" block = some USER_OWNER ∧
      captureOwned after block = true

theorem captureOwned_of_user {doc : LoroDoc} {block : ValueOrContainer}
    (h : itemString doc "owner" block = some USER_OWNER) : captureOwned doc block = false := by
  rw [captureOwned, h]
  decide

theorem deepString_value (doc doc' : LoroDoc) (v : LoroValue) :
    deepString doc (.value v) = deepString doc' (.value v) := by
  cases v <;> rfl

section Admitted

variable {before after : LoroDoc} {events : List (Event ContainerID LoroValue)}

/-- An event of the list of blocks deletes nothing and brings nothing but blocks of the user. -/
theorem list_event (h : Reports before after events)
    (hok : ∀ e ∈ events, judgeEvent before after .transcript e = .ok ())
    {e : Event ContainerID LoroValue} (he : e ∈ events) (htarget : e.target = UTTERANCES) :
    ListDelta.deletes e.deltas = 0 ∧
      ∀ item ∈ ListDelta.inserted e.deltas, itemString after "owner" item = some USER_OWNER := by
  obtain ⟨containerType, below, hchain, hlist, -⟩ := judgeEvent_eq_ok (hok e he)
  have hpath : after.Path e.chain UTTERANCES := htarget ▸ h.chains e he
  have hroot : e.chain = [UTTERANCES] := hpath.unique (utterances_path after)
  have hbelow : below = [] := (List.cons.inj (hchain.symm.trans hroot)).2
  exact judgeBlockList_eq_ok.1 (hlist hbelow)

/-- Every block stays, in order. -/
theorem blocks_sublist (h : Reports before after events)
    (hok : ∀ e ∈ events, judgeEvent before after .transcript e = .ok ()) :
    (blocks before).Sublist (blocks after) := by
  rw [blocks, blocks, h.lists (utterances_path after)]
  refine ListDelta.sublist_foldl_apply (fun e he => ?_) _
  obtain ⟨hmem, htarget⟩ := List.mem_filter.1 he
  exact (list_event h hok hmem (of_decide_eq_true htarget)).1

/-- What belongs to a capture afterwards was there before. -/
theorem filter_blocks (h : Reports before after events)
    (hok : ∀ e ∈ events, judgeEvent before after .transcript e = .ok ()) :
    (blocks after).filter (captureOwned after) = (blocks before).filter (captureOwned after) := by
  have hlist : ∀ e ∈ events.filter fun e => e.target = UTTERANCES,
      ListDelta.deletes e.deltas = 0 ∧ ∀ item ∈ ListDelta.inserted e.deltas,
        itemString after "owner" item = some USER_OWNER := by
    intro e he
    obtain ⟨hmem, htarget⟩ := List.mem_filter.1 he
    exact list_event h hok hmem (of_decide_eq_true htarget)
  rw [blocks, blocks, h.lists (utterances_path after)]
  exact ListDelta.filter_foldl_apply (fun e he => (hlist e he).1)
    (fun e he item hitem => captureOwned_of_user ((hlist e he).2 item hitem)) _

/-- The way down to a block. -/
theorem block_path (hsub : (blocks before).Sublist (blocks after)) {block : ContainerID}
    (hblock : .container block ∈ blocks before) : after.Path [UTTERANCES, block] block := by
  obtain ⟨items, hcontent, hitem⟩ := after.exists_of_mem_listItems (hsub.subset hblock)
  exact .child (utterances_path after) hcontent hitem

/-- An event in a block that is not the user's lies under its `text` or `lanes`. -/
theorem lane_event (hok : ∀ e ∈ events, judgeEvent before after .transcript e = .ok ())
    {block : ContainerID} (hblock : .container block ∈ blocks before)
    (howner : fieldString before block "owner" ≠ some USER_OWNER)
    {e : Event ContainerID LoroValue} (he : e ∈ events) {rest : List ContainerID}
    (hchain : e.chain = UTTERANCES :: block :: rest) :
    ∃ child, rest.head? = some child ∧ (before.field block "text" = some (.container child) ∨
      before.field block "lanes" = some (.container child)) := by
  obtain ⟨items, hcontent, hitem⟩ := before.exists_of_mem_listItems hblock
  obtain ⟨inner, hinner⟩ := before.held_exists hcontent hitem
  obtain ⟨containerType, below, hchain', -, hjudged⟩ := judgeEvent_eq_ok (hok e he)
  have hbelow : below = block :: rest := (List.cons.inj (hchain'.symm.trans hchain)).2
  have hlane := (judgeBlock_eq_ok (by rw [hinner]; rfl) (hjudged block rest hbelow)).resolve_left
    howner
  rw [hchain, laneSubtree, List.getElem?_cons_succ, List.getElem?_cons_succ,
    ← List.head?_eq_getElem?] at hlane
  obtain ⟨child, hchild, hany⟩ := Option.any_eq_true _ _ |>.1 hlane
  refine ⟨child, hchild, ?_⟩
  obtain ⟨key, hkey, hfield⟩ := List.any_eq_true.1 hany
  have hentry : before.field block key = some (.container child) := by
    split at hfield
    · rename_i handler hentry
      rw [hentry, of_decide_eq_true hfield]
    · cases hfield
  rcases List.mem_cons.1 hkey with rfl | hkey
  · exact .inl hentry
  · exact .inr (List.mem_singleton.1 hkey ▸ hentry)

/-- **What names a block that is not the user's stays**: every string of it but those under
`text` and `lanes`. -/
theorem fieldString_eq (h : Reports before after events)
    (hok : ∀ e ∈ events, judgeEvent before after .transcript e = .ok ()) {block : ContainerID}
    (hblock : .container block ∈ blocks before)
    (howner : fieldString before block "owner" ≠ some USER_OWNER) {key : String}
    (htext : key ≠ "text") (hlanes : key ≠ "lanes") :
    fieldString after block key = fieldString before block key := by
  have hpath := block_path (blocks_sublist h hok) hblock
  have hcontent : after.content block = before.content block := by
    refine h.content_eq hpath fun e he hchain => ?_
    obtain ⟨child, hchild, -⟩ := lane_event hok hblock howner he hchain
    cases hchild
  have hfield : after.field block key = before.field block key := by
    rw [Document.field, Document.field, hcontent]
  rw [fieldString, fieldString, hfield]
  refine Option.bind_congr fun item hitem => ?_
  cases item with
  | value v => exact deepString_value after before v
  | container c =>
      obtain ⟨field, hmap, hkey⟩ := before.exists_of_field_eq_some hitem
      have hchild : after.Path [UTTERANCES, block, c] c :=
        .child hpath (hcontent.trans hmap) ⟨key, hkey⟩
      have hsame : after.content c = before.content c := by
        refine h.content_eq hchild fun e he hchain => ?_
        obtain ⟨child, hc, hentry⟩ := lane_event hok hblock howner he hchain
        obtain rfl := Option.some.inj hc
        rcases hentry with hentry | hentry
        · obtain ⟨field', hmap', hkey'⟩ := before.exists_of_field_eq_some hentry
          obtain rfl := Content.map.inj (Option.some.inj (hmap.symm.trans hmap'))
          exact htext (before.key_once hmap hkey hkey')
        · obtain ⟨field', hmap', hkey'⟩ := before.exists_of_field_eq_some hentry
          obtain rfl := Content.map.inj (Option.some.inj (hmap.symm.trans hmap'))
          exact hlanes (before.key_once hmap hkey hkey')
      rw [deepString, deepString, hsame]

/-- The same of any block of the list. -/
theorem itemString_eq (h : Reports before after events)
    (hok : ∀ e ∈ events, judgeEvent before after .transcript e = .ok ())
    {block : ValueOrContainer} (hblock : block ∈ blocks before)
    (howner : itemString before "owner" block ≠ some USER_OWNER) {key : String}
    (htext : key ≠ "text") (hlanes : key ≠ "lanes") :
    itemString after key block = itemString before key block := by
  cases block with
  | value v =>
      cases v with
      | map entries => exact Option.bind_congr fun v _ => deepString_value after before v
      | _ => rfl
  | container c => exact fieldString_eq h hok hblock howner htext hlanes

/-- An admitted update keeps the evidence if it hands no block of the user to a capture. -/
theorem captures_of_kept (h : Reports before after events)
    (hok : ∀ e ∈ events, judgeEvent before after .transcript e = .ok ())
    (hkept : ∀ block ∈ blocks before, itemString before "owner" block = some USER_OWNER →
      captureOwned after block = false) : captureBlocks after = captureBlocks before := by
  have hcapture : ∀ block ∈ blocks before,
      captureOwned after block = captureOwned before block := by
    intro block hblock
    by_cases howner : itemString before "owner" block = some USER_OWNER
    · rw [hkept block hblock howner, captureOwned_of_user howner]
    · rw [captureOwned, captureOwned, itemString_eq h hok hblock howner (by decide) (by decide)]
  rw [captureBlocks, captureBlocks, filter_blocks h hok, List.filter_congr hcapture]
  refine List.map_congr_left fun block hmem => ?_
  obtain ⟨hblock, hcap⟩ := List.mem_filter.1 hmem
  have howner : itemString before "owner" block ≠ some USER_OWNER := fun howner => by
    rw [captureOwned_of_user howner] at hcap
    cases hcap
  rw [itemString_eq h hok hblock howner (by decide) (by decide),
    itemString_eq h hok hblock howner (by decide) (by decide)]

/-- The roots of the foundation are untouched. -/
theorem foundation_kept (h : Reports before after events)
    (hok : ∀ e ∈ events, judgeEvent before after .transcript e = .ok ()) {name : String}
    (hname : IsFoundation name) {containerType : ContainerType} {path : List ContainerID}
    {c : ContainerID} (hhead : path.head? = some (.root name containerType)) :
    (before.Path path c ↔ after.Path path c) ∧
      (before.Path path c → after.content c = before.content c) := by
  refine h.content_eq_of_root (fun e he hroot => ?_) hhead
  obtain ⟨containerType', below, hchain, -, -⟩ := judgeEvent_eq_ok (hok e he)
  rw [hchain] at hroot
  obtain rfl := (ContainerID.root.inj (Option.some.inj hroot)).1
  rcases hname with hname | hname <;> exact absurd hname (by decide)

end Admitted

theorem EvidenceKept.trans {a b c : LoroDoc} (hab : EvidenceKept a b) (hbc : EvidenceKept b c) :
    EvidenceKept a c where
  captures := hbc.captures.trans hab.captures
  blocks := hab.blocks.trans hbc.blocks
  foundation name hname containerType path x hhead := by
    obtain ⟨hpath, hcontent⟩ := hab.foundation name hname containerType path x hhead
    obtain ⟨hpath', hcontent'⟩ := hbc.foundation name hname containerType path x hhead
    exact ⟨hpath.trans hpath', fun h => (hcontent' (hpath.1 h)).trans (hcontent h)⟩

section Runs

variable {Update : Type} {importUpdate : LoroDoc → Update →
  Option (LoroDoc × List (Event ContainerID LoroValue))}

/-- What is received was imported, every event of it admitted. -/
theorem receive_eq_some {kind : DocumentKind} {current after : LoroDoc} {update : Update}
    (h : receive importUpdate kind current update = some after) :
    ∃ events, importUpdate current update = some (after, events) ∧
      ∀ e ∈ events, judgeEvent current after kind e = .ok () := by
  unfold receive at h
  split at h
  · cases h
  · rename_i hadmit
    obtain ⟨⟨fork, events⟩, himport, rfl⟩ := Option.map_eq_some_iff.1 h
    rw [admitBlockUpdate, himport] at hadmit
    exact ⟨events, himport, forM_eq_ok.1 hadmit⟩

/-- **What one admitted update does to the evidence**: it keeps it exactly if it hands no block
of the user to a capture. -/
theorem evidenceKept_iff_of_receive
    (himport : ∀ doc update after events, importUpdate doc update = some (after, events) →
      Reports doc after events) {start before after : LoroDoc} {update : Update}
    (hstart : EvidenceKept start before)
    (h : receive importUpdate .transcript before update = some after) :
    EvidenceKept start after ↔ ¬ HandsOver importUpdate before update := by
  obtain ⟨events, hevents, hok⟩ := receive_eq_some h
  have hreports := himport before update after events hevents
  have hsub := blocks_sublist hreports hok
  constructor
  · rintro hkept ⟨after', events', hevents', block, hblock, howner, hcapture⟩
    obtain ⟨rfl, -⟩ := Prod.mk.inj (Option.some.inj (hevents.symm.trans hevents'))
    have hnow : (block, itemString after "id" block, itemString after "owner" block) ∈
        captureBlocks after :=
      List.mem_map_of_mem (List.mem_filter.2 ⟨hsub.subset hblock, hcapture⟩)
    rw [hkept.captures, ← hstart.captures] at hnow
    obtain ⟨block', hmem, heq⟩ := List.mem_map.1 hnow
    obtain rfl : block' = block := (Prod.mk.inj heq).1
    have hbefore := (List.mem_filter.1 hmem).2
    rw [captureOwned_of_user howner] at hbefore
    cases hbefore
  · intro hnot
    refine hstart.trans ⟨captures_of_kept hreports hok fun block hblock howner => ?_, hsub,
      fun name hname _ _ _ hhead => foundation_kept hreports hok hname hhead⟩
    by_contra hcapture
    rw [Bool.not_eq_false] at hcapture
    exact hnot ⟨after, events, hevents, block, hblock, howner, hcapture⟩

/-- **The evidence along a run of admitted updates**: it is kept in every state reached exactly
if no update hands a block of the user to a capture. -/
theorem evidence_kept_iff
    (himport : ∀ doc update after events, importUpdate doc update = some (after, events) →
      Reports doc after events) (start reached : LoroDoc) (updates : List Update)
    (hrun : Machine.run (receive importUpdate .transcript) start updates = some reached) :
    (∀ upTo, upTo <+: updates → ∀ doc,
      Machine.run (receive importUpdate .transcript) start upTo = some doc →
        EvidenceKept start doc) ↔
      Machine.Along (receive importUpdate .transcript)
        (fun doc update => ¬ HandsOver importUpdate doc update) start updates := by
  rw [← Machine.along_iff_of_run hrun]
  refine Machine.forall_prefix_iff_along (fun before update after hkept hstep => ?_)
    (fun before update hnone hpossible => absurd hnone hpossible) (EvidenceKept.refl start)
  rw [evidenceKept_iff_of_receive himport hkept hstep]
  exact ⟨fun h _ => h, fun h => h fun hnone => by rw [hstep] at hnone; cases hnone⟩

end Runs

section Handover

/-- The map of the block of a capture in `noteTranscript`. -/
def captureBlock : ContainerID := .normal 1 0 .map

/-- The text of that block. -/
def captureText : ContainerID := .normal 1 3 .text

/-- The map of the note behind it. -/
def noteBlock : ContainerID := .normal 1 10 .map

/-- The text of the note. -/
def noteText : ContainerID := .normal 1 13 .text

/-- The entries of a block. -/
def blockFields (id owner : String) (text : ContainerID) (key : String) :
    Option ValueOrContainer :=
  if key = "id" then some (.value (.string id))
  else if key = "owner" then some (.value (.string owner))
  else if key = "text" then some (.container text)
  else none

/-- What the containers of the transcript hold. -/
def noteContent (owner text : String) (c : ContainerID) :
    Option (Content ContainerID LoroValue) :=
  if c = UTTERANCES then some (.list [.container captureBlock, .container noteBlock])
  else if c = captureBlock then some (.map (blockFields "c1" "capture:s1" captureText))
  else if c = captureText then some (.text "Bonjour")
  else if c = noteBlock then some (.map (blockFields "n1" owner noteText))
  else if c = noteText then some (.text text)
  else none

theorem blockFields_eq_container {id owner key : String} {text c : ContainerID}
    (h : blockFields id owner text key = some (.container c)) : key = "text" ∧ c = text := by
  unfold blockFields at h
  split_ifs at h with hid howner htext
  · cases h
  · cases h
  · exact ⟨htext, (Item.container.inj (Option.some.inj h)).symm⟩

theorem noteContent_holds {owner text : String} {p c : ContainerID}
    {held : Content ContainerID LoroValue} (h : noteContent owner text p = some held)
    (hheld : held.Holds c) : p = UTTERANCES ∧ c = captureBlock ∨ p = UTTERANCES ∧ c = noteBlock ∨
      p = captureBlock ∧ c = captureText ∨ p = noteBlock ∧ c = noteText := by
  unfold noteContent at h
  split_ifs at h with hroot hcapture hspoken hblock htext
  · obtain rfl := Option.some.inj h
    rcases List.mem_pair.1 hheld with heq | heq
    · exact .inl ⟨hroot, Item.container.inj heq⟩
    · exact .inr (.inl ⟨hroot, Item.container.inj heq⟩)
  · obtain rfl := Option.some.inj h
    obtain ⟨key, hkey⟩ := hheld
    exact .inr (.inr (.inl ⟨hcapture, (blockFields_eq_container hkey).2⟩))
  · obtain rfl := Option.some.inj h
    exact hheld.elim
  · obtain rfl := Option.some.inj h
    obtain ⟨key, hkey⟩ := hheld
    exact .inr (.inr (.inr ⟨hblock, (blockFields_eq_container hkey).2⟩))
  · obtain rfl := Option.some.inj h
    exact hheld.elim

/-- A transcript with a block of a capture and a note. -/
def noteTranscript (owner text : String) : LoroDoc where
  content := noteContent owner text
  held_once hp hpc hq hqc := by
    rcases noteContent_holds hp hpc with ⟨rfl, rfl⟩ | ⟨rfl, rfl⟩ | ⟨rfl, rfl⟩ | ⟨rfl, rfl⟩ <;>
      rcases noteContent_holds hq hqc with ⟨rfl, h⟩ | ⟨rfl, h⟩ | ⟨rfl, h⟩ | ⟨rfl, h⟩
    all_goals first
      | rfl
      | exact absurd h (by decide)
  key_once {p field k l c} hp hk hl := by
    unfold noteContent at hp
    split_ifs at hp with hroot hcapture hspoken hblock htext
    · cases hp
    · obtain rfl := Content.map.inj (Option.some.inj hp)
      exact (blockFields_eq_container hk).1.trans (blockFields_eq_container hl).1.symm
    · cases hp
    · obtain rfl := Content.map.inj (Option.some.inj hp)
      exact (blockFields_eq_container hk).1.trans (blockFields_eq_container hl).1.symm
    · cases hp
  root_not_held hroot hp hheld := by
    rcases noteContent_holds hp hheld with ⟨-, rfl⟩ | ⟨-, rfl⟩ | ⟨-, rfl⟩ | ⟨-, rfl⟩ <;>
      exact hroot
  held_exists hp hheld := by
    rcases noteContent_holds hp hheld with ⟨-, rfl⟩ | ⟨-, rfl⟩ | ⟨-, rfl⟩ | ⟨-, rfl⟩ <;>
      exact ⟨_, rfl⟩

theorem noteTranscript_listItems (owner text : String) (c : ContainerID) :
    (noteTranscript owner text).listItems c =
      if c = UTTERANCES then [.container captureBlock, .container noteBlock] else [] := by
  unfold Document.listItems
  by_cases hroot : c = UTTERANCES
  · rw [if_pos hroot, hroot]
    rfl
  · rw [if_neg hroot]
    split
    · rename_i items hcontent
      change noteContent owner text c = some (.list items) at hcontent
      unfold noteContent at hcontent
      split_ifs at hcontent <;> cases hcontent
    · rfl

/-- What an import reports of a new owner and a new text. -/
def noteEvents (owner text owner' text' : String) : List (Event ContainerID LoroValue) :=
  (if owner = owner' then [] else [⟨noteBlock, [UTTERANCES], .other⟩]) ++
    if text = text' then [] else [⟨noteText, [UTTERANCES, noteBlock], .other⟩]

theorem noteBlock_path (owner text : String) :
    (noteTranscript owner text).Path [UTTERANCES, noteBlock] noteBlock :=
  .child (utterances_path _) rfl (List.mem_pair.2 (.inr rfl))

theorem noteText_path (owner text : String) :
    (noteTranscript owner text).Path [UTTERANCES, noteBlock, noteText] noteText :=
  .child (noteBlock_path owner text) rfl ⟨"text", rfl⟩

theorem reports_noteEvents (owner text owner' text' : String) :
    Reports (noteTranscript owner text) (noteTranscript owner' text')
      (noteEvents owner text owner' text') where
  chains e he := by
    unfold noteEvents at he
    rcases List.mem_append.1 he with he | he
    · split_ifs at he
      · cases he
      · obtain rfl := List.mem_singleton.1 he
        exact noteBlock_path owner' text'
    · split_ifs at he
      · cases he
      · obtain rfl := List.mem_singleton.1 he
        exact noteText_path owner' text'
  reported {path c} _ hne := by
    change noteContent owner text c ≠ noteContent owner' text' c at hne
    unfold noteContent at hne
    split_ifs at hne with hroot hcapture hspoken hblock htext
    · exact absurd rfl hne
    · exact absurd rfl hne
    · exact absurd rfl hne
    · have howner : owner ≠ owner' := fun h => hne (h ▸ rfl)
      exact ⟨⟨noteBlock, [UTTERANCES], .other⟩, by simp [noteEvents, howner], hblock.symm⟩
    · have hnew : text ≠ text' := fun h => hne (h ▸ rfl)
      exact ⟨⟨noteText, [UTTERANCES, noteBlock], .other⟩, by simp [noteEvents, hnew], htext.symm⟩
    · exact absurd rfl hne
  lists {path c} _ := by
    rw [ListDelta.foldl_apply_of_nil fun e he => ?_]
    · rw [noteTranscript_listItems, noteTranscript_listItems]
    · have hmem := (List.mem_filter.1 he).1
      unfold noteEvents at hmem
      rcases List.mem_append.1 hmem with hmem | hmem
      · split_ifs at hmem
        · cases hmem
        · rw [List.mem_singleton.1 hmem]
          rfl
      · split_ifs at hmem
        · cases hmem
        · rw [List.mem_singleton.1 hmem]
          rfl

open Classical in
/-- Loro on a note of the user: the document with the new owner and text. -/
noncomputable def importNote (doc : LoroDoc) (update : String × String) :
    Option (LoroDoc × List (Event ContainerID LoroValue)) :=
  if doc = noteTranscript "user" "a" then
    some (noteTranscript update.1 update.2, noteEvents "user" "a" update.1 update.2)
  else none

theorem importNote_user (update : String × String) :
    importNote (noteTranscript "user" "a") update =
      some (noteTranscript update.1 update.2, noteEvents "user" "a" update.1 update.2) :=
  if_pos rfl

theorem importNote_reports (doc : LoroDoc) (update : String × String) (after : LoroDoc)
    (events : List (Event ContainerID LoroValue))
    (h : importNote doc update = some (after, events)) : Reports doc after events := by
  unfold importNote at h
  split_ifs at h with hdoc
  · obtain ⟨rfl, rfl⟩ := Prod.mk.inj (Option.some.inj h)
    exact hdoc ▸ reports_noteEvents "user" "a" update.1 update.2

/-- The user's own note may be changed in any way. -/
theorem receive_importNote (update : String × String) :
    receive importNote .transcript (noteTranscript "user" "a") update =
      some (noteTranscript update.1 update.2) := by
  have hadmit : admitBlockUpdate importNote (noteTranscript "user" "a") .transcript update =
      .ok () := by
    rw [admitBlockUpdate, importNote_user]
    refine forM_eq_ok.2 fun e he => ?_
    unfold noteEvents at he
    rcases List.mem_append.1 he with he | he
    · split_ifs at he
      · cases he
      · rw [List.mem_singleton.1 he]
        rfl
    · split_ifs at he
      · cases he
      · rw [List.mem_singleton.1 he]
        rfl
  rw [receive, hadmit, importNote_user]
  rfl

theorem run_importNote (update : String × String) :
    Machine.run (receive importNote .transcript) (noteTranscript "user" "a") [update] =
      some (noteTranscript update.1 update.2) := by
  rw [Machine.run_cons, receive_importNote]
  rfl

/-- A note reworded keeps the evidence. -/
theorem evidence_kept_reworded :
    EvidenceKept (noteTranscript "user" "a") (noteTranscript "user" "b") := by
  refine (evidence_kept_iff importNote_reports (noteTranscript "user" "a")
    (noteTranscript "user" "b") [("user", "b")] (run_importNote ("user", "b"))).2
    ⟨?_, fun _ _ => trivial⟩ _ List.prefix_rfl _ (run_importNote ("user", "b"))
  rintro ⟨after, events, himport, block, hblock, howner, hcapture⟩
  rw [importNote_user] at himport
  obtain ⟨rfl, -⟩ := Prod.mk.inj (Option.some.inj himport)
  rcases List.mem_pair.1 hblock with rfl | rfl
  · revert howner
    decide
  · revert hcapture
    decide

/-- **A note handed to a capture**: the update is admitted, and the transcript has a block of a
capture that was not there. -/
theorem handed_over_note_admitted :
    (∀ doc update after events, importNote doc update = some (after, events) →
      Reports doc after events) ∧
    Machine.run (receive importNote .transcript) (noteTranscript "user" "a")
      [("capture:s1", "a")] = some (noteTranscript "capture:s1" "a") ∧
    captureBlocks (noteTranscript "user" "a") =
      [(.container captureBlock, some "c1", some "capture:s1")] ∧
    captureBlocks (noteTranscript "capture:s1" "a") =
      [(.container captureBlock, some "c1", some "capture:s1"),
        (.container noteBlock, some "n1", some "capture:s1")] ∧
    ¬ EvidenceKept (noteTranscript "user" "a") (noteTranscript "capture:s1" "a") := by
  have hbefore : captureBlocks (noteTranscript "user" "a") =
      [(.container captureBlock, some "c1", some "capture:s1")] := rfl
  have hafter : captureBlocks (noteTranscript "capture:s1" "a") =
      [(.container captureBlock, some "c1", some "capture:s1"),
        (.container noteBlock, some "n1", some "capture:s1")] := rfl
  refine ⟨importNote_reports, run_importNote ("capture:s1", "a"), hbefore, hafter, fun h => ?_⟩
  have hcaptures := congrArg List.length h.captures
  rw [hbefore, hafter] at hcaptures
  cases hcaptures

end Handover

end Guard
end ZuTalk
