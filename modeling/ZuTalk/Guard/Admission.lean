/-
# Admitting an update from elsewhere

`crates/vt-store/src/block_guard.rs`.

An update is first imported into a copy, and what the import reports is judged container by
container: which root the change lies under, and, in a transcript, which block it touches and
who owns that block.  The owner is read from the document as it was before the update, so an
update cannot vouch for itself.

Loro is the parameter `importUpdate`: the document after an update and the events of the
import, or nothing where the update cannot be decoded.
-/

import ZuTalk.Library.Checks
import ZuTalk.Library.Containers

namespace ZuTalk
namespace Guard

open Containers

/-- `ContainerType`. -/
inductive ContainerType
  | text
  | map
  | list
  | movableList
  | tree
  | counter
  deriving DecidableEq

/-- `ContainerID`. -/
inductive ContainerID
  | root (name : String) (containerType : ContainerType)
  | normal (peer counter : ℕ) (containerType : ContainerType)
  deriving DecidableEq

/-- Whether an id is that of a root. -/
def ContainerID.IsRoot : ContainerID → Prop
  | .root _ _ => True
  | .normal _ _ _ => False

/-- A `LoroValue` that is no container; all numbers are one constructor, since no one here reads
them. -/
inductive LoroValue
  | null
  | bool (b : Bool)
  | number (n : Int)
  | string (s : String)
  | binary (bytes : List UInt8)
  | list (items : List LoroValue)
  | map (entries : List (String × LoroValue))

/-- `ValueOrContainer`. -/
abbrev ValueOrContainer := Item ContainerID LoroValue

/-- `LoroDoc`. -/
abbrev LoroDoc := Document ContainerID LoroValue ContainerID.IsRoot

/-- `DocumentKind`. -/
inductive DocumentKind
  | transcript
  | note
  deriving DecidableEq

/-- `DOCUMENT_META`. -/
def DOCUMENT_META : String := "zutalk_document_meta"

/-- `PURGE_RECEIPTS`. -/
def PURGE_RECEIPTS : String := "zutalk_session_purge_receipts"

/-- `TRANSCRIPT_UTTERANCES`. -/
def TRANSCRIPT_UTTERANCES : String := "utterances"

/-- `NOTE_ROOT`. -/
def NOTE_ROOT : String := "root"

/-- `USER_OWNER`. -/
def USER_OWNER : String := "user"

/-- `BlockAdmissionDenial`. -/
inductive BlockAdmissionDenial
  | moveRefused
  | blockDeleted
  | nonUserBlockInserted
  | foreignBlockTouched (owner : String)
  | foundationTouched
  | undecidable
  deriving DecidableEq

/-- The deep value of an entry, where that is a string. -/
def deepString (doc : LoroDoc) : ValueOrContainer → Option String
  | .value (.string s) => some s
  | .value _ => none
  | .container c =>
      match doc.content c with
      | some (.text content) => some content
      | _ => none

/-- The string under a key of a map. -/
def fieldString (doc : LoroDoc) (block : ContainerID) (key : String) : Option String :=
  (doc.field block key).bind (deepString doc)

/-- The string under a key of the deep value of a list item. -/
def itemString (doc : LoroDoc) (key : String) : ValueOrContainer → Option String
  | .value (.map entries) => (entries.lookup key).bind fun value => deepString doc (.value value)
  | .value _ => none
  | .container block => fieldString doc block key

/-- Whether the third container of a chain is the one under `text` or `lanes` of its block. -/
def laneSubtree (doc : LoroDoc) (block : ContainerID) (chain : List ContainerID) : Bool :=
  chain[2]?.any fun child => ["text", "lanes"].any fun key =>
    match doc.field block key with
    | some (.container handler) => handler = child
    | _ => false

/-- What is admitted of the list of blocks itself. -/
def judgeBlockList (fork : LoroDoc) (event : Event ContainerID LoroValue) :
    Except BlockAdmissionDenial Unit :=
  if 0 < ListDelta.deletes event.deltas then .error .blockDeleted
  else if (ListDelta.inserted event.deltas).all
      fun inserted => itemString fork "owner" inserted = some USER_OWNER then .ok ()
  else .error .nonUserBlockInserted

/-- What is admitted within a block. -/
def judgeBlock (current fork : LoroDoc) (block : ContainerID) (chain : List ContainerID) :
    Except BlockAdmissionDenial Unit :=
  -- a block of this update is not in the document yet; its insertion is judged with the list
  let doc := if (current.content block).isSome then current else fork
  match fieldString doc block "owner" with
  | none => .error .undecidable
  | some owner =>
      if owner = USER_OWNER then .ok ()
      else if laneSubtree doc block chain then .ok ()
      else .error (.foreignBlockTouched owner)

/-- What is admitted of one event. -/
def judgeEvent (current fork : LoroDoc) (kind : DocumentKind)
    (event : Event ContainerID LoroValue) : Except BlockAdmissionDenial Unit :=
  match event.chain with
  | .root name _ :: below =>
      if name = DOCUMENT_META ∨ name = PURGE_RECEIPTS then .error .foundationTouched
      else
        match kind with
        | .note => if name = NOTE_ROOT then .ok () else .error .undecidable
        | .transcript =>
            if name ≠ TRANSCRIPT_UTTERANCES then .error .undecidable
            else if ListDelta.moves event.deltas then .error .moveRefused
            else
              match below with
              | [] => judgeBlockList fork event
              | block :: _ => judgeBlock current fork block event.chain
  | _ => .error .undecidable

section Guarded

variable {Update : Type} (importUpdate : LoroDoc → Update →
  Option (LoroDoc × List (Event ContainerID LoroValue)))

/-- `admit_block_update`. -/
def admitBlockUpdate (current : LoroDoc) (kind : DocumentKind) (update : Update) :
    Except BlockAdmissionDenial Unit :=
  match importUpdate current update with
  | none => .error .undecidable
  | some (fork, events) => events.forM (judgeEvent current fork kind)

/-- An update that is admitted, and then imported (`import_remote_update`). -/
def receive (kind : DocumentKind) (current : LoroDoc) (update : Update) : Option LoroDoc :=
  match admitBlockUpdate importUpdate current kind update with
  | .error _ => none
  | .ok _ => (importUpdate current update).map Prod.fst

end Guarded

/-- What is admitted of the list deletes nothing and brings nothing but blocks of the user. -/
theorem judgeBlockList_eq_ok {fork : LoroDoc} {event : Event ContainerID LoroValue} :
    judgeBlockList fork event = .ok () ↔ ListDelta.deletes event.deltas = 0 ∧
      ∀ item ∈ ListDelta.inserted event.deltas, itemString fork "owner" item = some USER_OWNER := by
  unfold judgeBlockList
  split
  · rename_i hdeletes
    exact iff_of_false nofun fun h => by omega
  · rename_i hdeletes
    have hzero : ListDelta.deletes event.deltas = 0 := by omega
    split
    · rename_i hall
      refine iff_of_true rfl ⟨hzero, fun item hitem => ?_⟩
      exact of_decide_eq_true (List.all_eq_true.1 hall item hitem)
    · rename_i hall
      refine iff_of_false nofun fun h => hall (List.all_eq_true.2 fun item hitem => ?_)
      exact decide_eq_true (h.2 item hitem)

/-- What is admitted within a block whose owner is not the user lies under `text` or `lanes`. -/
theorem judgeBlock_eq_ok {current fork : LoroDoc} {block : ContainerID}
    {chain : List ContainerID} (hexists : (current.content block).isSome)
    (h : judgeBlock current fork block chain = .ok ()) :
    fieldString current block "owner" = some USER_OWNER ∨
      laneSubtree current block chain = true := by
  simp only [judgeBlock, hexists, if_true] at h
  split at h
  · cases h
  · rename_i owner howner
    split at h
    · rename_i huser
      exact .inl (howner.trans (congrArg some huser))
    · split at h
      · rename_i hlane
        exact .inr hlane
      · cases h

/-- **What an event of an admitted update does to a transcript**: it lies under the list of
blocks, moves nothing, and is admitted there or in its block. -/
theorem judgeEvent_eq_ok {current fork : LoroDoc} {event : Event ContainerID LoroValue}
    (h : judgeEvent current fork .transcript event = .ok ()) :
    ∃ containerType below,
      event.chain = .root TRANSCRIPT_UTTERANCES containerType :: below ∧
      (below = [] → judgeBlockList fork event = .ok ()) ∧
      ∀ block rest, below = block :: rest →
        judgeBlock current fork block event.chain = .ok () := by
  unfold judgeEvent at h
  split at h
  · rename_i name containerType below hchain
    split at h
    · cases h
    · dsimp only at h
      split at h
      · cases h
      · rename_i hname
        obtain rfl : name = TRANSCRIPT_UTTERANCES := not_not.1 hname
        split at h
        · cases h
        · refine ⟨containerType, below, hchain, ?_, ?_⟩
          · rintro rfl
            exact h
          · rintro block rest rfl
            exact h
  · cases h

end Guard
end ZuTalk
