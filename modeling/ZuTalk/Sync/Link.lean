/-
# One link between two devices

`crates/vt-sync/src/engine.rs`, `read_loop` and `write_loop` of one link, at both ends, and
`fan_out`.  The document store is a parameter: contents that are joined, known by their
digests, with what a version lacks (`Pull.Crdt`).  The document store's calls may fail.

Digests are taken document by document, and a summary is compared document by document, so
that anything may happen in between.  Reading stops at an error, which ends the link.  What
other devices send, and what the user does, is a change.
-/

import Mathlib.Data.List.AList
import ZuTalk.Library.Cuts
import ZuTalk.Library.Pull
import ZuTalk.Sync.Connections

namespace ZuTalk
namespace Sync

open Pull

/-- `DocId`. -/
abbrev DocId := String

/-- `UPDATE_CHUNK_BYTES`. -/
def updateChunkBytes : ℕ := 1024 * 1024

/-- `MAX_UPDATE_BYTES`. -/
def maxUpdateBytes : ℕ := 256 * 1024 * 1024

/-- The end of the link at the other side. -/
def Side.other : Side → Side
  | .lower => .higher
  | .higher => .lower

@[simp] theorem Side.other_other (side : Side) : side.other.other = side := by cases side <;> rfl

theorem Side.other_ne (side : Side) : side.other ≠ side := by cases side <;> decide

instance Side.decidableForall {P : Side → Prop} [∀ side, Decidable (P side)] :
    Decidable (∀ side, P side) :=
  decidable_of_iff (P .lower ∧ P .higher)
    ⟨fun h side => by cases side <;> first | exact h.1 | exact h.2, fun h => ⟨h _, h _⟩⟩

/-- The documents of a device.  One that it does not have has no content. -/
structure Store (C : Type) [SemilatticeSup C] [OrderBot C] where
  docs : List DocId
  content : DocId → C
  listed : ∀ doc, content doc ≠ ⊥ → doc ∈ docs

/-- `SyncMessage`, after the handshake.  What a device had when it began its summary is kept
for the statements only. -/
inductive Message (C D : Type)
  | summary (docs : List (DocId × D)) (complete : Bool) (had : DocId → C)
  | want (doc : DocId) (version : List UInt8)
  | requestSummary
  | update (doc : DocId) (bytes : List UInt8) (last : Bool)

/-- `Outbound`. -/
inductive Outbound
  | summary
  | requestSummary
  | want (doc : DocId)
  | serve (doc : DocId) (version : List UInt8)
  deriving DecidableEq, Repr

/-- A summary that is being written: the documents still to look up, and the digests. -/
structure Gathering (C D : Type) where
  todo : List DocId
  docs : List (DocId × D)
  complete : Bool
  had : DocId → C

/-- A summary that is being compared: what is still to compare, and what is wanted. -/
structure Comparing (D : Type) where
  todo : List (DocId × D)
  wanted : List DocId
  complete : Bool

/-- One end of the link.  `written` is what the other end has not read yet.  `unnotified` are
the changes whose `notify_changed` is still to come, `told` is what the other device had when
it began its last complete summary that was read here, and `synced` counts the times that
`synced_at` is set. -/
structure Party (C D : Type) [SemilatticeSup C] [OrderBot C] where
  store : Store C
  accepts : DocId → Bool
  unnotified : List DocId
  dirty : List DocId
  gathering : Option (Gathering C D)
  queue : List Outbound
  written : List (Message C D)
  pending : AList fun _ : DocId => Bool
  assembling : Option (DocId × List UInt8)
  comparing : Option (Comparing D)
  told : Option (DocId → C)
  synced : ℕ

/-- What happens at one end. -/
inductive Action (C : Type)
  | change (doc : DocId) (added : C)
  | notify (doc : DocId)
  | accept (accepts : DocId → Bool)
  | request
  | tick
  | takeDirty
  | dequeue (answers : Bool)
  | gather (found : Bool)
  | gatherFails
  | announce
  | read (applies : Bool)
  | compare (found : Bool)
  | compareFails
  | mark

section

variable {C D : Type} [SemilatticeSup C] [OrderBot C] [DecidableEq C] [DecidableEq D]

/-- The store with a document in it. -/
def Store.put (store : Store C) (doc : DocId) (content : C) : Store C where
  docs := if doc ∈ store.docs then store.docs else store.docs ++ [doc]
  content := Function.update store.content doc content
  listed := by
    intro other hother
    by_cases heq : other = doc
    · subst heq
      split
      · assumption
      · exact List.mem_append_right _ (List.mem_singleton_self _)
    · rw [Function.update_of_ne heq] at hother
      have hlisted := store.listed other hother
      split
      · exact hlisted
      · exact List.mem_append_left _ hlisted

section

variable (crdt : Crdt C D UInt8)

/-- `DocumentStore::digest`. -/
def Store.digest (store : Store C) (doc : DocId) : Option D :=
  if store.content doc = ⊥ then none else some (crdt.digest (store.content doc))

/-- `DocumentStore::version`. -/
def Store.version (store : Store C) (doc : DocId) : Option (List UInt8) :=
  if store.content doc = ⊥ then none else some (crdt.version (store.content doc))

/-- `DocumentStore::updates_since`. -/
def Store.updatesSince (store : Store C) (doc : DocId) (version : List UInt8) :
    Option (List UInt8) := crdt.updatesSince (store.content doc) version

/-- `DocumentStore::apply`. -/
def Store.apply (store : Store C) (doc : DocId) (update : List UInt8) : Store C :=
  store.put doc (crdt.apply (store.content doc) update)

end

/-- The chunks of an update, the last of them marked. -/
def chunked (doc : DocId) : List (List UInt8) → List (Message C D)
  | [] => []
  | [chunk] => [.update doc chunk true]
  | chunk :: next :: rest => .update doc chunk false :: chunked doc (next :: rest)

/-- `write_update`. -/
def writeUpdate (doc : DocId) (update : List UInt8) : List (Message C D) :=
  if update.isEmpty then [.update doc [] true]
  else chunked doc (Cuts.pieces updateChunkBytes update)

/-- The update so far, unless two are mixed up. -/
def assembled (assembling : Option (DocId × List UInt8)) (doc : DocId) (bytes : List UInt8) :
    Option (List UInt8) :=
  match assembling with
  | some (current, buffer) => if current = doc then some (buffer ++ bytes) else none
  | none => some bytes

namespace Party

/-- Whether nothing is pending is what `synced_at` is set on. -/
def checkSynced (me : Party C D) : Party C D :=
  if me.pending.keys.isEmpty then { me with synced := me.synced + 1 } else me

/-- A document that is wanted is asked for, or asked for again later. -/
def markWanted (me : Party C D) (doc : DocId) : Party C D :=
  match me.pending.lookup doc with
  | some _ => { me with pending := me.pending.insert doc true }
  | none =>
      { me with pending := me.pending.insert doc false, queue := me.queue ++ [.want doc] }

section

variable (crdt : Crdt C D UInt8)

/-- An answer that is complete. -/
def answered (me : Party C D) (doc : DocId) (update : List UInt8) (applies : Bool) : Party C D :=
  match me.pending.lookup doc with
  | none => me
  | some stale =>
      let store :=
        if !update.isEmpty && applies then me.store.apply crdt doc update else me.store
      let taken := { me with store := store, pending := me.pending.erase doc }
      let next :=
        if stale then
          { taken with
            pending := taken.pending.insert doc false
            queue := taken.queue ++ [.want doc] }
        else taken
      next.checkSynced

/-- `read_loop`: one message.  A summary is compared afterwards. -/
def receive (me : Party C D) (applies : Bool) : Message C D → Option (Party C D)
  | .summary docs complete had =>
      some { me with
        comparing := some ⟨docs, [], complete⟩
        told := if complete then some had else me.told }
  | .want doc version => some { me with queue := me.queue ++ [.serve doc version] }
  | .requestSummary => some { me with queue := me.queue ++ [.summary] }
  | .update doc bytes last =>
      match assembled me.assembling doc bytes with
      | none => none
      | some buffer =>
          if maxUpdateBytes < buffer.length then none
          else if last then
            some ({ me with assembling := none }.answered crdt doc buffer applies)
          else some { me with assembling := some (doc, buffer) }

/-- Whether a document of a summary is wanted. -/
def wants (me : Party C D) (found : Bool) (doc : DocId) (digest : D) : Bool :=
  match if found then me.store.digest crdt doc else none with
  | some mine => mine ≠ digest
  | none => me.accepts doc

/-- `Outbound::Summary`: all that is there. -/
def gatherAll (me : Party C D) : Gathering C D := ⟨me.store.docs, [], true, me.store.content⟩

/-- `write_loop`: one item of the queue. -/
def send (me : Party C D) (answers : Bool) : Outbound → Party C D
  | .summary => { me with gathering := some me.gatherAll }
  | .requestSummary => { me with written := me.written ++ [.requestSummary] }
  | .want doc =>
      let version := if answers then (me.store.version crdt doc).getD [] else []
      { me with written := me.written ++ [.want doc version] }
  | .serve doc version =>
      let update := if answers then (me.store.updatesSince crdt doc version).getD [] else []
      { me with written := me.written ++ writeUpdate doc update }

end

end Party

variable (crdt : Crdt C D UInt8)

/-- One action at one end: both ends afterwards. -/
def act (me peer : Party C D) : Action C → Option (Party C D × Party C D)
  | .change doc added =>
      some ({ me with
        store := me.store.put doc (me.store.content doc ⊔ added)
        unnotified := doc :: me.unnotified }, peer)
  | .notify doc =>
      some ({ me with
        unnotified := me.unnotified.filter fun other => other ≠ doc
        dirty := if doc ∈ me.dirty then me.dirty else me.dirty ++ [doc] }, peer)
  | .accept accepts => some ({ me with accepts := accepts }, peer)
  | .request => some ({ me with queue := me.queue ++ [.requestSummary] }, peer)
  | .tick =>
      if me.gathering.isNone then some ({ me with gathering := some me.gatherAll }, peer)
      else none
  | .takeDirty =>
      if me.gathering.isNone then
        some ({ me with
          gathering := some ⟨me.dirty, [], false, me.store.content⟩
          dirty := [] }, peer)
      else none
  | .dequeue answers =>
      match me.gathering, me.queue with
      | none, item :: rest => some ({ me with queue := rest }.send crdt answers item, peer)
      | _, _ => none
  | .gather found =>
      match me.gathering with
      | some ⟨doc :: todo, docs, complete, had⟩ =>
          let digest := if found then me.store.digest crdt doc else none
          let docs := docs ++ (digest.map fun digest => (doc, digest)).toList
          some ({ me with gathering := some ⟨todo, docs, complete, had⟩ }, peer)
      | _ => none
  | .gatherFails =>
      match me.gathering with
      | some ⟨_, _, complete, had⟩ =>
          some ({ me with gathering := some ⟨[], [], complete, had⟩ }, peer)
      | none => none
  | .announce =>
      match me.gathering with
      | some ⟨[], docs, complete, had⟩ =>
          let messages := if docs.isEmpty && !complete then [] else [.summary docs complete had]
          some ({ me with gathering := none, written := me.written ++ messages }, peer)
      | _ => none
  | .read applies =>
      match me.comparing, peer.written with
      | none, message :: rest =>
          (me.receive crdt applies message).map fun me => (me, { peer with written := rest })
      | _, _ => none
  | .compare found =>
      match me.comparing with
      | some ⟨(doc, digest) :: todo, wanted, complete⟩ =>
          let wanted := if me.wants crdt found doc digest then wanted ++ [doc] else wanted
          some ({ me with comparing := some ⟨todo, wanted, complete⟩ }, peer)
      | _ => none
  | .compareFails =>
      match me.comparing with
      | some ⟨_, _, complete⟩ => some ({ me with comparing := some ⟨[], [], complete⟩ }, peer)
      | none => none
  | .mark =>
      match me.comparing with
      | some ⟨[], wanted, complete⟩ =>
          let marked := wanted.foldl Party.markWanted { me with comparing := none }
          some (if complete then marked.checkSynced else marked, peer)
      | _ => none

/-- Both ends of the link. -/
abbrev Ends (C D : Type) [SemilatticeSup C] [OrderBot C] := Side → Party C D

/-- One action at one of the ends. -/
def Ends.step (ends : Ends C D) (event : Side × Action C) : Option (Ends C D) :=
  (act crdt (ends event.1) (ends event.1.other) event.2).map fun both =>
    fun side => if side = event.1 then both.1 else both.2

omit [DecidableEq C] [DecidableEq D] in
/-- The link as it is established: the first complete summary is in the queue. -/
def Ends.start (stores : Side → Store C) (accepts : Side → DocId → Bool) : Ends C D := fun side =>
  { store := stores side, accepts := accepts side, unnotified := [], dirty := [],
    gathering := none, queue := [.summary], written := [], pending := ∅, assembling := none,
    comparing := none, told := none, synced := 0 }

end

end Sync
end ZuTalk
