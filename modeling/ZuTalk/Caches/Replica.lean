/-
# Documents in memory and in the database

`crates/vt-ffi/src/library_sync.rs`, from `fact_doc` to `version_of`, `roster` and
`load_roster`, with the transactions of `crates/vt-store/src/library_replica.rs`.  One
connection stands behind one lock, so a transaction runs alone, and reads of the database wait
for it; the documents in memory, the digests and the rosters are behind locks of their own,
and other threads look at them at any time.  A document in memory is shared: what a
transaction writes into it is seen before it is committed.

A transaction opens documents, puts new ones in memory, edits one, saves it, and so on; it
commits when all it edited is saved, whether the new ones were or not.  It may fail at any point;
`drop_cache` comes some time after, where it comes at all, and takes one lock after the other.
What a lookup found is noted some time later.  `Tx.fresh`, `Tx.saved`, `Tx.forgotten`,
`Replica.polluted` and the marks of lookups are kept for the statements only.
-/

import ZuTalk.Library.Machine
import ZuTalk.Members.Roster

namespace ZuTalk
namespace Caches

open Members

/-- `DocRef`, less the notes, which are not kept in `sync_documents`. -/
inductive DocRef
  | recording (session : String)
  | topic (notebook : String)
  | library
  | roster (space : String)
  deriving DecidableEq, Repr

/-- What is used of Loro documents: the new one, their version, and the roster that one holds. -/
structure Loro (D V : Type) where
  new : D
  oplogVv : D → V
  readRoster : D → Roster

/-- A transaction: the rows it sees, and the document it has edited and not yet saved.  The
documents it has put in memory as new ones, those it has saved, and those it has forgotten and
not saved again. -/
structure Tx (D : Type) where
  stored : DocRef → Option D
  removed : String → List String
  editing : Option (DocRef × D)
  fresh : List DocRef
  saved : List DocRef
  forgotten : List DocRef

/-- A call of `version_of` that found no digest: what it has read, or that it waits for the
database.  Whether a transaction came in between. -/
structure Lookup (V : Type) where
  doc : DocRef
  read : Option V
  overlapped : Bool

/-- A call of `roster` that found none, and has read one.  Whether a transaction came in between,
and whether the read failed. -/
structure RosterLookup where
  space : String
  roster : Roster
  overlapped : Bool
  unread : Bool

/-- A replica: the committed rows of `sync_documents` and `sync_removed_devices`, what is kept in
memory, the transaction that runs, what failed ones had changed and memory may have still, and
the lookups of other threads. -/
structure Replica (D V : Type) where
  stored : DocRef → Option D
  removed : String → List String
  cache : DocRef → Option D
  digests : DocRef → Option V
  rosters : String → Option Roster
  tx : Option (Tx D)
  polluted : List DocRef
  lookups : List (Lookup V)
  rosterLookups : List RosterLookup

/-- What happens in a replica, one lock held at a time. -/
inductive Event (D : Type)
  | begun
  | opened (doc : DocRef)
  | created (doc : DocRef)
  | edited (doc : DocRef) (content : D)
  | saved
  | forgotten (doc : DocRef)
  | markedRemoved (device : String)
  | committed
  | failed
  | dropped
  | digestsDropped
  | evicted (doc : DocRef)
  | undigested (doc : DocRef)
  | unrostered (space : String)
  | read (doc : DocRef)
  | asked (doc : DocRef)
  | loaded (lookup : ℕ)
  | noted (lookup : ℕ)
  | rosterLoaded (space : String)
  | rosterUnread (space : String)
  | rosterNoted (lookup : ℕ)

/-- The documents whose rows a transaction has changed. -/
def Tx.written {D : Type} (tx : Tx D) : List DocRef := tx.saved ++ tx.forgotten

/-- The documents a transaction has changed, in memory at least. -/
def Tx.changed {D : Type} (tx : Tx D) : List DocRef :=
  tx.fresh ++ tx.written ++ (tx.editing.map Prod.fst).toList

variable {D V : Type}

/-- `Roster::default` -/
def noRoster : Roster := ⟨fun _ => none, fun _ => none⟩

/-- `load_roster`, of a document and the rows of removed devices. -/
def loadRoster (loro : Loro D V) (doc : Option D) (removed : List String) : Roster :=
  let roster := (doc.map loro.readRoster).getD noRoster
  { roster with
    removed := fun device => (roster.removed device).or
      (if device ∈ removed then some "" else none) }

namespace Replica

/-- `fact_doc`: from memory, else from the rows, and then it is in memory too. -/
def factDoc (replica : Replica D V) (rows : DocRef → Option D) (doc : DocRef) : Option D :=
  (replica.cache doc).or (rows doc)

/-- What `fact_doc` leaves in memory. -/
def cached (replica : Replica D V) (rows : DocRef → Option D) (doc : DocRef) :
    DocRef → Option D :=
  Function.update replica.cache doc (replica.factDoc rows doc)

/-- The lookups of a document that is being changed. -/
def overlap (replica : Replica D V) (doc : DocRef) : Replica D V :=
  { replica with
    lookups := replica.lookups.map fun lookup =>
      if lookup.doc = doc then { lookup with overlapped := true } else lookup
    rosterLookups := replica.rosterLookups.map fun lookup =>
      if .roster lookup.space = doc then { lookup with overlapped := true } else lookup }

/-- `version_of`, for a caller that nothing comes in between. -/
def versionOf (loro : Loro D V) (replica : Replica D V) (doc : DocRef) : Option V :=
  (replica.digests doc).or ((replica.factDoc replica.stored doc).map loro.oplogVv)

/-- `roster`, for a caller that nothing comes in between. -/
def roster (loro : Loro D V) (replica : Replica D V) (space : String) : Roster :=
  (replica.rosters space).getD
    (loadRoster loro (replica.factDoc replica.stored (.roster space)) (replica.removed space))

/-- What a failed transaction had changed of a document is out of memory, or written over. -/
def clean (replica : Replica D V) (doc : DocRef) : List DocRef :=
  replica.polluted.filter (· ≠ doc)

/-- What a transaction does. -/
def stepTx (loro : Loro D V) (replica : Replica D V) (tx : Tx D) :
    Event D → Option (Replica D V)
  | .opened doc =>
      if (tx.editing.map Prod.fst) = some doc then none
      else some { replica with cache := replica.cached tx.stored doc }
  | .created doc =>
      -- `fact_doc_or_new` of a document that is neither in memory nor in the rows
      if (tx.editing.map Prod.fst) = some doc ∨ (replica.factDoc tx.stored doc).isSome then none
      else
        some { replica with
          cache := Function.update replica.cache doc (some loro.new)
          tx := some { tx with fresh := doc :: tx.fresh } }
  | .edited doc content =>
      match tx.editing with
      | none =>
          -- it was opened, or created, and is in memory
          some ({ replica with
            cache := Function.update replica.cache doc (some content)
            tx := some { tx with editing := some (doc, content) } }.overlap doc)
      | some (edited, _) =>
          if edited = doc then
            some ({ replica with
              cache := Function.update replica.cache doc
                ((replica.cache doc).map fun _ => content)
              tx := some { tx with editing := some (doc, content) } }.overlap doc)
          else none
  | .saved =>
      -- `save_fact_doc`
      tx.editing.map fun (doc, content) =>
        let rows := Function.update tx.stored doc (some content)
        let saved := { replica with
          digests := Function.update replica.digests doc none
          polluted := replica.clean doc
          tx := some { tx with
            stored := rows
            editing := none
            saved := doc :: tx.saved
            forgotten := tx.forgotten.filter (· ≠ doc) } }
        match doc with
        | .roster space =>
            { saved with
              cache := replica.cached rows doc
              rosters := Function.update replica.rosters space
                (some (loadRoster loro (replica.factDoc rows doc) (tx.removed space))) }
        | _ => saved
  | .forgotten doc =>
      -- `forget_fact_doc`
      if tx.editing.isNone then
        some ({ replica with
          cache := Function.update replica.cache doc none
          digests := Function.update replica.digests doc none
          polluted := replica.clean doc
          tx := some { tx with
            stored := Function.update tx.stored doc none
            forgotten := doc :: tx.forgotten } }.overlap doc)
      else none
  | .markedRemoved device =>
      -- `mark_removed`, on the way to saving the roster
      match tx.editing with
      | some (.roster space, _) =>
          some { replica with
            tx := some { tx with
              removed := Function.update tx.removed space (device :: tx.removed space) } }
      | _ => none
  | .committed =>
      if tx.editing.isNone then
        some { replica with stored := tx.stored, removed := tx.removed, tx := none }
      else none
  | .failed => some { replica with tx := none, polluted := tx.changed ++ replica.polluted }
  | _ => none

/-- What happens while no transaction holds the connection. -/
def stepIdle (loro : Loro D V) (replica : Replica D V) : Event D → Option (Replica D V)
  | .begun => some { replica with tx := some ⟨replica.stored, replica.removed, none, [], [], []⟩ }
  | .read doc => some { replica with cache := replica.cached replica.stored doc }
  | .loaded lookup =>
      (replica.lookups[lookup]?).bind fun waiting =>
        if waiting.read.isNone then
          some { replica with
            lookups := match replica.stored waiting.doc with
              | some content => replica.lookups.set lookup
                  ⟨waiting.doc, some (loro.oplogVv content), false⟩
              | none => replica.lookups.eraseIdx lookup }
        else none
  | .rosterLoaded space =>
      some { replica with
        cache := replica.cached replica.stored (.roster space)
        rosterLookups := ⟨space,
          loadRoster loro (replica.factDoc replica.stored (.roster space))
            (replica.removed space),
          decide (.roster space ∈ replica.polluted), false⟩ :: replica.rosterLookups }
  | .rosterUnread space =>
      -- `unwrap_or_default`
      some { replica with rosterLookups := ⟨space, noRoster, false, true⟩ :: replica.rosterLookups }
  | _ => none

/-- One event, if it can happen. -/
def step (loro : Loro D V) (replica : Replica D V) : Event D → Option (Replica D V)
  | .dropped =>
      -- `drop_cache`, first half
      some { replica with cache := fun _ => none, polluted := [] }
  | .digestsDropped =>
      -- `drop_cache`, second half
      some { replica with digests := fun _ => none }
  | .evicted doc =>
      some { replica with
        cache := Function.update replica.cache doc none
        polluted := replica.clean doc }
  | .undigested doc => some { replica with digests := Function.update replica.digests doc none }
  | .unrostered space => some { replica with rosters := Function.update replica.rosters space none }
  | .asked doc =>
      -- `version_of` that finds no digest looks at the document in memory
      if (replica.digests doc).isNone then
        some { replica with
          lookups := ⟨doc, (replica.cache doc).map loro.oplogVv,
            decide (∃ tx ∈ replica.tx, doc ∈ tx.changed)⟩ :: replica.lookups }
      else some replica
  | .noted lookup =>
      (replica.lookups[lookup]?).bind fun found =>
        found.read.map fun version =>
          { replica with
            digests := Function.update replica.digests found.doc (some version)
            lookups := replica.lookups.eraseIdx lookup }
  | .rosterNoted lookup =>
      (replica.rosterLookups[lookup]?).map fun found =>
        { replica with
          rosters := Function.update replica.rosters found.space (some found.roster)
          rosterLookups := replica.rosterLookups.eraseIdx lookup }
  | event =>
      match replica.tx with
      | some tx => stepTx loro replica tx event
      | none => stepIdle loro replica event

/-- A replica that was just opened: nothing is in memory. -/
def start (stored : DocRef → Option D) (removed : String → List String) : Replica D V :=
  ⟨stored, removed, fun _ => none, fun _ => none, fun _ => none, none, [], [], []⟩

end Replica

end Caches
end ZuTalk
