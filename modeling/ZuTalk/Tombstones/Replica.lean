/-
# Recordings that are deleted for ever

`crates/vt-ffi/src/library_sync.rs`, `export_into`, `apply`, `materialize`, `run_aftermath` and
`accepts`, as far as they decide which recordings are in the tables and which have a document,
with `apply_recording` and `is_exportable` of `crates/vt-store/src/library_replica.rs`.  A purge
is a job with a row of its own (`session_purge_jobs`): once begun it is taken up again at the
next start, and it takes the job's row away last.

An update of a recording is accepted first, and imported when the gate is free.  What an import
leaves to be purged is held in memory only.  Of a document matters what says which session its
facts are of.
-/

import Mathlib.Data.Finset.Erase
import Mathlib.Data.Finset.Lattice.Basic
import Mathlib.Data.Finset.SDiff
import ZuTalk.Library.Machine

namespace ZuTalk
namespace Tombstones

/-- A recording document: who wrote its origin part, of which session, and whether it has a
record. -/
structure Doc where
  originDevice : Option String
  sessionId : Option String
  record : Bool
  deriving DecidableEq, Repr

/-- `LoroDoc::new` -/
def Doc.empty : Doc := ⟨none, none, false⟩

/-- `write_recording` -/
def Doc.writeRecording (doc : Doc) (session me : String) (isOrigin : Bool) : Doc :=
  if !isOrigin then doc
  else if doc.originDevice.isNone then ⟨some me, some session, true⟩
  else { doc with record := true }

/-- `read_recording`: the session that the facts of a document are of, and who wrote them. -/
def Doc.readRecording (doc : Doc) : Option (String × String) :=
  match doc.originDevice, doc.sessionId with
  | some origin, some session => if doc.record then some (session, origin) else none
  | _, _ => none

/-- A replica.  In the database: the recordings in the tables, those with a mark in
`sync_changes`, the tombstones of the library document, the purge jobs and the recording
documents.  In memory: what is being captured, the updates past `accepts`, what is left to be
purged after imports, and the purges behind which a document is to be forgotten.  Its own
device id, and the recordings that came from other devices. -/
structure Replica where
  me : String
  foreign : Finset String
  present : Finset String
  pending : Finset String
  tombstones : Finset String
  jobs : Finset String
  docs : String → Option Doc
  capturing : Finset String
  accepted : List String
  purges : Multiset String
  forgetting : List String

/-- What happens in a replica. -/
inductive Event
  | recorded (session : String)
  | stopped (session : String)
  | edited (session : String)
  | purgeBegun (session : String)
  | rowsDeleted (session : String)
  | purgeFinished (session : String)
  | exported (session : String)
  | accepted (doc : String)
  | refused (doc : String)
  | recordingImported (doc : String) (merged : Option Doc)
  | topicImported (waiting : List String)
  | libraryImported (added takenAway : Finset String)
  | purged (session : String) (begins : Bool)
  | forgotten (session : String)
  | gaveUp (session : String)
  | restarted
  deriving DecidableEq

namespace Replica

/-- `is_exportable` -/
def isExportable (replica : Replica) (session : String) : Bool :=
  session ∉ replica.capturing && session ∉ replica.jobs

/-- `export_into` of a recording. -/
def exportInto (replica : Replica) (session : String) : Replica :=
  if !replica.isExportable session then replica
  else if session ∈ replica.present then
    -- who recorded it makes a document, another device writes only into the one there is
    let isOrigin := session ∉ replica.foreign
    let doc := if isOrigin then some ((replica.docs session).getD .empty) else replica.docs session
    { replica with
      docs := Function.update replica.docs session
        (doc.map fun doc => doc.writeRecording session replica.me isOrigin)
      pending := replica.pending.erase session }
  else
    match replica.docs session with
    | some _ =>
        { replica with
          tombstones := insert session replica.tombstones
          docs := Function.update replica.docs session none
          pending := replica.pending.erase session }
    | none => { replica with pending := replica.pending.erase session }

/-- `apply_recording`: the session is in the tables now, and its mark is cleared only where it
is the one that the document is named after. -/
def applyRecording (replica : Replica) (doc session origin : String) : Replica :=
  { replica with
    present := insert session replica.present
    foreign := if origin = replica.me then replica.foreign else insert session replica.foreign
    pending := (insert session replica.pending).erase doc }

/-- `materialize` of a recording document: the tombstone is looked for under the id of the
document, and nothing is done while the session is being purged. -/
def materialize (replica : Replica) (doc : String) (content : Doc) : Replica :=
  if doc ∈ replica.tombstones then replica
  else
    match content.readRecording with
    | some (session, origin) =>
        if session ∈ replica.jobs then replica else replica.applyRecording doc session origin
    | none => replica

/-- `apply` of an update of a recording: what is pending is exported first; the document is
saved whether it was materialised or not. -/
def importRecording (replica : Replica) (doc : String) (merged : Option Doc) : Replica :=
  let exported := if doc ∈ replica.pending then replica.exportInto doc else replica
  match merged with
  | none => exported
  | some content =>
      let materialized := exported.materialize doc content
      { materialized with docs := Function.update materialized.docs doc (some content) }

/-- The recordings that waited for a topic are materialised from their documents. -/
def materializeWaiting (replica : Replica) (doc : String) : Replica :=
  match replica.docs doc with
  | some content => replica.materialize doc content
  | none => replica

/-- One event, if it can happen. -/
def step (replica : Replica) : Event → Option Replica
  | .recorded session =>
      -- a new session has an id of its own
      if session ∈ replica.present ∨ session ∈ replica.tombstones then none
      else some { replica with
        present := insert session replica.present
        pending := insert session replica.pending
        capturing := insert session replica.capturing }
  | .stopped session => some { replica with capturing := replica.capturing.erase session }
  | .edited session =>
      if session ∈ replica.present then
        some { replica with pending := insert session replica.pending }
      else none
  | .purgeBegun session =>
      if session ∈ replica.capturing then none
      else some { replica with jobs := insert session replica.jobs }
  | .rowsDeleted session =>
      if session ∈ replica.jobs then
        some { replica with
          present := replica.present.erase session
          pending := insert session replica.pending }
      else none
  | .purgeFinished session =>
      if session ∈ replica.jobs ∧ session ∉ replica.present then
        some { replica with jobs := replica.jobs.erase session }
      else none
  | .exported session =>
      if session ∈ replica.pending then some (replica.exportInto session) else none
  | .accepted doc =>
      if doc ∈ replica.tombstones then none
      else some { replica with accepted := doc :: replica.accepted }
  | .refused doc => some { replica with accepted := replica.accepted.erase doc }
  | .recordingImported doc merged =>
      if doc ∈ replica.accepted then
        some ({ replica with accepted := replica.accepted.erase doc }.importRecording doc merged)
      else none
  | .topicImported waiting => some (waiting.foldl materializeWaiting replica)
  | .libraryImported added takenAway =>
      let tombstones := (replica.tombstones ∪ added) \ takenAway
      some { replica with
        tombstones := tombstones
        purges := replica.purges + (tombstones ∩ replica.present).val }
  | .purged session begins =>
      if session ∈ replica.purges then
        some { replica with
          purges := replica.purges.erase session
          jobs := if begins then insert session replica.jobs else replica.jobs
          forgetting := if begins then session :: replica.forgetting else replica.forgetting }
      else none
  | .forgotten session =>
      if session ∈ replica.forgetting ∧ session ∉ replica.jobs then
        some { replica with
          forgetting := replica.forgetting.erase session
          docs := Function.update replica.docs session none
          pending := replica.pending.erase session }
      else none
  | .gaveUp session => some { replica with forgetting := replica.forgetting.erase session }
  | .restarted =>
      some { replica with capturing := ∅, accepted := [], purges := 0, forgetting := [] }

/-- A replica whose library document has no tombstone yet. -/
def start (me : String) (foreign present pending jobs : Finset String)
    (docs : String → Option Doc) : Replica :=
  ⟨me, foreign, present, pending, ∅, jobs, docs, ∅, [], 0, []⟩

end Replica

end Tombstones
end ZuTalk
