/-
# The facade of a transcript

`TranscriptProjection` of `crates/vt-store/src/transcript_projection.rs`: the verbs of machine and
user, each an edit of the mirror's state that is then committed.
-/

import ZuTalk.Transcripts.Schema

namespace ZuTalk
namespace Transcripts

open Mirror

/-- `TranscriptProjection`. -/
abbrev TranscriptProjection := Mirror.Inner TranscriptSchema

/-- `get_default_value` of `transcript_schema`. -/
def defaultState : Value :=
  .object [(utterancesKey, .array []), (documentMetaKey, .object []),
    (purgeReceiptsKey, .object [])]

/-- `open`: the state is the default one, with what the document has. -/
def openTranscript (roots : List (String × Node TranscriptSchema)) : TranscriptProjection :=
  .opened transcriptConfig roots (shallowAssign defaultState (.object (Node.deepEntries roots)))

/-- `ensure_items`: the items of a state. -/
def stateItems (state : Value) : List Value :=
  match state.get utterancesKey with
  | some (.array items) => items
  | _ => []

/-- The state with other items. -/
def withItems (state : Value) (items : List Value) : Value :=
  setKey utterancesKey (.array items) state

/-- The checks `machine_upsert_blocks` makes before anything is applied. -/
def checkUpserts (upserts : List MachineBlockUpsert) : Except TranscriptProjectionError Unit :=
  upserts.forM fun upsert =>
    if upsert.write.id = "" then .error .emptyBlockId
    else validateLanes upsert.write.lanes.keys

/-- `session_slice_range`: from the first block the session captured to the last, and the
annotations after it. -/
def sessionSliceRange (items : List Value) (sessionId : String) :
    Except TranscriptProjectionError (Option (ℕ × ℕ)) :=
  let owner := captureOwner sessionId
  match (items.zipIdx.filter fun entry => blockOwner entry.1 = owner).map (·.2) with
  | [] => .ok none
  | start :: rest =>
      let lastCapture := rest.getLast?.getD start
      if ((items.take (lastCapture + 1)).drop start).any fun item =>
          blockOwner item ≠ owner && blockOwner item ≠ userOwner then
        .error (.sessionSliceInterleaved sessionId)
      else
        .ok (some (start, lastCapture + 1 + ((items.drop (lastCapture + 1)).takeWhile fun item =>
          blockOwner item = userOwner).length))

/-- The items of `splice_session_slice`: the blocks that are not there are put in at the cursor. -/
def spliceItems (items : List Value) (cursor : ℕ) : List UtteranceBlock → List Value
  | [] => items
  | block :: blocks =>
      if items.any fun item => itemId item = some block.id then spliceItems items cursor blocks
      else spliceItems (items.insertIdx cursor block.toJson) (cursor + 1) blocks

namespace TranscriptProjection

variable (p : TranscriptProjection)

/-- `blocks`. -/
def blocks : List UtteranceBlock := (stateItems p.state).filterMap itemBlock

/-- `commit`. -/
def commit (state : Value) : TranscriptProjection × Except TranscriptProjectionError Unit :=
  match p.setState transcriptConfig state with
  | (p, none) => (p, .ok ())
  | (p, some e) => (p, .error (.mirror e))

/-- `commit` of other items, and a result. -/
def commitItems {α : Type} (items : List Value) (result : α) :
    TranscriptProjection × Except TranscriptProjectionError α :=
  let committed := commit p (withItems p.state items)
  (committed.1, committed.2.map fun _ => result)

/-- `machine_upsert_blocks`. -/
def machineUpsertBlocks (upserts : List MachineBlockUpsert) :
    TranscriptProjection × Except TranscriptProjectionError Unit :=
  if upserts.isEmpty then (p, .ok ())
  else
    match checkUpserts upserts with
    | .error e => (p, .error e)
    | .ok () =>
        match upserts.foldlM applyMachineUpsert (stateItems p.state) with
        | .error e => (p, .error e)
        | .ok items => commitItems p items ()

/-- `machine_upsert_block`. -/
def machineUpsertBlock (write : MachineBlockWrite) (frozenLanes : List String)
    (insertBefore : Option String) :
    TranscriptProjection × Except TranscriptProjectionError Unit :=
  machineUpsertBlocks p [⟨write, frozenLanes, insertBefore⟩]

/-- `mutate_block`. -/
def mutateBlock (blockId : String) (mutate : Value → Value) :
    TranscriptProjection × Except TranscriptProjectionError Unit :=
  match updateFirst (itemId · = some blockId) mutate (stateItems p.state) with
  | none => (p, .error (.blockNotFound blockId))
  | some items => commitItems p items ()

/-- `user_replace_lane`. -/
def userReplaceLane (blockId lane text : String) :
    TranscriptProjection × Except TranscriptProjectionError Unit :=
  match validateLanes [lane] with
  | .error e => (p, .error e)
  | .ok () => mutateBlock p blockId (setLane lane text)

/-- `user_replace_text`. -/
def userReplaceText (blockId text : String) :
    TranscriptProjection × Except TranscriptProjectionError Unit :=
  mutateBlock p blockId (setKey "text" (.string text))

/-- `insert_annotation`. -/
def insertAnnotation (index : ℕ) (id text : String) :
    TranscriptProjection × Except TranscriptProjectionError Unit :=
  if id = "" then (p, .error .emptyBlockId)
  else
    let items := stateItems p.state
    commitItems p (items.insertIdx (min index items.length)
      (blockJson id userOwner text (.object []))) ()

/-- `purge_session_blocks`: the number of blocks removed. -/
def purgeSessionBlocks (sessionId : String) :
    TranscriptProjection × Except TranscriptProjectionError ℕ :=
  let items := stateItems p.state
  let kept := items.filter fun item =>
    (item.get "owner").bind Value.asStr ≠ some (captureOwner sessionId)
  let removed := items.length - kept.length
  if removed = 0 then (p, .ok 0) else commitItems p kept removed

/-- `session_slice`. -/
def sessionSlice (sessionId : String) :
    Except TranscriptProjectionError (List UtteranceBlock) :=
  match sessionSliceRange (stateItems p.state) sessionId with
  | .error e => .error e
  | .ok none => .ok []
  | .ok (some (start, stop)) => .ok (((blocks p).take stop).drop start)

/-- `splice_session_slice`: the number of blocks put in. -/
def spliceSessionSlice (slice : List UtteranceBlock) (beforeBlockId : Option String) :
    TranscriptProjection × Except TranscriptProjectionError ℕ :=
  if slice.any fun block => block.id = "" then (p, .error .emptyBlockId)
  else
    match slice.forM fun block => validateLanes block.lanes.keys with
    | .error e => (p, .error e)
    | .ok () =>
        let items := stateItems p.state
        let cursor := match beforeBlockId with
          | none => some items.length
          | some anchor => items.findIdx? (itemId · = some anchor)
        match cursor with
        | none => (p, .error (.blockNotFound (beforeBlockId.getD "")))
        | some cursor =>
            let spliced := spliceItems items cursor slice
            let inserted := spliced.length - items.length
            if inserted = 0 then (p, .ok 0) else commitItems p spliced inserted

/-- `remove_session_slice`: the number of blocks removed. -/
def removeSessionSlice (sessionId : String) :
    TranscriptProjection × Except TranscriptProjectionError ℕ :=
  let items := stateItems p.state
  match sessionSliceRange items sessionId with
  | .error e => (p, .error e)
  | .ok none => (p, .ok 0)
  | .ok (some (start, stop)) =>
      commitItems p (items.take start ++ items.drop stop) (stop - start)

end TranscriptProjection

end Transcripts
end ZuTalk
