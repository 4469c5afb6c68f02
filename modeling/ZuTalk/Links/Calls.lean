/-
# The rooms behind shared links

`crates/vt-ffi/src/link_share.rs`: `start_live_link`, `replace_live_link`, `stop_live_link`,
`create_recording_link` and `revoke_recording_link`, each as the steps between which other
threads may run, with the live link, the registry of links and the rooms at the service.  The
registry is a file that each call reads, changes and replaces, by way of one temporary file.

A room is named by its id and its publish token, without which no request reaches it.  Of what
the service holds, only matters whether there is transcript content, when something was
published last and whether the room has ended; it handles a request in one step, and has
forgotten a room when nothing was published for its retention.  The keys, the urls and the
titles are left out, and so is whether a room is locked.
-/

import ZuTalk.Library.Machine
import ZuTalk.Library.TemporaryFile

namespace ZuTalk
namespace Links

/-- `ROOM_RETENTION_SECONDS`. -/
def roomRetentionSeconds : ℕ := 24 * 60 * 60

/-- `RECORDING_LINK_TTL_SECS`. -/
def recordingLinkTtlSecs : ℕ := 24 * 60 * 60

/-- `LinkRoom`. -/
structure LinkRoom where
  roomId : String
  publishToken : String
  deriving DecidableEq, Repr

/-- `LiveLink`. -/
structure LiveLink where
  room : LinkRoom
  sessionId : String
  keepsAfterEnd : Bool
  deriving DecidableEq, Repr

/-- `StoredLink`. -/
structure StoredLink where
  room : LinkRoom
  sessionId : String
  createdAt : ℕ
  expiresAt : ℕ
  deriving DecidableEq, Repr

/-- A room at the service. -/
structure Served where
  content : Bool
  lastActivity : ℕ
  ended : Bool
  deriving DecidableEq, Repr

/-- What a call is about to change in the registry. -/
inductive Change
  | add (link : StoredLink)
  | remove (link : StoredLink)
  deriving DecidableEq, Repr

/-- The links after a change: the first with the id is removed. -/
def Change.apply (links : List StoredLink) : Change → List StoredLink
  | .add link => links ++ [link]
  | .remove link => links.eraseP fun other => other.room.roomId = link.room.roomId

/-- What a thread does next. -/
inductive Call
  | idle
  /-- `start_live_link` or `replace_live_link` opens its room, -/
  | opening (replaces : Bool) (session : String) (keeps : Bool)
  /-- posts what the link is about, -/
  | describing (replaces : Bool) (link : LiveLink)
  /-- reads the transcript and queues it, -/
  | reading (replaces : Bool) (link : LiveLink)
  /-- and puts the link in its place. -/
  | placing (replaces : Bool) (link : LiveLink)
  /-- A room is purged, and whatever comes of it, the call returns. -/
  | purging (room : LinkRoom)
  /-- `stop_live_link` reads the transcript that is kept. -/
  | draining (session : String) (room : LinkRoom)
  /-- `create_recording_link` reads the transcript, -/
  | preparing (session : String)
  /-- opens its room, -/
  | openingRecording (session : String) (parts : ℕ)
  /-- and posts what the link is about. -/
  | describingRecording (session : String) (parts : ℕ) (room : LinkRoom)
  /-- Either posts the parts that are left, and closes the room when none is, -/
  | pushing (recording : Bool) (session : String) (room : LinkRoom) (left : ℕ)
  /-- and reads the registry to record the link. -/
  | recording (session : String) (room : LinkRoom)
  /-- `revoke_recording_link` looks the link up, -/
  | looking (roomId : String)
  /-- and purges its room. -/
  | revoking (loaded : List StoredLink) (link : StoredLink)
  /-- To write the registry, the temporary file is opened, -/
  | saving (loaded : List StoredLink) (change : Change)
  /-- written, -/
  | writing (loaded : List StoredLink) (change : Change) (inode : ℕ)
  /-- and renamed. -/
  | installing (loaded : List StoredLink) (change : Change) (inode : ℕ)
  deriving DecidableEq, Repr

/-- The links of a process, and the rooms at the service. -/
structure World where
  now : ℕ
  served : LinkRoom → Option Served
  slot : Option LiveLink
  calls : ℕ → Call
  files : TemporaryFile (List StoredLink)
  /-- The rooms whose tasks have been given parts.  A request that is under way when the task is
  aborted may still arrive. -/
  publishing : List LinkRoom
  /-- The rooms that were opened so far. -/
  opened : List LinkRoom
  /-- The rooms for which a purge request was sent so far. -/
  purges : List LinkRoom

/-- A process that was just started. -/
def World.start (now : ℕ) : World := ⟨now, fun _ => none, none, fun _ => .idle, .absent, [], [], []⟩

/-- A call as it is made. -/
inductive Request
  | start (session : String) (keeps : Bool)
  | replace
  | stop
  | create (session : String)
  | revoke (roomId : String)
  deriving DecidableEq, Repr

/-- What can happen.  A request that is answered has reached the service. -/
inductive LinkAct
  | call (thread : ℕ) (request : Request)
  /-- The service makes a room, and its answer is heard or not. -/
  | opened (thread : ℕ) (room : LinkRoom) (heard : Bool)
  /-- No room is made. -/
  | refused (thread : ℕ)
  | post (thread : ℕ) (stored heard : Bool)
  /-- `transcript_parts`: how many there are, or that they cannot be read. -/
  | read (thread : ℕ) (parts : Option ℕ)
  | place (thread : ℕ)
  | close (thread : ℕ) (arrived heard : Bool)
  | load (thread : ℕ) (readable : Bool)
  | openRegistry (thread : ℕ) (opened : Bool)
  /-- What others wrote meanwhile is covered or not. -/
  | writeRegistry (thread : ℕ) (written covers : Bool)
  | renameRegistry (thread : ℕ) (renamed : Bool)
  /-- `push_live_link_transcript` queues a part. -/
  | queue
  /-- The task of a link posts a part. -/
  | publish (room : LinkRoom)
  /-- `set_live_link_keeps_after_end`. -/
  | setKeeps (keeps : Bool)
  | wait (seconds : ℕ)
  /-- `sweep_idle`. -/
  | sweep
  deriving DecidableEq, Repr

namespace World

/-- The links in the file.  One that cannot be read counts as empty. -/
def registry (world : World) : List StoredLink := world.files.read.getD []

/-- A thread comes to its next step. -/
def goOn (world : World) (thread : ℕ) (call : Call) : World :=
  { world with calls := Function.update world.calls thread call }

/-- The service makes a room. -/
def makeRoom (world : World) (room : LinkRoom) : World :=
  { world with
    served := Function.update world.served room (some ⟨false, world.now, false⟩)
    opened := room :: world.opened }

/-- Whether the service takes what is posted to a room. -/
def accepts (world : World) (room : LinkRoom) : Bool :=
  (world.served room).any fun served => !served.ended

/-- What is posted to a room, with transcript content or without. -/
def store (world : World) (room : LinkRoom) (blocks : Bool) : World :=
  { world with
    served := Function.update world.served room ((world.served room).map fun served =>
      { served with content := served.content || blocks, lastActivity := world.now }) }

/-- A room is ended. -/
def endRoom (world : World) (room : LinkRoom) : World :=
  { world with
    served := Function.update world.served room ((world.served room).map fun served =>
      { served with ended := true }) }

/-- A purge request is sent, and arrives or not. -/
def purge (world : World) (room : LinkRoom) (arrived : Bool) : World :=
  { world with
    served := if arrived then Function.update world.served room none else world.served
    purges := room :: world.purges }

/-- `load_link_registry`. -/
def loadLinkRegistry (world : World) (readable : Bool) : List StoredLink :=
  if readable then world.registry.filter fun link => world.now < link.expiresAt else []

/-- A post, and what the call does next if it is answered and if it is not. -/
def postTo (world : World) (thread : ℕ) (room : LinkRoom) (blocks stored heard : Bool)
    (success failure : Call) : Option World :=
  if (heard && !stored) || (stored && !world.accepts room) then none
  else
    let world := if stored then world.store room blocks else world
    some (world.goOn thread (if heard then success else failure))

/-- How a call begins. -/
def begin (world : World) (thread : ℕ) : Request → World
  | .start session keeps =>
      match world.slot with
      | some _ => world
      | none => world.goOn thread (.opening false session keeps)
  | .replace =>
      match world.slot with
      | some link => world.goOn thread (.opening true link.sessionId link.keepsAfterEnd)
      | none => world
  | .stop =>
      match world.slot with
      | some link => { world.goOn thread (if link.keepsAfterEnd then
          .draining link.sessionId link.room else .purging link.room) with slot := none }
      | none => world
  | .create session => world.goOn thread (.preparing session)
  | .revoke roomId => world.goOn thread (.looking roomId)

/-- One step. -/
def step (world : World) : LinkAct → Option World
  | .call thread request =>
      match world.calls thread with
      | .idle => some (world.begin thread request)
      | _ => none
  | .opened thread room heard =>
      if room ∈ world.opened then none
      else
        match world.calls thread with
        | .opening replaces session keeps =>
            some ((world.makeRoom room).goOn thread
              (if heard then .describing replaces ⟨room, session, keeps⟩ else .idle))
        | .openingRecording session parts =>
            some ((world.makeRoom room).goOn thread
              (if heard then .describingRecording session parts room else .idle))
        | _ => none
  | .refused thread =>
      match world.calls thread with
      | .opening _ _ _ => some (world.goOn thread .idle)
      | .openingRecording _ _ => some (world.goOn thread .idle)
      | _ => none
  | .post thread stored heard =>
      match world.calls thread with
      | .describing replaces link =>
          world.postTo thread link.room false stored heard (.reading replaces link) .idle
      | .describingRecording session parts room =>
          world.postTo thread room false stored heard (.pushing true session room parts)
            (.purging room)
      | .pushing recording session room (left + 1) =>
          world.postTo thread room true stored heard (.pushing recording session room left)
            (if recording then .purging room else .idle)
      | _ => none
  | .read thread parts =>
      match world.calls thread, parts with
      | .reading _ _, none => some (world.goOn thread .idle)
      | .reading replaces link, some 0 => some (world.goOn thread (.placing replaces link))
      | .reading replaces link, some (_ + 1) =>
          some { world.goOn thread (.placing replaces link) with
            publishing := link.room :: world.publishing }
      | .draining _ _, none => some (world.goOn thread .idle)
      | .draining session room, some left =>
          some (world.goOn thread (.pushing false session room left))
      | .preparing session, some (parts + 1) =>
          some (world.goOn thread (.openingRecording session (parts + 1)))
      | .preparing _, _ => some (world.goOn thread .idle)
      | _, _ => none
  | .place thread =>
      match world.calls thread with
      | .placing replaces link =>
          some { world.goOn thread (match replaces, world.slot with
              | true, some old => .purging old.room
              | _, _ => .idle) with slot := some link }
      | _ => none
  | .close thread arrived heard =>
      if heard && !arrived then none
      else
        match world.calls thread with
        | .purging room => some ((world.purge room arrived).goOn thread .idle)
        | .pushing recording session room 0 =>
            let world := if arrived then world.endRoom room else world
            some (world.goOn thread (if heard then .recording session room
              else if recording then .purging room else .idle))
        | .revoking loaded link =>
            some ((world.purge link.room arrived).goOn thread
              (if heard then .saving loaded (.remove link) else .idle))
        | _ => none
  | .load thread readable =>
      match world.calls thread with
      | .recording session room =>
          some (world.goOn thread (.saving (world.loadLinkRegistry readable)
            (.add ⟨room, session, world.now, world.now + recordingLinkTtlSecs⟩)))
      | .looking roomId =>
          let loaded := world.loadLinkRegistry readable
          some (world.goOn thread (match loaded.find? fun link => link.room.roomId = roomId with
            | some link => .revoking loaded link
            | none => .idle))
      | _ => none
  | .openRegistry thread opened =>
      match world.calls thread with
      | .saving loaded change =>
          some (if opened then
              { world.goOn thread (.writing loaded change world.files.inode) with
                files := world.files.openTemporary }
            else world.goOn thread .idle)
      | _ => none
  | .writeRegistry thread written covers =>
      match world.calls thread with
      | .writing loaded change inode =>
          some (if written then
              { world.goOn thread (.installing loaded change inode) with
                files := world.files.write inode (change.apply loaded) covers }
            else { world.goOn thread .idle with files := world.files.spoil inode })
      | _ => none
  | .renameRegistry thread renamed =>
      match world.calls thread with
      | .installing _ _ _ =>
          if renamed then
            world.files.rename.map fun files => { world.goOn thread .idle with files := files }
          else some (world.goOn thread .idle)
      | _ => none
  | .queue =>
      world.slot.map fun link => { world with publishing := link.room :: world.publishing }
  | .publish room =>
      if world.publishing.contains room && world.accepts room then some (world.store room true)
      else none
  | .setKeeps keeps =>
      some { world with slot := world.slot.map fun link => { link with keepsAfterEnd := keeps } }
  | .wait seconds => some { world with now := world.now + seconds }
  | .sweep =>
      some { world with served := fun room => (world.served room).filter fun served =>
        world.now ≤ served.lastActivity + roomRetentionSeconds }

/-! ### Rooms with a handle -/

/-- Whether the retention of a room is over. -/
def Expired (world : World) (served : Served) : Prop :=
  served.lastActivity + roomRetentionSeconds ≤ world.now

/-- A room that needs no handle: a purge request was sent for it, or it is not there, or it
holds no content that has not expired, and no more is to come. -/
def Free (world : World) (room : LinkRoom) : Prop :=
  room ∈ world.purges ∨ ∀ served ∈ world.served room,
    (room ∉ world.publishing ∨ served.ended = true) ∧
      (served.content = false ∨ world.Expired served)

/-- A room that holds content which has not expired is the live link's, or is recorded, or a
purge request was sent for it. -/
def Handled (world : World) (room : LinkRoom) : Prop :=
  ∀ served ∈ world.served room, served.content = true → ¬ world.Expired served →
    (∃ link, world.slot = some link ∧ link.room = room) ∨
      (∃ link ∈ world.registry, link.room = room) ∨ room ∈ world.purges

/-- A step removes no link from the registry but the revoked one and expired ones. -/
def KeepsLinks (world : World) (act : LinkAct) : Prop :=
  ∀ world', world.step act = some world' → ∀ link ∈ world.registry, link ∈ world'.registry ∨
    link.expiresAt ≤ world.now ∨ ∃ thread loaded inode, act = .renameRegistry thread true ∧
      world.calls thread = .installing loaded (.remove link) inode

/-- Nothing is lost with a change. -/
def Spare (world : World) : Change → Prop
  | .add link => world.Free link.room
  | .remove _ => True

/-- What the steps of a run meet.  A call gives a room up, or loses the link it would have
recorded, only if the room needs no handle; `start_live_link` replaces no link whose room needs
one; no call writes to an inode that another one has renamed to the registry; and what is
renamed to it is what the call wrote, and was made of all the links that are in the registry,
those that have expired apart. -/
def Fit (world : World) : LinkAct → Prop
  | .read thread none =>
      match world.calls thread with
      | .draining _ room => world.Free room
      | _ => True
  | .post thread stored heard =>
      match world.calls thread with
      | .pushing false _ room _ => heard = true ∨ (stored = false ∧ world.Free room)
      | _ => True
  | .close thread _ heard =>
      match world.calls thread with
      | .pushing false _ room _ => heard = true ∨ world.Free room
      | _ => True
  | .place thread =>
      match world.calls thread with
      | .placing false _ => ∀ old ∈ world.slot, world.Free old.room
      | _ => True
  | .openRegistry thread opened =>
      match world.calls thread with
      | .saving _ change => opened = true ∨ world.Spare change
      | _ => True
  | .writeRegistry thread written _ =>
      match world.calls thread with
      | .writing _ change inode =>
          world.files.file ≠ some inode ∧ (written = true ∨ world.Spare change)
      | _ => True
  | .renameRegistry thread renamed =>
      match world.calls thread with
      | .installing loaded change inode =>
          if renamed then
            world.files.temporary = some inode ∧
              world.files.contents inode = .text (change.apply loaded) ∧
              ∀ link ∈ world.registry, link ∈ loaded ∨ link.expiresAt ≤ world.now
          else world.Spare change
      | _ => True
  | _ => True

instance (world : World) (served : Served) : Decidable (world.Expired served) :=
  inferInstanceAs (Decidable (_ ≤ _))

instance (world : World) (room : LinkRoom) : Decidable (world.Free room) :=
  inferInstanceAs (Decidable (_ ∨ _))

instance (world : World) (change : Change) : Decidable (world.Spare change) := by
  unfold Spare
  split
  · infer_instance
  · infer_instance

instance (world : World) (act : LinkAct) : Decidable (world.Fit act) := by
  unfold Fit
  split
  · split
    · infer_instance
    · infer_instance
  · split
    · infer_instance
    · infer_instance
  · split
    · infer_instance
    · infer_instance
  · split
    · infer_instance
    · infer_instance
  · split
    · infer_instance
    · infer_instance
  · split
    · infer_instance
    · infer_instance
  · split
    · infer_instance
    · infer_instance
  · infer_instance

end World

end Links
end ZuTalk
