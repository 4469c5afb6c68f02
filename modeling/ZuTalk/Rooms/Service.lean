/-
# The rooms of a process and its state file

`services/caption-web/server.py`, class `RoomStore` and the request threads of `Handler`.

A request looks its room up in one critical section and acts on the object it found in a
second one; in between anything may happen, and the object outlives its entry in the table.
`flush` takes the lock twice and writes without it, so several may be under way, and all of
them write the one temporary file.  A restart forgets all but the files.

Room ids are random and do not repeat, so an object is named by its id: `rooms` are the objects
the process has made, `table` the ids that are in `self.rooms`.  A moment is a number of
seconds; the state file keeps wall-clock times, which a restart does not change.  Whether
`create_room` lets a caller in is left out.  `Record` is what has happened so far: no step
depends on it but for the ids that were taken.
-/

import ZuTalk.Library.TemporaryFile
import ZuTalk.Rooms.Room

namespace ZuTalk
namespace Rooms

variable {α : Type}

/-- What the state file keeps of a room. -/
structure Stored (α : Type) where
  roomId : String
  publishToken : String
  createdAt : ℤ
  lastActivity : ℤ
  blocks : List (String × Blocks α)
  segments : List (Segment α)
  metadata : Option α
  locked : Bool
  ended : Bool
  deriving DecidableEq, Repr

/-- An entry of `snapshot`. -/
def Room.stored (room : Room α) : Stored α where
  roomId := room.roomId
  publishToken := room.publishToken
  createdAt := room.createdAt
  lastActivity := room.lastActivity
  blocks := room.blocks
  segments := room.segments
  metadata := room.metadata
  locked := room.locked
  ended := room.ended

/-- A room as `load` makes it. -/
def Stored.room (stored : Stored α) : Room α where
  roomId := stored.roomId
  publishToken := stored.publishToken
  createdAt := stored.createdAt
  lastActivity := stored.lastActivity
  frame := none
  blocks := stored.blocks
  segments := stored.segments
  metadata := stored.metadata
  locked := stored.locked
  subscribers := []
  ended := stored.ended

/-- What a room holds beyond its frame, and the activity its retention is counted from. -/
structure Content (α : Type) where
  blocks : List (String × Blocks α)
  segments : List (Segment α)
  metadata : Option α
  lastActivity : ℤ
  deriving DecidableEq, Repr

/-- The content of a room. -/
def Room.content (room : Room α) : Content α :=
  ⟨room.blocks, room.segments, room.metadata, room.lastActivity⟩

/-- The content of a room in the state file. -/
def Stored.content (stored : Stored α) : Content α :=
  ⟨stored.blocks, stored.segments, stored.metadata, stored.lastActivity⟩

/-- Whether a message carries what was pushed to a room. -/
def Message.isContent : Message α → Bool
  | .init _ => true
  | .push _ => true
  | .ended _ => false
  | .ping => false

/-- A request, as far as it comes to a room. -/
inductive Request (α : Type)
  | publish (push : Push α)
  | endRoom
  | purge
  | setLocked (locked : Bool)
  | view (connection : ℕ)
  deriving DecidableEq, Repr

/-- A thread that has found its room. -/
structure Handle (α : Type) where
  thread : ℕ
  roomId : String
  request : Request α
  deriving DecidableEq, Repr

/-- A thread in `flush`: it has cleared `dirty`, and may have its snapshot, the temporary file
open, and the snapshot written to it. -/
structure Flush (α : Type) where
  thread : ℕ
  snapshot : Option (List (Stored α))
  inode : Option ℕ
  written : Bool
  deriving DecidableEq, Repr

/-- A viewer that was let in, and whether the room was live. -/
structure Admission where
  connection : ℕ
  roomId : String
  live : Bool
  deriving DecidableEq, Repr

/-- What has happened so far. -/
structure Record (α : Type) where
  /-- The ids that were given to rooms. -/
  made : List String
  /-- The rooms `end_room` has ended, with what they held then. -/
  endings : List (String × Content α)
  /-- The rooms `purge_room` has purged. -/
  purged : List String
  /-- The rooms that are locked by `set_locked`. -/
  locks : List String
  /-- The rooms `set_locked` has unlocked. -/
  unlocks : List String
  admissions : List Admission
  /-- What viewers were sent, with the room it was of. -/
  handed : List (String × Message α)
  /-- What was read of the state file each time it was renamed or written to. -/
  saves : List (List (Stored α))
  deriving DecidableEq, Repr

/-- The process, its files, and what has happened. -/
structure Service (α : Type) where
  rooms : List (Room α)
  table : List String
  queues : ℕ → Option (List (Message α))
  /-- The room whose events a connection is sent. -/
  viewing : ℕ → String
  handles : List (Handle α)
  dirty : Bool
  flushes : List (Flush α)
  files : TemporaryFile (List (Stored α))
  record : Record α

/-- What is read of the state file. -/
def Service.disk (service : Service α) : Option (List (Stored α)) := service.files.read

/-- A process without rooms and without a state file. -/
def Service.start : Service α where
  rooms := []
  table := []
  queues := fun _ => none
  viewing := fun _ => ""
  handles := []
  dirty := false
  flushes := []
  files := .absent
  record := ⟨[], [], [], [], [], [], [], []⟩

/-- What can happen next. -/
inductive Act (α : Type)
  | create (roomId publishToken : String) (now : ℤ)
  /-- `room_for_publish`, `room_for_owner` or `room_for_view`. -/
  | look (thread : ℕ) (roomId token : String) (request : Request α)
  /-- The operation on the room that was found. -/
  | act (thread : ℕ) (now : ℤ)
  | read (connection : ℕ)
  | leave (connection : ℕ)
  | sweepIdle (cutoff : ℤ)
  /-- `flush` finds the store dirty. -/
  | clean (thread : ℕ)
  | snapshot (thread : ℕ)
  /-- The temporary file is opened, or cannot be. -/
  | openTemporary (thread : ℕ) (opened : Bool)
  /-- It is written, and what others wrote is covered or not; or it cannot be written. -/
  | write (thread : ℕ) (written covers : Bool)
  /-- It is renamed to the state file, or cannot be. -/
  | replace (thread : ℕ) (replaced : Bool)
  /-- The process stops wherever it is, and `load` starts the next one. -/
  | restart (cutoff : ℤ)
  deriving DecidableEq, Repr

namespace Service

/-- The object of a room. -/
def room (service : Service α) (roomId : String) : Option (Room α) :=
  service.rooms.find? fun room => room.roomId = roomId

/-- The object of a room is changed. -/
def modify (service : Service α) (roomId : String) (set : Room α → Room α) : Service α :=
  { service with rooms := Table.update (fun room => room.roomId = roomId) set service.rooms }

/-- Whether a lookup finds the room for a request. -/
def finds (service : Service α) (room : Room α) (token : String) (request : Request α) : Bool :=
  service.table.contains room.roomId &&
    match request with
    | .publish _ => !room.ended && room.publishToken = token
    | .endRoom => !room.ended && room.publishToken = token
    | .purge => room.publishToken = token
    | .setLocked _ => room.publishToken = token
    | .view _ => true

/-- The lookup of a request.  A connection is served once. -/
def look (service : Service α) (thread : ℕ) (roomId token : String) (request : Request α) :
    Option (Service α) :=
  if service.handles.any fun handle => handle.thread = thread then none
  else
    match service.room roomId with
    | none => some service
    | some room =>
        if service.finds room token request then
          some { service with handles := service.handles ++ [⟨thread, roomId, request⟩] }
        else some service

/-- `_end_room_locked`. -/
def endRoomLocked (service : Service α) (roomId : String) (purged : Bool) : Service α :=
  match service.room roomId with
  | none => service
  | some room =>
      { service.modify roomId Room.endRoom with
        queues := offerAll service.queues room.subscribers (.ended purged) }

/-- `publish`. -/
def publish (service : Service α) (room : Room α) (now : ℤ) (push : Push α) : Service α :=
  { service.modify room.roomId fun room => room.publish now push with
    dirty := match push with
      | .frame _ => service.dirty
      | _ => true
    queues := offerAll service.queues room.subscribers (.push push) }

/-- `end_room`. -/
def endRoom (service : Service α) (room : Room α) : Service α :=
  { service.endRoomLocked room.roomId false with
    dirty := true
    record := { service.record with
      endings := service.record.endings ++ [(room.roomId, room.content)] } }

/-- `purge_room`. -/
def purgeRoom (service : Service α) (room : Room α) : Service α :=
  { service.endRoomLocked room.roomId true with
    table := service.table.filter fun id => id ≠ room.roomId
    dirty := true
    record := { service.record with purged := service.record.purged ++ [room.roomId] } }

/-- `set_locked`. -/
def setLocked (service : Service α) (room : Room α) (locked : Bool) : Service α :=
  { service.modify room.roomId fun room => room.setLocked locked with
    dirty := true
    record := if locked then
        { service.record with locks := service.record.locks ++ [room.roomId] }
      else
        { service.record with
          locks := service.record.locks.filter fun id => id ≠ room.roomId
          unlocks := service.record.unlocks ++ [room.roomId] } }

/-- `subscribe`.  A connection that was let in before is not let in again. -/
def subscribe (service : Service α) (room : Room α) (connection : ℕ) : Service α :=
  if service.record.admissions.any fun admission => admission.connection = connection then service
  else if room.admits then
    { service.modify room.roomId fun room => room.subscribe connection with
      queues := Function.update service.queues connection (some room.firstQueue)
      viewing := Function.update service.viewing connection room.roomId
      record := { service.record with
        admissions := service.record.admissions ++ [⟨connection, room.roomId, !room.ended⟩] } }
  else service

/-- The operation of a request. -/
def perform (service : Service α) (room : Room α) (now : ℤ) : Request α → Service α
  | .publish push => service.publish room now push
  | .endRoom => service.endRoom room
  | .purge => service.purgeRoom room
  | .setLocked locked => service.setLocked room locked
  | .view connection => service.subscribe room connection

/-- `sweep_idle`. -/
def sweepIdle (service : Service α) (cutoff : ℤ) : Service α :=
  let idle := (service.rooms.filter fun room =>
    service.table.contains room.roomId && room.lastActivity < cutoff).map Room.roomId
  let closed := idle.foldl (fun service roomId => service.endRoomLocked roomId false) service
  { closed with
    table := service.table.filter fun roomId => !idle.contains roomId
    dirty := service.dirty || !idle.isEmpty }

/-- `snapshot`. -/
def takeSnapshot (service : Service α) : List (Stored α) :=
  (service.rooms.filter fun room => service.table.contains room.roomId).map Room.stored

/-- `load`, in a new process. -/
def load (service : Service α) (cutoff : ℤ) : Service α :=
  let rooms := ((service.disk.getD []).filter fun stored => cutoff ≤ stored.lastActivity).map
    Stored.room
  { (start : Service α) with
    rooms := rooms
    table := rooms.map Room.roomId
    files := service.files
    record := service.record }

/-- The flush of a thread goes on, which has its snapshot. -/
def goOn (service : Service α) (thread : ℕ) (set : Flush α → Flush α) : Service α :=
  { service with
    flushes := Table.update (fun flush => flush.thread = thread && flush.snapshot.isSome) set
      service.flushes }

/-- `flush` ends, or raises. -/
def endFlush (service : Service α) (thread : ℕ) : Service α :=
  { service with flushes := service.flushes.filter fun flush => flush.thread ≠ thread }

/-- The state file is another one. -/
def saved (service : Service α) : Service α :=
  { service with record := { service.record with
      saves := service.record.saves ++ service.disk.toList } }

/-- `os.open` of the temporary file. -/
def openTemporary (service : Service α) (thread : ℕ) : Service α :=
  { service.goOn thread fun flush => { flush with inode := some service.files.inode } with
    files := service.files.openTemporary }

/-- `handle.write`.  The inode may be the state file by now. -/
def write (service : Service α) (thread inode : ℕ) (snapshot : List (Stored α)) (covers : Bool) :
    Service α :=
  let service' := { service.goOn thread fun flush => { flush with written := true } with
    files := service.files.write inode snapshot covers }
  if service.files.file = some inode then service'.saved else service'

/-- `os.replace`, if there is a temporary file. -/
def replace (service : Service α) (thread : ℕ) : Option (Service α) :=
  service.files.rename.map fun files => saved { service.endFlush thread with files := files }

/-- One step. -/
def step (service : Service α) : Act α → Option (Service α)
  | .create roomId publishToken now =>
      if service.record.made.contains roomId then none
      else some { service with
        rooms := service.rooms ++ [Room.create roomId publishToken now]
        table := service.table ++ [roomId]
        dirty := true
        record := { service.record with made := service.record.made ++ [roomId] } }
  | .look thread roomId token request => service.look thread roomId token request
  | .act thread now =>
      match service.handles.find? fun handle => handle.thread = thread with
      | none => none
      | some handle =>
          (service.room handle.roomId).map fun room =>
            { service.perform room now handle.request with
              handles := service.handles.filter fun handle => handle.thread ≠ thread }
  | .read connection =>
      match service.queues connection with
      | some (message :: rest) => some { service with
          queues := Function.update service.queues connection (some rest)
          record := { service.record with
            handed := service.record.handed ++ [(service.viewing connection, message)] } }
      | _ => none
  | .leave connection =>
      if (service.queues connection).isSome then
        some { service.modify (service.viewing connection) fun room =>
            room.unsubscribe connection with
          queues := Function.update service.queues connection none }
      else none
  | .sweepIdle cutoff => some (service.sweepIdle cutoff)
  | .clean thread =>
      if service.dirty && !(service.flushes.any fun flush => flush.thread = thread) then
        some { service with
          dirty := false
          flushes := service.flushes ++ [⟨thread, none, none, false⟩] }
      else none
  | .snapshot thread =>
      some { service with
        flushes := Table.update (fun flush => flush.thread = thread && flush.snapshot.isNone)
          (fun flush => { flush with snapshot := some service.takeSnapshot }) service.flushes }
  | .openTemporary thread opened =>
      match service.flushes.find? fun flush => flush.thread = thread with
      | some ⟨_, some _, none, _⟩ =>
          some (if opened then service.openTemporary thread else service.endFlush thread)
      | _ => none
  | .write thread written covers =>
      match service.flushes.find? fun flush => flush.thread = thread with
      | some ⟨_, some snapshot, some inode, false⟩ =>
          if written then some (service.write thread inode snapshot covers)
          -- what was written stays in the inode, and the name is removed
          else some { service.endFlush thread with files := (service.files.spoil inode).unlink }
      | _ => none
  | .replace thread replaced =>
      match service.flushes.find? fun flush => flush.thread = thread with
      | some ⟨_, _, some _, true⟩ =>
          if replaced then service.replace thread else some (service.endFlush thread)
      | _ => none
  | .restart cutoff => some (service.load cutoff)

end Service

end Rooms
end ZuTalk
