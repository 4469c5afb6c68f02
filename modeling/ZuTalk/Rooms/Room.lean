/-
# A shared room

`services/caption-web/server.py`, class `Room` and what `RoomStore` does to one room: what
is pushed to it, what a subscriber is sent at first, and how it is closed.

What is pushed is a JSON object.  The service reads no more of it than the `session_id` of
blocks and the `kind` of a segment; what the viewing page finds in it, decrypted where it is
encrypted, stands beside them.  `blocks` and `session_order` are one list, in the order in
which the ids were first seen.  A subscriber is the number of its connection.
-/

import ZuTalk.Library.Table

namespace ZuTalk
namespace Rooms

/-- `SUBSCRIBER_QUEUE_DEPTH`. -/
def subscriberQueueDepth : ℕ := 32

/-- `MAX_SUBSCRIBERS_PER_ROOM`. -/
def maxSubscribersPerRoom : ℕ := 200

/-- `MAX_SEGMENTS_PER_ROOM`. -/
def maxSegmentsPerRoom : ℕ := 500

variable {α : Type}

/-- Blocks as they are pushed: what the service reads, if it is a text, and the part of a
transcript the page finds in them. -/
structure Blocks (α : Type) where
  wireId : Option String
  session : String
  part : ℕ
  parts : Option ℕ
  blocks : List α
  deriving DecidableEq, Repr

/-- A segment as it is pushed. -/
structure Segment (α : Type) where
  kind : String
  data : α
  deriving DecidableEq, Repr

/-- What is pushed to a room. -/
inductive Push (α : Type)
  | frame (data : α)
  | metadata (data : α)
  | blocks (data : Blocks α)
  | segment (data : Segment α)
  deriving DecidableEq, Repr

/-- All that a room has, as it is sent to a new subscriber. -/
structure Init (α : Type) where
  sessions : List (Blocks α)
  frame : Option α
  segments : List (Segment α)
  metadata : Option α
  deriving DecidableEq, Repr

/-- What is sent to subscribers. -/
inductive Message (α : Type)
  | init (data : Init α)
  | push (data : Push α)
  | ended (purged : Bool)
  | ping
  deriving DecidableEq, Repr

/-- `Room`. -/
structure Room (α : Type) where
  roomId : String
  publishToken : String
  createdAt : ℤ
  lastActivity : ℤ
  frame : Option α
  blocks : List (String × Blocks α)
  segments : List (Segment α)
  metadata : Option α
  locked : Bool
  subscribers : List ℕ
  ended : Bool
  deriving DecidableEq, Repr

/-- A room as it is made. -/
def Room.create (roomId publishToken : String) (now : ℤ) : Room α where
  roomId := roomId
  publishToken := publishToken
  createdAt := now
  lastActivity := now
  frame := none
  blocks := []
  segments := []
  metadata := none
  locked := false
  subscribers := []
  ended := false

/-- `offer`: the oldest messages make way. -/
def offer (waiting : List (Message α)) (message : Message α) : List (Message α) :=
  waiting.drop (waiting.length + 1 - subscriberQueueDepth) ++ [message]

/-- The queues of the connections after a message was offered to some. -/
def offerAll (queues : ℕ → Option (List (Message α))) (subscribers : List ℕ)
    (message : Message α) : ℕ → Option (List (Message α)) := fun connection =>
  if connection ∈ subscribers then
    (queues connection).map fun waiting => offer waiting message
  else queues connection

/-- The queues after `PING` was put where there was room for it. -/
def pingAll (queues : ℕ → Option (List (Message α))) (subscribers : List ℕ) :
    ℕ → Option (List (Message α)) := fun connection =>
  if connection ∈ subscribers then
    (queues connection).map fun waiting =>
      if waiting.length < subscriberQueueDepth then waiting ++ [.ping] else waiting
  else queues connection

namespace Room

/-- Blocks go where their id was first seen, or behind the others. -/
def storeBlocks (blocks : List (String × Blocks α)) (data : Blocks α) : List (String × Blocks α) :=
  match data.wireId with
  | none => blocks
  | some id =>
      if id = "" then blocks
      else if blocks.any fun entry => entry.1 = id then
        Table.update (fun entry => entry.1 = id) (fun entry => (entry.1, data)) blocks
      else blocks ++ [(id, data)]

/-- What `publish` does to the room. -/
def publish (room : Room α) (now : ℤ) (push : Push α) : Room α :=
  let room := { room with lastActivity := now }
  match push with
  | .frame data => { room with frame := some data }
  | .metadata data => { room with metadata := some data }
  | .blocks data => { room with blocks := storeBlocks room.blocks data }
  | .segment data =>
      let segments := room.segments ++ [data]
      { room with
        segments := segments.drop (segments.length - maxSegmentsPerRoom)
        frame := if data.kind = "paused" then none else room.frame }

/-- What `_end_room_locked` does to the room. -/
def endRoom (room : Room α) : Room α :=
  { room with ended := true, frame := none, subscribers := [] }

/-- `set_locked`. -/
def setLocked (room : Room α) (locked : Bool) : Room α := { room with locked := locked }

/-- Whether `subscribe` lets a viewer in. -/
def admits (room : Room α) : Bool :=
  room.ended || (!room.locked && decide (room.subscribers.length < maxSubscribersPerRoom))

/-- The `init` of `subscribe`. -/
def init (room : Room α) : Init α where
  sessions := room.blocks.map Prod.snd
  frame := room.frame
  segments := room.segments
  metadata := room.metadata

/-- The queue `subscribe` makes. -/
def firstQueue (room : Room α) : List (Message α) :=
  if room.ended then [.init room.init, .ended false] else [.init room.init]

/-- The subscribers after `subscribe`. -/
def subscribe (room : Room α) (connection : ℕ) : Room α :=
  if room.ended then room else { room with subscribers := room.subscribers ++ [connection] }

/-- `unsubscribe`. -/
def unsubscribe (room : Room α) (connection : ℕ) : Room α :=
  { room with subscribers := room.subscribers.erase connection }

end Room

end Rooms
end ZuTalk
