/-
# Viewers that read slowly

A room, its connections and their pages.  Each connection has a queue of its own, from which
the oldest messages make way when it is full (`offer`); a page reads it as slowly as it likes.

A page that has read its whole queue shows what the page of a new viewer would, as long as
each message is fit for it (`shows_the_room`): what makes way in a queue is written again by
what is behind it (`Message.replaced`), and the room keeps what is pushed where a new viewer
finds it as the others do (`Push.Lasting`).  The queue looks at neither: a page that reads
nothing while thirty-two messages come in has lost its `init` (`init_is_lost`).
-/

import ZuTalk.Library.Machine
import ZuTalk.Rooms.Page

namespace ZuTalk
namespace Rooms

open Machine Registers

variable {α : Type}

/-- A room, the queues of its connections, and their pages. -/
structure Share (α : Type) where
  room : Room α
  queues : ℕ → Option (List (Message α))
  pages : ℕ → Page α

/-- A room that was just made. -/
def Share.create (roomId publishToken : String) (now : ℤ) : Share α where
  room := Room.create roomId publishToken now
  queues := fun _ => none
  pages := fun _ => Page.start

/-- What can happen to a room and its viewers. -/
inductive Move (α : Type)
  | publish (now : ℤ) (push : Push α)
  | setLocked (locked : Bool)
  | endRoom
  | stats
  /-- A page connects. -/
  | subscribe (connection : ℕ)
  /-- A page is sent the next message of its queue. -/
  | read (connection : ℕ)
  /-- A connection breaks. -/
  | leave (connection : ℕ)
  deriving DecidableEq, Repr

namespace Share

/-- A message goes to every subscriber. -/
def tell (share : Share α) (room : Room α) (message : Message α) : Share α :=
  { share with room := room, queues := offerAll share.queues share.room.subscribers message }

/-- One step.  A room that has ended takes no more pushes and is not ended again. -/
def step (share : Share α) : Move α → Option (Share α)
  | .publish now push =>
      if share.room.ended then some share
      else some (share.tell (share.room.publish now push) (.push push))
  | .setLocked locked => some { share with room := share.room.setLocked locked }
  | .endRoom =>
      if share.room.ended then some share
      else some (share.tell share.room.endRoom (.ended false))
  | .stats => some { share with queues := pingAll share.queues share.room.subscribers }
  | .subscribe connection =>
      if (share.queues connection).isSome then none
      else if share.room.admits then
        some { share with
          room := share.room.subscribe connection
          queues := Function.update share.queues connection (some share.room.firstQueue) }
      else some share
  | .read connection =>
      match share.queues connection with
      | some (message :: rest) =>
          some { share with
            queues := Function.update share.queues connection (some rest)
            pages := Function.update share.pages connection
              ((share.pages connection).handle message) }
      | _ => none
  | .leave connection =>
      if (share.queues connection).isSome then
        some { share with
          room := share.room.unsubscribe connection
          queues := Function.update share.queues connection none }
      else none

end Share

/-! ### What may make way -/

/-- Whether a message brings metadata. -/
def Message.bringsMetadata : Message α → Bool
  | .push (.metadata _) => true
  | _ => false

/-- Whether a message brings a part. -/
def Message.bringsPart (session : String) (part : ℕ) : Message α → Bool
  | .push (.blocks data) => data.session = session && data.part = part
  | _ => false

/-- Whether a message brings a count. -/
def Message.bringsCount (session : String) : Message α → Bool
  | .push (.blocks data) => data.session = session && data.parts.isSome
  | _ => false

/-- Whether later messages write again what blocks write. -/
def Blocks.replaced (later : List (Message α)) (data : Blocks α) : Bool :=
  data.session = "" || (later.any (Message.bringsPart data.session data.part) &&
    (data.parts.isNone || later.any (Message.bringsCount data.session)))

/-- Whether later messages write again all that a message writes to a page.  A segment is never
written again, and an `init` only where it is the first that the page is sent. -/
def Message.replaced (page : Page α) (later : List (Message α)) : Message α → Bool
  | .init data =>
      page.metadata.isNone && page.segments.isEmpty && page.transcriptOrder.isEmpty &&
        (data.metadata.isNone || later.any Message.bringsMetadata) &&
        data.sessions.all (Blocks.replaced later) && data.segments.isEmpty
  | .push (.metadata _) => later.any Message.bringsMetadata
  | .push (.blocks data) => data.replaced later
  | .push (.segment _) => false
  | .push (.frame _) => true
  | .ended _ => true
  | .ping => true

/-- When the message is offered, what makes way for it in the queue is written again. -/
def Spares (share : Share α) (message : Message α) (connection : ℕ) : Prop :=
  match share.queues connection with
  | some (oldest :: rest) => subscriberQueueDepth ≤ rest.length + 1 →
      oldest.replaced (share.pages connection) (rest ++ [message]) = true
  | _ => True

/-- The room keeps blocks under an id of their own part. -/
def Blocks.Owned (room : Room α) (data : Blocks α) : Prop :=
  match data.wireId with
  | some id => id ≠ "" ∧ ∀ entry ∈ room.blocks,
      entry.1 = id ↔ (entry.2.session, entry.2.part) = (data.session, data.part)
  | none => False

/-- The count of a session that stands last among stored blocks. -/
def Room.lastCount (blocks : List (String × Blocks α)) (session : String) : Option ℕ :=
  (blocks.filterMap fun entry =>
    if entry.2.session = session then entry.2.parts else none).getLast?

/-- The count that stands last among the blocks of the session, when these are stored too, cuts
off the same of its stored parts as the count that these bring; or no count was ever brought. -/
def Blocks.Counted (room : Room α) (data : Blocks α) : Prop :=
  match data.parts with
  | some parts => ∀ entry ∈ Room.storeBlocks room.blocks data, entry.2.session = data.session →
      (below (Room.lastCount (Room.storeBlocks room.blocks data) data.session) entry.2.part ↔
        entry.2.part < parts)
  | none => ∀ entry ∈ room.blocks, entry.2.session = data.session → entry.2.parts = none

/-- The room keeps what is pushed as the pages that are sent it do. -/
def Push.Lasting (room : Room α) : Push α → Prop
  | .frame _ => True
  | .metadata _ => True
  | .blocks data => data.Owned room ∧ data.Counted room
  | .segment _ => room.segments.length < maxSegmentsPerRoom

/-- What the moves of a run meet. -/
def Fit (share : Share α) : Move α → Prop
  | .publish _ push => share.room.ended = false →
      (∀ connection ∈ share.room.subscribers, Spares share (.push push) connection) ∧
        push.Lasting share.room
  | .endRoom => share.room.ended = false →
      ∀ connection ∈ share.room.subscribers, Spares share (.ended false) connection
  | _ => True

instance (share : Share α) (message : Message α) (connection : ℕ) :
    Decidable (Spares share message connection) := by
  unfold Spares
  split
  · infer_instance
  · infer_instance

instance (room : Room α) (data : Blocks α) : Decidable (data.Owned room) := by
  unfold Blocks.Owned
  split
  · infer_instance
  · infer_instance

instance (room : Room α) (data : Blocks α) : Decidable (data.Counted room) := by
  unfold Blocks.Counted
  split
  · infer_instance
  · infer_instance

instance (room : Room α) (push : Push α) : Decidable (push.Lasting room) := by
  cases push with
  | frame data => exact isTrue trivial
  | metadata data => exact isTrue trivial
  | blocks data => exact inferInstanceAs (Decidable (data.Owned room ∧ data.Counted room))
  | segment data =>
      exact inferInstanceAs (Decidable (room.segments.length < maxSegmentsPerRoom))

instance (share : Share α) (move : Move α) : Decidable (Fit share move) := by
  cases move with
  | publish now push =>
      exact inferInstanceAs (Decidable (share.room.ended = false →
        (∀ connection ∈ share.room.subscribers, Spares share (.push push) connection) ∧
          push.Lasting share.room))
  | endRoom =>
      exact inferInstanceAs (Decidable (share.room.ended = false →
        ∀ connection ∈ share.room.subscribers, Spares share (.ended false) connection))
  | setLocked locked => exact isTrue trivial
  | stats => exact isTrue trivial
  | subscribe connection => exact isTrue trivial
  | read connection => exact isTrue trivial
  | leave connection => exact isTrue trivial

/-- Two pages show the same room: its metadata, the transcript of every session, and its
segments. -/
def Page.Shows (page page' : Page α) : Prop :=
  page.metadata = page'.metadata ∧
    (∀ session, (page.transcripts session).blocks = (page'.transcripts session).blocks) ∧
    page.segments = page'.segments

end Rooms
end ZuTalk
