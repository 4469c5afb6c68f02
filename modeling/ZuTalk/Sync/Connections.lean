/-
# Two devices and their connections

`crates/vt-sync/src/engine.rs`, `register` and `run_link`: both devices dial, each registers
the connections in its own order, and a connection that loses is closed.  A side that runs a
link learns that it was closed when the link ends there, at any later time; a link may also
end because reading failed.

A connection is named by its number.  `tried` are the connections that a side has come to
register, `running` those whose link has not ended there yet.  Why a connection was closed is
kept for the statements only.  While this goes on neither device stops the space.
-/

import Mathlib.Data.Int.Notation
import ZuTalk.Library.Machine
import ZuTalk.Library.Rows

namespace ZuTalk
namespace Sync

/-- `RACE_WINDOW`, in milliseconds. -/
def raceWindow : ℤ := 3000

/-- The device with the lower id, and the other one. -/
inductive Side
  | lower | higher
  deriving DecidableEq, Repr

/-- Why a connection was closed. -/
inductive Closed
  | lost
  | duplicate
  | replaced (by_ : ℕ)
  | ended
  deriving DecidableEq, Repr

/-- A connection: who dialled it, and whether it was closed. -/
structure Connection where
  dialedByLower : Bool
  closed : Option Closed
  deriving DecidableEq, Repr

/-- A link: its connection, and when it was established at this side. -/
structure Link where
  connection : ℕ
  established : ℤ
  deriving DecidableEq, Repr

/-- What a side has of the other device in one space. -/
structure Table where
  link : Option Link
  tried : List ℕ
  running : List ℕ
  deriving DecidableEq, Repr

/-- Both devices, and the connections there were. -/
structure World where
  connections : List Connection
  lower : Table
  higher : Table
  deriving DecidableEq, Repr

/-- No connection yet. -/
def World.start : World := ⟨[], ⟨none, [], []⟩, ⟨none, [], []⟩⟩

/-- The table of a side. -/
def World.table (world : World) : Side → Table
  | .lower => world.lower
  | .higher => world.higher

/-- The world with another table at one side. -/
def World.setTable (world : World) (side : Side) (table : Table) : World :=
  match side with
  | .lower => { world with lower := table }
  | .higher => { world with higher := table }

/-- `Connection::close`: what is closed already stays as it is. -/
def World.close (world : World) (connection : ℕ) (reason : Closed) : World :=
  { world with
    connections := world.connections.modify connection fun conn =>
      { conn with closed := conn.closed.or (some reason) } }

/-- Whether the side dialled the connection. -/
def dialedByMe (side : Side) (conn : Connection) : Bool :=
  match side with
  | .lower => conn.dialedByLower
  | .higher => !conn.dialedByLower

/-- `register`: whether the new connection takes the place of the old one. -/
def register (side : Side) (old : Option Link) (conn : Connection) (now : ℤ) : Bool :=
  match old with
  | none => true
  | some old =>
      let racing : Bool := now - old.established < raceWindow
      let dialedByLower := dialedByMe side conn == decide (side = .lower)
      !(racing && !dialedByLower)

/-- What happens. -/
inductive Event
  | dial (byLower : Bool)
  | register (side : Side) (connection : ℕ) (now : ℤ)
  | lost (connection : ℕ)
  | finish (side : Side) (connection : ℕ)
  deriving DecidableEq, Repr

namespace World

/-- `run_link`, up to the loops. -/
def runLink (world : World) (side : Side) (connection : ℕ) (conn : Connection) (now : ℤ) : World :=
  let table := world.table side
  if Sync.register side table.link conn now then
    let closed := match table.link with
      | some old => world.close old.connection (.replaced connection)
      | none => world
    closed.setTable side ⟨some ⟨connection, now⟩, connection :: table.tried,
      connection :: table.running⟩
  else
    (world.close connection .duplicate).setTable side
      { table with tried := connection :: table.tried }

/-- The end of `run_link`: only its own link leaves the table. -/
def finishLink (world : World) (side : Side) (connection : ℕ) : World :=
  let table := world.table side
  (world.close connection .ended).setTable side
    { table with
      link := table.link.filter fun current => current.connection ≠ connection
      running := table.running.erase connection }

/-- One event. -/
def step (world : World) : Event → Option World
  | .dial byLower => some { world with connections := world.connections ++ [⟨byLower, none⟩] }
  | .register side connection now =>
      match world.connections[connection]? with
      | some conn =>
          if connection ∈ (world.table side).tried then none
          else some (world.runLink side connection conn now)
      | none => none
  | .lost connection => some (world.close connection .lost)
  | .finish side connection =>
      if connection ∈ (world.table side).running then some (world.finishLink side connection)
      else none

end World

/-- Every close has been delivered: a side that came to a connection runs it only while it is
open, and one that has not come to it never will, as it is closed. -/
def World.Settled (world : World) : Prop :=
  (∀ connection conn, world.connections[connection]? = some conn → conn.closed = none →
    connection ∈ world.lower.tried ∧ connection ∈ world.higher.tried) ∧
  ∀ side, ∀ connection ∈ (world.table side).running, ∀ conn,
    world.connections[connection]? = some conn → conn.closed = none

/-- When connections are registered. -/
def registrations (events : List Event) : List ℤ :=
  events.filterMap fun event =>
    match event with
    | .register _ _ now => some now
    | _ => none

/-- All within the window of each other. -/
def Prompt (events : List Event) : Prop :=
  ∀ now ∈ registrations events, ∀ before ∈ registrations events, now - before < raceWindow

end Sync
end ZuTalk
