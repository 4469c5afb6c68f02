/-
# A space at a replica, and whom it deals with

`crates/vt-ffi/src/library_sync.rs`, from `roster` to `roster_members`, `admit`, `strike_off`,
`leave_topic` and `drop_space`, and `crates/vt-sync/src/engine.rs` as far as it asks for
members: at a connection that comes in, before each dial, and in `members_changed`.  A
connection that was checked is registered some time later, and two seconds go by between a
removal and `members_changed`, so a device can be dealt with after it was struck off.

A space starts with an empty roster.  The devices it names first, this one and the one whose
invite it was joined by, are admitted like any other, and then the engine gets the space.  Who
leaves writes so (`.left`), the engine drops the space (`.stopped`), and the roster document is
forgotten (`.forgotten`); the rows of `sync_removed_devices` stay.  Who comes back sets the
space up anew.

Two things are kept for the statements only: that a device was struck off since its check
(`Contact.struck`), and that a removal was forgotten with the document (`Space.lost`).
-/

import ZuTalk.Library.Machine
import ZuTalk.Members.Roster

namespace ZuTalk
namespace Members

open Machine

/-- A device the engine deals with, and whether it was struck off since it was checked. -/
structure Contact (onCurve : List UInt8 → Bool) where
  device : EndpointId onCurve
  struck : Bool
  deriving DecidableEq

/-- A space: the roster document and the rows of `sync_removed_devices`, and at the engine,
where it has the space, the links, the connections past the check on their way to `register`,
the dial loops and those of them past their check.  `lost` is that a document was forgotten
which had a removal that the rows have not. -/
structure Space (onCurve : List UInt8 → Bool) where
  me : EndpointId onCurve
  peer : UInt64
  doc : RosterDoc
  removedDevices : List String
  running : Bool
  links : List (Contact onCurve)
  joining : List (Contact onCurve)
  dialers : List (EndpointId onCurve)
  dialing : List (Contact onCurve)
  lost : Bool
  deriving DecidableEq

/-- What happens in a space. -/
inductive Event (onCurve : List UInt8 → Bool)
  | imported (update : List Write)
  | admitted (device : EndpointId onCurve) (name : String)
  | renamed (name : String)
  | struckOff (devices : List String) (at_ : String)
  | left (at_ : String)
  | forgotten
  | added
  | stopped
  | membersChanged
  | accepted (device : EndpointId onCurve)
  | dialChecked (device : EndpointId onCurve)
  | dialed (device : EndpointId onCurve) (connects : Bool)
  | registered (device : EndpointId onCurve)
  | served (device : EndpointId onCurve)
  | ended (device : EndpointId onCurve)
  deriving DecidableEq

variable {onCurve : List UInt8 → Bool}

namespace Space

/-- `load_roster` -/
def roster (space : Space onCurve) : Roster :=
  { readRoster space.doc with
    removed := fun device => ((readRoster space.doc).removed device).or
      (if device ∈ space.removedDevices then some "" else none) }

/-- `roster_members` -/
def rosterMembers (space : Space onCurve) : List (EndpointId onCurve) :=
  if (space.roster.removed (deviceHex space.me)).isSome then []
  else ((space.doc.map Write.key).dedup.filter space.roster.isMember).filterMap
    (parseDevice onCurve)

/-- `Membership::is_member` -/
def isMember (space : Space onCurve) (device : EndpointId onCurve) : Bool :=
  space.rosterMembers.contains device

/-- The replica has seen the device as removed. -/
def isRemoved (space : Space onCurve) (device : String) : Bool :=
  (space.roster.removed device).isSome

/-- The roster became another one: whom it no longer names was struck off. -/
def changed (space : Space onCurve) (doc : RosterDoc) (removedDevices : List String) :
    Space onCurve :=
  let after := { space with doc := doc, removedDevices := removedDevices }
  let note (contact : Contact onCurve) : Contact onCurve :=
    { contact with
      struck := contact.struck ||
        (space.isMember contact.device && !after.isMember contact.device) }
  { after with
    links := space.links.map note
    joining := space.joining.map note
    dialing := space.dialing.map note }

/-- `admit`, and what `rename` does in a space. -/
def putMember (space : Space onCurve) (device name : String) : Space onCurve :=
  space.changed (space.doc.putMember space.peer device name) space.removedDevices

/-- `strike_off` for one device: `remove_member` and `mark_removed`. -/
def strike (peer : UInt64) (at_ : String) (entries : RosterDoc × List String) (device : String) :
    RosterDoc × List String :=
  (entries.1.removeMember peer device at_,
    if device ∈ entries.2 then entries.2 else entries.2 ++ [device])

/-- `strike_off` -/
def strikeOff (space : Space onCurve) (devices : List String) (at_ : String) : Space onCurve :=
  let struck := devices.foldl (strike space.peer at_) (space.doc, space.removedDevices)
  space.changed struck.1 struck.2

/-- `forget_fact_doc` of the roster document. -/
def forgotten (space : Space onCurve) : Space onCurve :=
  { space.changed [] space.removedDevices with
    lost := space.lost || (space.doc.map Write.key).any fun key =>
      space.isRemoved key && !space.removedDevices.contains key }

/-- `remove_space` at the engine.  What it has of the space ends; `run_link` registers nothing
for a space that was removed. -/
def stopped (space : Space onCurve) : Space onCurve :=
  { space with running := false, links := [], joining := [], dialers := [], dialing := [] }

/-- `members_changed`: links and dial loops of others end, and every other member is dialled. -/
def membersChanged (space : Space onCurve) : Space onCurve :=
  let members := space.rosterMembers.filter (· ≠ space.me)
  let keep (contacts : List (Contact onCurve)) : List (Contact onCurve) :=
    (contacts.filter fun contact => contact.device ∈ members).map fun contact =>
      { contact with struck := false }
  { space with
    links := keep space.links
    dialers := (space.dialers.filter (· ∈ members)) ++ members.filter (· ∉ space.dialers)
    dialing := keep space.dialing }

/-- One event, if it can happen. -/
def step (space : Space onCurve) : Event onCurve → Option (Space onCurve)
  | .imported update => some (space.changed (space.doc.imported update) space.removedDevices)
  | .admitted device name => some (space.putMember (deviceHex device) name)
  | .renamed name => some (space.putMember (deviceHex space.me) name)
  | .struckOff devices at_ => some (space.strikeOff devices at_)
  | .left at_ => some (space.changed
      (space.doc.removeMember space.peer (deviceHex space.me) at_) space.removedDevices)
  -- in `drop_space`, `adopt_device_group` and `forget_everything`
  | .forgotten => some space.forgotten
  -- `add_space`: the one that was there is stopped
  | .added => some { space.stopped with running := true }.membersChanged
  | .stopped => some space.stopped
  | .membersChanged => some (if space.running then space.membersChanged else space)
  | .accepted device =>
      if space.running = true ∧ space.isMember device = true then
        some { space with joining := ⟨device, false⟩ :: space.joining }
      else none
  | .dialChecked device =>
      if device ∈ space.dialers ∧ space.isMember device = true then
        some { space with
          dialing := ⟨device, false⟩ :: space.dialing.filter (·.device ≠ device) }
      else if device ∈ space.dialers then
        -- the loop returns
        some { space with
          dialers := space.dialers.erase device
          dialing := space.dialing.filter (·.device ≠ device) }
      else none
  | .dialed device connects =>
      (space.dialing.find? (·.device = device)).map fun contact =>
        { space with
          dialing := space.dialing.filter (·.device ≠ device)
          joining := if connects then contact :: space.joining else space.joining }
  | .registered device =>
      (space.joining.find? (·.device = device)).map fun contact =>
        { space with
          joining := space.joining.erase contact
          links := contact :: space.links.filter (·.device ≠ device) }
  | .served device =>
      if device ∈ space.links.map Contact.device then some space else none
  | .ended device => some { space with links := space.links.filter (·.device ≠ device) }

/-- A space before it is set up.  The rows of removed devices may be of an earlier time. -/
def start (me : EndpointId onCurve) (peer : UInt64) (removedDevices : List String) :
    Space onCurve :=
  ⟨me, peer, [], removedDevices, false, [], [], [], [], false⟩

end Space

end Members
end ZuTalk
