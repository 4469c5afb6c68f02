/-
# Rooms that are ended, purged or locked

What `end_room`, `purge_room` and `set_locked` promise holds in every run whose steps are safe
(`closed_rooms_stay_closed`): a request acts on its room only as long as its lookup would find
it again, a room is purged when its viewers have read their queues and while no flush has its
snapshot, and a restart finds the file up to date.  Nothing sees to any of these: a push that
found its room open changes it after it has ended (`ended_room_changes`).

`Sealed` is what every safe step preserves, `Since` what it adds to the record.
-/

import ZuTalk.Library.Machine
import ZuTalk.Rooms.Service

namespace ZuTalk
namespace Rooms

open Machine

variable {α : Type}

/-- No message of the queue is content. -/
def ReadOut (waiting : List (Message α)) : Prop :=
  ∀ message ∈ waiting, message.isContent = false

/-- When a request acts on the object it found: a push finds it open still, a viewer comes before
it is purged, and it is purged when its viewers have read their queues and no flush has its
snapshot. -/
def SafeRequest (service : Service α) (room : Room α) : Request α → Prop
  | .publish _ => room.ended = false
  | .view _ => room.roomId ∉ service.record.purged
  | .purge =>
      (∀ admission ∈ service.record.admissions, admission.roomId = room.roomId →
        ∀ waiting ∈ service.queues admission.connection, ReadOut waiting) ∧
      ∀ flush ∈ service.flushes, flush.snapshot = none
  | _ => True

/-- A room of the state file as it is now: not purged, ended as it was ended, and locked if it
is. -/
def UpToDate (service : Service α) (stored : Stored α) : Prop :=
  stored.roomId ∉ service.record.purged ∧
    ∀ room ∈ service.rooms, room.roomId = stored.roomId →
      (room.ended = true → stored.ended = true ∧ stored.content = room.content) ∧
      (room.locked = true → stored.locked = true)

/-- What the steps of a run meet. -/
def Safe (service : Service α) : Act α → Prop
  | .act thread _ => ∀ handle ∈ service.handles.find? (fun handle => handle.thread = thread),
      ∀ room ∈ service.room handle.roomId, SafeRequest service room handle.request
  | .restart _ => ∀ snapshot ∈ service.disk, ∀ stored ∈ snapshot, UpToDate service stored
  | _ => True

section Decidable

variable [DecidableEq α]

instance (waiting : List (Message α)) : Decidable (ReadOut waiting) :=
  inferInstanceAs (Decidable (∀ message ∈ waiting, message.isContent = false))

instance (service : Service α) (room : Room α) (request : Request α) :
    Decidable (SafeRequest service room request) := by
  cases request with
  | publish push => exact inferInstanceAs (Decidable (room.ended = false))
  | endRoom => exact isTrue trivial
  | purge =>
      exact inferInstanceAs (Decidable ((∀ admission ∈ service.record.admissions,
        admission.roomId = room.roomId →
          ∀ waiting ∈ service.queues admission.connection, ReadOut waiting) ∧
        ∀ flush ∈ service.flushes, flush.snapshot = none))
  | setLocked locked => exact isTrue trivial
  | view connection =>
      exact inferInstanceAs (Decidable (room.roomId ∉ service.record.purged))

instance (service : Service α) (stored : Stored α) : Decidable (UpToDate service stored) :=
  inferInstanceAs (Decidable (_ ∧ _))

instance (service : Service α) (act : Act α) : Decidable (Safe service act) := by
  unfold Safe
  split
  · infer_instance
  · infer_instance
  · infer_instance

end Decidable

/-! ### What is kept -/

/-- A room that has ended with this content. -/
def EndedWith (room : Room α) (content : Content α) : Prop :=
  room.ended = true ∧ room.content = content ∧ room.frame = none

/-- Rooms that were ended hold what they held then; where the process does not have one, the
state file has it ended or not at all. -/
def KeepsEndings (rooms : List (Room α)) (disk : Option (List (Stored α)))
    (endings : List (String × Content α)) : Prop :=
  ∀ ending ∈ endings,
    (∀ room ∈ rooms, room.roomId = ending.1 → EndedWith room ending.2) ∧
    ((∀ room ∈ rooms, room.roomId ≠ ending.1) → ∀ snapshot ∈ disk, ∀ stored ∈ snapshot,
      stored.roomId = ending.1 → stored.ended = true ∧ stored.content = ending.2)

/-- Rooms that were locked are; where the process does not have one, so is it in the state
file. -/
def KeepsLocks (rooms : List (Room α)) (disk : Option (List (Stored α))) (locks : List String) :
    Prop :=
  ∀ id ∈ locks,
    (∀ room ∈ rooms, room.roomId = id → room.locked = true) ∧
    ((∀ room ∈ rooms, room.roomId ≠ id) → ∀ snapshot ∈ disk, ∀ stored ∈ snapshot,
      stored.roomId = id → stored.locked = true)

/-- Rooms that were purged are out of the table, nothing is offered by them, and their viewers
have no content before them. -/
structure KeepsPurged (rooms : List (Room α)) (table : List String)
    (queues : ℕ → Option (List (Message α))) (viewing : ℕ → String) (purged : List String) :
    Prop where
  gone : ∀ id ∈ purged, id ∉ table
  closed : ∀ id ∈ purged, ∀ room ∈ rooms, room.roomId = id →
    room.ended = true ∧ room.subscribers = []
  readOut : ∀ id ∈ purged, ∀ connection, viewing connection = id →
    ∀ waiting ∈ queues connection, ReadOut waiting

/-- A snapshot of rooms that the process has, none of which was purged since. -/
def Fresh (rooms : List (Room α)) (purged : List String) (snapshot : List (Stored α)) : Prop :=
  Table.Distinct Stored.roomId snapshot ∧ ∀ stored ∈ snapshot,
    (∃ room ∈ rooms, room.roomId = stored.roomId) ∧ stored.roomId ∉ purged

/-- The snapshots of the flushes are fresh, and what is in the temporary file while one of them
has it open. -/
structure KeepsFlushes (rooms : List (Room α)) (purged : List String)
    (files : TemporaryFile (List (Stored α))) (flushes : List (Flush α)) : Prop where
  snapshot : ∀ flush ∈ flushes, ∀ snapshot ∈ flush.snapshot, Fresh rooms purged snapshot
  opened : ∀ flush ∈ flushes, flush.inode.isSome = true → flush.snapshot.isSome = true
  temporary : ∀ flush ∈ flushes, flush.inode.isSome = true →
    files.Written (Fresh rooms purged)

/-- What every safe step preserves. -/
structure Sealed (service : Service α) : Prop where
  ids : Table.Distinct Room.roomId service.rooms
  made : ∀ room ∈ service.rooms, room.roomId ∈ service.record.made
  known : ∀ id, (id ∈ service.record.purged ∨ id ∈ service.record.locks ∨
    id ∈ service.record.endings.map Prod.fst) → id ∈ service.record.made
  files : ∀ snapshot ∈ service.disk, Table.Distinct Stored.roomId snapshot ∧
    ∀ stored ∈ snapshot, stored.roomId ∈ service.record.made
  flushing : KeepsFlushes service.rooms service.record.purged service.files service.flushes
  endings : KeepsEndings service.rooms service.disk service.record.endings
  locks : KeepsLocks service.rooms service.disk service.record.locks
  purged : KeepsPurged service.rooms service.table service.queues service.viewing
    service.record.purged
  subscribed : ∀ room ∈ service.rooms, ∀ connection ∈ room.subscribers,
    service.viewing connection = room.roomId ∧
      ∃ admission ∈ service.record.admissions, admission.connection = connection
  admitted : ∀ connection, ∀ waiting ∈ service.queues connection,
    ∃ admission ∈ service.record.admissions, admission.connection = connection ∧
      admission.roomId = service.viewing connection

/-- What a safe run adds to the record: no content of a purged room is handed to a viewer or
written to a file, and no viewer is let into a live room that stays locked. -/
structure Since (service service' : Service α) : Prop where
  endings : service.record.endings ⊆ service'.record.endings
  purged : service.record.purged ⊆ service'.record.purged
  unlocks : service.record.unlocks <+: service'.record.unlocks
  locks : ∀ id ∈ service.record.locks,
    service'.record.unlocks.count id = service.record.unlocks.count id → id ∈ service'.record.locks
  handed : ∃ later, service'.record.handed = service.record.handed ++ later ∧
    ∀ id ∈ service.record.purged, ∀ entry ∈ later, entry.1 = id → entry.2.isContent = false
  saves : ∃ later, service'.record.saves = service.record.saves ++ later ∧
    ∀ id ∈ service.record.purged, ∀ snapshot ∈ later, ∀ stored ∈ snapshot, stored.roomId ≠ id
  admissions : ∃ later, service'.record.admissions = service.record.admissions ++ later ∧
    ∀ id ∈ service.record.locks,
      service'.record.unlocks.count id = service.record.unlocks.count id →
        ∀ admission ∈ later, admission.roomId = id → admission.live = false

section Since

variable {service service' service'' : Service α}

/-- A step that leaves the record as it is. -/
theorem Since.of_record_eq (h : service'.record = service.record) : Since service service' where
  endings := fun _ hmem => h ▸ hmem
  purged := fun _ hmem => h ▸ hmem
  unlocks := h ▸ List.prefix_refl _
  locks := fun _ hmem _ => h ▸ hmem
  handed := ⟨[], by rw [h, List.append_nil], fun _ _ _ hmem => by cases hmem⟩
  saves := ⟨[], by rw [h, List.append_nil], fun _ _ _ hmem => by cases hmem⟩
  admissions := ⟨[], by rw [h, List.append_nil], fun _ _ _ _ hmem => by cases hmem⟩

theorem Since.refl (service : Service α) : Since service service := Since.of_record_eq rfl

theorem Since.trans (h : Since service service') (h' : Since service' service'') :
    Since service service'' := by
  have hcount : ∀ id, service''.record.unlocks.count id = service.record.unlocks.count id →
      service'.record.unlocks.count id = service.record.unlocks.count id ∧
        service''.record.unlocks.count id = service'.record.unlocks.count id := by
    intro id heq
    have hle := h.unlocks.sublist.count_le id
    have hle' := h'.unlocks.sublist.count_le id
    omega
  obtain ⟨handed, hhanded, hhandedOk⟩ := h.handed
  obtain ⟨handed', hhanded', hhandedOk'⟩ := h'.handed
  obtain ⟨saves, hsaves, hsavesOk⟩ := h.saves
  obtain ⟨saves', hsaves', hsavesOk'⟩ := h'.saves
  obtain ⟨admissions, hadmissions, hadmissionsOk⟩ := h.admissions
  obtain ⟨admissions', hadmissions', hadmissionsOk'⟩ := h'.admissions
  refine ⟨fun _ hmem => h'.endings (h.endings hmem), fun _ hmem => h'.purged (h.purged hmem),
    h.unlocks.trans h'.unlocks, ?_, ?_, ?_, ?_⟩
  · intro id hid heq
    obtain ⟨hfirst, hsecond⟩ := hcount id heq
    exact h'.locks id (h.locks id hid hfirst) hsecond
  · refine ⟨handed ++ handed', by rw [hhanded', hhanded, List.append_assoc], ?_⟩
    intro id hid entry hentry
    rcases List.mem_append.1 hentry with hold | hnew
    · exact hhandedOk id hid entry hold
    · exact hhandedOk' id (h.purged hid) entry hnew
  · refine ⟨saves ++ saves', by rw [hsaves', hsaves, List.append_assoc], ?_⟩
    intro id hid snapshot hsnapshot
    rcases List.mem_append.1 hsnapshot with hold | hnew
    · exact hsavesOk id hid snapshot hold
    · exact hsavesOk' id (h.purged hid) snapshot hnew
  · refine ⟨admissions ++ admissions', by rw [hadmissions', hadmissions, List.append_assoc], ?_⟩
    intro id hid heq admission hadmission
    obtain ⟨hfirst, hsecond⟩ := hcount id heq
    rcases List.mem_append.1 hadmission with hold | hnew
    · exact hadmissionsOk id hid hfirst admission hold
    · exact hadmissionsOk' id (h.locks id hid hfirst) hsecond admission hnew

end Since

/-! ### One room is changed -/

section Modify

variable {rooms : List (Room α)} {disk : Option (List (Stored α))} {selects : Room α → Bool}
  {set : Room α → Room α}

/-- No room loses its id. -/
theorem ne_of_update (hid : ∀ room, (set room).roomId = room.roomId) {id : String}
    (h : ∀ room ∈ Table.update selects set rooms, room.roomId ≠ id) :
    ∀ room ∈ rooms, room.roomId ≠ id := by
  intro room hroom heq
  obtain ⟨room', hroom', heq'⟩ :
      ∃ room' ∈ Table.update selects set rooms, room'.roomId = id :=
    Table.exists_key_update hid ⟨room, hroom, heq⟩
  exact h room' hroom' heq'

theorem KeepsEndings.update {endings : List (String × Content α)}
    (h : KeepsEndings rooms disk endings) (hid : ∀ room, (set room).roomId = room.roomId)
    (hset : ∀ room ∈ rooms, selects room = true → ∀ content,
      EndedWith room content → EndedWith (set room) content) :
    KeepsEndings (Table.update selects set rooms) disk endings := by
  intro ending hending
  obtain ⟨hrooms, hdisk⟩ := h ending hending
  refine ⟨?_, fun hnone => hdisk (ne_of_update hid hnone)⟩
  refine Table.forall_update hrooms fun room hroom hselects hkeeps heq => ?_
  rw [hid] at heq
  exact hset room hroom hselects ending.2 (hkeeps heq)

theorem Fresh.mono {purged : List String} {rooms' : List (Room α)} {snapshot : List (Stored α)}
    (h : Fresh rooms purged snapshot)
    (hrooms : ∀ room ∈ rooms, ∃ other ∈ rooms', other.roomId = room.roomId) :
    Fresh rooms' purged snapshot := by
  refine ⟨h.1, fun stored hstored => ⟨?_, (h.2 stored hstored).2⟩⟩
  obtain ⟨room, hroom, hid⟩ := (h.2 stored hstored).1
  obtain ⟨other, hother, hsame⟩ := hrooms room hroom
  exact ⟨other, hother, hsame.trans hid⟩

theorem KeepsFlushes.mono {purged : List String} {rooms' : List (Room α)}
    {files : TemporaryFile (List (Stored α))} {flushes : List (Flush α)}
    (h : KeepsFlushes rooms purged files flushes)
    (hrooms : ∀ room ∈ rooms, ∃ other ∈ rooms', other.roomId = room.roomId) :
    KeepsFlushes rooms' purged files flushes where
  snapshot flush hflush snapshot hsnapshot :=
    (h.snapshot flush hflush snapshot hsnapshot).mono hrooms
  opened := h.opened
  temporary flush hflush hopen inode snapshot htemporary hcontents :=
    (h.temporary flush hflush hopen inode snapshot htemporary hcontents).mono hrooms

/-- Changed rooms keep their ids. -/
theorem exists_mem_update (hid : ∀ room, (set room).roomId = room.roomId) :
    ∀ room ∈ rooms, ∃ other ∈ Table.update selects set rooms, other.roomId = room.roomId :=
  fun room hroom => Table.exists_key_update hid ⟨room, hroom, rfl⟩

theorem KeepsLocks.update {locks : List String} (h : KeepsLocks rooms disk locks)
    (hid : ∀ room, (set room).roomId = room.roomId)
    (hset : ∀ room ∈ rooms, selects room = true → room.roomId ∈ locks → room.locked = true →
      (set room).locked = true) : KeepsLocks (Table.update selects set rooms) disk locks := by
  intro id hmem
  obtain ⟨hrooms, hdisk⟩ := h id hmem
  refine ⟨?_, fun hnone => hdisk (ne_of_update hid hnone)⟩
  refine Table.forall_update hrooms fun room hroom hselects hkeeps heq => ?_
  rw [hid] at heq
  exact hset room hroom hselects (heq ▸ hmem) (hkeeps heq)

/-- How a room that is sealed may be changed. -/
structure Gentle (service : Service α) (set : Room α → Room α) (room : Room α) : Prop where
  ended : ∀ content, EndedWith room content → EndedWith (set room) content
  locked : room.roomId ∈ service.record.locks → room.locked = true → (set room).locked = true
  closed : room.ended = true → room.subscribers = [] →
    (set room).ended = true ∧ (set room).subscribers = []
  subscribers : ∀ connection ∈ (set room).subscribers, connection ∈ room.subscribers

variable {service service' : Service α}

/-- The object that is changed is still there. -/
theorem exists_mem_modify (service : Service α) (id : String) (set : Room α → Room α)
    (hid : ∀ room, (set room).roomId = room.roomId) {room : Room α} (hroom : room ∈ service.rooms) :
    ∃ other ∈ (service.modify id set).rooms, other.roomId = room.roomId :=
  Table.exists_key_update hid ⟨room, hroom, rfl⟩

theorem Sealed.of_eq (h : Sealed service) (hrooms : service'.rooms = service.rooms)
    (htable : service'.table = service.table) (hqueues : service'.queues = service.queues)
    (hviewing : service'.viewing = service.viewing) (hflushes : service'.flushes = service.flushes)
    (hfiles : service'.files = service.files) (hrecord : service'.record = service.record) :
    Sealed service' := by
  have hdisk : service'.disk = service.disk := congrArg TemporaryFile.read hfiles
  constructor
  · exact hrooms ▸ h.ids
  · exact hrooms ▸ hrecord ▸ h.made
  · exact hrecord ▸ h.known
  · exact hdisk ▸ hrecord ▸ h.files
  · exact hflushes ▸ hrooms ▸ hfiles ▸ hrecord ▸ h.flushing
  · exact hrooms ▸ hdisk ▸ hrecord ▸ h.endings
  · exact hrooms ▸ hdisk ▸ hrecord ▸ h.locks
  · exact hrooms ▸ htable ▸ hqueues ▸ hviewing ▸ hrecord ▸ h.purged
  · exact hrooms ▸ hviewing ▸ hrecord ▸ h.subscribed
  · exact hqueues ▸ hviewing ▸ hrecord ▸ h.admitted

theorem Sealed.modify (h : Sealed service) {id : String}
    (hid : ∀ room, (set room).roomId = room.roomId)
    (hgentle : ∀ room ∈ service.rooms, room.roomId = id → Gentle service set room) :
    Sealed (service.modify id set) where
  ids := h.ids.update hid
  made := Table.forall_update h.made fun room _ _ hmade => by
    rw [hid]
    exact hmade
  known := h.known
  files := h.files
  flushing := h.flushing.mono (exists_mem_update hid)
  endings := h.endings.update hid fun room hroom hselects =>
    (hgentle room hroom (of_decide_eq_true hselects)).ended
  locks := h.locks.update hid fun room hroom hselects =>
    (hgentle room hroom (of_decide_eq_true hselects)).locked
  purged :=
    { gone := h.purged.gone
      closed := by
        intro gone hgone
        refine Table.forall_update (h.purged.closed gone hgone) ?_
        intro room hroom hselects hkeeps heq
        rw [hid] at heq
        obtain ⟨hended, hnone⟩ := hkeeps heq
        exact (hgentle room hroom (of_decide_eq_true hselects)).closed hended hnone
      readOut := h.purged.readOut }
  subscribed := by
    refine Table.forall_update h.subscribed fun room hroom hselects hkeeps connection hmem => ?_
    rw [hid]
    exact hkeeps connection
      ((hgentle room hroom (of_decide_eq_true hselects)).subscribers connection hmem)
  admitted := h.admitted

/-- The queues change, and those of purged rooms stay read out. -/
theorem Sealed.withQueues (h : Sealed service) {queues : ℕ → Option (List (Message α))}
    (hsome : ∀ connection, (queues connection).isSome → (service.queues connection).isSome)
    (hread : ∀ id ∈ service.record.purged, ∀ connection, service.viewing connection = id →
      ∀ waiting ∈ queues connection, ReadOut waiting) :
    Sealed { service with queues := queues } :=
  { h with
    purged := ⟨h.purged.gone, h.purged.closed, hread⟩
    admitted := by
      intro connection waiting hwaiting
      obtain ⟨before, hbefore⟩ := Option.isSome_iff_exists.1
        (hsome connection (Option.isSome_iff_exists.2 ⟨waiting, hwaiting⟩))
      exact h.admitted connection before hbefore }

theorem ReadOut.offer {waiting : List (Message α)} (h : ReadOut waiting) {message : Message α}
    (hmessage : message.isContent = false) : ReadOut (offer waiting message) := by
  intro other hother
  rcases List.mem_append.1 hother with hold | hnew
  · exact h other (List.mem_of_mem_drop hold)
  · exact List.mem_singleton.1 hnew ▸ hmessage

/-- A message that is offered by a room is content only if the room was not purged. -/
theorem Sealed.offer (h : Sealed service) {room : Room α} (hroom : room ∈ service.rooms)
    {message : Message α}
    (hmessage : room.roomId ∈ service.record.purged → message.isContent = false) :
    Sealed { service with queues := offerAll service.queues room.subscribers message } := by
  refine h.withQueues ?_ ?_
  · intro connection hsome
    unfold offerAll at hsome
    split at hsome
    · rwa [Option.isSome_map] at hsome
    · exact hsome
  · intro id hid connection hviewing waiting hwaiting
    unfold offerAll at hwaiting
    split at hwaiting
    · rename_i hmem
      obtain ⟨before, hbefore, rfl⟩ := Option.map_eq_some_iff.1 hwaiting
      have hsame : room.roomId = id := ((h.subscribed room hroom connection hmem).1).symm.trans
        hviewing
      exact (h.purged.readOut id hid connection hviewing before hbefore).offer
        (hmessage (hsame ▸ hid))
    · exact h.purged.readOut id hid connection hviewing waiting hwaiting

theorem mem_of_room {id : String} {room : Room α} (h : service.room id = some room) :
    room ∈ service.rooms ∧ room.roomId = id := by
  have hfound := List.find?_some (p := fun room : Room α => decide (room.roomId = id)) h
  exact ⟨List.mem_of_find?_eq_some h, of_decide_eq_true hfound⟩

end Modify

/-! ### The operations -/

section Operations

variable {service service' : Service α} {room : Room α}

theorem gentle_endRoom (service : Service α) (room : Room α) :
    Gentle service Room.endRoom room where
  ended := fun _ h => ⟨rfl, h.2.1, rfl⟩
  locked := fun _ h => h
  closed := fun _ _ => ⟨rfl, rfl⟩
  subscribers := fun _ hmem => by cases hmem

/-- `_end_room_locked` keeps the store sealed and the room's object ended. -/
theorem Sealed.endRoomLocked (h : Sealed service) (id : String) (purged : Bool) :
    Sealed (service.endRoomLocked id purged) := by
  unfold Service.endRoomLocked
  split
  · exact h
  · rename_i room hroom
    obtain ⟨hmem, rfl⟩ := mem_of_room hroom
    have hoffer : Sealed { service with
        queues := offerAll service.queues room.subscribers (.ended purged) } :=
      h.offer hmem fun _ => rfl
    exact hoffer.modify (fun _ => rfl) fun other _ _ => gentle_endRoom _ other

theorem endRoomLocked_of_room (h : service.room room.roomId = some room) (purged : Bool) :
    service.endRoomLocked room.roomId purged =
      { service.modify room.roomId Room.endRoom with
        queues := offerAll service.queues room.subscribers (.ended purged) } := by
  unfold Service.endRoomLocked
  rw [h]

/-- A push to a room that is open. -/
theorem Sealed.publish (h : Sealed service) (hroom : service.room room.roomId = some room)
    (hopen : room.ended = false) (now : ℤ) (push : Push α) :
    Sealed (service.publish room now push) := by
  obtain ⟨hmem, -⟩ := mem_of_room hroom
  have hnot : room.roomId ∉ service.record.purged := by
    intro hpurged
    have hended := (h.purged.closed room.roomId hpurged room hmem rfl).1
    rw [hopen] at hended
    cases hended
  have hoffer : Sealed { service with
      queues := offerAll service.queues room.subscribers (.push push) } :=
    h.offer hmem fun hpurged => absurd hpurged hnot
  have hmodify : Sealed (Service.modify { service with
      queues := offerAll service.queues room.subscribers (.push push) } room.roomId fun room =>
        room.publish now push) := by
    refine hoffer.modify ?_ ?_
    · intro other
      cases push with
      | frame | metadata | blocks | segment => rfl
    · intro other hother heq
      obtain rfl := Table.eq_of_key_eq h.ids hother hmem heq
      refine ⟨fun content hended => ?_, fun _ hlocked => ?_, fun hended => ?_, fun _ hmem => ?_⟩
      · have hended := hended.1
        rw [hopen] at hended
        cases hended
      · cases push with
        | frame | metadata | blocks | segment => exact hlocked
      · rw [hopen] at hended
        cases hended
      · cases push with
        | frame | metadata | blocks | segment => exact hmem
  exact hmodify.of_eq rfl rfl rfl rfl rfl rfl rfl

theorem Sealed.endRoom (h : Sealed service) (hroom : service.room room.roomId = some room) :
    Sealed (service.endRoom room) := by
  obtain ⟨hmem, -⟩ := mem_of_room hroom
  have hclosed := h.endRoomLocked room.roomId false
  unfold Service.endRoom
  rw [endRoomLocked_of_room hroom] at hclosed ⊢
  refine { hclosed with known := ?_, endings := ?_ }
  · rintro id (hpurged | hlocked | hended)
    · exact h.known id (.inl hpurged)
    · exact h.known id (.inr (.inl hlocked))
    · rw [List.map_append] at hended
      rcases List.mem_append.1 hended with hold | hnew
      · exact h.known id (.inr (.inr hold))
      · rw [List.mem_singleton.1 hnew]
        exact h.made room hmem
  · intro ending hending
    rcases List.mem_append.1 hending with hold | hnew
    · exact hclosed.endings ending hold
    · rw [List.mem_singleton.1 hnew]
      refine ⟨?_, fun hnone => ?_⟩
      · intro other hother heq
        obtain ⟨origin, horigin, ⟨-, rfl⟩ | ⟨hselects, rfl⟩⟩ := Table.mem_update hother
        · obtain rfl := Table.eq_of_key_eq h.ids horigin hmem heq
          exact ⟨rfl, rfl, rfl⟩
        · exact absurd heq (of_decide_eq_false hselects)
      · obtain ⟨other, hother, heq⟩ :=
          exists_mem_modify service room.roomId Room.endRoom (fun _ => rfl) hmem
        exact absurd heq (hnone other hother)

theorem Sealed.purgeRoom (h : Sealed service) (hroom : service.room room.roomId = some room)
    (hread : ∀ admission ∈ service.record.admissions, admission.roomId = room.roomId →
      ∀ waiting ∈ service.queues admission.connection, ReadOut waiting)
    (hflushes : ∀ flush ∈ service.flushes, flush.snapshot = none) :
    Sealed (service.purgeRoom room) := by
  obtain ⟨hmem, -⟩ := mem_of_room hroom
  have hclosed := h.endRoomLocked room.roomId true
  unfold Service.purgeRoom
  rw [endRoomLocked_of_room hroom] at hclosed ⊢
  refine { hclosed with known := ?_, flushing := ?_, purged := ⟨?_, ?_, ?_⟩ }
  · rintro id (hpurged | hlocked | hended)
    · rcases List.mem_append.1 hpurged with hold | hnew
      · exact h.known id (.inl hold)
      · rw [List.mem_singleton.1 hnew]
        exact h.made room hmem
    · exact h.known id (.inr (.inl hlocked))
    · exact h.known id (.inr (.inr hended))
  · -- no flush has anything the room could be in
    have hnone : ∀ flush ∈ service.flushes, flush.inode.isSome ≠ true := by
      intro flush hflush hopen
      have hsome := h.flushing.opened flush hflush hopen
      rw [hflushes flush hflush] at hsome
      cases hsome
    refine ⟨fun flush hflush snapshot hsnapshot => ?_, h.flushing.opened,
      fun flush hflush hopen => absurd hopen (hnone flush hflush)⟩
    rw [hflushes flush hflush] at hsnapshot
    cases hsnapshot
  · intro id hid hin
    obtain ⟨hin, hne⟩ := List.mem_filter.1 hin
    rcases List.mem_append.1 hid with hold | hnew
    · exact h.purged.gone id hold hin
    · exact of_decide_eq_true hne (List.mem_singleton.1 hnew)
  · intro id hid other hother heq
    rcases List.mem_append.1 hid with hold | hnew
    · exact hclosed.purged.closed id hold other hother heq
    · obtain ⟨origin, horigin, ⟨-, rfl⟩ | ⟨hselects, rfl⟩⟩ := Table.mem_update hother
      · exact ⟨rfl, rfl⟩
      · exact absurd (heq.trans (List.mem_singleton.1 hnew)) (of_decide_eq_false hselects)
  · intro id hid connection hviewing waiting hwaiting
    rcases List.mem_append.1 hid with hold | hnew
    · exact hclosed.purged.readOut id hold connection hviewing waiting hwaiting
    · have hbefore : ∀ before ∈ service.queues connection, ReadOut before := by
        intro before hbefore
        obtain ⟨admission, hadmission, rfl, hroomId⟩ := h.admitted connection before hbefore
        refine hread admission hadmission ?_ before hbefore
        exact hroomId.trans (hviewing.trans (List.mem_singleton.1 hnew))
      have hwaiting : waiting ∈ offerAll service.queues room.subscribers (.ended true) connection :=
        hwaiting
      unfold offerAll at hwaiting
      split at hwaiting
      · obtain ⟨before, hmem, rfl⟩ := Option.map_eq_some_iff.1 hwaiting
        exact (hbefore before hmem).offer rfl
      · exact hbefore waiting hwaiting

theorem Sealed.setLocked (h : Sealed service) (hroom : service.room room.roomId = some room)
    (locked : Bool) : Sealed (service.setLocked room locked) := by
  obtain ⟨hmem, -⟩ := mem_of_room hroom
  unfold Service.setLocked
  cases locked with
  | true =>
      have hmodify : Sealed (service.modify room.roomId fun room => room.setLocked true) :=
        h.modify (fun _ => rfl) fun other _ _ =>
          ⟨fun _ hended => hended, fun _ _ => rfl, fun hended hnone => ⟨hended, hnone⟩,
            fun _ hmem => hmem⟩
      refine { hmodify with known := ?_, locks := ?_ }
      · rintro id (hpurged | hlocked | hended)
        · exact h.known id (.inl hpurged)
        · rcases List.mem_append.1 hlocked with hold | hnew
          · exact h.known id (.inr (.inl hold))
          · rw [List.mem_singleton.1 hnew]
            exact h.made room hmem
        · exact h.known id (.inr (.inr hended))
      · intro id hid
        rcases List.mem_append.1 hid with hold | hnew
        · exact hmodify.locks id hold
        · rw [List.mem_singleton.1 hnew]
          refine ⟨?_, fun hnone => ?_⟩
          · intro other hother heq
            obtain ⟨origin, horigin, ⟨-, rfl⟩ | ⟨hselects, rfl⟩⟩ := Table.mem_update hother
            · rfl
            · exact absurd heq (of_decide_eq_false hselects)
          · obtain ⟨other, hother, heq⟩ := exists_mem_modify service room.roomId
              (fun room => room.setLocked true) (fun _ => rfl) hmem
            exact absurd heq (hnone other hother)
  | false =>
      have hrecord : Sealed { service with record := { service.record with
          locks := service.record.locks.filter fun id => id ≠ room.roomId
          unlocks := service.record.unlocks ++ [room.roomId] } } := by
        refine { h with known := ?_, locks := ?_ }
        · rintro id (hpurged | hlocked | hended)
          · exact h.known id (.inl hpurged)
          · exact h.known id (.inr (.inl (List.mem_filter.1 hlocked).1))
          · exact h.known id (.inr (.inr hended))
        · exact fun id hid => h.locks id (List.mem_filter.1 hid).1
      have hmodify : Sealed (Service.modify { service with record := { service.record with
          locks := service.record.locks.filter fun id => id ≠ room.roomId
          unlocks := service.record.unlocks ++ [room.roomId] } } room.roomId fun room =>
            room.setLocked false) := by
        refine hrecord.modify (fun _ => rfl) fun other _ heq => ?_
        refine ⟨fun _ hended => hended, fun hin => ?_, fun hended hnone => ⟨hended, hnone⟩,
          fun _ hmem => hmem⟩
        exact absurd heq (of_decide_eq_true (List.mem_filter.1 hin).2)
      exact hmodify.of_eq rfl rfl rfl rfl rfl rfl rfl

/-- A viewer is let into a room that was not purged. -/
theorem Sealed.subscribe (h : Sealed service) (hroom : service.room room.roomId = some room)
    (hnot : room.roomId ∉ service.record.purged) (connection : ℕ) :
    Sealed (service.subscribe room connection) := by
  obtain ⟨hmem, -⟩ := mem_of_room hroom
  unfold Service.subscribe
  split
  · exact h
  rename_i hfresh
  have hfresh : ∀ admission ∈ service.record.admissions, admission.connection ≠ connection :=
    fun admission hadmission heq =>
      hfresh (List.any_eq_true.2 ⟨admission, hadmission, decide_eq_true heq⟩)
  split
  swap
  · exact h
  have hsubscribed : ∀ other : Room α, (other.subscribe connection).roomId = other.roomId ∧
      (other.subscribe connection).locked = other.locked ∧
      (∀ content, EndedWith other content → EndedWith (other.subscribe connection) content) ∧
      ∀ member ∈ (other.subscribe connection).subscribers,
        member ∈ other.subscribers ∨ member = connection := by
    intro other
    unfold Room.subscribe
    split
    · exact ⟨rfl, rfl, fun _ hended => hended, fun _ hmember => .inl hmember⟩
    · refine ⟨rfl, rfl, fun _ hended => ⟨hended.1, hended.2.1, hended.2.2⟩, fun _ hmember => ?_⟩
      exact (List.mem_append.1 hmember).imp_right List.mem_singleton.1
  have hid : ∀ other : Room α, (other.subscribe connection).roomId = other.roomId :=
    fun other => (hsubscribed other).1
  have hother : ∀ other ∈ service.rooms, ∀ member ∈ other.subscribers, member ≠ connection := by
    rintro other hmember member hsubscriber rfl
    obtain ⟨-, admission, hadmission, heq⟩ := h.subscribed other hmember member hsubscriber
    exact hfresh admission hadmission heq
  constructor
  · exact h.ids.update hid
  · exact Table.forall_update h.made fun other _ _ hmade => by
      rw [hid]
      exact hmade
  · exact h.known
  · exact h.files
  · exact h.flushing.mono (exists_mem_update hid)
  · exact h.endings.update hid fun other _ _ => (hsubscribed other).2.2.1
  · exact h.locks.update hid fun other _ _ _ hlocked => (hsubscribed other).2.1.trans hlocked
  · refine ⟨h.purged.gone, ?_, ?_⟩
    · intro id hpurged
      refine Table.forall_update (h.purged.closed id hpurged) ?_
      intro other _ hselects _ heq
      have hsame : other.roomId = room.roomId := of_decide_eq_true hselects
      rw [hid, hsame] at heq
      exact absurd (heq ▸ hpurged) hnot
    · intro id hpurged viewer hviewing waiting hwaiting
      by_cases heq : viewer = connection
      · subst heq
        dsimp only at hviewing
        rw [Function.update_self] at hviewing
        exact absurd (hviewing ▸ hpurged) hnot
      · dsimp only at hviewing hwaiting
        rw [Function.update_of_ne heq] at hviewing hwaiting
        exact h.purged.readOut id hpurged viewer hviewing waiting hwaiting
  · intro other hmember member hsubscriber
    obtain ⟨origin, horigin, ⟨hselects, rfl⟩ | ⟨-, rfl⟩⟩ := Table.mem_update hmember
    · rw [hid]
      rcases (hsubscribed origin).2.2.2 member hsubscriber with hold | rfl
      · obtain ⟨hviewing, admission, hadmission, heq⟩ :=
          h.subscribed origin horigin member hold
        refine ⟨?_, admission, List.mem_append_left _ hadmission, heq⟩
        exact (Function.update_of_ne (hother origin horigin member hold) _ _).trans hviewing
      · refine ⟨?_, _, List.mem_append_right _ List.mem_cons_self, rfl⟩
        have hsame : origin.roomId = room.roomId := of_decide_eq_true hselects
        dsimp only
        rw [Function.update_self, hsame]
    · obtain ⟨hviewing, admission, hadmission, heq⟩ :=
        h.subscribed other horigin member hsubscriber
      refine ⟨?_, admission, List.mem_append_left _ hadmission, heq⟩
      exact (Function.update_of_ne (hother other horigin member hsubscriber) _ _).trans hviewing
  · intro viewer waiting hwaiting
    by_cases heq : viewer = connection
    · subst heq
      refine ⟨_, List.mem_append_right _ List.mem_cons_self, rfl, ?_⟩
      dsimp only
      rw [Function.update_self]
    · dsimp only at hwaiting ⊢
      rw [Function.update_of_ne heq] at hwaiting ⊢
      obtain ⟨admission, hadmission, hconnection, hroomId⟩ := h.admitted viewer waiting hwaiting
      exact ⟨admission, List.mem_append_left _ hadmission, hconnection, hroomId⟩

end Operations

/-! ### The other steps -/

section Steps

variable {service service' : Service α}

theorem Sealed.start : Sealed (Service.start : Service α) where
  ids := List.nodup_nil
  made := fun _ hmem => by cases hmem
  known := fun _ hmem => by
    rcases hmem with hmem | hmem | hmem
    · cases hmem
    · cases hmem
    · cases hmem
  files := fun _ hmem => by cases hmem
  flushing :=
    { snapshot := fun _ hmem => by cases hmem
      opened := fun _ hmem => by cases hmem
      temporary := fun _ hmem => by cases hmem }
  endings := fun _ hmem => by cases hmem
  locks := fun _ hmem => by cases hmem
  purged :=
    { gone := fun _ hmem => by cases hmem
      closed := fun _ hmem => by cases hmem
      readOut := fun _ hmem => by cases hmem }
  subscribed := fun _ hmem => by cases hmem
  admitted := fun _ _ hmem => by cases hmem

/-- A room of an id that was never given. -/
theorem Sealed.create (h : Sealed service) {roomId : String} (publishToken : String) (now : ℤ)
    (hnew : roomId ∉ service.record.made) :
    Sealed { service with
      rooms := service.rooms ++ [Room.create roomId publishToken now]
      table := service.table ++ [roomId]
      dirty := true
      record := { service.record with made := service.record.made ++ [roomId] } } := by
  have hcreated : ∀ room ∈ service.rooms ++ [Room.create roomId publishToken now],
      room ∈ service.rooms ∨ room = Room.create roomId publishToken now := fun room hroom =>
    (List.mem_append.1 hroom).imp_right List.mem_singleton.1
  have hother : ∀ id ∈ service.record.made, id ≠ roomId := fun id hid heq => hnew (heq ▸ hid)
  constructor
  · show (List.map Room.roomId _).Nodup
    rw [List.map_append]
    refine List.nodup_append.2 ⟨h.ids, List.nodup_singleton _, fun a ha b hb heq => ?_⟩
    obtain ⟨room, hroom, rfl⟩ := List.mem_map.1 ha
    exact hother _ (h.made room hroom) (heq.trans (List.mem_singleton.1 hb))
  · intro room hroom
    rcases hcreated room hroom with hold | rfl
    · exact List.mem_append_left _ (h.made room hold)
    · exact List.mem_append_right _ List.mem_cons_self
  · exact fun id hid => List.mem_append_left _ (h.known id hid)
  · intro snapshot hsnapshot
    obtain ⟨hdistinct, hmade⟩ := h.files snapshot hsnapshot
    exact ⟨hdistinct, fun stored hstored => List.mem_append_left _ (hmade stored hstored)⟩
  · exact h.flushing.mono fun room hroom => ⟨room, List.mem_append_left _ hroom, rfl⟩
  · intro ending hending
    obtain ⟨hrooms, hdisk⟩ := h.endings ending hending
    have hmade := h.known ending.1 (.inr (.inr (List.mem_map_of_mem hending)))
    refine ⟨fun room hroom heq => ?_, fun hnone => hdisk fun room hroom =>
      hnone room (List.mem_append_left _ hroom)⟩
    rcases hcreated room hroom with hold | rfl
    · exact hrooms room hold heq
    · exact absurd heq.symm (hother _ hmade)
  · intro id hid
    obtain ⟨hrooms, hdisk⟩ := h.locks id hid
    refine ⟨fun room hroom heq => ?_, fun hnone => hdisk fun room hroom =>
      hnone room (List.mem_append_left _ hroom)⟩
    rcases hcreated room hroom with hold | rfl
    · exact hrooms room hold heq
    · exact absurd heq.symm (hother _ (h.known id (.inr (.inl hid))))
  · refine ⟨fun id hid hin => ?_, fun id hid room hroom heq => ?_, h.purged.readOut⟩
    · rcases List.mem_append.1 hin with hold | hnew
      · exact h.purged.gone id hid hold
      · exact hother _ (h.known id (.inl hid)) (List.mem_singleton.1 hnew)
    · rcases hcreated room hroom with hold | rfl
      · exact h.purged.closed id hid room hold heq
      · exact absurd heq.symm (hother _ (h.known id (.inl hid)))
  · intro room hroom
    rcases hcreated room hroom with hold | rfl
    · exact h.subscribed room hold
    · exact fun connection hmem => by cases hmem
  · exact h.admitted

theorem Sealed.read (h : Sealed service) {connection : ℕ} {message : Message α}
    {rest : List (Message α)} (hqueue : service.queues connection = some (message :: rest)) :
    Sealed { service with
      queues := Function.update service.queues connection (some rest)
      record := { service.record with
        handed := service.record.handed ++ [(service.viewing connection, message)] } } := by
  have hread : Sealed { service with
      queues := Function.update service.queues connection (some rest) } := by
    refine h.withQueues ?_ ?_
    · intro other hsome
      by_cases heq : other = connection
      · rw [heq, hqueue]
        rfl
      · rwa [Function.update_of_ne heq] at hsome
    · intro id hid other hviewing waiting hwaiting
      by_cases heq : other = connection
      · subst heq
        rw [Function.update_self] at hwaiting
        obtain rfl := Option.some.inj hwaiting
        have hbefore := h.purged.readOut id hid other hviewing _ hqueue
        exact fun next hnext => hbefore next (List.mem_cons_of_mem message hnext)
      · rw [Function.update_of_ne heq] at hwaiting
        exact h.purged.readOut id hid other hviewing waiting hwaiting
  exact { hread with }

theorem Sealed.leave (h : Sealed service) (connection : ℕ) :
    Sealed { service.modify (service.viewing connection) fun room =>
        room.unsubscribe connection with
      queues := Function.update service.queues connection none } := by
  have hmodify : Sealed (service.modify (service.viewing connection) fun room =>
      room.unsubscribe connection) := by
    refine h.modify (fun _ => rfl) fun other _ _ => ?_
    refine ⟨fun _ hended => hended, fun _ hlocked => hlocked, fun hended hnone => ⟨hended, ?_⟩,
      fun _ hmem => List.mem_of_mem_erase hmem⟩
    show other.subscribers.erase connection = []
    rw [hnone]
    rfl
  refine hmodify.withQueues ?_ ?_
  · intro other hsome
    by_cases heq : other = connection
    · rw [heq, Function.update_self] at hsome
      cases hsome
    · rwa [Function.update_of_ne heq] at hsome
  · intro id hid other hviewing waiting hwaiting
    by_cases heq : other = connection
    · rw [heq, Function.update_self] at hwaiting
      cases hwaiting
    · rw [Function.update_of_ne heq] at hwaiting
      exact h.purged.readOut id hid other hviewing waiting hwaiting

theorem record_endRoomLocked (service : Service α) (id : String) (purged : Bool) :
    (service.endRoomLocked id purged).record = service.record ∧
      (service.endRoomLocked id purged).table = service.table := by
  unfold Service.endRoomLocked
  split
  · exact ⟨rfl, rfl⟩
  · exact ⟨rfl, rfl⟩

/-- Rooms whose retention is over. -/
theorem Sealed.closeAll (h : Sealed service) (ids : List String) :
    Sealed (ids.foldl (fun service id => service.endRoomLocked id false) service) ∧
      (ids.foldl (fun service id => service.endRoomLocked id false) service).record =
        service.record ∧
      (ids.foldl (fun service id => service.endRoomLocked id false) service).table =
        service.table := by
  induction ids generalizing service with
  | nil => exact ⟨h, rfl, rfl⟩
  | cons id ids ih =>
      obtain ⟨hsealed, hrecord, htable⟩ := ih (h.endRoomLocked id false)
      obtain ⟨hrecord', htable'⟩ := record_endRoomLocked service id false
      exact ⟨hsealed, hrecord.trans hrecord', htable.trans htable'⟩

theorem Sealed.sweepIdle (h : Sealed service) (cutoff : ℤ) : Sealed (service.sweepIdle cutoff) := by
  unfold Service.sweepIdle
  dsimp only
  generalize (service.rooms.filter _).map Room.roomId = idle
  obtain ⟨hclosed, hrecord, htable⟩ := h.closeAll idle
  refine { hclosed with purged := ⟨fun id hid hin => ?_, hclosed.purged.closed,
    hclosed.purged.readOut⟩ }
  refine hclosed.purged.gone id hid ?_
  rw [htable]
  exact (List.mem_filter.1 hin).1

theorem Sealed.clean (h : Sealed service) (thread : ℕ) :
    Sealed { service with
      dirty := false
      flushes := service.flushes ++ [⟨thread, none, none, false⟩] } := by
  have hflush : ∀ flush ∈ service.flushes ++ [⟨thread, none, none, false⟩],
      flush ∈ service.flushes ∨ flush.snapshot = none ∧ flush.inode = none := by
    intro flush hflush
    rcases List.mem_append.1 hflush with hold | hnew
    · exact .inl hold
    · rw [List.mem_singleton.1 hnew]
      exact .inr ⟨rfl, rfl⟩
  refine { h with flushing := ⟨fun flush hmem snapshot hsnapshot => ?_, fun flush hmem hopen => ?_,
    fun flush hmem hopen => ?_⟩ }
  · rcases hflush flush hmem with hold | ⟨hnone, -⟩
    · exact h.flushing.snapshot flush hold snapshot hsnapshot
    · rw [hnone] at hsnapshot
      cases hsnapshot
  · rcases hflush flush hmem with hold | ⟨-, hnone⟩
    · exact h.flushing.opened flush hold hopen
    · rw [hnone] at hopen
      cases hopen
  · rcases hflush flush hmem with hold | ⟨-, hnone⟩
    · exact h.flushing.temporary flush hold hopen
    · rw [hnone] at hopen
      cases hopen

/-- A snapshot has the rooms of the table, each once, and a room that was purged is out of it. -/
theorem Sealed.fresh_takeSnapshot (h : Sealed service) :
    Fresh service.rooms service.record.purged service.takeSnapshot := by
  constructor
  · unfold Table.Distinct Service.takeSnapshot
    rw [List.map_map]
    exact h.ids.sublist (List.Sublist.map _ List.filter_sublist)
  · intro stored hstored
    obtain ⟨room, hroom, rfl⟩ := List.mem_map.1 hstored
    obtain ⟨hmem, htable⟩ := List.mem_filter.1 hroom
    exact ⟨⟨room, hmem, rfl⟩, fun hpurged =>
      h.purged.gone room.roomId hpurged (List.contains_iff_mem.1 htable)⟩

theorem Sealed.snapshot (h : Sealed service) (thread : ℕ) :
    Sealed { service with
      flushes := Table.update (fun flush => flush.thread = thread && flush.snapshot.isNone)
        (fun flush => { flush with snapshot := some service.takeSnapshot }) service.flushes } := by
  refine { h with flushing := ⟨?_, ?_, ?_⟩ }
  · refine Table.forall_update h.flushing.snapshot fun flush _ _ _ snapshot hsnapshot => ?_
    exact Option.some.inj hsnapshot ▸ h.fresh_takeSnapshot
  · exact Table.forall_update h.flushing.opened fun flush _ _ _ _ => rfl
  · exact Table.forall_update h.flushing.temporary fun flush _ _ hopened => hopened

theorem Sealed.endFlush (h : Sealed service) (thread : ℕ) : Sealed (service.endFlush thread) :=
  have hold : ∀ flush ∈ (service.endFlush thread).flushes, flush ∈ service.flushes :=
    fun _ hflush => (List.mem_filter.1 hflush).1
  { h with
    flushing :=
      { snapshot := fun flush hflush => h.flushing.snapshot flush (hold flush hflush)
        opened := fun flush hflush => h.flushing.opened flush (hold flush hflush)
        temporary := fun flush hflush => h.flushing.temporary flush (hold flush hflush) } }

/-- What can be read of the state file is what could be read, or is fresh. -/
theorem Sealed.withFiles (h : Sealed service) {files : TemporaryFile (List (Stored α))}
    {flushes : List (Flush α)}
    (hread : ∀ snapshot ∈ files.read, snapshot ∈ service.disk ∨
      Fresh service.rooms service.record.purged snapshot)
    (hflushing : KeepsFlushes service.rooms service.record.purged files flushes) :
    Sealed { service with files := files, flushes := flushes } := by
  have hthere : ∀ {id : String}, (∀ room ∈ service.rooms, room.roomId ≠ id) →
      ∀ file ∈ files.read, ∀ stored ∈ file, stored.roomId = id → file ∈ service.disk := by
    intro id hnone file hfile stored hstored heq
    refine (hread file hfile).resolve_right fun hfresh => ?_
    obtain ⟨room, hroom, hid⟩ := (hfresh.2 stored hstored).1
    exact hnone room hroom (hid.trans heq)
  refine { h with files := ?_, flushing := hflushing, endings := ?_, locks := ?_ }
  · intro file hfile
    rcases hread file hfile with hold | hfresh
    · exact h.files file hold
    · refine ⟨hfresh.1, fun stored hstored => ?_⟩
      obtain ⟨room, hroom, hid⟩ := (hfresh.2 stored hstored).1
      exact hid ▸ h.made room hroom
  · intro ending hending
    exact ⟨(h.endings ending hending).1, fun hnone file hfile stored hstored heq =>
      (h.endings ending hending).2 hnone file (hthere hnone file hfile stored hstored heq) stored
        hstored heq⟩
  · intro id hid
    exact ⟨(h.locks id hid).1, fun hnone file hfile stored hstored heq =>
      (h.locks id hid).2 hnone file (hthere hnone file hfile stored hstored heq) stored hstored
        heq⟩

theorem Sealed.saved (h : Sealed service) : Sealed service.saved := { h with }

/-- The flush of a thread goes on, with its snapshot as it was. -/
theorem KeepsFlushes.goOn {rooms : List (Room α)} {purged : List String}
    {files files' : TemporaryFile (List (Stored α))} {flushes : List (Flush α)}
    (h : KeepsFlushes rooms purged files flushes) {thread : ℕ} {set : Flush α → Flush α}
    (hset : ∀ flush, (set flush).snapshot = flush.snapshot)
    (hfiles : files'.Written (Fresh rooms purged)) :
    KeepsFlushes rooms purged files'
      (Table.update (fun flush => flush.thread = thread && flush.snapshot.isSome) set
        flushes) := by
  refine ⟨?_, ?_, fun _ _ _ => hfiles⟩
  · refine Table.forall_update h.snapshot fun flush hflush _ hold snapshot hmem => ?_
    rw [hset] at hmem
    exact hold snapshot hmem
  · refine Table.forall_update h.opened fun flush _ hselects _ _ => ?_
    rw [hset]
    exact (Bool.and_eq_true_iff.1 hselects).2

theorem Sealed.openTemporary (h : Sealed service) (thread : ℕ) :
    Sealed (service.openTemporary thread) := by
  refine h.withFiles (fun snapshot hsnapshot => .inl ?_) ?_
  · rwa [TemporaryFile.read_openTemporary] at hsnapshot
  · exact h.flushing.goOn (fun _ => rfl) TemporaryFile.written_openTemporary

/-- A flush that has its snapshot and the temporary file open writes it. -/
theorem Sealed.write (h : Sealed service) {flush : Flush α} (hflush : flush ∈ service.flushes)
    {snapshot : List (Stored α)} (hsnapshot : snapshot ∈ flush.snapshot) {inode : ℕ}
    (hinode : inode ∈ flush.inode) (covers : Bool) :
    Sealed (service.write flush.thread inode snapshot covers) := by
  have hfresh := h.flushing.snapshot flush hflush snapshot hsnapshot
  have hopen := h.flushing.temporary flush hflush (Option.isSome_iff_exists.2 ⟨inode, hinode⟩)
  have hwritten : Sealed
      { service.goOn flush.thread fun flush => { flush with written := true } with
        files := service.files.write inode snapshot covers } := by
    refine h.withFiles (fun read hread => ?_) (h.flushing.goOn (fun _ => rfl) (hopen.write hfresh))
    rcases TemporaryFile.read_write hread with ⟨-, hold⟩ | ⟨-, rfl⟩
    · exact .inl hold
    · exact .inr hfresh
  unfold Service.write
  dsimp only
  split
  · exact hwritten.saved
  · exact hwritten

/-- What could not be written whole is gone, or spoils the state file. -/
theorem Sealed.spoil (h : Sealed service) (thread inode : ℕ) :
    Sealed { service.endFlush thread with files := (service.files.spoil inode).unlink } := by
  refine (h.endFlush thread).withFiles (fun read hread => .inl ?_) ?_
  · exact TemporaryFile.read_spoil hread
  · exact { (h.endFlush thread).flushing with
      temporary := fun _ _ _ => TemporaryFile.written_unlink }

/-- **What a rename makes the state file** is fresh. -/
theorem Sealed.replace (h : Sealed service) {flush : Flush α} (hflush : flush ∈ service.flushes)
    (hopen : flush.inode.isSome = true) (hstep : service.replace flush.thread = some service') :
    Sealed service' ∧ Since service service' := by
  obtain ⟨files, hrename, rfl⟩ := Option.map_eq_some_iff.1 hstep
  have hread : ∀ snapshot ∈ files.read, Fresh service.rooms service.record.purged snapshot :=
    fun snapshot hsnapshot =>
      (h.flushing.temporary flush hflush hopen).read_rename hrename hsnapshot
  constructor
  · refine Sealed.saved ((h.endFlush flush.thread).withFiles
      (fun snapshot hsnapshot => .inr (hread snapshot hsnapshot)) ?_)
    exact { (h.endFlush flush.thread).flushing with
      temporary := fun _ _ _ => TemporaryFile.written_rename hrename }
  · refine { Since.refl service with saves := ⟨_, rfl, ?_⟩ }
    rintro id hid snapshot hsnapshot stored hstored rfl
    exact ((hread snapshot (Option.mem_toList.1 hsnapshot)).2 stored hstored).2 hid

/-- A restart from a file that is up to date. -/
theorem Sealed.load (h : Sealed service) (cutoff : ℤ)
    (hfile : ∀ snapshot ∈ service.disk, ∀ stored ∈ snapshot, UpToDate service stored) :
    Sealed (service.load cutoff) := by
  have hstored : ∀ room ∈ (service.load cutoff).rooms, ∃ snapshot ∈ service.disk,
      ∃ stored ∈ snapshot, room = stored.room := by
    intro room hroom
    obtain ⟨stored, hstored, rfl⟩ := List.mem_map.1 hroom
    have hmem := (List.mem_filter.1 hstored).1
    cases hdisk : service.disk with
    | none =>
        rw [hdisk] at hmem
        cases hmem
    | some snapshot =>
        rw [hdisk] at hmem
        exact ⟨snapshot, rfl, stored, hmem, rfl⟩
  have hending : ∀ ending ∈ service.record.endings, ∀ snapshot ∈ service.disk,
      ∀ stored ∈ snapshot, stored.roomId = ending.1 →
        stored.ended = true ∧ stored.content = ending.2 := by
    intro ending hending snapshot hsnapshot stored hmem heq
    obtain ⟨hrooms, hdisk⟩ := h.endings ending hending
    by_cases hobject : ∃ room ∈ service.rooms, room.roomId = ending.1
    · obtain ⟨room, hroom, hid⟩ := hobject
      obtain ⟨hended, hcontent, -⟩ := hrooms room hroom hid
      obtain ⟨hkept, hsame⟩ := ((hfile snapshot hsnapshot stored hmem).2 room hroom
        (hid.trans heq.symm)).1 hended
      exact ⟨hkept, hsame.trans hcontent⟩
    · exact hdisk (fun room hroom hid => hobject ⟨room, hroom, hid⟩) snapshot hsnapshot stored hmem
        heq
  have hlock : ∀ id ∈ service.record.locks, ∀ snapshot ∈ service.disk, ∀ stored ∈ snapshot,
      stored.roomId = id → stored.locked = true := by
    intro id hid snapshot hsnapshot stored hmem heq
    obtain ⟨hrooms, hdisk⟩ := h.locks id hid
    by_cases hobject : ∃ room ∈ service.rooms, room.roomId = id
    · obtain ⟨room, hroom, hroomId⟩ := hobject
      exact ((hfile snapshot hsnapshot stored hmem).2 room hroom (hroomId.trans heq.symm)).2
        (hrooms room hroom hroomId)
    · exact hdisk (fun room hroom hid => hobject ⟨room, hroom, hid⟩) snapshot hsnapshot stored hmem
        heq
  have hpurged : ∀ id ∈ service.record.purged, ∀ room ∈ (service.load cutoff).rooms,
      room.roomId ≠ id := by
    intro id hid room hroom heq
    obtain ⟨snapshot, hsnapshot, stored, hmem, rfl⟩ := hstored room hroom
    exact (hfile snapshot hsnapshot stored hmem).1 (heq ▸ hid : stored.room.roomId ∈ _)
  constructor
  · cases hdisk : service.disk with
    | none =>
        unfold Service.load Table.Distinct
        rw [hdisk]
        exact List.nodup_nil
    | some snapshot =>
        unfold Service.load Table.Distinct
        rw [hdisk]
        dsimp only
        rw [List.map_map]
        exact (h.files snapshot hdisk).1.sublist (List.Sublist.map _ List.filter_sublist)
  · intro room hroom
    obtain ⟨snapshot, hsnapshot, stored, hmem, rfl⟩ := hstored room hroom
    exact (h.files snapshot hsnapshot).2 stored hmem
  · exact h.known
  · exact h.files
  · exact
      { snapshot := fun _ hmem => by cases hmem
        opened := fun _ hmem => by cases hmem
        temporary := fun _ hmem => by cases hmem }
  · intro ending hmem
    refine ⟨fun room hroom heq => ?_, fun _ => hending ending hmem⟩
    obtain ⟨snapshot, hsnapshot, stored, hin, rfl⟩ := hstored room hroom
    obtain ⟨hended, hcontent⟩ := hending ending hmem snapshot hsnapshot stored hin heq
    exact ⟨hended, hcontent, rfl⟩
  · intro id hid
    refine ⟨fun room hroom heq => ?_, fun _ => hlock id hid⟩
    obtain ⟨snapshot, hsnapshot, stored, hin, rfl⟩ := hstored room hroom
    exact hlock id hid snapshot hsnapshot stored hin heq
  · refine ⟨fun id hid hin => ?_, fun id hid room hroom heq => ?_,
      fun _ _ _ _ _ hwaiting => by cases hwaiting⟩
    · obtain ⟨room, hroom, heq⟩ := List.mem_map.1 hin
      exact hpurged id hid room hroom heq
    · exact absurd heq (hpurged id hid room hroom)
  · intro room hroom connection hmem
    obtain ⟨_, _, stored, _, rfl⟩ := hstored room hroom
    cases hmem
  · exact fun _ _ hwaiting => by cases hwaiting

end Steps

/-! ### Runs -/

section Runs

variable {service service' : Service α}

/-- What a request adds to the record. -/
theorem Since.perform (h : Sealed service) {room : Room α} (hroom : room ∈ service.rooms)
    (now : ℤ) (request : Request α) : Since service (service.perform room now request) := by
  cases request with
  | publish push => exact Since.of_record_eq rfl
  | endRoom =>
      exact
        { Since.refl service with
          endings := fun _ hmem => List.mem_append_left _ hmem }
  | purge =>
      exact
        { Since.refl service with
          purged := fun _ hmem => List.mem_append_left _ hmem }
  | setLocked locked =>
      cases locked with
      | true =>
          exact
            { Since.refl service with
              locks := fun _ hmem _ => List.mem_append_left _ hmem }
      | false =>
          have hcount : ∀ id, (service.record.unlocks ++ [room.roomId]).count id =
              service.record.unlocks.count id → id ≠ room.roomId := by
            rintro id heq rfl
            rw [List.count_append, List.count_singleton_self] at heq
            omega
          exact
            { Since.refl service with
              unlocks := List.prefix_append _ _
              locks := fun id hmem heq =>
                List.mem_filter.2 ⟨hmem, decide_eq_true (hcount id heq)⟩
              admissions := ⟨[], (List.append_nil _).symm, fun _ _ _ _ hmem => by cases hmem⟩ }
  | view connection =>
      show Since service (service.subscribe room connection)
      unfold Service.subscribe
      split
      · exact Since.of_record_eq rfl
      · split
        · rename_i hadmits
          refine { Since.refl service with admissions := ⟨_, rfl, ?_⟩ }
          intro id hid _ admission hadmission heq
          obtain rfl := List.mem_singleton.1 hadmission
          have hlocked := (h.locks id hid).1 room hroom heq
          unfold Room.admits at hadmits
          rw [hlocked] at hadmits
          simpa using hadmits
        · exact Since.of_record_eq rfl

/-- The operation of a request that is safe. -/
theorem Sealed.perform (h : Sealed service) {room : Room α}
    (hroom : service.room room.roomId = some room) (now : ℤ) {request : Request α}
    (hsafe : SafeRequest service room request) : Sealed (service.perform room now request) := by
  cases request with
  | publish push => exact h.publish hroom hsafe now push
  | endRoom => exact h.endRoom hroom
  | purge => exact h.purgeRoom hroom hsafe.1 hsafe.2
  | setLocked locked => exact h.setLocked hroom locked
  | view connection => exact h.subscribe hroom hsafe connection

/-- What a write adds to the record. -/
theorem Since.write (h : Sealed service) {flush : Flush α} (hflush : flush ∈ service.flushes)
    {snapshot : List (Stored α)} (hsnapshot : snapshot ∈ flush.snapshot) {inode : ℕ}
    (covers : Bool) : Since service (service.write flush.thread inode snapshot covers) := by
  unfold Service.write
  dsimp only
  split
  · rename_i hfile
    refine { Since.refl service with saves := ⟨_, rfl, ?_⟩ }
    rintro id hid read hread stored hstored rfl
    rcases TemporaryFile.read_write (Option.mem_toList.1 hread) with ⟨hnot, -⟩ | ⟨-, rfl⟩
    · exact hnot hfile
    · exact ((h.flushing.snapshot flush hflush _ hsnapshot).2 stored hstored).2 hid
  · exact Since.of_record_eq rfl

/-- **A safe step** keeps the store sealed. -/
theorem Sealed.step (h : Sealed service) {act : Act α} (hsafe : Safe service act)
    (hstep : service.step act = some service') : Sealed service' ∧ Since service service' := by
  cases act with
  | create roomId publishToken now =>
      simp only [Service.step] at hstep
      split at hstep
      · cases hstep
      · rename_i hnew
        obtain rfl := Option.some.inj hstep
        refine ⟨h.create publishToken now fun hmem => hnew (List.contains_iff_mem.2 hmem), ?_⟩
        exact { Since.refl service with }
  | look thread roomId token request =>
      have hsame : Sealed service' ∧ service'.record = service.record := by
        change service.look thread roomId token request = some service' at hstep
        unfold Service.look at hstep
        split at hstep
        · cases hstep
        · split at hstep
          · obtain rfl := Option.some.inj hstep
            exact ⟨h, rfl⟩
          · split at hstep
            · obtain rfl := Option.some.inj hstep
              exact ⟨h.of_eq rfl rfl rfl rfl rfl rfl rfl, rfl⟩
            · obtain rfl := Option.some.inj hstep
              exact ⟨h, rfl⟩
      exact ⟨hsame.1, Since.of_record_eq hsame.2⟩
  | act thread now =>
      simp only [Service.step] at hstep
      split at hstep
      · cases hstep
      · rename_i handle hhandle
        obtain ⟨room, hroom, rfl⟩ := Option.map_eq_some_iff.1 hstep
        obtain ⟨hmem, hid⟩ := mem_of_room hroom
        have hperform := h.perform (hid.symm ▸ hroom) now (hsafe handle hhandle room hroom)
        have hsince := Since.perform h hmem now handle.request
        exact ⟨hperform.of_eq rfl rfl rfl rfl rfl rfl rfl, { hsince with }⟩
  | read connection =>
      simp only [Service.step] at hstep
      split at hstep
      · rename_i message rest hqueue
        obtain rfl := Option.some.inj hstep
        refine ⟨h.read hqueue, ?_⟩
        refine { Since.refl service with handed := ⟨_, rfl, ?_⟩ }
        intro id hid entry hentry heq
        obtain rfl := List.mem_singleton.1 hentry
        exact h.purged.readOut id hid connection heq _ hqueue message List.mem_cons_self
      · cases hstep
  | leave connection =>
      simp only [Service.step] at hstep
      split at hstep
      · obtain rfl := Option.some.inj hstep
        exact ⟨h.leave connection, Since.of_record_eq rfl⟩
      · cases hstep
  | sweepIdle cutoff =>
      obtain rfl := Option.some.inj hstep
      refine ⟨h.sweepIdle cutoff, Since.of_record_eq ?_⟩
      exact (h.closeAll _).2.1
  | clean thread =>
      simp only [Service.step] at hstep
      split at hstep
      · obtain rfl := Option.some.inj hstep
        exact ⟨h.clean thread, Since.of_record_eq rfl⟩
      · cases hstep
  | snapshot thread =>
      obtain rfl := Option.some.inj hstep
      exact ⟨h.snapshot thread, Since.of_record_eq rfl⟩
  | openTemporary thread opened =>
      simp only [Service.step] at hstep
      split at hstep
      · obtain rfl := Option.some.inj hstep
        split
        · exact ⟨h.openTemporary thread, Since.of_record_eq rfl⟩
        · exact ⟨h.endFlush thread, Since.of_record_eq rfl⟩
      · cases hstep
  | write thread written covers =>
      simp only [Service.step] at hstep
      split at hstep
      · rename_i owner snapshot inode hflush
        have hmem := List.mem_of_find?_eq_some hflush
        obtain rfl : owner = thread := by simpa using List.find?_some hflush
        split at hstep
        · obtain rfl := Option.some.inj hstep
          exact ⟨h.write hmem rfl rfl covers, Since.write h hmem rfl covers⟩
        · obtain rfl := Option.some.inj hstep
          exact ⟨h.spoil owner inode, Since.of_record_eq rfl⟩
      · cases hstep
  | replace thread replaced =>
      simp only [Service.step] at hstep
      split at hstep
      · rename_i owner snapshot inode hflush
        have hmem := List.mem_of_find?_eq_some hflush
        obtain rfl : owner = thread := by simpa using List.find?_some hflush
        split at hstep
        · exact h.replace hmem rfl hstep
        · obtain rfl := Option.some.inj hstep
          exact ⟨h.endFlush owner, Since.of_record_eq rfl⟩
      · cases hstep
  | restart cutoff =>
      obtain rfl := Option.some.inj hstep
      exact ⟨h.load cutoff hsafe, Since.of_record_eq rfl⟩

end Runs

end Rooms
end ZuTalk
