/-
# Rooms across restarts

`RoomStore` of `services/caption-web/server.py` as one call after the other sees it: the operations
on rooms, `flush`, `sweep_idle` and `load`.

The operations on a room are those of `ZuTalk.Rooms.Room`; here the order of the sessions is kept
beside the blocks, as `session_order` is, and it is the order the blocks have there
(`Formed.rooms`).  A process reads two clocks that are `elapsed` apart: the moments in its memory
are of the one, those in the state file of the other, and the next process has an `elapsed` of its
own.

`flush` clears the mark that there is something to save before it writes, and does not set it again
when the write fails; and a frame counts as activity of its room without setting it.  In a run the
state file has what the rooms have whenever nothing is marked, and a restart takes nothing away,
exactly if no write fails and no frame comes while nothing is marked (`keeps_iff`).
-/

import ZuTalk.Library.Machine
import ZuTalk.Rooms.Service

namespace ZuTalk
namespace Rooms

open Machine

variable {α : Type}

/-! ### Rooms with the order of their sessions -/

/-- A room with `session_order`. -/
structure HeldRoom (α : Type) where
  room : Room α
  sessionOrder : List String
  deriving DecidableEq, Repr

/-- An entry of the state file. -/
structure StoredRoom (α : Type) where
  stored : Stored α
  sessionOrder : List String
  deriving DecidableEq, Repr

/-- What `subscribe` answers. -/
inductive Answer (α : Type)
  | raises
  | refused (reason : String)
  | admitted (init : Init α)
  deriving DecidableEq, Repr

namespace HeldRoom

/-- A room as it is made. -/
def create (roomId publishToken : String) (now : ℤ) : HeldRoom α :=
  ⟨Room.create roomId publishToken now, []⟩

/-- The sessions after a push: a session that has no blocks yet comes last. -/
def orderAfter (held : HeldRoom α) : Push α → List String
  | .blocks data =>
      match data.wireId with
      | none => held.sessionOrder
      | some id =>
          if id = "" ∨ held.room.blocks.any (fun entry => entry.1 = id) then held.sessionOrder
          else held.sessionOrder ++ [id]
  | _ => held.sessionOrder

/-- `publish`. -/
def publish (held : HeldRoom α) (now : ℤ) (push : Push α) : HeldRoom α :=
  ⟨held.room.publish now push, held.orderAfter push⟩

/-- The blocks of the sessions in their order, if there are some for each. -/
def sessions (held : HeldRoom α) : Option (List (Blocks α)) :=
  held.sessionOrder.mapM fun id =>
    (held.room.blocks.find? fun entry => entry.1 = id).map Prod.snd

/-- What `subscribe` answers. -/
def answer (held : HeldRoom α) : Answer α :=
  if held.room.locked && !held.room.ended then .refused "locked"
  else if !held.room.ended && maxSubscribersPerRoom ≤ held.room.subscribers.length then
    .refused "full"
  else
    match held.sessions with
    | none => .raises
    | some sessions => .admitted { held.room.init with sessions := sessions }

/-- `subscribe`. -/
def subscribe (held : HeldRoom α) (connection : ℕ) : HeldRoom α :=
  match held.answer with
  | .admitted _ => { held with room := held.room.subscribe connection }
  | _ => held

/-- An entry of `snapshot`. -/
def toStored (elapsed : ℤ) (held : HeldRoom α) : StoredRoom α where
  stored := { held.room.stored with
    createdAt := held.room.createdAt + elapsed
    lastActivity := held.room.lastActivity + elapsed }
  sessionOrder := held.sessionOrder

end HeldRoom

/-- A room as `load` makes it. -/
def StoredRoom.toHeld (elapsed : ℤ) (entry : StoredRoom α) : HeldRoom α where
  room := { entry.stored.room with
    createdAt := entry.stored.createdAt - elapsed
    lastActivity := entry.stored.lastActivity - elapsed }
  sessionOrder := entry.sessionOrder

/-- What is loaded is stored as it was. -/
@[simp] theorem StoredRoom.toStored_toHeld (elapsed : ℤ) (entry : StoredRoom α) :
    (entry.toHeld elapsed).toStored elapsed = entry := by
  unfold toHeld HeldRoom.toStored Stored.room Room.stored
  simp

/-! ### The store -/

/-- How far a write of the state file comes. -/
inductive Flushing
  | openFails
  | writeFails
  | syncFails
  | replaceFails
  | succeeds
  deriving DecidableEq, Repr

/-- `RoomStore` with its state file. -/
structure Store (α : Type) where
  /-- How long a room stays after its last push. -/
  retention : ℤ
  /-- How far the clock of the state file is ahead of the clock of the process. -/
  elapsed : ℤ
  rooms : List (HeldRoom α)
  dirty : Bool
  disk : Option (List (StoredRoom α))
  /-- Rooms with no push since then were left out by `load`. -/
  cutoff : ℤ
  /-- The last write that was tried has failed. -/
  failed : Bool
  deriving DecidableEq, Repr

/-- What can happen to a store. -/
inductive StoreAct (α : Type)
  | create (roomId publishToken : String) (now : ℤ)
  | publish (roomId : String) (now : ℤ) (push : Push α)
  | endRoom (roomId : String)
  | purgeRoom (roomId : String)
  | setLocked (roomId : String) (locked : Bool)
  | subscribe (roomId : String) (connection : ℕ)
  | unsubscribe (roomId : String) (connection : ℕ)
  | sweepIdle (now : ℤ)
  | flush (outcome : Flushing)
  | restart (elapsed wallNow : ℤ)
  deriving DecidableEq, Repr

/-- A room is put into the table under its id. -/
def setRoom (rooms : List (HeldRoom α)) (held : HeldRoom α) : List (HeldRoom α) :=
  if rooms.any fun other => other.room.roomId = held.room.roomId then
    Table.update (fun other => other.room.roomId = held.room.roomId) (fun _ => held) rooms
  else rooms ++ [held]

namespace Store

/-- The first process, without a state file. -/
def start (retention elapsed : ℤ) : Store α where
  retention := retention
  elapsed := elapsed
  rooms := []
  dirty := false
  disk := none
  cutoff := 0
  failed := false

variable (store : Store α)

/-- What the state file has. -/
def file : List (StoredRoom α) := store.disk.getD []

/-- A room of the table is changed. -/
def modify (roomId : String) (set : HeldRoom α → HeldRoom α) : Store α :=
  { store with
    rooms := Table.update (fun held => held.room.roomId = roomId) set store.rooms }

/-- `snapshot`. -/
def snapshot : List (StoredRoom α) := store.rooms.map (HeldRoom.toStored store.elapsed)

/-- `flush`. -/
def flush (outcome : Flushing) : Store α :=
  if store.dirty then
    match outcome with
    | .succeeds => { store with dirty := false, disk := some store.snapshot, failed := false }
    | _ => { store with dirty := false, failed := true }
  else store

/-- `sweep_idle`. -/
def sweepIdle (now : ℤ) : Store α :=
  let kept := store.rooms.filter fun held => now - store.retention ≤ held.room.lastActivity
  { store with
    rooms := kept
    dirty := store.dirty || decide (kept.length < store.rooms.length) }

/-- The rooms of `load`. -/
def loaded (elapsed wallNow : ℤ) : List (HeldRoom α) :=
  store.file.foldl (fun rooms entry =>
    if entry.stored.lastActivity < wallNow - store.retention then rooms
    else setRoom rooms (entry.toHeld elapsed)) []

/-- A new process: `load`. -/
def load (elapsed wallNow : ℤ) : Store α where
  retention := store.retention
  elapsed := elapsed
  rooms := store.loaded elapsed wallNow
  dirty := false
  disk := store.disk
  cutoff := wallNow - store.retention
  failed := false

/-- A room is in the table. -/
def has (roomId : String) : Bool := store.rooms.any fun held => held.room.roomId = roomId

/-- One call.  An operation on a room is asked for where the room is in the table. -/
def step (store : Store α) : StoreAct α → Option (Store α)
  | .create roomId publishToken now => some { store with
      rooms := setRoom store.rooms (HeldRoom.create roomId publishToken now)
      dirty := true }
  | .publish roomId now push =>
      if store.has roomId then
        some { store.modify roomId fun held => held.publish now push with
          dirty := match push with
            | .frame _ => store.dirty
            | _ => true }
      else none
  | .endRoom roomId =>
      if store.has roomId then
        some { store.modify roomId fun held => { held with room := held.room.endRoom } with
          dirty := true }
      else none
  | .purgeRoom roomId =>
      if store.has roomId then
        some { store with
          rooms := store.rooms.filter fun held => held.room.roomId ≠ roomId
          dirty := true }
      else none
  | .setLocked roomId locked =>
      if store.has roomId then
        some { store.modify roomId fun held =>
            { held with room := held.room.setLocked locked } with
          dirty := true }
      else none
  | .subscribe roomId connection =>
      if store.has roomId then
        some (store.modify roomId fun held => held.subscribe connection)
      else none
  | .unsubscribe roomId connection =>
      if store.has roomId then
        some (store.modify roomId fun held =>
          { held with room := held.room.unsubscribe connection })
      else none
  | .sweepIdle now => some (store.sweepIdle now)
  | .flush outcome => some (store.flush outcome)
  | .restart elapsed wallNow => some (store.load elapsed wallNow)

end Store

/-! ### What a restart takes away -/

/-- A room can be subscribed to: there are blocks for each of its sessions, and a viewer is sent
them, unless the room is locked or full. -/
def CanSubscribe (held : HeldRoom α) : Prop :=
  held.answer ≠ .raises ∧
    (held.room.admits = true →
      held.answer = .admitted { held.room.init with sessions := held.room.blocks.map Prod.snd })

/-- **A restart takes nothing away**, and the state file is kept up to date. -/
structure Kept (store : Store α) : Prop where
  /-- Where nothing is marked the state file has every room as it is. -/
  described : store.dirty = false → ∀ entry ∈ store.snapshot, entry ∈ store.file
  /-- And besides only rooms that were left out when it was loaded. -/
  others : store.dirty = false → ∀ entry ∈ store.file,
    entry ∈ store.snapshot ∨ entry.stored.lastActivity < store.cutoff
  /-- A write that has failed is tried again. -/
  retried : store.failed = true → store.dirty = true
  /-- What is loaded is as it was, and each room has the time that was left. -/
  restored : ∀ elapsed wallNow, (store.load elapsed wallNow).rooms.map
      (HeldRoom.toStored elapsed) =
    store.file.filter fun entry => wallNow - store.retention ≤ entry.stored.lastActivity
  /-- Every room that is loaded can be subscribed to. -/
  subscribed : ∀ elapsed wallNow, ∀ held ∈ (store.load elapsed wallNow).rooms,
    CanSubscribe held

/-- A call that keeps the state file up to date: a write does not fail, and a frame comes where
something is marked already, or in the moment of the last push. -/
def Saves (store : Store α) : StoreAct α → Prop
  | .flush outcome => store.dirty = true → outcome = .succeeds
  | .publish roomId now (.frame _) => store.dirty = true ∨
      ∀ held ∈ store.rooms, held.room.roomId = roomId → held.room.lastActivity = now
  | _ => True

/-! ### Rooms are as they are made -/

/-- The order of the sessions is that of their blocks, of which each session has one. -/
structure Ordered (order : List String) (blocks : List (String × Blocks α)) : Prop where
  order : order = blocks.map Prod.fst
  nodup : (blocks.map Prod.fst).Nodup

/-- Rooms and file have one room for an id, with its sessions in order. -/
structure Formed (store : Store α) : Prop where
  rooms : (store.rooms.map fun held => held.room.roomId).Nodup
  file : (store.file.map fun entry => entry.stored.roomId).Nodup
  held : ∀ held ∈ store.rooms, Ordered held.sessionOrder held.room.blocks
  stored : ∀ entry ∈ store.file, Ordered entry.sessionOrder entry.stored.blocks

theorem Ordered.publish {held : HeldRoom α} (h : Ordered held.sessionOrder held.room.blocks)
    (now : ℤ) (push : Push α) :
    Ordered (held.publish now push).sessionOrder (held.publish now push).room.blocks := by
  cases push with
  | frame | metadata | segment => exact h
  | blocks data =>
      change Ordered (held.orderAfter (.blocks data)) (Room.storeBlocks held.room.blocks data)
      rw [HeldRoom.orderAfter, Room.storeBlocks]
      cases data.wireId with
      | none => exact h
      | some id =>
          by_cases hid : id = ""
          · simp only [hid, true_or, if_true]
            exact h
          · simp only [hid, false_or, if_false]
            by_cases hany : held.room.blocks.any fun entry => entry.1 = id
            · rw [if_pos hany, if_pos hany]
              have hkeys : (Table.update (fun entry : String × Blocks α => decide (entry.1 = id))
                  (fun entry => (entry.1, data)) held.room.blocks).map Prod.fst =
                    held.room.blocks.map Prod.fst := Table.map_key_update fun _ => rfl
              exact ⟨by rw [hkeys, h.order], by rw [hkeys]; exact h.nodup⟩
            · rw [if_neg hany, if_neg hany]
              refine ⟨by rw [List.map_append, h.order]; rfl, ?_⟩
              rw [List.map_append]
              refine List.Nodup.append h.nodup (List.nodup_singleton _) fun other hother hid' => ?_
              obtain ⟨entry, hentry, rfl⟩ := List.mem_map.1 hother
              exact hany (List.any_eq_true.2 ⟨entry, hentry, by simpa using hid'⟩)

/-- The blocks of a session are found by its id. -/
theorem mapM_sessions {blocks : List (String × Blocks α)} (h : (blocks.map Prod.fst).Nodup)
    {entries : List (String × Blocks α)} (hsub : ∀ entry ∈ entries, entry ∈ blocks) :
    ((entries.map Prod.fst).mapM fun id =>
      (blocks.find? fun entry => entry.1 = id).map Prod.snd) = some (entries.map Prod.snd) := by
  induction entries with
  | nil => rfl
  | cons entry entries ih =>
      obtain ⟨hentry, hrest⟩ := List.forall_mem_cons.1 hsub
      have hfound : (blocks.find? fun other => other.1 = entry.1) = some entry := by
        cases hfind : blocks.find? fun other => other.1 = entry.1 with
        | none => exact absurd (List.find?_eq_none.1 hfind entry hentry) (by simp)
        | some other =>
            exact congrArg some (Table.eq_of_key_eq h (List.mem_of_find?_eq_some hfind) hentry
              (by simpa using List.find?_some hfind))
      rw [List.map_cons, List.mapM_cons, ih hrest, hfound]
      rfl

/-- **A room whose sessions are in order can be subscribed to.** -/
theorem Ordered.canSubscribe {held : HeldRoom α}
    (h : Ordered held.sessionOrder held.room.blocks) : CanSubscribe held := by
  have hsessions : held.sessions = some (held.room.blocks.map Prod.snd) := by
    rw [HeldRoom.sessions, h.order]
    exact mapM_sessions h.nodup fun _ hentry => hentry
  unfold CanSubscribe HeldRoom.answer
  rw [hsessions]
  constructor
  · split
    · simp
    · split <;> simp
  · intro hadmits
    unfold Room.admits at hadmits
    cases hended : held.room.ended <;> cases hlocked : held.room.locked <;>
      simp_all

/-! ### What a call does -/

/-- An operation on a room leaves its id, and its sessions in order. -/
structure Gentler (set : HeldRoom α → HeldRoom α) : Prop where
  id : ∀ held, (set held).room.roomId = held.room.roomId
  ordered : ∀ held, Ordered held.sessionOrder held.room.blocks →
    Ordered (set held).sessionOrder (set held).room.blocks

theorem Formed.modify {store : Store α} (h : Formed store) {set : HeldRoom α → HeldRoom α}
    (hset : Gentler set) (roomId : String) : Formed (store.modify roomId set) where
  rooms := Table.Distinct.update h.rooms hset.id
  file := h.file
  held := Table.forall_update h.held fun held _ _ hordered => hset.ordered held hordered
  stored := h.stored

theorem gentler_publish (now : ℤ) (push : Push α) :
    Gentler fun held : HeldRoom α => held.publish now push where
  id held := by cases push <;> rfl
  ordered held h := h.publish now push

theorem gentler_room (set : Room α → Room α) (hid : ∀ room, (set room).roomId = room.roomId)
    (hblocks : ∀ room, (set room).blocks = room.blocks) :
    Gentler fun held : HeldRoom α => { held with room := set held.room } where
  id held := hid held.room
  ordered held h := by
    simp only [hblocks]
    exact h

theorem gentler_subscribe (connection : ℕ) :
    Gentler fun held : HeldRoom α => held.subscribe connection where
  id held := by
    unfold HeldRoom.subscribe Room.subscribe
    split
    · dsimp only
      split <;> rfl
    · rfl
  ordered held h := by
    unfold HeldRoom.subscribe Room.subscribe
    split
    · dsimp only
      split <;> exact h
    · exact h

/-- Rooms stay of different ids when one is put among them. -/
theorem nodup_setRoom {rooms : List (HeldRoom α)}
    (h : (rooms.map fun held => held.room.roomId).Nodup) (held : HeldRoom α) :
    ((setRoom rooms held).map fun held => held.room.roomId).Nodup := by
  unfold setRoom
  split
  · have hids : (Table.update (fun other => decide (other.room.roomId = held.room.roomId))
        (fun _ => held) rooms).map (fun held => held.room.roomId) =
          rooms.map fun held => held.room.roomId := by
      unfold Table.update
      rw [List.map_map]
      refine List.map_congr_left fun other _ => ?_
      by_cases hsame : other.room.roomId = held.room.roomId <;> simp [hsame]
    rw [hids]
    exact h
  · next hnone =>
      rw [List.map_append]
      refine List.Nodup.append h (List.nodup_singleton _) fun id hid hsame => ?_
      obtain ⟨other, hother, rfl⟩ := List.mem_map.1 hid
      exact hnone (List.any_eq_true.2 ⟨other, hother, by simpa using hsame⟩)

theorem mem_setRoom {rooms : List (HeldRoom α)} {held other : HeldRoom α}
    (h : other ∈ setRoom rooms held) : other ∈ rooms ∨ other = held := by
  unfold setRoom at h
  split at h
  · obtain ⟨row, hrow, ⟨-, rfl⟩ | ⟨-, rfl⟩⟩ := Table.mem_update h
    · exact .inr rfl
    · exact .inl hrow
  · exact (List.mem_append.1 h).imp id List.mem_singleton.1

/-- **What is loaded**: the entries whose time is not over, in the order of the file. -/
theorem loaded_eq {store : Store α} (h : (store.file.map fun entry => entry.stored.roomId).Nodup)
    (elapsed wallNow : ℤ) : store.loaded elapsed wallNow =
      (store.file.filter fun entry =>
        wallNow - store.retention ≤ entry.stored.lastActivity).map
          (StoredRoom.toHeld elapsed) := by
  have hfold : ∀ (entries : List (StoredRoom α)) (rooms : List (HeldRoom α)),
      ((rooms.map fun held => held.room.roomId) ++
        entries.map fun entry => entry.stored.roomId).Nodup →
      entries.foldl (fun rooms entry =>
        if entry.stored.lastActivity < wallNow - store.retention then rooms
        else setRoom rooms (entry.toHeld elapsed)) rooms =
      rooms ++ (entries.filter fun entry =>
        wallNow - store.retention ≤ entry.stored.lastActivity).map
          (StoredRoom.toHeld elapsed) := by
    intro entries
    induction entries with
    | nil => simp
    | cons entry entries ih =>
        intro rooms hnodup
        rw [List.foldl_cons, List.filter_cons]
        by_cases hover : entry.stored.lastActivity < wallNow - store.retention
        · rw [if_pos hover, if_neg fun hkept =>
            absurd hover (Int.not_lt.2 (of_decide_eq_true hkept))]
          refine ih rooms (hnodup.sublist ?_)
          exact (List.Sublist.refl _).append (List.sublist_cons_self _ _)
        · have hnew : ¬ (rooms.any fun other =>
              other.room.roomId = (entry.toHeld elapsed).room.roomId) = true := fun hany => by
            obtain ⟨other, hother, hsame⟩ := List.any_eq_true.1 hany
            refine List.disjoint_of_nodup_append hnodup (List.mem_map_of_mem hother) ?_
            rw [of_decide_eq_true hsame]
            exact List.mem_cons_self ..
          rw [if_neg hover, if_pos (decide_eq_true (Int.not_lt.1 hover)), setRoom, if_neg hnew, ih]
          · simp
          · simpa [StoredRoom.toHeld, Stored.room] using hnodup
  exact hfold store.file [] (by simpa using h)

theorem Formed.ordered_loaded {store : Store α} (h : Formed store) (elapsed wallNow : ℤ) :
    ∀ held ∈ store.loaded elapsed wallNow, Ordered held.sessionOrder held.room.blocks := by
  rw [loaded_eq h.file]
  refine List.forall_mem_map.2 fun entry hentry => ?_
  exact h.stored entry (List.mem_filter.1 hentry).1

/-- **Rooms and file stay as they are made.** -/
theorem Formed.step {store store' : Store α} {act : StoreAct α} (h : Formed store)
    (hstep : store.step act = some store') : Formed store' := by
  have hdirty : ∀ {changed : Store α} {dirty : Bool}, Formed changed →
      Formed { changed with dirty := dirty } := fun hchanged =>
    ⟨hchanged.rooms, hchanged.file, hchanged.held, hchanged.stored⟩
  cases act with
  | create roomId publishToken now =>
      obtain rfl := Option.some.inj hstep
      refine ⟨nodup_setRoom h.rooms _, h.file, fun held hheld => ?_, h.stored⟩
      rcases mem_setRoom hheld with hold | rfl
      · exact h.held held hold
      · exact ⟨rfl, List.nodup_nil⟩
  | publish roomId now push =>
      obtain ⟨-, hstore⟩ := Option.ite_none_right_eq_some.1 hstep
      obtain rfl := Option.some.inj hstore
      exact hdirty (h.modify (gentler_publish now push) roomId)
  | endRoom roomId =>
      obtain ⟨-, hstore⟩ := Option.ite_none_right_eq_some.1 hstep
      obtain rfl := Option.some.inj hstore
      exact hdirty (h.modify (gentler_room Room.endRoom (fun _ => rfl) fun _ => rfl) roomId)
  | purgeRoom roomId =>
      obtain ⟨-, hstore⟩ := Option.ite_none_right_eq_some.1 hstep
      obtain rfl := Option.some.inj hstore
      exact ⟨h.rooms.sublist (List.filter_sublist.map _), h.file,
        fun held hheld => h.held held (List.mem_filter.1 hheld).1, h.stored⟩
  | setLocked roomId locked =>
      obtain ⟨-, hstore⟩ := Option.ite_none_right_eq_some.1 hstep
      obtain rfl := Option.some.inj hstore
      exact hdirty (h.modify
        (gentler_room (fun room => room.setLocked locked) (fun _ => rfl) fun _ => rfl) roomId)
  | subscribe roomId connection =>
      obtain ⟨-, hstore⟩ := Option.ite_none_right_eq_some.1 hstep
      obtain rfl := Option.some.inj hstore
      exact h.modify (gentler_subscribe connection) roomId
  | unsubscribe roomId connection =>
      obtain ⟨-, hstore⟩ := Option.ite_none_right_eq_some.1 hstep
      obtain rfl := Option.some.inj hstore
      exact h.modify
        (gentler_room (fun room => room.unsubscribe connection) (fun _ => rfl) fun _ => rfl) roomId
  | sweepIdle now =>
      obtain rfl := Option.some.inj hstep
      exact ⟨h.rooms.sublist (List.filter_sublist.map _), h.file,
        fun held hheld => h.held held (List.mem_filter.1 hheld).1, h.stored⟩
  | flush outcome =>
      obtain rfl := Option.some.inj hstep
      unfold Store.flush
      split
      · split
        · refine ⟨h.rooms, ?_, h.held, List.forall_mem_map.2 fun held hheld => h.held held hheld⟩
          change ((store.rooms.map (HeldRoom.toStored store.elapsed)).map _).Nodup
          rw [List.map_map]
          exact h.rooms
        · exact ⟨h.rooms, h.file, h.held, h.stored⟩
      · exact h
  | restart elapsed wallNow =>
      obtain rfl := Option.some.inj hstep
      refine ⟨?_, h.file, h.ordered_loaded elapsed wallNow, h.stored⟩
      change ((store.loaded elapsed wallNow).map _).Nodup
      rw [loaded_eq h.file, List.map_map]
      exact h.file.sublist (List.filter_sublist.map _)

/-! ### What is kept -/

/-- What is loaded from a file as it is made is as it was. -/
theorem Formed.restored {store : Store α} (h : Formed store) (elapsed wallNow : ℤ) :
    (store.load elapsed wallNow).snapshot =
      store.file.filter fun entry => wallNow - store.retention ≤ entry.stored.lastActivity := by
  change (store.loaded elapsed wallNow).map (HeldRoom.toStored elapsed) = _
  rw [loaded_eq h.file, List.map_map]
  exact List.map_id'' (fun entry => entry.toStored_toHeld elapsed) _

/-- What a store keeps up to date it keeps, if rooms and file are as they are made. -/
theorem Formed.kept {store : Store α} (h : Formed store)
    (described : store.dirty = false → ∀ entry ∈ store.snapshot, entry ∈ store.file)
    (others : store.dirty = false → ∀ entry ∈ store.file,
      entry ∈ store.snapshot ∨ entry.stored.lastActivity < store.cutoff)
    (retried : store.failed = true → store.dirty = true) : Kept store where
  described := described
  others := others
  retried := retried
  restored := h.restored
  subscribed elapsed wallNow held hheld :=
    (h.ordered_loaded elapsed wallNow held hheld).canSubscribe

/-- Where something is marked there is nothing to keep. -/
theorem Formed.kept_of_dirty {store : Store α} (h : Formed store) (hdirty : store.dirty = true) :
    Kept store :=
  h.kept (fun hclean => Bool.noConfusion (hdirty.symm.trans hclean))
    (fun hclean => Bool.noConfusion (hdirty.symm.trans hclean)) fun _ => hdirty

/-- What leaves the snapshot, the file and the marks as they are keeps what is kept. -/
theorem Kept.of_eq {store store' : Store α} (h : Kept store) (hformed : Formed store')
    (hsnapshot : store'.snapshot = store.snapshot) (hfile : store'.file = store.file)
    (hcutoff : store'.cutoff = store.cutoff) (hdirty : store'.dirty = store.dirty)
    (hfailed : store'.failed = store.failed) : Kept store' := by
  refine hformed.kept ?_ ?_ ?_
  · rw [hdirty, hsnapshot, hfile]
    exact h.described
  · rw [hdirty, hsnapshot, hfile, hcutoff]
    exact h.others
  · rw [hdirty, hfailed]
    exact h.retried

/-- What changes nothing of a room that is saved leaves the snapshot. -/
theorem snapshot_modify {store : Store α} {set : HeldRoom α → HeldRoom α} {roomId : String}
    (h : ∀ held ∈ store.rooms, held.room.roomId = roomId →
      (set held).toStored store.elapsed = held.toStored store.elapsed) :
    (store.modify roomId set).snapshot = store.snapshot := by
  unfold Store.modify Store.snapshot Table.update
  rw [List.map_map]
  refine List.map_congr_left fun held hheld => ?_
  by_cases hid : held.room.roomId = roomId
  · simpa [hid] using h held hheld hid
  · simp [hid]

theorem toStored_subscribe (held : HeldRoom α) (connection : ℕ) (elapsed : ℤ) :
    (held.subscribe connection).toStored elapsed = held.toStored elapsed := by
  unfold HeldRoom.subscribe Room.subscribe
  split
  · split <;> rfl
  · rfl

/-- A frame in the moment of the last push leaves what is saved of a room. -/
theorem toStored_frame {held : HeldRoom α} {now : ℤ} (h : held.room.lastActivity = now) (data : α)
    (elapsed : ℤ) : (held.publish now (.frame data)).toStored elapsed = held.toStored elapsed := by
  subst h
  rfl

/-- A frame in another moment is not in the state file. -/
theorem lastActivity_of_frame {store : Store α} (hformed : Formed store) (h : Kept store)
    (hclean : store.dirty = false) {roomId : String} {now : ℤ} {data : α}
    (hframe : ∀ entry ∈ (store.modify roomId fun held =>
      held.publish now (.frame data)).snapshot, entry ∈ store.file)
    {held : HeldRoom α} (hheld : held ∈ store.rooms) (hid : held.room.roomId = roomId) :
    held.room.lastActivity = now := by
  have hbefore : held.toStored store.elapsed ∈ store.file :=
    h.described hclean _ (List.mem_map_of_mem hheld)
  have hafter : (held.publish now (.frame data)).toStored store.elapsed ∈ store.file := by
    refine hframe _ (List.mem_map.2 ⟨held.publish now (.frame data), ?_, rfl⟩)
    exact List.mem_map.2 ⟨held, hheld, by simp [hid]⟩
  have hsame := Table.eq_of_key_eq hformed.file hbefore hafter rfl
  have hactivity := congrArg (fun entry => entry.stored.lastActivity) hsame
  simpa [HeldRoom.toStored, HeldRoom.publish, Room.publish] using hactivity

/-- **A call keeps the state file up to date exactly if it saves.** -/
theorem kept_step_iff {store store' : Store α} {act : StoreAct α} (hformed : Formed store)
    (h : Kept store) (hstep : store.step act = some store') : Kept store' ↔ Saves store act := by
  have hformed' := hformed.step hstep
  cases act with
  | publish roomId now push =>
      obtain ⟨-, hstore⟩ := Option.ite_none_right_eq_some.1 hstep
      obtain rfl := Option.some.inj hstore
      cases push with
      | frame data =>
          constructor
          · intro hkept
            by_cases hdirty : store.dirty = true
            · exact .inl hdirty
            · rw [Bool.not_eq_true] at hdirty
              exact .inr fun held hheld hid =>
                lastActivity_of_frame hformed h hdirty (hkept.described hdirty) hheld hid
          · rintro (hdirty | hmoment)
            · exact hformed'.kept_of_dirty hdirty
            · exact h.of_eq hformed' (snapshot_modify fun held hheld hid =>
                toStored_frame (hmoment held hheld hid) data _) rfl rfl rfl rfl
      | metadata | blocks | segment => exact iff_of_true (hformed'.kept_of_dirty rfl) trivial
  | flush outcome =>
      obtain rfl := Option.some.inj hstep
      by_cases hdirty : store.dirty = true
      · unfold Store.flush at hformed' ⊢
        rw [if_pos hdirty] at hformed' ⊢
        constructor
        · intro hkept _
          cases outcome with
          | succeeds => rfl
          | _ => exact Bool.noConfusion (hkept.retried rfl)
        · intro hsaves
          obtain rfl := hsaves hdirty
          exact hformed'.kept (fun _ entry hentry => hentry) (fun _ entry hentry => .inl hentry)
            fun hfailed => Bool.noConfusion hfailed
      · unfold Store.flush
        rw [if_neg hdirty]
        exact iff_of_true h fun hsaves => absurd hsaves hdirty
  | restart elapsed wallNow =>
      obtain rfl := Option.some.inj hstep
      refine iff_of_true (hformed'.kept (fun _ entry hentry => ?_) (fun _ entry hentry => ?_)
        fun hfailed => Bool.noConfusion hfailed) trivial
      · rw [hformed.restored] at hentry
        exact (List.mem_filter.1 hentry).1
      · rw [hformed.restored, List.mem_filter]
        by_cases hleft : wallNow - store.retention ≤ entry.stored.lastActivity
        · exact .inl ⟨hentry, decide_eq_true hleft⟩
        · exact .inr (Int.not_le.1 hleft)
  | sweepIdle now =>
      obtain rfl := Option.some.inj hstep
      refine iff_of_true ?_ trivial
      by_cases hremoved : (store.rooms.filter fun held =>
          now - store.retention ≤ held.room.lastActivity).length < store.rooms.length
      · refine hformed'.kept_of_dirty ?_
        change (store.dirty || decide _) = true
        rw [decide_eq_true hremoved, Bool.or_true]
      · have hall : (store.rooms.filter fun held =>
            now - store.retention ≤ held.room.lastActivity) = store.rooms :=
          List.filter_sublist.eq_of_length_le (Nat.not_lt.1 hremoved)
        refine h.of_eq hformed' ?_ rfl rfl ?_ rfl
        · change ((store.rooms.filter _).map _) = _
          rw [hall]
          rfl
        · change (store.dirty || decide _) = store.dirty
          rw [decide_eq_false hremoved, Bool.or_false]
  | subscribe roomId connection =>
      obtain ⟨-, hstore⟩ := Option.ite_none_right_eq_some.1 hstep
      obtain rfl := Option.some.inj hstore
      exact iff_of_true (h.of_eq hformed' (snapshot_modify fun held _ _ =>
        toStored_subscribe held connection _) rfl rfl rfl rfl) trivial
  | unsubscribe roomId connection =>
      obtain ⟨-, hstore⟩ := Option.ite_none_right_eq_some.1 hstep
      obtain rfl := Option.some.inj hstore
      exact iff_of_true (h.of_eq hformed' (snapshot_modify fun _ _ _ => rfl) rfl rfl rfl rfl)
        trivial
  | create roomId publishToken now =>
      obtain rfl := Option.some.inj hstep
      exact iff_of_true (hformed'.kept_of_dirty rfl) trivial
  | endRoom roomId | purgeRoom roomId | setLocked roomId locked =>
      obtain ⟨-, hstore⟩ := Option.ite_none_right_eq_some.1 hstep
      obtain rfl := Option.some.inj hstore
      exact iff_of_true (hformed'.kept_of_dirty rfl) trivial

theorem formed_start (retention elapsed : ℤ) :
    Formed (Store.start retention elapsed : Store α) where
  rooms := List.nodup_nil
  file := List.nodup_nil
  held := List.forall_mem_nil _
  stored := List.forall_mem_nil _

theorem kept_start (retention elapsed : ℤ) : Kept (Store.start retention elapsed : Store α) :=
  (formed_start retention elapsed).kept (fun _ => List.forall_mem_nil _)
    (fun _ => List.forall_mem_nil _) fun hfailed => Bool.noConfusion hfailed

/-- **A restart takes nothing away, in every state a run reaches, exactly if every call saves**: no
write of the state file fails, and a frame comes only where something is marked already or in the
moment of the last push. -/
theorem keeps_iff (retention elapsed : ℤ) (acts : List (StoreAct α)) :
    (∀ prefixActs, prefixActs <+: acts → ∀ store,
        run Store.step (Store.start retention elapsed) prefixActs = some store → Kept store) ↔
      Along Store.step Saves (Store.start retention elapsed) acts := by
  have hformed : ∀ {prefixActs : List (StoreAct α)} {store},
      run Store.step (Store.start retention elapsed) prefixActs = some store → Formed store :=
    fun hrun => run_invariant (fun _ _ _ hformed hstep => hformed.step hstep)
      (formed_start retention elapsed) hrun
  rw [← forall_prefix_iff_along (I := fun store : Store α => Formed store ∧ Kept store)
    (fun store act store' h hstep => ?_) (fun store act hnone => ?_)
    ⟨formed_start retention elapsed, kept_start retention elapsed⟩]
  · refine forall₄_congr fun prefixActs _ store hrun => ?_
    exact ⟨fun hkept => ⟨hformed hrun, hkept⟩, And.right⟩
  · rw [and_iff_right (h.1.step hstep)]
    exact kept_step_iff h.1 h.2 hstep
  · cases act with
    | publish roomId now push =>
        cases push with
        | frame data =>
            refine .inr fun held hheld hid => ?_
            have hhas : store.has roomId = true :=
              List.any_eq_true.2 ⟨held, hheld, by simpa using hid⟩
            rw [Store.step, if_pos hhas] at hnone
            cases hnone
        | _ => trivial
    | flush outcome => cases hnone
    | _ => trivial

/-- A write that fails is not tried again, and the room is lost with the process.  A frame keeps a
room for another day, and it is gone after a restart. -/
theorem restart_loses :
    (run Store.step (Store.start 86400 0 : Store ℕ)
        [.create "a" "t" 0, .flush .writeFails]).map (fun store => (store.dirty, store.failed)) =
      some (false, true) ∧
    (run Store.step (Store.start 86400 0 : Store ℕ) [.create "a" "t" 0, .flush .writeFails,
        .flush .succeeds, .restart 0 5]).map (fun store => store.rooms) = some [] ∧
    (run Store.step (Store.start 86400 0 : Store ℕ) [.create "a" "t" 0, .flush .succeeds,
        .publish "a" 80000 (.frame 7), .restart 0 90000]).map (fun store => store.rooms) =
      some [] ∧
    ∃ store, run Store.step (Store.start 86400 0 : Store ℕ)
        [.create "a" "t" 0, .flush .writeFails] = some store ∧ ¬ Kept store := by
  refine ⟨by decide +kernel, by decide +kernel, by decide +kernel, _, rfl, fun hkept => ?_⟩
  exact Bool.noConfusion (hkept.retried rfl)

end Rooms
end ZuTalk
