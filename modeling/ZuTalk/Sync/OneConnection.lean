/-
# The same single connection

An open connection that a side came to is the one in its table (`Sound`), so when every close
has been delivered both tables name the one connection that is open.  Inside the window only
a connection that the lower id dialled takes another one's place (`LowerPreferred`).
-/

import ZuTalk.Sync.Connections

namespace ZuTalk
namespace Sync

open Machine

/-- A connection that nobody closed. -/
def World.Open (world : World) (number : ℕ) : Prop :=
  ∃ conn, world.connections[number]? = some conn ∧ conn.closed = none

section Closing

variable {world : World} {side other : Side} {table : Table} {number connection : ℕ}
  {reason : Closed}

@[simp] theorem table_close : (world.close connection reason).table side = world.table side := by
  cases side <;> rfl

@[simp] theorem table_setTable_self : (world.setTable side table).table side = table := by
  cases side <;> rfl

theorem table_setTable_of_ne (h : other ≠ side) :
    (world.setTable side table).table other = world.table other := by
  cases side <;> cases other <;> first | rfl | exact absurd rfl h

@[simp] theorem connections_setTable :
    (world.setTable side table).connections = world.connections := by
  cases side <;> rfl

@[simp] theorem open_setTable : (world.setTable side table).Open number ↔ world.Open number := by
  unfold World.Open
  rw [connections_setTable]

@[simp] theorem length_close :
    (world.close connection reason).connections.length = world.connections.length := by
  simp [World.close]

/-- Closing keeps who dialled, and writes a reason only where there was none. -/
theorem getElem_close {conn' : Connection}
    (h : (world.close connection reason).connections[number]? = some conn') :
    ∃ conn, world.connections[number]? = some conn ∧ conn'.dialedByLower = conn.dialedByLower ∧
      (conn' = conn ∨ number = connection ∧ conn'.closed = conn.closed.or (some reason)) := by
  unfold World.close at h
  rw [List.getElem?_modify] at h
  split at h
  · rename_i heq
    obtain ⟨conn, hconn, rfl⟩ := Option.map_eq_some_iff.1 h
    exact ⟨conn, hconn, rfl, .inr ⟨heq.symm, rfl⟩⟩
  · obtain ⟨conn, hconn, rfl⟩ := Option.map_eq_some_iff.1 h
    exact ⟨conn, hconn, rfl, .inl rfl⟩

/-- A connection is still there, dialled by the same side, when one was closed. -/
theorem exists_getElem_close {conn : Connection} (reason : Closed)
    (h : world.connections[number]? = some conn) :
    ∃ conn', (world.close connection reason).connections[number]? = some conn' ∧
      conn'.dialedByLower = conn.dialedByLower := by
  unfold World.close
  rw [List.getElem?_modify, h]
  split
  · exact ⟨_, rfl, rfl⟩
  · exact ⟨conn, rfl, rfl⟩

/-- What is open after a close was open before, and is not the one that was closed. -/
theorem open_of_close (h : (world.close connection reason).Open number) :
    world.Open number ∧ number ≠ connection := by
  obtain ⟨conn', hconn', hopen⟩ := h
  refine ⟨?_, ?_⟩
  · obtain ⟨conn, hconn, -, rfl | ⟨-, hclosed⟩⟩ := getElem_close hconn'
    · exact ⟨conn', hconn, hopen⟩
    · rw [hclosed, Option.or_eq_none_iff] at hopen
      exact ⟨conn, hconn, hopen.1⟩
  · rintro rfl
    unfold World.close at hconn'
    rw [List.getElem?_modify] at hconn'
    obtain ⟨conn, -, rfl⟩ := Option.map_eq_some_iff.1 hconn'
    rw [if_pos rfl] at hopen
    exact nomatch (Option.or_eq_none_iff.1 hopen).2

end Closing

/-- What one table keeps. -/
structure TableSound (world : World) (table : Table) : Prop where
  linked : ∀ link, table.link = some link → link.connection ∈ table.running
  tried : table.running ⊆ table.tried
  dialed : ∀ number ∈ table.tried, number < world.connections.length
  kept : ∀ number ∈ table.tried, world.Open number → table.link.map Link.connection = some number

/-- What both tables keep. -/
def Sound (world : World) : Prop := ∀ side, TableSound world (world.table side)

/-- A table stays sound while connections are only closed. -/
theorem TableSound.mono {world world' : World} {table : Table} (h : TableSound world table)
    (hlength : world'.connections.length = world.connections.length)
    (hopen : ∀ number, world'.Open number → world.Open number) : TableSound world' table where
  linked := h.linked
  tried := h.tried
  dialed := fun number hnumber => hlength ▸ h.dialed number hnumber
  kept := fun number hnumber hstill => h.kept number hnumber (hopen number hstill)

theorem TableSound.setTable {world : World} {side : Side} {table other : Table}
    (h : TableSound world table) : TableSound (world.setTable side other) table :=
  h.mono (by rw [connections_setTable]) fun _ hopen => open_setTable.1 hopen

/-- A sound world stays sound when one table changes to a sound one. -/
theorem Sound.setTable {world : World} (h : Sound world) {side : Side} {table : Table}
    (htable : TableSound world table) : Sound (world.setTable side table) := by
  intro other
  by_cases heq : other = side
  · subst heq
    rw [table_setTable_self]
    exact htable.setTable
  · rw [table_setTable_of_ne heq]
    exact (h other).setTable

theorem Sound.close {world : World} (h : Sound world) (connection : ℕ) (reason : Closed) :
    Sound (world.close connection reason) := by
  intro side
  rw [table_close]
  exact (h side).mono length_close fun _ hopen => (open_of_close hopen).1

theorem sound_start : Sound World.start := by
  have hnil : TableSound World.start ⟨none, [], []⟩ :=
    ⟨fun _ h => (nomatch h), List.Subset.refl _, fun _ h => (nomatch h), fun _ h => (nomatch h)⟩
  intro side
  cases side with
  | lower => exact hnil
  | higher => exact hnil

theorem Sound.dial {world : World} (h : Sound world) (byLower : Bool) :
    Sound { world with connections := world.connections ++ [⟨byLower, none⟩] } := by
  intro side
  have htable : ({ world with connections := world.connections ++ [⟨byLower, none⟩] } :
      World).table side = world.table side := by cases side <;> rfl
  rw [htable]
  refine ⟨(h side).linked, (h side).tried, fun number hnumber => ?_, fun number hnumber hopen => ?_⟩
  · exact Nat.lt_of_lt_of_le ((h side).dialed number hnumber) (by simp)
  · obtain ⟨conn, hconn, hclosed⟩ := hopen
    rw [List.getElem?_append_left ((h side).dialed number hnumber)] at hconn
    exact (h side).kept number hnumber ⟨conn, hconn, hclosed⟩

/-- A connection takes the place of the one in the table, which is closed. -/
theorem Sound.replace {world : World} (h : Sound world) {side : Side} {connection : ℕ} {now : ℤ}
    (hdialed : connection < world.connections.length)
    (hclosed : ∀ number ∈ (world.table side).tried, ¬ world.Open number) :
    Sound (world.setTable side ⟨some ⟨connection, now⟩, connection :: (world.table side).tried,
      connection :: (world.table side).running⟩) := by
  refine h.setTable ⟨?_, ?_, ?_, ?_⟩
  · rintro link ⟨⟩
    exact List.mem_cons_self ..
  · exact List.cons_subset_cons _ (h side).tried
  · exact List.forall_mem_cons.2 ⟨hdialed, (h side).dialed⟩
  · intro number hnumber hopen
    rcases List.mem_cons.1 hnumber with rfl | hold
    · rfl
    · exact absurd hopen (hclosed number hold)

theorem Sound.runLink {world : World} (h : Sound world) {side : Side} {connection : ℕ}
    {conn : Connection} {now : ℤ} (hconn : world.connections[connection]? = some conn) :
    Sound (world.runLink side connection conn now) := by
  have hlt : connection < world.connections.length := (List.getElem?_eq_some_iff.1 hconn).1
  unfold World.runLink
  dsimp only
  split
  · cases hlink : (world.table side).link with
    | none =>
        refine h.replace hlt fun number hnumber hopen => ?_
        have hkept := (h side).kept number hnumber hopen
        rw [hlink] at hkept
        cases hkept
    | some old =>
        -- the one in the table is closed, so nothing this side came to is open any more
        have hclose := h.close old.connection (.replaced connection)
        have hclosed : ∀ number ∈ (world.table side).tried,
            ¬ (world.close old.connection (.replaced connection)).Open number := by
          intro number hnumber hopen
          obtain ⟨hopen, hne⟩ := open_of_close hopen
          have hkept := (h side).kept number hnumber hopen
          rw [hlink] at hkept
          exact hne (Option.some.inj hkept).symm
        have hdialed : connection <
            (world.close old.connection (.replaced connection)).connections.length := by
          rwa [length_close]
        have htable : (world.close old.connection (.replaced connection)).table side =
            world.table side := table_close
        rw [← htable] at hclosed ⊢
        exact hclose.replace hdialed hclosed
  · have hclose := h.close connection .duplicate
    refine hclose.setTable ⟨(h side).linked, ?_, ?_, ?_⟩
    · exact fun number hnumber => List.mem_cons_of_mem _ ((h side).tried hnumber)
    · rw [length_close]
      exact List.forall_mem_cons.2 ⟨hlt, (h side).dialed⟩
    · intro number hnumber hopen
      obtain ⟨hopen, hne⟩ := open_of_close hopen
      exact (h side).kept number (List.mem_of_ne_of_mem hne hnumber) hopen

theorem Sound.finishLink {world : World} (h : Sound world) {side : Side} {connection : ℕ} :
    Sound (world.finishLink side connection) := by
  unfold World.finishLink
  refine (h.close connection .ended).setTable ⟨?_, ?_, ?_, ?_⟩
  · intro link hlink
    obtain ⟨hlink, hne⟩ := Option.filter_eq_some_iff.1 hlink
    exact (List.mem_erase_of_ne (of_decide_eq_true hne)).2 ((h side).linked link hlink)
  · exact List.Subset.trans List.erase_subset (h side).tried
  · rw [length_close]
    exact (h side).dialed
  · intro number hnumber hopen
    obtain ⟨hopen, hne⟩ := open_of_close hopen
    have hkept := (h side).kept number hnumber hopen
    obtain ⟨link, hlink, rfl⟩ := Option.map_eq_some_iff.1 hkept
    dsimp only
    rw [hlink, Option.filter_some, if_pos (decide_eq_true hne), Option.map_some]

theorem Sound.step {world world' : World} {event : Event} (h : Sound world)
    (hstep : world.step event = some world') : Sound world' := by
  cases event with
  | dial byLower =>
      obtain rfl := Option.some.inj hstep
      exact h.dial byLower
  | register side connection now =>
      unfold World.step at hstep
      dsimp only at hstep
      split at hstep
      · rename_i conn hconn
        split at hstep
        · cases hstep
        · obtain rfl := Option.some.inj hstep
          exact h.runLink hconn
      · cases hstep
  | lost connection =>
      obtain rfl := Option.some.inj hstep
      exact h.close connection .lost
  | finish side connection =>
      unfold World.step at hstep
      dsimp only at hstep
      split at hstep
      · obtain rfl := Option.some.inj hstep
        exact h.finishLink
      · cases hstep

/-- Links were established at registrations. -/
def Dated (events : List Event) (world : World) : Prop :=
  ∀ side link, (world.table side).link = some link → link.established ∈ registrations events

theorem registrations_concat (events : List Event) (event : Event) :
    registrations events ⊆ registrations (events ++ [event]) := by
  unfold registrations
  rw [List.filterMap_append]
  exact List.subset_append_left ..

theorem Prompt.of_concat {events : List Event} {event : Event} (h : Prompt (events ++ [event])) :
    Prompt events := fun now hnow before hbefore =>
  h now (registrations_concat events event hnow) before (registrations_concat events event hbefore)

/-- Links that stay are dated as they were. -/
theorem Dated.concat {events : List Event} {event : Event} {world world' : World}
    (h : Dated events world)
    (hstay : ∀ side link, (world'.table side).link = some link →
      (world.table side).link = some link ∨ link.established ∈ registrations (events ++ [event])) :
    Dated (events ++ [event]) world' := by
  intro side link hlink
  rcases hstay side link hlink with hold | hnew
  · exact registrations_concat events event (h side link hold)
  · exact hnew

theorem Dated.step {events : List Event} {event : Event} {world world' : World}
    (h : Dated events world) (hstep : world.step event = some world') :
    Dated (events ++ [event]) world' := by
  refine h.concat fun other link hlink => ?_
  cases event with
  | dial byLower =>
      obtain rfl := Option.some.inj hstep
      cases other with
      | lower => exact .inl hlink
      | higher => exact .inl hlink
  | register side connection now =>
      unfold World.step at hstep
      dsimp only at hstep
      split at hstep
      · split at hstep
        · cases hstep
        · obtain rfl := Option.some.inj hstep
          unfold World.runLink at hlink
          dsimp only at hlink
          by_cases heq : other = side
          · subst heq
            split at hlink
            · rw [table_setTable_self] at hlink
              cases hlink
              exact .inr (List.mem_filterMap.2 ⟨_, List.mem_append_right _
                (List.mem_singleton_self _), rfl⟩)
            · rw [table_setTable_self] at hlink
              exact .inl hlink
          · left
            split at hlink
            · rw [table_setTable_of_ne heq] at hlink
              split at hlink
              · rwa [table_close] at hlink
              · exact hlink
            · rwa [table_setTable_of_ne heq, table_close] at hlink
      · cases hstep
  | lost connection =>
      obtain rfl := Option.some.inj hstep
      rw [table_close] at hlink
      exact .inl hlink
  | finish side connection =>
      unfold World.step at hstep
      dsimp only at hstep
      split at hstep
      · obtain rfl := Option.some.inj hstep
        unfold World.finishLink at hlink
        by_cases heq : other = side
        · subst heq
          rw [table_setTable_self] at hlink
          exact .inl (Option.filter_eq_some_iff.1 hlink).1
        · rw [table_setTable_of_ne heq, table_close] at hlink
          exact .inl hlink
      · cases hstep

/-- The tie-break is by who dialled, the same at both sides. -/
theorem dialedByMe_beq (side : Side) (conn : Connection) :
    (dialedByMe side conn == decide (side = .lower)) = conn.dialedByLower := by
  cases side <;> cases h : conn.dialedByLower <;> simp [dialedByMe, h]

/-- A registration inside the window decides by who dialled. -/
theorem register_racing {side : Side} {old : Link} {conn : Connection} {now : ℤ}
    (h : now - old.established < raceWindow) :
    register side (some old) conn now = conn.dialedByLower := by
  unfold register
  dsimp only
  rw [dialedByMe_beq, decide_eq_true h, Bool.true_and, Bool.not_not]

/-- A connection that the lower id dialled is closed only because it was lost or ended, or for
another one that the lower id dialled. -/
def LowerPreferred (world : World) : Prop :=
  ∀ number, ∀ conn : Connection, world.connections[number]? = some conn →
    conn.dialedByLower = true →
      conn.closed ≠ some .duplicate ∧ ∀ next, conn.closed = some (.replaced next) →
        next ≠ number ∧ ∃ newer : Connection,
          world.connections[next]? = some newer ∧ newer.dialedByLower = true

theorem lowerPreferred_start : LowerPreferred World.start := fun _ _ h => nomatch h

theorem LowerPreferred.dial {world : World} (h : LowerPreferred world) (byLower : Bool) :
    LowerPreferred { world with connections := world.connections ++ [⟨byLower, none⟩] } := by
  intro number conn hconn hlower
  dsimp only at hconn ⊢
  by_cases hlt : number < world.connections.length
  · rw [List.getElem?_append_left hlt] at hconn
    refine ⟨(h number conn hconn hlower).1, fun next hnext => ?_⟩
    obtain ⟨hne, newer, hnewer, hbylower⟩ := (h number conn hconn hlower).2 next hnext
    refine ⟨hne, newer, ?_, hbylower⟩
    rw [List.getElem?_append_left (List.getElem?_eq_some_iff.1 hnewer).1, hnewer]
  · rw [List.getElem?_append_right (by omega)] at hconn
    obtain rfl := List.mem_singleton.1 (List.mem_of_getElem? hconn)
    exact ⟨fun h => (nomatch h), fun _ h => (nomatch h)⟩

/-- Closing for a reason that does not pass over what the lower id dialled. -/
theorem LowerPreferred.close {world : World} {connection : ℕ} {reason : Closed}
    (h : LowerPreferred world)
    (hreason : ∀ conn : Connection, world.connections[connection]? = some conn →
      conn.dialedByLower = true →
        reason ≠ .duplicate ∧ ∀ next, reason = .replaced next → next ≠ connection ∧
          ∃ newer : Connection, world.connections[next]? = some newer ∧
            newer.dialedByLower = true) :
    LowerPreferred (world.close connection reason) := by
  intro number conn' hconn' hlower
  obtain ⟨conn, hconn, hdialed, hsame⟩ := getElem_close hconn'
  rw [hdialed] at hlower
  -- the reason is the one that stood there, or the new one
  have hold := h number conn hconn hlower
  have hclosed : conn'.closed = conn.closed ∨ number = connection ∧ conn'.closed = some reason := by
    rcases hsame with rfl | ⟨heq, hor⟩
    · exact .inl rfl
    · cases hc : conn.closed with
      | none => exact .inr ⟨heq, by rw [hor, hc, Option.none_or]⟩
      | some other => exact .inl (by rw [hor, hc, Option.some_or])
  rcases hclosed with hclosed | ⟨rfl, hclosed⟩
  · rw [hclosed]
    refine ⟨hold.1, fun next hnext => ?_⟩
    obtain ⟨hne, newer, hnewer, hbylower⟩ := hold.2 next hnext
    obtain ⟨newer', hnewer', hsame⟩ := exists_getElem_close reason hnewer
    exact ⟨hne, newer', hnewer', hsame.trans hbylower⟩
  · obtain ⟨hne, hreplaced⟩ := hreason conn hconn hlower
    rw [hclosed]
    refine ⟨fun heq => hne (Option.some.inj heq), fun next hnext => ?_⟩
    obtain ⟨hnext, newer, hnewer, hbylower⟩ := hreplaced next (Option.some.inj hnext)
    obtain ⟨newer', hnewer', hsame⟩ := exists_getElem_close reason hnewer
    exact ⟨hnext, newer', hnewer', hsame.trans hbylower⟩

theorem LowerPreferred.setTable {world : World} {side : Side} {table : Table}
    (h : LowerPreferred world) : LowerPreferred (world.setTable side table) := by
  unfold LowerPreferred
  rw [connections_setTable]
  exact h

theorem LowerPreferred.runLink {world : World} {side : Side} {connection : ℕ} {conn : Connection}
    {now : ℤ} (h : LowerPreferred world) (hsound : Sound world)
    (hconn : world.connections[connection]? = some conn)
    (hfirst : connection ∉ (world.table side).tried)
    (hracing : ∀ link, (world.table side).link = some link →
      now - link.established < raceWindow) :
    LowerPreferred (world.runLink side connection conn now) := by
  unfold World.runLink
  dsimp only
  cases hlink : (world.table side).link with
  | none => exact h.setTable
  | some old =>
      rw [register_racing (hracing old hlink)]
      cases hlower : conn.dialedByLower with
      | true =>
          refine LowerPreferred.setTable (h.close fun _ _ _ => ?_)
          refine ⟨fun h => (nomatch h), fun next hnext => ?_⟩
          obtain rfl := Closed.replaced.inj hnext
          refine ⟨?_, conn, hconn, hlower⟩
          rintro rfl
          exact hfirst ((hsound side).tried ((hsound side).linked old hlink))
      | false =>
          refine LowerPreferred.setTable (h.close fun other hother hbylower => ?_)
          obtain rfl := Option.some.inj (hother.symm.trans hconn)
          rw [hlower] at hbylower
          cases hbylower

theorem LowerPreferred.step {events : List Event} {event : Event} {world world' : World}
    (h : LowerPreferred world) (hsound : Sound world) (hdated : Dated events world)
    (hprompt : Prompt (events ++ [event])) (hstep : world.step event = some world') :
    LowerPreferred world' := by
  cases event with
  | dial byLower =>
      obtain rfl := Option.some.inj hstep
      exact h.dial byLower
  | register side connection now =>
      unfold World.step at hstep
      dsimp only at hstep
      split at hstep
      · rename_i conn hconn
        split at hstep
        · cases hstep
        · rename_i hfirst
          obtain rfl := Option.some.inj hstep
          refine h.runLink hsound hconn hfirst fun link hlink => ?_
          refine hprompt now ?_ link.established
            (registrations_concat events _ (hdated side link hlink))
          exact List.mem_filterMap.2 ⟨_, List.mem_append_right _ (List.mem_singleton_self _), rfl⟩
      · cases hstep
  | lost connection =>
      obtain rfl := Option.some.inj hstep
      exact h.close fun _ _ _ => ⟨fun h => (nomatch h), fun _ h => (nomatch h)⟩
  | finish side connection =>
      unfold World.step at hstep
      dsimp only at hstep
      split at hstep
      · obtain rfl := Option.some.inj hstep
        unfold World.finishLink
        exact LowerPreferred.setTable
          (h.close fun _ _ _ => ⟨fun h => (nomatch h), fun _ h => (nomatch h)⟩)
      · cases hstep

/-- A link that ended leaves a newer one in the table. -/
theorem finish_keeps_newer {world world' : World} {side : Side} {connection : ℕ} {link : Link}
    (hstep : world.step (.finish side connection) = some world')
    (hlink : (world.table side).link = some link) (hne : link.connection ≠ connection) :
    (world'.table side).link = some link := by
  unfold World.step at hstep
  dsimp only at hstep
  split at hstep
  · obtain rfl := Option.some.inj hstep
    unfold World.finishLink
    rw [table_setTable_self]
    dsimp only
    rw [hlink, Option.filter_some, if_pos (decide_eq_true hne)]
  · cases hstep

/-- In a sound world where every close has been delivered, a side holds a connection exactly
if it is open. -/
theorem Sound.holds_iff {world : World} (h : Sound world) (hsettled : world.Settled) (side : Side)
    (number : ℕ) :
    (world.table side).link.map Link.connection = some number ↔ world.Open number := by
  constructor
  · intro hheld
    obtain ⟨link, hlink, rfl⟩ := Option.map_eq_some_iff.1 hheld
    have hrunning := (h side).linked link hlink
    have hlt := (h side).dialed _ ((h side).tried hrunning)
    exact ⟨_, List.getElem?_eq_getElem hlt,
      hsettled.2 side _ hrunning _ (List.getElem?_eq_getElem hlt)⟩
  · intro hopen
    refine (h side).kept number ?_ hopen
    obtain ⟨conn, hconn, hclosed⟩ := hopen
    obtain ⟨hlower, hhigher⟩ := hsettled.1 number conn hconn hclosed
    cases side with
    | lower => exact hlower
    | higher => exact hhigher

/-- **Two devices keep the same single connection.**  Once every close has been delivered both
hold the same connection or both hold none.  None is held only if no connection is open, and a
connection that the lower id dialled was then lost, ended by itself, or gave its place to another
one that the lower id dialled.  A link that ended never takes a newer one out of the table. -/
theorem same_connection {events : List Event} {world : World}
    (hrun : run World.step World.start events = some world) (hprompt : Prompt events) :
    (world.Settled →
      world.lower.link.map Link.connection = world.higher.link.map Link.connection ∧
      (world.lower.link = none → ∀ conn ∈ world.connections, conn.closed ≠ none)) ∧
    (∀ number, ∀ conn : Connection, world.connections[number]? = some conn →
      conn.dialedByLower = true →
        conn.closed ≠ some .duplicate ∧ ∀ next, conn.closed = some (.replaced next) →
          next ≠ number ∧ ∃ newer : Connection,
            world.connections[next]? = some newer ∧ newer.dialedByLower = true) ∧
    ∀ side connection world' link, world.step (.finish side connection) = some world' →
      (world.table side).link = some link → link.connection ≠ connection →
        (world'.table side).link = some link := by
  have hsound : Sound world :=
    run_invariant (fun world event world' h hstep => Sound.step h hstep) sound_start hrun
  have hpreferred : Dated events world ∧ (Prompt events → LowerPreferred world) := by
    refine (run_induction (P := fun events world => Sound world ∧ Dated events world ∧
      (Prompt events → LowerPreferred world)) ⟨sound_start, ?_, fun _ => lowerPreferred_start⟩ ?_
      hrun).2
    · intro side link hlink
      cases side with
      | lower => cases hlink
      | higher => cases hlink
    · rintro events world event world' - ⟨hsound, hdated, hpreferred⟩ hstep
      exact ⟨hsound.step hstep, hdated.step hstep, fun hprompt =>
        (hpreferred hprompt.of_concat).step hsound hdated hprompt hstep⟩
  refine ⟨fun hsettled => ⟨?_, fun hnone conn hconn hopen => ?_⟩, hpreferred.2 hprompt,
    fun _ _ _ _ hstep hlink hne => finish_keeps_newer hstep hlink hne⟩
  · exact Option.ext fun number => (hsound.holds_iff hsettled .lower number).trans
      (hsound.holds_iff hsettled .higher number).symm
  · obtain ⟨number, hnumber⟩ := List.mem_iff_getElem?.1 hconn
    have hheld := (hsound.holds_iff hsettled .lower number).2 ⟨conn, hnumber, hopen⟩
    have hnone : (world.table .lower).link = none := hnone
    rw [hnone] at hheld
    cases hheld

/-- Both dial at once, and each registers its own connection first. -/
def crossedDials : List Event :=
  [.dial false, .dial true, .register .higher 0 0, .register .lower 1 10, .register .lower 0 20,
    .register .higher 1 30, .finish .higher 0]

/-- They keep the one that the lower id dialled. -/
theorem same_connection_crossedDials :
    ∃ world, run World.step World.start crossedDials = some world ∧
      world.lower.link = some ⟨1, 10⟩ ∧
      world.lower.link.map Link.connection = world.higher.link.map Link.connection := by
  have hprompt : Prompt crossedDials := by
    unfold Prompt
    decide
  refine ⟨_, rfl, rfl, ((same_connection rfl hprompt).1 ⟨?_, ?_⟩).1⟩
  · intro number conn hconn hopen
    match number with
    | 0 =>
        obtain rfl := Option.some.inj hconn
        cases hopen
    | 1 => decide
    | number + 2 => cases hconn
  · intro side number hnumber conn hconn
    have heq : number = 1 := by
      cases side with
      | lower | higher => exact List.mem_singleton.1 hnumber
    subst heq
    obtain rfl := Option.some.inj hconn
    rfl

end Sync
end ZuTalk
