/-
# Shared rooms and their handles

Each room that was opened needs no handle, or is the live link, or is in the hands of one call,
or is recorded (`Held`).  A call that returns after a failure drops the room it has: harmless
for a link that was not put in its place yet, and for `create_recording_link`, which purges it,
but not for `stop_live_link`, which has taken the link out of its slot.  The registry is read,
changed and written without a lock, and what is renamed to it may be what another call wrote.

So no room is left without a handle along a run whose steps meet `Fit` (`rooms_are_handled`);
a transcript that cannot be read when the link is stopped is enough to leave one
(`stopped_link_is_lost`).
-/

import ZuTalk.Links.Calls

namespace ZuTalk
namespace Links

open Machine

/-! ### What a call holds -/

namespace Call

/-- The room of a link that is about to be recorded. -/
def ofChange : Change → Option LinkRoom
  | .add link => some link.room
  | .remove _ => none

/-- The room in the hands of a call. -/
def room : Call → Option LinkRoom
  | .describing _ link => some link.room
  | .reading _ link => some link.room
  | .placing _ link => some link.room
  | .purging room => some room
  | .draining _ room => some room
  | .describingRecording _ _ room => some room
  | .pushing _ _ room _ => some room
  | .recording _ room => some room
  | .saving _ change => ofChange change
  | .writing _ change _ => ofChange change
  | .installing _ change _ => ofChange change
  | _ => none

/-- The room of a call to which no transcript was posted yet. -/
def unposted : Call → Option LinkRoom
  | .describing _ link => some link.room
  | .reading _ link => some link.room
  | _ => none

theorem room_of_unposted {call : Call} {room : LinkRoom} (h : call.unposted = some room) :
    call.room = some room := by
  cases call with
  | describing | reading => exact h
  | _ => cases h

end Call

namespace World

variable {world world' : World} {act : LinkAct} {thread : ℕ} {call : Call} {room : LinkRoom}

/-- No transcript content was posted to a room, and none is to come. -/
def Blank (world : World) (room : LinkRoom) : Prop :=
  room ∉ world.publishing ∧ ∀ served ∈ world.served room, served.content = false

/-- The room of a link has ended, and is gone from the service when the link expires. -/
def Closed (world : World) (link : StoredLink) : Prop :=
  link.room ∈ world.opened ∧ ∀ served ∈ world.served link.room,
    served.ended = true ∧ served.lastActivity + roomRetentionSeconds ≤ link.expiresAt

/-- The links with the id of another. -/
def sameId (link : StoredLink) (other : StoredLink) : Bool :=
  decide (other.room.roomId = link.room.roomId)

/-- What a call knows of the links it has read and of its change. -/
def KnowsChange (world : World) (loaded : List StoredLink) : Change → Prop
  | .add link => (∀ other ∈ loaded, world.Closed other) ∧ world.Closed link
  | .remove link =>
      (∀ other ∈ loaded, world.Closed other) ∧ loaded.find? (sameId link) = some link ∧
        link.room ∈ world.purges

/-- What a call has found out. -/
def Knows (world : World) : Call → Prop
  | .recording _ room => ∀ served ∈ world.served room, served.ended = true
  | .revoking loaded link =>
      (∀ other ∈ loaded, world.Closed other) ∧ loaded.find? (sameId link) = some link
  | .saving loaded change => world.KnowsChange loaded change
  | .writing loaded change _ => world.KnowsChange loaded change
  | .installing loaded change _ => world.KnowsChange loaded change
  | _ => True

/-- What every run preserves. -/
structure Sound (world : World) : Prop where
  unique : ∀ thread other room, (world.calls thread).room = some room →
    (world.calls other).room = some room → thread = other
  slot : ∀ link ∈ world.slot, link.room ∈ world.opened ∧
    ∀ thread, (world.calls thread).room ≠ some link.room
  owned : ∀ thread room, (world.calls thread).room = some room → room ∈ world.opened
  publishing : ∀ room ∈ world.publishing, room ∈ world.opened
  served : ∀ room, ∀ served ∈ world.served room,
    room ∈ world.opened ∧ served.lastActivity ≤ world.now
  blank : ∀ thread room, (world.calls thread).unposted = some room → world.Blank room
  knows : ∀ thread, world.Knows (world.calls thread)
  registry : ∀ link ∈ world.registry, world.Closed link
  temporary : world.files.Written fun links => ∀ link ∈ links, world.Closed link

theorem sound_start (now : ℕ) : Sound (start now) where
  unique thread other room h := by cases h
  slot link h := by cases h
  owned thread room h := by cases h
  publishing room h := by cases h
  served room served h := by cases h
  blank thread room h := by cases h
  knows thread := trivial
  registry link h := by cases h
  temporary inode links h := by cases h

/-! ### What is never taken back -/

/-- Time passes, rooms are opened, and a room that has ended stays as it is as long as it is
there. -/
structure Mild (world world' : World) : Prop where
  now : world.now ≤ world'.now
  opened : ∀ room ∈ world.opened, room ∈ world'.opened
  purges : ∀ room ∈ world.purges, room ∈ world'.purges
  served : ∀ room ∈ world.opened, ∀ served' ∈ world'.served room, ∃ served ∈ world.served room,
    served.ended = true → served' = served

theorem Mild.closed (h : Mild world world') {link : StoredLink} (hclosed : world.Closed link) :
    world'.Closed link := by
  refine ⟨h.opened _ hclosed.1, fun served' hserved' => ?_⟩
  obtain ⟨served, hserved, hsame⟩ := h.served _ hclosed.1 served' hserved'
  obtain ⟨hended, hexpires⟩ := hclosed.2 served hserved
  rw [hsame hended]
  exact ⟨hended, hexpires⟩

theorem Mild.knowsChange (h : Mild world world') {loaded : List StoredLink} {change : Change}
    (hknows : world.KnowsChange loaded change) : world'.KnowsChange loaded change := by
  have hloaded : (∀ other ∈ loaded, world.Closed other) → ∀ other ∈ loaded, world'.Closed other :=
    fun hall other hother => h.closed (hall other hother)
  cases change with
  | add link => exact ⟨hloaded hknows.1, h.closed hknows.2⟩
  | remove link => exact ⟨hloaded hknows.1, hknows.2.1, h.purges _ hknows.2.2⟩

theorem Mild.knows (h : Mild world world') (hroom : ∀ room, call.room = some room →
    room ∈ world.opened) (hknows : world.Knows call) : world'.Knows call := by
  cases call with
  | recording session room =>
      intro served' hserved'
      obtain ⟨served, hserved, hsame⟩ := h.served room (hroom room rfl) served' hserved'
      rw [hsame (hknows served hserved)]
      exact hknows served hserved
  | revoking loaded link => exact ⟨fun other hother => h.closed (hknows.1 other hother), hknows.2⟩
  | saving | writing | installing => exact h.knowsChange hknows
  | _ => trivial

/-! ### The parts of a step -/

/-- A room that no other thread has, and that is not the live link's. -/
def Loose (world : World) (thread : ℕ) (room : LinkRoom) : Prop :=
  room ∈ world.opened ∧ (∀ other, other ≠ thread → (world.calls other).room ≠ some room) ∧
    ∀ link ∈ world.slot, link.room ≠ room

theorem Sound.loose (h : Sound world) (hroom : (world.calls thread).room = some room) :
    world.Loose thread room := by
  refine ⟨h.owned thread room hroom, fun other hne hother => hne (h.unique _ _ _ hother hroom), ?_⟩
  rintro link hlink rfl
  exact (h.slot link hlink).2 thread hroom

/-- A thread comes to its next step. -/
theorem Sound.goOn (h : Sound world) (hroom : ∀ room, call.room = some room →
    world.Loose thread room) (hblank : ∀ room, call.unposted = some room → world.Blank room)
    (hknows : world.Knows call) : Sound (world.goOn thread call) := by
  have hself : (world.goOn thread call).calls thread = call := Function.update_self _ _ _
  have hother : ∀ other, other ≠ thread →
      (world.goOn thread call).calls other = world.calls other :=
    fun other hne => Function.update_of_ne hne _ _
  refine { h with unique := ?_, slot := ?_, owned := ?_, blank := ?_, knows := ?_ }
  · intro first second room hfirst hsecond
    by_cases h₁ : first = thread
    · by_cases h₂ : second = thread
      · exact h₁.trans h₂.symm
      · rw [h₁, hself] at hfirst
        rw [hother second h₂] at hsecond
        exact absurd hsecond ((hroom room hfirst).2.1 second h₂)
    · rw [hother first h₁] at hfirst
      by_cases h₂ : second = thread
      · rw [h₂, hself] at hsecond
        exact absurd hfirst ((hroom room hsecond).2.1 first h₁)
      · rw [hother second h₂] at hsecond
        exact h.unique first second room hfirst hsecond
  · intro link hlink
    refine ⟨(h.slot link hlink).1, fun other hroomOther => ?_⟩
    by_cases hcase : other = thread
    · rw [hcase, hself] at hroomOther
      exact (hroom _ hroomOther).2.2 link hlink rfl
    · rw [hother other hcase] at hroomOther
      exact (h.slot link hlink).2 other hroomOther
  · intro other room hroomOther
    by_cases hcase : other = thread
    · rw [hcase, hself] at hroomOther
      exact (hroom _ hroomOther).1
    · rw [hother other hcase] at hroomOther
      exact h.owned other room hroomOther
  · intro other room hunposted
    by_cases hcase : other = thread
    · rw [hcase, hself] at hunposted
      exact hblank room hunposted
    · rw [hother other hcase] at hunposted
      exact h.blank other room hunposted
  · intro other
    by_cases hcase : other = thread
    · rw [hcase, hself]
      exact hknows
    · rw [hother other hcase]
      exact h.knows other

/-- A change at the service, with which no thread goes on. -/
theorem Sound.of_mild (h : Sound world) (hmild : Mild world world')
    (hcalls : world'.calls = world.calls) (hslot : world'.slot = world.slot)
    (hfiles : world'.files = world.files)
    (hpublishing : ∀ room ∈ world'.publishing, room ∈ world'.opened)
    (hserved : ∀ room, ∀ served ∈ world'.served room,
      room ∈ world'.opened ∧ served.lastActivity ≤ world'.now)
    (hblank : ∀ thread room, (world.calls thread).unposted = some room → world'.Blank room) :
    Sound world' where
  unique := by
    rw [hcalls]
    exact h.unique
  slot := by
    rw [hcalls, hslot]
    exact fun link hlink => ⟨hmild.opened _ (h.slot link hlink).1, (h.slot link hlink).2⟩
  owned := by
    rw [hcalls]
    exact fun thread room hroom => hmild.opened _ (h.owned thread room hroom)
  publishing := hpublishing
  served := hserved
  blank := by
    rw [hcalls]
    exact hblank
  knows := by
    rw [hcalls]
    exact fun thread => hmild.knows (h.owned thread) (h.knows thread)
  registry := by
    unfold World.registry
    rw [hfiles]
    exact fun link hlink => hmild.closed (h.registry link hlink)
  temporary := by
    rw [hfiles]
    exact fun inode links htemporary hcontents link hlink =>
      hmild.closed (h.temporary inode links htemporary hcontents link hlink)

theorem mild_makeRoom (hnew : room ∉ world.opened) : Mild world (world.makeRoom room) where
  now := Nat.le_refl _
  opened other h := List.mem_cons_of_mem room h
  purges other h := h
  served other hother served' hserved' := by
    have hne : other ≠ room := fun heq => hnew (heq ▸ hother)
    refine ⟨served', ?_, fun _ => rfl⟩
    simpa [makeRoom, Function.update_of_ne hne] using hserved'

theorem Sound.blank_makeRoom (h : Sound world) (hnew : room ∉ world.opened) :
    (world.makeRoom room).Blank room := by
  refine ⟨fun hmem => hnew (h.publishing room hmem), fun served hserved => ?_⟩
  have hsame : some (⟨false, world.now, false⟩ : Served) = some served := by
    simpa [World.makeRoom] using hserved
  exact Option.some.inj hsame ▸ rfl

theorem Sound.makeRoom (h : Sound world) (hnew : room ∉ world.opened) :
    Sound (world.makeRoom room) := by
  refine h.of_mild (mild_makeRoom hnew) rfl rfl rfl ?_ ?_ ?_
  · exact fun other hother => List.mem_cons_of_mem room (h.publishing other hother)
  · intro other served hserved
    by_cases heq : other = room
    · subst heq
      have hmade : some (⟨false, world.now, false⟩ : Served) = some served := by
        simpa [World.makeRoom] using hserved
      obtain rfl := Option.some.inj hmade
      exact ⟨List.mem_cons_self, Nat.le_refl _⟩
    · have hold : served ∈ world.served other := by
        simpa [World.makeRoom, Function.update_of_ne heq] using hserved
      exact ⟨List.mem_cons_of_mem room (h.served other served hold).1,
        (h.served other served hold).2⟩
  · intro thread other hunposted
    have hblank := h.blank thread other hunposted
    have hne : other ≠ room := fun heq =>
      hnew (heq ▸ h.owned thread other (Call.room_of_unposted hunposted))
    refine ⟨hblank.1, fun served hserved => hblank.2 served ?_⟩
    simpa [World.makeRoom, Function.update_of_ne hne] using hserved

theorem mem_store {blocks : Bool} {other : LinkRoom} {served' : Served}
    (h : served' ∈ (world.store room blocks).served other) :
    (other ≠ room ∧ served' ∈ world.served other) ∨
      (other = room ∧ ∃ served ∈ world.served room, served' =
        { served with content := served.content || blocks, lastActivity := world.now }) := by
  by_cases heq : other = room
  · subst heq
    obtain ⟨served, hserved, rfl⟩ : ∃ served, world.served other = some served ∧
        { served with
          content := served.content || blocks, lastActivity := world.now } = served' := by
      simpa [World.store] using h
    exact .inr ⟨rfl, served, hserved, rfl⟩
  · refine .inl ⟨heq, ?_⟩
    simpa [World.store, Function.update_of_ne heq] using h

theorem mild_store {blocks : Bool} (haccepts : world.accepts room = true) :
    Mild world (world.store room blocks) where
  now := Nat.le_refl _
  opened other h := h
  purges other h := h
  served other _ served' hserved' := by
    rcases mem_store hserved' with ⟨-, hold⟩ | ⟨rfl, served, hold, rfl⟩
    · exact ⟨served', hold, fun _ => rfl⟩
    · refine ⟨served, hold, fun hended => ?_⟩
      unfold accepts at haccepts
      rw [Option.mem_def.1 hold] at haccepts
      simp [hended] at haccepts

theorem Sound.store (h : Sound world) {blocks : Bool} (haccepts : world.accepts room = true)
    (hposted : ∀ thread, (world.calls thread).unposted = some room → blocks = false) :
    Sound (world.store room blocks) := by
  refine h.of_mild (mild_store haccepts) rfl rfl rfl h.publishing ?_ ?_
  · intro other served hserved
    rcases mem_store hserved with ⟨-, hold⟩ | ⟨rfl, old, hold, rfl⟩
    · exact h.served other served hold
    · exact ⟨(h.served _ old hold).1, Nat.le_refl _⟩
  · intro thread other hunposted
    have hblank := h.blank thread other hunposted
    refine ⟨hblank.1, fun served hserved => ?_⟩
    rcases mem_store hserved with ⟨-, hold⟩ | ⟨rfl, old, hold, rfl⟩
    · exact hblank.2 served hold
    · rw [hposted thread hunposted, Bool.or_false]
      exact hblank.2 old hold

/-- A change that posts nothing: rooms end or go. -/
theorem Sound.of_fewer (h : Sound world) (hopened : world'.opened = world.opened)
    (hcalls : world'.calls = world.calls) (hslot : world'.slot = world.slot)
    (hfiles : world'.files = world.files)
    (hpublishing : world'.publishing = world.publishing) (hnow : world.now ≤ world'.now)
    (hpurges : ∀ room ∈ world.purges, room ∈ world'.purges)
    (hserved : ∀ room, ∀ served' ∈ world'.served room, ∃ served ∈ world.served room,
      served' = served ∨ served' = { served with ended := true }) : Sound world' := by
  refine h.of_mild ⟨hnow, fun room hroom => hopened ▸ hroom, hpurges, ?_⟩ hcalls hslot hfiles
    ?_ ?_ ?_
  · intro room _ served' hserved'
    obtain ⟨served, hold, rfl | rfl⟩ := hserved room served' hserved'
    · exact ⟨served', hold, fun _ => rfl⟩
    · refine ⟨served, hold, fun hended => ?_⟩
      rw [← hended]
  · rw [hpublishing, hopened]
    exact h.publishing
  · intro room served' hserved'
    rw [hopened]
    obtain ⟨served, hold, rfl | rfl⟩ := hserved room served' hserved'
    · exact ⟨(h.served room _ hold).1, Nat.le_trans (h.served room _ hold).2 hnow⟩
    · exact ⟨(h.served room _ hold).1, Nat.le_trans (h.served room _ hold).2 hnow⟩
  · intro thread room hunposted
    have hblank := h.blank thread room hunposted
    refine ⟨hpublishing ▸ hblank.1, fun served' hserved' => ?_⟩
    obtain ⟨served, hold, rfl | rfl⟩ := hserved room served' hserved'
    · exact hblank.2 _ hold
    · exact hblank.2 served hold

theorem mem_endRoom {other : LinkRoom} {served' : Served}
    (h : served' ∈ (world.endRoom room).served other) :
    ∃ served ∈ world.served other, served' = served ∨ served' = { served with ended := true } := by
  by_cases heq : other = room
  · subst heq
    obtain ⟨served, hserved, rfl⟩ : ∃ served, world.served other = some served ∧
        { served with ended := true } = served' := by
      simpa [World.endRoom] using h
    exact ⟨served, hserved, .inr rfl⟩
  · exact ⟨served', by simpa [World.endRoom, Function.update_of_ne heq] using h, .inl rfl⟩

theorem Sound.endRoom (h : Sound world) (room : LinkRoom) : Sound (world.endRoom room) :=
  h.of_fewer rfl rfl rfl rfl rfl (Nat.le_refl _) (fun _ hmem => hmem) fun _ _ => mem_endRoom

theorem mem_purge {arrived : Bool} {other : LinkRoom} {served : Served}
    (h : served ∈ (world.purge room arrived).served other) : served ∈ world.served other := by
  cases arrived with
  | false => exact h
  | true =>
      by_cases heq : other = room
      · subst heq
        simp [World.purge] at h
      · simpa [World.purge, Function.update_of_ne heq] using h

theorem mild_purge (world : World) (room : LinkRoom) (arrived : Bool) :
    Mild world (world.purge room arrived) :=
  ⟨Nat.le_refl _, fun _ h => h, fun _ h => List.mem_cons_of_mem room h,
    fun _ _ served hserved => ⟨served, mem_purge hserved, fun _ => rfl⟩⟩

theorem Sound.purge (h : Sound world) (room : LinkRoom) (arrived : Bool) :
    Sound (world.purge room arrived) :=
  h.of_fewer rfl rfl rfl rfl rfl (Nat.le_refl _) (fun _ hmem => List.mem_cons_of_mem room hmem)
    fun _ served hserved => ⟨served, mem_purge hserved, .inl rfl⟩

theorem Sound.wait (h : Sound world) (seconds : ℕ) :
    Sound { world with now := world.now + seconds } :=
  h.of_fewer rfl rfl rfl rfl rfl (Nat.le_add_right _ _) (fun _ hmem => hmem)
    fun _ served' hserved' => ⟨served', hserved', .inl rfl⟩

theorem Sound.sweep (h : Sound world) : Sound { world with
    served := fun room => (world.served room).filter fun served =>
      world.now ≤ served.lastActivity + roomRetentionSeconds } :=
  h.of_fewer rfl rfl rfl rfl rfl (Nat.le_refl _) (fun _ hmem => hmem)
    fun _ served' hserved' => ⟨served', (Option.mem_filter_iff.1 hserved').1, .inl rfl⟩

theorem Sound.withFiles (h : Sound world) {files : TemporaryFile (List StoredLink)}
    (hread : ∀ links ∈ files.read, ∀ link ∈ links, world.Closed link)
    (hwritten : files.Written fun links => ∀ link ∈ links, world.Closed link) :
    Sound { world with files := files } := by
  refine { h with registry := fun link hlink => ?_, temporary := hwritten }
  unfold World.registry at hlink
  dsimp only at hlink
  cases hfiles : files.read with
  | none =>
      rw [hfiles] at hlink
      cases hlink
  | some links =>
      rw [hfiles] at hlink
      exact hread links hfiles link hlink

/-- What can be read of the registry was recorded. -/
theorem Sound.closed_read (h : Sound world) :
    ∀ links ∈ world.files.read, ∀ link ∈ links, world.Closed link := by
  intro links hlinks link hlink
  refine h.registry link ?_
  unfold World.registry
  rw [Option.mem_def.1 hlinks]
  exact hlink

theorem Sound.takeSlot (h : Sound world) : Sound { world with slot := none } :=
  { h with slot := fun link hlink => by cases hlink }

theorem Sound.putSlot (h : Sound world) {link : LiveLink} (hopened : link.room ∈ world.opened)
    (hroom : ∀ thread, (world.calls thread).room ≠ some link.room) :
    Sound { world with slot := some link } := by
  refine { h with slot := fun other hother => ?_ }
  obtain rfl := Option.some.inj hother
  exact ⟨hopened, hroom⟩

theorem Sound.addPublishing (h : Sound world) (hopened : room ∈ world.opened)
    (hroom : ∀ thread, (world.calls thread).unposted ≠ some room) :
    Sound { world with publishing := room :: world.publishing } := by
  refine { h with publishing := fun other hother => ?_, blank := fun thread other hother => ?_ }
  · rcases List.mem_cons.1 hother with rfl | hold
    · exact hopened
    · exact h.publishing other hold
  · obtain ⟨hnot, hblank⟩ := h.blank thread other hother
    refine ⟨fun hmem => ?_, hblank⟩
    rcases List.mem_cons.1 hmem with rfl | hold
    · exact hroom thread hother
    · exact hnot hold

/-- A post of a call keeps a world sound if what the call does next does. -/
theorem Sound.postTo (h : Sound world) {blocks stored heard : Bool} {success failure : Call}
    (hstep : world.postTo thread room blocks stored heard success failure = some world')
    (hroom : (world.calls thread).room = some room)
    (hposted : (world.calls thread).unposted = some room → blocks = false)
    (hsuccess : success.room = some room ∧ (success.unposted = some room →
      (world.calls thread).unposted = some room) ∧ ∀ world', Knows world' success)
    (hfailure : (failure.room = none ∨ failure.room = some room) ∧ failure.unposted = none ∧
      ∀ world', Knows world' failure) : Sound world' := by
  unfold World.postTo at hstep
  split at hstep
  · cases hstep
  · rename_i hpossible
    obtain rfl := Option.some.inj hstep
    have hstored : stored = true → world.accepts room = true := by
      simp only [Bool.or_eq_true, Bool.and_eq_true, not_or, not_and] at hpossible
      exact fun hstored => by simpa using hpossible.2 hstored
    have hnext : Sound (if stored then world.store room blocks else world) := by
      split
      · rename_i hyes
        refine h.store (hstored hyes) fun other hother => ?_
        obtain rfl := h.unique _ _ _ (Call.room_of_unposted hother) hroom
        exact hposted hother
      · exact h
    have hcalls : (if stored then world.store room blocks else world).calls thread =
        world.calls thread := by
      split
      · rfl
      · rfl
    have hloose := hnext.loose (hcalls ▸ hroom)
    cases heard with
    | true =>
        refine hnext.goOn (fun other hother => ?_) (fun other hother => ?_) (hsuccess.2.2 _)
        · obtain rfl := Option.some.inj (hsuccess.1.symm.trans hother)
          exact hloose
        · obtain rfl := Option.some.inj
            (hsuccess.1.symm.trans (Call.room_of_unposted hother))
          exact hnext.blank thread _ (hcalls ▸ hsuccess.2.1 hother)
    | false =>
        refine hnext.goOn (fun other hother => ?_) (fun other hother => ?_) (hfailure.2.2 _)
        · rcases hfailure.1 with hnone | hsame
          · exact absurd (hnone.symm.trans hother) (by simp)
          · obtain rfl := Option.some.inj (hsame.symm.trans hother)
            exact hloose
        · exact absurd (hfailure.2.1.symm.trans hother) (by simp)

theorem Sound.closed_load (h : Sound world) (readable : Bool) :
    ∀ link ∈ world.loadLinkRegistry readable, world.Closed link := by
  intro link hlink
  unfold loadLinkRegistry at hlink
  split at hlink
  · exact h.registry link ((List.mem_filter.1 hlink).1)
  · cases hlink

/-- What is written to the registry was read from it, or is the link that is added. -/
theorem closed_apply {loaded : List StoredLink} {change : Change}
    (h : world.KnowsChange loaded change) :
    ∀ link ∈ change.apply loaded, world.Closed link := by
  cases change with
  | add link =>
      intro other hother
      rcases List.mem_append.1 hother with hold | hnew
      · exact h.1 other hold
      · exact List.mem_singleton.1 hnew ▸ h.2
  | remove link => exact fun other hother => h.1 other (List.mem_of_mem_eraseP hother)

theorem Sound.begin (h : Sound world) (request : Request) :
    Sound (world.begin thread request) := by
  have hgo : ∀ call : Call, call.room = none → call.unposted = none → world.Knows call →
      Sound (world.goOn thread call) := fun call hroom hunposted hknows =>
    h.goOn (fun room heq => absurd (hroom.symm.trans heq) (by simp))
      (fun room heq => absurd (hunposted.symm.trans heq) (by simp)) hknows
  cases request with
  | start session keeps =>
      simp only [World.begin]
      split
      · exact h
      · exact hgo _ rfl rfl trivial
  | replace =>
      simp only [World.begin]
      split
      · exact hgo _ rfl rfl trivial
      · exact h
  | stop =>
      simp only [World.begin]
      split
      · rename_i link hslot
        obtain ⟨hopened, hfree⟩ := h.slot link hslot
        have hloose : ({ world with slot := none } : World).Loose thread link.room :=
          ⟨hopened, fun other _ => hfree other, fun other hother => by cases hother⟩
        refine h.takeSlot.goOn (fun room heq => ?_) (fun room heq => ?_) ?_
        · split at heq
          · exact Option.some.inj heq ▸ hloose
          · exact Option.some.inj heq ▸ hloose
        · split at heq
          · cases heq
          · cases heq
        · split
          · trivial
          · trivial
      · exact h
  | create | revoke => exact hgo _ rfl rfl trivial

-- Most acts have a lemma of their own, which opens `step`; the step lemmas put them together.
attribute [local simp] World.step

/-- A thread that has nothing in hand, or keeps its room, goes on. -/
theorem Sound.keep (h : Sound world) (thread : ℕ) (call : Call)
    (hroom : call.room = none ∨ call.room = (world.calls thread).room)
    (hunposted : call.unposted = none) (hknows : world.Knows call) :
    Sound (world.goOn thread call) := by
  refine h.goOn (fun room heq => ?_)
    (fun room heq => absurd (hunposted.symm.trans heq) (by simp)) hknows
  rcases hroom with hnone | hsame
  · exact absurd (hnone.symm.trans heq) (by simp)
  · exact h.loose (hsame ▸ heq)

/-- A new room is in no other hands. -/
theorem Sound.opened (h : Sound world) {heard : Bool}
    (hstep : world.step (.opened thread room heard) = some world') : Sound world' := by
  simp only [World.step] at hstep
  split at hstep
  · cases hstep
  · rename_i hnew
    have hmade := h.makeRoom hnew
    have hloose : (world.makeRoom room).Loose thread room := by
      refine ⟨List.mem_cons_self, fun other _ hother => hnew (h.owned other room hother), ?_⟩
      rintro link hlink rfl
      exact hnew (h.slot link hlink).1
    split at hstep
    · obtain rfl := Option.some.inj hstep
      refine hmade.goOn (fun other heq => ?_) (fun other heq => ?_) ?_
      · split at heq
        · exact Option.some.inj heq ▸ hloose
        · cases heq
      · split at heq
        · exact Option.some.inj heq ▸ h.blank_makeRoom hnew
        · cases heq
      · split
        · trivial
        · trivial
    · obtain rfl := Option.some.inj hstep
      refine hmade.goOn (fun other heq => ?_) (fun other heq => ?_) ?_
      · split at heq
        · exact Option.some.inj heq ▸ hloose
        · cases heq
      · split at heq
        · cases heq
        · cases heq
      · split
        · trivial
        · trivial
    · cases hstep

theorem Sound.post (h : Sound world) {stored heard : Bool}
    (hstep : world.step (.post thread stored heard) = some world') : Sound world' := by
  simp only [World.step] at hstep
  split at hstep
  · rename_i replaces link hcall
    exact h.postTo hstep (by rw [hcall]; rfl) (fun _ => rfl)
      ⟨rfl, fun _ => by rw [hcall]; rfl, fun _ => trivial⟩ ⟨.inl rfl, rfl, fun _ => trivial⟩
  · rename_i session parts room hcall
    exact h.postTo hstep (by rw [hcall]; rfl) (fun _ => rfl)
      ⟨rfl, fun hnone => (by cases hnone), fun _ => trivial⟩
      ⟨.inr rfl, rfl, fun _ => trivial⟩
  · rename_i recording session room left hcall
    refine h.postTo hstep (by rw [hcall]; rfl)
      (fun hnone => by rw [hcall] at hnone; cases hnone)
      ⟨rfl, fun hnone => (by cases hnone), fun _ => trivial⟩ ?_
    cases recording with
    | true => exact ⟨.inr rfl, rfl, fun _ => trivial⟩
    | false => exact ⟨.inl rfl, rfl, fun _ => trivial⟩
  · cases hstep

theorem Sound.read (h : Sound world) {parts : Option ℕ}
    (hstep : world.step (.read thread parts) = some world') : Sound world' := by
  simp only [World.step] at hstep
  split at hstep
  · exact Option.some.inj hstep ▸ h.keep thread .idle (.inl rfl) rfl trivial
  · rename_i replaces link hcall
    refine Option.some.inj hstep ▸ h.keep thread _ (.inr ?_) rfl trivial
    rw [hcall]
    rfl
  · rename_i replaces link parts hcall
    have hroom : (world.calls thread).room = some link.room := by
      rw [hcall]
      rfl
    have hgone : Sound (world.goOn thread (.placing replaces link)) :=
      h.keep thread _ (.inr hroom.symm) rfl trivial
    refine Option.some.inj hstep ▸ hgone.addPublishing (h.owned thread _ hroom) ?_
    intro other hother
    obtain rfl : other = thread :=
      hgone.unique _ _ _ (Call.room_of_unposted hother) (by simp [World.goOn, Call.room])
    simp [World.goOn, Call.unposted] at hother
  · exact Option.some.inj hstep ▸ h.keep thread .idle (.inl rfl) rfl trivial
  · rename_i session room left hcall
    refine Option.some.inj hstep ▸ h.keep thread _ (.inr ?_) rfl trivial
    rw [hcall]
    rfl
  · exact Option.some.inj hstep ▸ h.keep thread _ (.inl rfl) rfl trivial
  · exact Option.some.inj hstep ▸ h.keep thread .idle (.inl rfl) rfl trivial
  · cases hstep

/-- A link that is placed was in the hands of its call. -/
theorem Sound.place (h : Sound world) (hstep : world.step (.place thread) = some world') :
    Sound world' := by
  simp only [World.step] at hstep
  split at hstep
  · rename_i replaces link hcall
    have hroom : (world.calls thread).room = some link.room := by
      rw [hcall]
      rfl
    obtain ⟨hopened, hothers, hslot⟩ := h.loose hroom
    have hgone : ∀ call : Call, call.unposted = none → (∀ w, Knows w call) →
        (∀ room, call.room = some room → ∃ old ∈ world.slot, old.room = room) →
        Sound ({ world.goOn thread call with slot := some link } : World) := by
      intro call hunposted hknows hold
      have htaken : Sound (({ world with slot := none } : World).goOn thread call) := by
        refine h.takeSlot.goOn (fun room heq => ?_)
          (fun room heq => absurd (hunposted.symm.trans heq) (by simp)) (hknows _)
        obtain ⟨old, hmem, rfl⟩ := hold room heq
        exact ⟨(h.slot old hmem).1, fun other _ => (h.slot old hmem).2 other,
          fun other hother => by cases hother⟩
      refine htaken.putSlot hopened fun other hother => ?_
      by_cases hcase : other = thread
      · subst hcase
        obtain ⟨old, hmem, heq⟩ := hold link.room (by simpa [World.goOn] using hother)
        exact hslot old hmem heq
      · exact hothers other hcase (by simpa [World.goOn, hcase] using hother)
    refine Option.some.inj hstep ▸ hgone _ ?_ ?_ ?_
    · split
      · rfl
      · rfl
    · intro w
      split
      · trivial
      · trivial
    · intro room heq
      split at heq
      · rename_i old hold
        exact ⟨old, hold, Option.some.inj heq⟩
      · cases heq
  · cases hstep

theorem Sound.close (h : Sound world) {arrived heard : Bool}
    (hstep : world.step (.close thread arrived heard) = some world') : Sound world' := by
  simp only [World.step] at hstep
  split at hstep
  · cases hstep
  · rename_i hpossible
    split at hstep
    · rename_i room hcall
      refine Option.some.inj hstep ▸ (h.purge room arrived).goOn (fun _ heq => by cases heq)
        (fun _ heq => by cases heq) trivial
    · rename_i recording session room hcall
      obtain rfl := Option.some.inj hstep
      have hroom : (world.calls thread).room = some room := by
        rw [hcall]
        rfl
      have hended : Sound (if arrived then world.endRoom room else world) := by
        split
        · exact h.endRoom room
        · exact h
      have hcalls : (if arrived then world.endRoom room else world).calls = world.calls := by
        split
        · rfl
        · rfl
      have hloose := hended.loose (by rw [hcalls]; exact hroom)
      refine hended.goOn (fun other heq => ?_) (fun other heq => ?_) ?_
      · split at heq
        · exact Option.some.inj heq ▸ hloose
        · split at heq
          · exact Option.some.inj heq ▸ hloose
          · cases heq
      · split at heq
        · cases heq
        · split at heq
          · cases heq
          · cases heq
      · cases heard with
        | true =>
            have harrived : arrived = true := by simpa using hpossible
            subst harrived
            intro served hserved
            obtain ⟨old, -, rfl⟩ : ∃ old, world.served room = some old ∧
                { old with ended := true } = served := by
              simpa [World.endRoom] using hserved
            rfl
        | false =>
            cases recording with
            | true => trivial
            | false => trivial
    · rename_i loaded link hcall
      obtain rfl := Option.some.inj hstep
      have hknows : world.Knows (.revoking loaded link) := hcall ▸ h.knows thread
      refine (h.purge link.room arrived).goOn (fun other heq => ?_) (fun other heq => ?_) ?_
      · split at heq
        · cases heq
        · cases heq
      · split at heq
        · cases heq
        · cases heq
      · cases heard with
        | true =>
            refine ⟨fun other hother => ?_, hknows.2, List.mem_cons_self⟩
            exact (mild_purge world link.room arrived).closed (hknows.1 other hother)
        | false => trivial
    · cases hstep

/-- What a call has loaded was recorded. -/
theorem Sound.load (h : Sound world) {readable : Bool}
    (hstep : world.step (.load thread readable) = some world') : Sound world' := by
  simp only [World.step] at hstep
  split at hstep
  · rename_i session room hcall
    have hroom : (world.calls thread).room = some room := by
      rw [hcall]
      rfl
    have hknows : world.Knows (.recording session room) := hcall ▸ h.knows thread
    refine Option.some.inj hstep ▸ h.keep thread _ (.inr hroom.symm) rfl
      ⟨h.closed_load readable, h.owned thread room hroom, fun served hserved => ?_⟩
    have hactivity := (h.served room served hserved).2
    exact ⟨hknows served hserved, Nat.add_le_add_right hactivity _⟩
  · rename_i roomId hcall
    obtain rfl := Option.some.inj hstep
    split
    · rename_i link hfound
      refine h.keep thread _ (.inl rfl) rfl ⟨h.closed_load readable, ?_⟩
      have hid : link.room.roomId = roomId := by simpa using List.find?_some hfound
      unfold sameId
      rw [hid]
      exact hfound
    · exact h.keep thread .idle (.inl rfl) rfl trivial
  · cases hstep

theorem Sound.openRegistry (h : Sound world) {opened : Bool}
    (hstep : world.step (.openRegistry thread opened) = some world') : Sound world' := by
  simp only [World.step] at hstep
  split at hstep
  · rename_i loaded change hcall
    have hknows : world.Knows (.saving loaded change) := hcall ▸ h.knows thread
    obtain rfl := Option.some.inj hstep
    split
    · have hgone := h.keep thread (.writing loaded change world.files.inode)
        (.inr (by rw [hcall]; rfl)) rfl hknows
      refine hgone.withFiles ?_ TemporaryFile.written_openTemporary
      rw [TemporaryFile.read_openTemporary]
      exact hgone.closed_read
    · exact h.keep thread .idle (.inl rfl) rfl trivial
  · cases hstep

/-- What is written was recorded, or is of a room that was closed. -/
theorem Sound.writeRegistry (h : Sound world) {written covers : Bool}
    (hstep : world.step (.writeRegistry thread written covers) = some world') : Sound world' := by
  simp only [World.step] at hstep
  split at hstep
  · rename_i loaded change inode hcall
    have hknows : world.Knows (.writing loaded change inode) := hcall ▸ h.knows thread
    obtain rfl := Option.some.inj hstep
    split
    · have hgone := h.keep thread (.installing loaded change inode)
        (.inr (by rw [hcall]; rfl)) rfl hknows
      refine hgone.withFiles (fun links hlinks => ?_)
        (hgone.temporary.write (closed_apply hknows))
      rcases TemporaryFile.read_write hlinks with ⟨-, hold⟩ | ⟨-, rfl⟩
      · exact hgone.closed_read links hold
      · exact closed_apply hknows
    · have hgone := h.keep thread .idle (.inl rfl) rfl trivial
      refine hgone.withFiles (fun links hlinks => ?_)
        (hgone.temporary.setContents fun _ hgarbled => by cases hgarbled)
      exact hgone.closed_read links (TemporaryFile.read_spoil hlinks)
  · cases hstep

theorem Sound.renameRegistry (h : Sound world) {renamed : Bool}
    (hstep : world.step (.renameRegistry thread renamed) = some world') : Sound world' := by
  simp only [World.step] at hstep
  split at hstep
  · have hgone := h.keep thread .idle (.inl rfl) rfl trivial
    split at hstep
    · obtain ⟨files, hrename, rfl⟩ := Option.map_eq_some_iff.1 hstep
      refine hgone.withFiles (fun links hlinks => ?_) (TemporaryFile.written_rename hrename)
      exact hgone.temporary.read_rename hrename hlinks
    · exact Option.some.inj hstep ▸ hgone
  · cases hstep

/-- **Every step keeps a world sound.** -/
theorem Sound.step (h : Sound world) (hstep : world.step act = some world') : Sound world' := by
  cases act with
  | call thread request =>
      simp only [World.step] at hstep
      split at hstep
      · exact Option.some.inj hstep ▸ h.begin request
      · cases hstep
  | opened thread room heard => exact h.opened hstep
  | refused thread =>
      simp only [World.step] at hstep
      split at hstep
      · exact Option.some.inj hstep ▸ h.keep thread .idle (.inl rfl) rfl trivial
      · exact Option.some.inj hstep ▸ h.keep thread .idle (.inl rfl) rfl trivial
      · cases hstep
  | post thread stored heard => exact h.post hstep
  | read thread parts => exact h.read hstep
  | place thread => exact h.place hstep
  | close thread arrived heard => exact h.close hstep
  | load thread readable => exact h.load hstep
  | openRegistry thread opened => exact h.openRegistry hstep
  | writeRegistry thread written covers => exact h.writeRegistry hstep
  | renameRegistry thread renamed => exact h.renameRegistry hstep
  | queue =>
      simp only [World.step] at hstep
      obtain ⟨link, hslot, rfl⟩ := Option.map_eq_some_iff.1 hstep
      obtain ⟨hopened, hfree⟩ := h.slot link hslot
      exact h.addPublishing hopened fun thread heq => hfree thread (Call.room_of_unposted heq)
  | publish room =>
      simp only [World.step] at hstep
      split at hstep
      · rename_i hpossible
        simp only [Bool.and_eq_true, List.contains_iff_mem] at hpossible
        refine Option.some.inj hstep ▸ h.store hpossible.2 fun thread hunposted => ?_
        exact absurd hpossible.1 (h.blank thread room hunposted).1
      · cases hstep
  | setKeeps keeps =>
      obtain rfl := Option.some.inj hstep
      refine { h with slot := fun link hlink => ?_ }
      obtain ⟨old, hold, rfl⟩ := Option.map_eq_some_iff.1 hlink
      exact h.slot old hold
  | wait seconds => exact Option.some.inj hstep ▸ h.wait seconds
  | sweep => exact Option.some.inj hstep ▸ h.sweep

/-! ### No room without a handle -/

/-- A room needs no handle, or is the live link's, or a call has it, or it is recorded. -/
def Held (world : World) (room : LinkRoom) : Prop :=
  world.Free room ∨ (∃ link ∈ world.slot, link.room = room) ∨
    (∃ thread, (world.calls thread).room = some room) ∨ ∃ link ∈ world.registry, link.room = room

/-- A room that needs no handle goes on so while nothing is posted to it. -/
theorem Free.mono (h : world.Free room) (hnow : world.now ≤ world'.now)
    (hpurges : ∀ other ∈ world.purges, other ∈ world'.purges)
    (hpublishing : room ∈ world'.publishing → room ∈ world.publishing)
    (hserved : ∀ served' ∈ world'.served room, ∃ served ∈ world.served room,
      served' = served ∨ served' = { served with ended := true }) : world'.Free room := by
  refine h.imp (hpurges room) fun hall served' hserved' => ?_
  obtain ⟨served, hold, hsame⟩ := hserved served' hserved'
  obtain ⟨hmore, hcontent⟩ := hall served hold
  rcases hsame with rfl | rfl
  · exact ⟨hmore.imp_left fun hnot hmem => hnot (hpublishing hmem),
      hcontent.imp_right fun hexpired => Nat.le_trans hexpired hnow⟩
  · exact ⟨.inr rfl, hcontent.imp_right fun hexpired => Nat.le_trans hexpired hnow⟩

theorem Blank.free (h : world.Blank room) : world.Free room :=
  .inr fun served hserved => ⟨.inl h.1, .inl (h.2 served hserved)⟩

/-- A room whose link has expired needs no handle. -/
theorem Closed.free {link : StoredLink} (h : world.Closed link)
    (hexpired : link.expiresAt ≤ world.now) : world.Free link.room :=
  .inr fun served hserved => ⟨.inr (h.2 served hserved).1,
    .inr (Nat.le_trans (h.2 served hserved).2 hexpired)⟩

theorem Spare.free {change : Change} (h : world.Spare change)
    (hroom : Call.ofChange change = some room) : world.Free room := by
  cases change with
  | add link => exact Option.some.inj hroom ▸ h
  | remove link => cases hroom

/-- A thread that comes to its next step keeps the room it has, or that room needs no handle. -/
theorem Held.goOn (h : world.Held room) (hroom : (world.calls thread).room = some room →
    call.room = some room ∨ world.Free room) : (world.goOn thread call).Held room := by
  rcases h with hfree | hslot | ⟨other, hother⟩ | hrecorded
  · exact .inl hfree
  · exact .inr (.inl hslot)
  · by_cases heq : other = thread
    · subst heq
      rcases hroom hother with hkept | hfree
      · exact .inr (.inr (.inl ⟨other, by simpa [World.goOn] using hkept⟩))
      · exact .inl hfree
    · exact .inr (.inr (.inl ⟨other, by simpa [World.goOn, heq] using hother⟩))
  · exact .inr (.inr (.inr hrecorded))

/-- Every room keeps its handle where a thread goes on that had none or keeps the one it had. -/
theorem Held.keeps (h : world.Held room) {before : Call} (hcall : world.calls thread = before)
    (hroom : before.room = none ∨ call.room = before.room) : (world.goOn thread call).Held room :=
  h.goOn fun howned => by
    rw [hcall] at howned
    rcases hroom with hnone | hsame
    · exact absurd (hnone.symm.trans howned) (by simp)
    · exact .inl (hsame.trans howned)

/-- What is done at the service leaves the handles. -/
theorem Held.of_same (h : world.Held room) (hcalls : world'.calls = world.calls)
    (hslot : world'.slot = world.slot) (hregistry : world'.registry = world.registry)
    (hfree : world.Free room → world'.Held room) : world'.Held room := by
  rcases h with h | h | h | h
  · exact hfree h
  · exact .inr (.inl (by rw [hslot]; exact h))
  · exact .inr (.inr (.inl (by rw [hcalls]; exact h)))
  · exact .inr (.inr (.inr (by rw [hregistry]; exact h)))

/-- What is posted by the call that has the room leaves the others alone. -/
theorem Held.store (h : world.Held room) {other : LinkRoom}
    {blocks : Bool} (howned : (world.calls thread).room = some other) :
    (world.store other blocks).Held room := by
  by_cases heq : room = other
  · subst heq
    exact .inr (.inr (.inl ⟨thread, howned⟩))
  · refine h.of_same rfl rfl rfl fun hfree => .inl (hfree.mono (Nat.le_refl _) (fun _ hmem => hmem)
      (fun hmem => hmem) fun served' hserved' => ⟨served', ?_, .inl rfl⟩)
    rcases mem_store hserved' with ⟨-, hold⟩ | ⟨hsame, -⟩
    · exact hold
    · exact absurd hsame heq

theorem Free.endRoom (h : world.Free room) (other : LinkRoom) :
    (world.endRoom other).Free room :=
  h.mono (Nat.le_refl _) (fun _ hmem => hmem) (fun hmem => hmem) fun _ => mem_endRoom

theorem Held.endRoom (h : world.Held room) (other : LinkRoom) :
    (world.endRoom other).Held room :=
  h.of_same rfl rfl rfl fun hfree => .inl (hfree.endRoom other)

theorem Held.purge (h : world.Held room) (other : LinkRoom) (arrived : Bool) :
    (world.purge other arrived).Held room :=
  h.of_same rfl rfl rfl fun hfree => .inl (hfree.mono (Nat.le_refl _)
    (fun _ hmem => List.mem_cons_of_mem other hmem) (fun hmem => hmem)
    fun served' hserved' => ⟨served', mem_purge hserved', .inl rfl⟩)

/-- A post of the call that has the room. -/
theorem Held.postTo (h : world.Held room) {other : LinkRoom}
    {blocks stored heard : Bool} {success failure : Call}
    (hstep : world.postTo thread other blocks stored heard success failure = some world')
    (howned : (world.calls thread).room = some other) (hsuccess : success.room = some other)
    (hfailure : heard = false → failure.room = some other ∨
      Free (if stored then world.store other blocks else world) other) : world'.Held room := by
  unfold World.postTo at hstep
  split at hstep
  · cases hstep
  · obtain rfl := Option.some.inj hstep
    have hheld : (if stored then world.store other blocks else world).Held room := by
      split
      · exact h.store howned
      · exact h
    have hcalls : (if stored then world.store other blocks else world).calls = world.calls := by
      split
      · rfl
      · rfl
    refine hheld.goOn fun hroom => ?_
    rw [hcalls, howned] at hroom
    obtain rfl := Option.some.inj hroom
    cases heard with
    | true => exact .inl hsuccess
    | false => exact hfailure rfl

/-- A post opens no room and leaves the registry. -/
theorem same_postTo {blocks stored heard : Bool} {success failure : Call}
    (hstep : world.postTo thread room blocks stored heard success failure = some world') :
    world'.opened = world.opened ∧ world'.registry = world.registry := by
  unfold World.postTo at hstep
  split at hstep
  · cases hstep
  · obtain rfl := Option.some.inj hstep
    cases stored with
    | true => exact ⟨rfl, rfl⟩
    | false => exact ⟨rfl, rfl⟩

/-- A request opens no room and leaves the registry. -/
theorem same_begin (world : World) (thread : ℕ) (request : Request) :
    (world.begin thread request).opened = world.opened ∧
      (world.begin thread request).registry = world.registry := by
  cases request with
  | start session keeps => simp only [World.begin]; split <;> exact ⟨rfl, rfl⟩
  | replace => simp only [World.begin]; split <;> exact ⟨rfl, rfl⟩
  | stop => simp only [World.begin]; split <;> exact ⟨rfl, rfl⟩
  | create session => exact ⟨rfl, rfl⟩
  | revoke roomId => exact ⟨rfl, rfl⟩

theorem Held.begin (h : world.Held room) (hidle : world.calls thread = .idle)
    (request : Request) : (world.begin thread request).Held room := by
  have hnone : ∀ call : Call, (world.goOn thread call).Held room :=
    fun call => h.keeps hidle (.inl rfl)
  cases request with
  | start session keeps =>
      simp only [World.begin]
      split
      · exact h
      · exact hnone _
  | replace =>
      simp only [World.begin]
      split
      · exact hnone _
      · exact h
  | stop =>
      simp only [World.begin]
      split
      · rename_i link hslot
        rcases hnone (if link.keepsAfterEnd then .draining link.sessionId link.room
          else .purging link.room) with hfree | ⟨other, hother, rfl⟩ | howned | hrecorded
        · exact .inl hfree
        · obtain rfl := Option.some.inj (hslot.symm.trans hother)
          refine .inr (.inr (.inl ⟨thread, ?_⟩))
          show (Function.update world.calls thread _ thread).room = some link.room
          rw [Function.update_self]
          split
          · rfl
          · rfl
        · exact .inr (.inr (.inl howned))
        · exact .inr (.inr (.inr hrecorded))
      · exact h
  | create session => exact hnone _
  | revoke roomId => exact hnone _

/-- What is not removed from a list by the id of another link. -/
theorem mem_eraseP_sameId {loaded : List StoredLink} {link other : StoredLink}
    (hfind : loaded.find? (sameId link) = some link) (hmem : other ∈ loaded) :
    other = link ∨ other ∈ loaded.eraseP (sameId link) := by
  induction loaded with
  | nil => cases hmem
  | cons first rest ih =>
      by_cases hsame : sameId link first = true
      · rw [List.find?_cons_of_pos hsame] at hfind
        rw [List.eraseP_cons_of_pos hsame]
        rcases List.mem_cons.1 hmem with rfl | hrest
        · exact .inl (Option.some.inj hfind)
        · exact .inr hrest
      · rw [List.find?_cons_of_neg hsame] at hfind
        rw [List.eraseP_cons_of_neg hsame]
        rcases List.mem_cons.1 hmem with rfl | hrest
        · exact .inr List.mem_cons_self
        · exact (ih hfind hrest).imp_right (List.mem_cons_of_mem first)

/-- No room is without a handle. -/
def AllHeld (world : World) : Prop := ∀ room ∈ world.opened, world.Held room

/-- A room that is opened needs no handle yet. -/
theorem AllHeld.opened (h : world.AllHeld) {heard : Bool} (hsound : Sound world)
    (hstep : world.step (.opened thread room heard) = some world') : world'.AllHeld := by
  simp only [World.step] at hstep
  split at hstep
  · cases hstep
  · rename_i hnew
    have hmade : ∀ other ∈ (world.makeRoom room).opened,
        (world.makeRoom room).Held other := by
      intro other hother
      rcases List.mem_cons.1 hother with rfl | hold
      · exact .inl (hsound.blank_makeRoom hnew).free
      · refine (h other hold).of_same rfl rfl rfl fun hfree => .inl (hfree.mono
          (Nat.le_refl _) (fun _ hmem => hmem) (fun hmem => hmem) fun served' hserved' =>
            ⟨served', ?_, .inl rfl⟩)
        have hne : other ≠ room := fun heq => hnew (heq ▸ hold)
        simpa [World.makeRoom, Function.update_of_ne hne] using hserved'
    have hgo : ∀ call : Call, (world.calls thread).room = none →
        ∀ other ∈ (world.makeRoom room).opened,
          ((world.makeRoom room).goOn thread call).Held other := by
      exact fun call hnone other hother => (hmade other hother).keeps rfl (.inl hnone)
    split at hstep
    · rename_i replaces session keeps hcall
      exact Option.some.inj hstep ▸ hgo _ (by rw [hcall]; rfl)
    · rename_i session parts hcall
      exact Option.some.inj hstep ▸ hgo _ (by rw [hcall]; rfl)
    · cases hstep

/-- A post that fails gives up only a room that needs no handle. -/
theorem AllHeld.post (h : world.AllHeld) {stored heard : Bool} (hsound : Sound world)
    (hfit : world.Fit (.post thread stored heard))
    (hstep : world.step (.post thread stored heard) = some world') : world'.AllHeld := by
  intro room hroom
  simp only [World.step] at hstep
  split at hstep
  · rename_i replaces link hcall
    rw [(same_postTo hstep).1] at hroom
    refine (h room hroom).postTo hstep (by rw [hcall]; rfl) rfl fun _ => .inr ?_
    have hblank : world.Blank link.room := hsound.blank thread _ (by rw [hcall]; rfl)
    refine Blank.free ⟨?_, fun served hserved => ?_⟩
    · split
      · exact hblank.1
      · exact hblank.1
    · split at hserved
      · rcases mem_store hserved with ⟨-, hold⟩ | ⟨-, old, hold, rfl⟩
        · exact hblank.2 served hold
        · rw [Bool.or_false]
          exact hblank.2 old hold
      · exact hblank.2 served hserved
  · rename_i session parts other hcall
    rw [(same_postTo hstep).1] at hroom
    exact (h room hroom).postTo hstep (by rw [hcall]; rfl) rfl fun _ => .inl rfl
  · rename_i recording session other left hcall
    rw [(same_postTo hstep).1] at hroom
    refine (h room hroom).postTo hstep (by rw [hcall]; rfl) rfl fun hunheard => ?_
    cases recording with
    | true => exact .inl rfl
    | false =>
        simp only [World.Fit, hcall] at hfit
        rcases hfit with hheard | ⟨hunstored, hfree⟩
        · exact absurd (hheard.symm.trans hunheard) (by simp)
        · rw [hunstored]
          exact .inr hfree
  · cases hstep

/-- A transcript that cannot be read gives up only a room that needs no handle. -/
theorem AllHeld.read (h : world.AllHeld) {parts : Option ℕ} (hsound : Sound world)
    (hfit : world.Fit (.read thread parts))
    (hstep : world.step (.read thread parts) = some world') : world'.AllHeld := by
  simp only [World.step] at hstep
  split at hstep
  · rename_i replaces link hcall
    refine Option.some.inj hstep ▸ fun room hroom => (h room hroom).goOn fun howned => ?_
    exact .inr (hsound.blank thread room (by rw [hcall] at howned ⊢; exact howned)).free
  · rename_i replaces link hcall
    exact Option.some.inj hstep ▸ fun room hroom => (h room hroom).keeps hcall (.inr rfl)
  · rename_i replaces link left hcall
    refine Option.some.inj hstep ▸ fun room hroom => ?_
    have hgone : (world.goOn thread (.placing replaces link)).Held room :=
      (h room hroom).keeps hcall (.inr rfl)
    by_cases heq : room = link.room
    · subst heq
      exact .inr (.inr (.inl ⟨thread, by simp [World.goOn, Call.room]⟩))
    · refine hgone.of_same rfl rfl rfl fun hfree => .inl (hfree.mono (Nat.le_refl _)
        (fun _ hmem => hmem) (fun hmem => ?_) fun served hserved => ⟨served, hserved, .inl rfl⟩)
      exact (List.mem_cons.1 hmem).resolve_left heq
  · rename_i session other hcall
    simp only [World.Fit, hcall] at hfit
    refine Option.some.inj hstep ▸ fun room hroom => (h room hroom).goOn fun howned => ?_
    rw [hcall] at howned
    exact .inr (Option.some.inj howned ▸ hfit)
  · rename_i session other left hcall
    exact Option.some.inj hstep ▸ fun room hroom => (h room hroom).keeps hcall (.inr rfl)
  · rename_i session parts hcall
    exact Option.some.inj hstep ▸ fun room hroom => (h room hroom).keeps hcall (.inl rfl)
  · rename_i session hcall hnot
    exact Option.some.inj hstep ▸ fun room hroom => (h room hroom).keeps hcall (.inl rfl)
  · cases hstep

/-- The link that was in the slot is purged, or its room needs no handle. -/
theorem AllHeld.place (h : world.AllHeld) (hfit : world.Fit (.place thread))
    (hstep : world.step (.place thread) = some world') : world'.AllHeld := by
  simp only [World.step] at hstep
  split at hstep
  · rename_i replaces link hcall
    refine Option.some.inj hstep ▸ fun room hroom => ?_
    rcases h room hroom with hfree | ⟨old, hold, rfl⟩ | ⟨other, hother⟩ | hrecorded
    · exact .inl hfree
    · cases replaces with
      | true =>
          refine .inr (.inr (.inl ⟨thread, ?_⟩))
          rw [Option.mem_def.1 hold]
          simp [World.goOn, Call.room]
      | false =>
          simp only [World.Fit, hcall] at hfit
          exact .inl (hfit old hold)
    · by_cases heq : other = thread
      · subst heq
        rw [hcall] at hother
        exact .inr (.inl ⟨link, rfl, Option.some.inj hother⟩)
      · exact .inr (.inr (.inl ⟨other, by simpa [World.goOn, heq] using hother⟩))
    · exact .inr (.inr (.inr hrecorded))
  · cases hstep

/-- A room that is not closed is given up only if it needs no handle. -/
theorem AllHeld.close (h : world.AllHeld) {arrived heard : Bool}
    (hfit : world.Fit (.close thread arrived heard))
    (hstep : world.step (.close thread arrived heard) = some world') : world'.AllHeld := by
  simp only [World.step] at hstep
  split at hstep
  · cases hstep
  · split at hstep
    · rename_i other hcall
      refine Option.some.inj hstep ▸ fun room hroom =>
        ((h room hroom).purge other arrived).goOn fun howned => .inr (.inl ?_)
      rw [show (world.purge other arrived).calls = world.calls from rfl, hcall] at howned
      exact Option.some.inj howned ▸ List.mem_cons_self
    · rename_i recording session other hcall
      have hended : ∀ room, world.Held room →
          (if arrived then world.endRoom other else world).Held room := by
        intro room hheld
        split
        · exact hheld.endRoom other
        · exact hheld
      have hcalls : (if arrived then world.endRoom other else world).calls = world.calls := by
        split
        · rfl
        · rfl
      have hopened : (if arrived then world.endRoom other else world).opened =
          world.opened := by
        split
        · rfl
        · rfl
      refine Option.some.inj hstep ▸ fun room hroom => ?_
      have hold : room ∈ world.opened := by
        rw [← hopened]
        exact hroom
      refine (hended room (h room hold)).goOn fun howned => ?_
      rw [hcalls, hcall] at howned
      obtain rfl := Option.some.inj howned
      cases heard with
      | true => exact .inl rfl
      | false =>
          cases recording with
          | true => exact .inl rfl
          | false =>
              simp only [World.Fit, hcall] at hfit
              have hfree := hfit.resolve_left (by simp)
              refine .inr ?_
              split
              · exact hfree.endRoom _
              · exact hfree
    · rename_i loaded link hcall
      exact Option.some.inj hstep ▸ fun room hroom =>
        ((h room hroom).purge link.room arrived).keeps hcall (.inl rfl)
    · cases hstep

/-- A link is lost with the temporary file only if its room needs no handle. -/
theorem AllHeld.openRegistry (h : world.AllHeld) {opened : Bool}
    (hfit : world.Fit (.openRegistry thread opened))
    (hstep : world.step (.openRegistry thread opened) = some world') : world'.AllHeld := by
  simp only [World.step] at hstep
  split at hstep
  · rename_i loaded change hcall
    simp only [World.Fit, hcall] at hfit
    obtain rfl := Option.some.inj hstep
    cases opened with
    | true =>
        intro room hroom
        have hgone : (world.goOn thread (.writing loaded change world.files.inode)).Held room :=
          (h room hroom).keeps hcall (.inr rfl)
        exact hgone.of_same rfl rfl (congrArg (Option.getD · [])
          TemporaryFile.read_openTemporary) .inl
    | false =>
        intro room hroom
        refine (h room hroom).goOn fun howned => .inr ?_
        rw [hcall] at howned
        exact (hfit.resolve_left (by simp)).free howned
  · cases hstep

/-- What is written leaves the registry as it is. -/
theorem AllHeld.writeRegistry (h : world.AllHeld) {written covers : Bool}
    (hfit : world.Fit (.writeRegistry thread written covers))
    (hstep : world.step (.writeRegistry thread written covers) = some world') : world'.AllHeld := by
  simp only [World.step] at hstep
  split at hstep
  · rename_i loaded change inode hcall
    simp only [World.Fit, hcall] at hfit
    obtain rfl := Option.some.inj hstep
    cases written with
    | true =>
        intro room hroom
        have hgone : (world.goOn thread (.installing loaded change inode)).Held room :=
          (h room hroom).keeps hcall (.inr rfl)
        exact hgone.of_same rfl rfl (congrArg (Option.getD · [])
          (TemporaryFile.read_write_of_ne hfit.1)) .inl
    | false =>
        intro room hroom
        have hgone : (world.goOn thread .idle).Held room :=
          (h room hroom).goOn fun howned => by
            rw [hcall] at howned
            exact .inr ((hfit.2.resolve_left (by simp)).free howned)
        exact hgone.of_same rfl rfl (congrArg (Option.getD · [])
          (TemporaryFile.read_setContents_of_ne hfit.1)) .inl
  · cases hstep

/-- What is renamed to the registry has all its links but the one that is revoked. -/
theorem AllHeld.renameRegistry (h : world.AllHeld) {renamed : Bool} (hsound : Sound world)
    (hfit : world.Fit (.renameRegistry thread renamed))
    (hstep : world.step (.renameRegistry thread renamed) = some world') : world'.AllHeld := by
  simp only [World.step] at hstep
  split at hstep
  · rename_i loaded change inode hcall
    have hknows : world.Knows (.installing loaded change inode) := hcall ▸ hsound.knows thread
    simp only [World.Fit, hcall] at hfit
    split at hstep
    · rename_i hrenamed
      rw [if_pos hrenamed] at hfit
      obtain ⟨htemporary, hcontents, hread⟩ := hfit
      obtain ⟨files, hrename, rfl⟩ := Option.map_eq_some_iff.1 hstep
      have hregistry : registry { world.goOn thread .idle with files := files } =
          change.apply loaded :=
        congrArg (Option.getD · []) (TemporaryFile.read_rename htemporary hcontents hrename)
      have hkeep : ∀ room, (∃ link ∈ world.registry, link.room = room) → world.Free room ∨
          ∃ link ∈ change.apply loaded, link.room = room := by
        rintro _ ⟨link, hlink, rfl⟩
        rcases hread link hlink with hread | hexpired
        · cases change with
          | add other => exact .inr ⟨link, List.mem_append_left _ hread, rfl⟩
          | remove other =>
              rcases mem_eraseP_sameId hknows.2.1 hread with rfl | hstays
              · exact .inl (.inl hknows.2.2)
              · exact .inr ⟨link, hstays, rfl⟩
        · exact .inl ((hsound.registry link hlink).free hexpired)
      intro room hroom
      rcases h room hroom with hfree | hslot | ⟨other, hother⟩ | hrecorded
      · exact .inl hfree
      · exact .inr (.inl hslot)
      · by_cases heq : other = thread
        · subst heq
          rw [hcall] at hother
          cases change with
          | remove link => cases hother
          | add link =>
              obtain rfl := Option.some.inj hother
              refine .inr (.inr (.inr ⟨link, ?_, rfl⟩))
              rw [hregistry]
              exact List.mem_append_right _ List.mem_cons_self
        · exact .inr (.inr (.inl ⟨other, by simpa [World.goOn, heq] using hother⟩))
      · refine (hkeep room hrecorded).imp_right fun hstays => .inr (.inr ?_)
        rw [hregistry]
        exact hstays
    · rename_i hrenamed
      rw [if_neg hrenamed] at hfit
      refine Option.some.inj hstep ▸ fun room hroom => (h room hroom).goOn fun howned => ?_
      rw [hcall] at howned
      exact .inr (hfit.free howned)
  · cases hstep

/-- What the publisher posts goes to a room that has a handle. -/
theorem AllHeld.publish (h : world.AllHeld) {other : LinkRoom}
    (hstep : world.step (.publish other) = some world') : world'.AllHeld := by
  simp only [World.step] at hstep
  split at hstep
  · rename_i hpossible
    simp only [Bool.and_eq_true, List.contains_iff_mem] at hpossible
    refine Option.some.inj hstep ▸ fun room hroom =>
      (h room hroom).of_same rfl rfl rfl fun hfree => .inl ?_
    by_cases heq : room = other
    · subst heq
      -- More is to come to this room, so only a purge makes its handle needless.
      refine hfree.imp_right fun hnone => ?_
      obtain ⟨served, hserved, hopen⟩ := (Option.any_eq_true _ _).1 hpossible.2
      rcases (hnone served hserved).1 with hnot | hended
      · exact absurd hpossible.1 hnot
      · rw [hended] at hopen
        cases hopen
    · refine hfree.mono (Nat.le_refl _) (fun _ hmem => hmem) (fun hmem => hmem)
        fun served hserved => ⟨served, ?_, .inl rfl⟩
      rcases mem_store hserved with ⟨-, hold⟩ | ⟨hsame, -⟩
      · exact hold
      · exact absurd hsame heq
  · cases hstep

/-- **A fit step leaves no room without a handle.** -/
theorem AllHeld.step (h : world.AllHeld) (hsound : Sound world) (hfit : world.Fit act)
    (hstep : world.step act = some world') : world'.AllHeld := by
  cases act with
  | call thread request =>
      simp only [World.step] at hstep
      split at hstep
      · rename_i hidle
        obtain rfl := Option.some.inj hstep
        intro room hroom
        rw [(same_begin world thread request).1] at hroom
        exact (h room hroom).begin hidle request
      · cases hstep
  | opened thread room heard => exact h.opened hsound hstep
  | refused thread =>
      simp only [World.step] at hstep
      split at hstep
      · rename_i hcall
        exact Option.some.inj hstep ▸ fun room hroom => (h room hroom).keeps hcall (.inl rfl)
      · rename_i hcall
        exact Option.some.inj hstep ▸ fun room hroom => (h room hroom).keeps hcall (.inl rfl)
      · cases hstep
  | post thread stored heard => exact h.post hsound hfit hstep
  | read thread parts => exact h.read hsound hfit hstep
  | place thread => exact h.place hfit hstep
  | close thread arrived heard => exact h.close hfit hstep
  | load thread readable =>
      simp only [World.step] at hstep
      split at hstep
      · rename_i session other hcall
        exact Option.some.inj hstep ▸ fun room hroom => (h room hroom).keeps hcall (.inr rfl)
      · rename_i roomId hcall
        exact Option.some.inj hstep ▸ fun room hroom => (h room hroom).keeps hcall (.inl rfl)
      · cases hstep
  | openRegistry thread opened => exact h.openRegistry hfit hstep
  | writeRegistry thread written covers => exact h.writeRegistry hfit hstep
  | renameRegistry thread renamed => exact h.renameRegistry hsound hfit hstep
  | queue =>
      simp only [World.step] at hstep
      obtain ⟨link, hslot, rfl⟩ := Option.map_eq_some_iff.1 hstep
      intro room hroom
      by_cases heq : room = link.room
      · exact .inr (.inl ⟨link, hslot, heq.symm⟩)
      · refine (h room hroom).of_same rfl rfl rfl fun hfree => .inl (hfree.mono (Nat.le_refl _)
          (fun _ hmem => hmem) (fun hmem => ?_) fun served hserved => ⟨served, hserved, .inl rfl⟩)
        exact (List.mem_cons.1 hmem).resolve_left heq
  | publish other => exact h.publish hstep
  | setKeeps keeps =>
      refine Option.some.inj hstep ▸ fun room hroom => ?_
      rcases h room hroom with hfree | ⟨link, hlink, rfl⟩ | howned | hrecorded
      · exact .inl hfree
      · exact .inr (.inl ⟨_, Option.mem_map_of_mem _ hlink, rfl⟩)
      · exact .inr (.inr (.inl howned))
      · exact .inr (.inr (.inr hrecorded))
  | wait seconds =>
      exact Option.some.inj hstep ▸ fun room hroom => (h room hroom).of_same rfl rfl rfl
        fun hfree => .inl (hfree.mono (Nat.le_add_right _ _) (fun _ hmem => hmem)
          (fun hmem => hmem) fun served hserved => ⟨served, hserved, .inl rfl⟩)
  | sweep =>
      exact Option.some.inj hstep ▸ fun room hroom => (h room hroom).of_same rfl rfl rfl
        fun hfree => .inl (hfree.mono (Nat.le_refl _) (fun _ hmem => hmem)
          (fun hmem => hmem) fun served hserved =>
            ⟨served, (Option.mem_filter_iff.1 hserved).1, .inl rfl⟩)

/-- Only a rename changes the registry. -/
theorem registry_step (hfit : world.Fit act) (hstep : world.step act = some world') :
    world'.registry = world.registry ∨
      ∃ thread loaded change inode, act = .renameRegistry thread true ∧
        world.calls thread = .installing loaded change inode ∧
          world'.registry = change.apply loaded := by
  cases act with
  | call thread request =>
      simp only [World.step] at hstep
      split at hstep
      · exact .inl (Option.some.inj hstep ▸ (same_begin world thread request).2)
      · cases hstep
  | post thread stored heard =>
      simp only [World.step] at hstep
      split at hstep
      · exact .inl (same_postTo hstep).2
      · exact .inl (same_postTo hstep).2
      · exact .inl (same_postTo hstep).2
      · cases hstep
  | openRegistry thread opened =>
      simp only [World.step] at hstep
      split at hstep
      · obtain rfl := Option.some.inj hstep
        split
        · exact .inl (congrArg (Option.getD · []) TemporaryFile.read_openTemporary)
        · exact .inl rfl
      · cases hstep
  | writeRegistry thread written covers =>
      simp only [World.step] at hstep
      split at hstep
      · rename_i loaded change inode hcall
        simp only [World.Fit, hcall] at hfit
        obtain rfl := Option.some.inj hstep
        split
        · exact .inl (congrArg (Option.getD · []) (TemporaryFile.read_write_of_ne hfit.1))
        · exact .inl (congrArg (Option.getD · [])
            (TemporaryFile.read_setContents_of_ne hfit.1))
      · cases hstep
  | renameRegistry thread renamed =>
      simp only [World.step] at hstep
      split at hstep
      · rename_i loaded change inode hcall
        simp only [World.Fit, hcall] at hfit
        cases renamed with
        | true =>
            obtain ⟨files, hrename, rfl⟩ := Option.map_eq_some_iff.1 hstep
            exact .inr ⟨thread, loaded, change, inode, rfl, hcall, congrArg (Option.getD · [])
              (TemporaryFile.read_rename hfit.1 hfit.2.1 hrename)⟩
        | false => exact .inl (Option.some.inj hstep ▸ rfl)
      · cases hstep
  | queue =>
      simp only [World.step] at hstep
      obtain ⟨link, -, rfl⟩ := Option.map_eq_some_iff.1 hstep
      exact .inl rfl
  | opened | refused | read | place | close | load | publish =>
      -- what a thread does besides, and what the service does, leaves the file
      simp only [World.step] at hstep
      repeat' split at hstep
      all_goals first
        | exact .inl (Option.some.inj hstep ▸ rfl)
        | cases hstep
  | setKeeps | wait | sweep => exact .inl (Option.some.inj hstep ▸ rfl)

theorem Fit.keepsLinks (hsound : Sound world) (hfit : world.Fit act) : world.KeepsLinks act := by
  intro world' hstep link hlink
  rcases registry_step hfit hstep with
    hsame | ⟨thread, loaded, change, inode, rfl, hcall, hregistry⟩
  · rw [hsame]
    exact .inl hlink
  · have hknows : world.Knows (.installing loaded change inode) := hcall ▸ hsound.knows thread
    simp only [World.Fit, hcall] at hfit
    rcases hfit.2.2 link hlink with hread | hexpired
    · cases change with
      | add other =>
          rw [hregistry]
          exact .inl (List.mem_append_left _ hread)
      | remove other =>
          rcases mem_eraseP_sameId hknows.2.1 hread with rfl | hstays
          · exact .inr (.inr ⟨thread, loaded, inode, rfl, hcall⟩)
          · rw [hregistry]
            exact .inl hstays
    · exact .inr (.inl hexpired)

theorem along_keepsLinks {acts : List LinkAct} (hsound : Sound world)
    (hfit : Along step Fit world acts) : Along step KeepsLinks world acts := by
  induction acts generalizing world with
  | nil => trivial
  | cons act acts ih =>
      exact ⟨hfit.1.keepsLinks hsound, fun next hstep =>
        ih (hsound.step hstep) (hfit.2 next hstep)⟩

/-- **No shared room is left without a handle** along a run whose steps meet `Fit`: when no call
is running, each room that holds content which has not expired is the live link's, or is recorded,
or a purge request was sent for it; and no step removes a link from the registry but the revoked
one and expired ones. -/
theorem rooms_are_handled {now : ℕ} {acts : List LinkAct}
    (hfit : Along step Fit (start now) acts) (hrun : run step (start now) acts = some world) :
    ((∀ thread, world.calls thread = .idle) → ∀ room, world.Handled room) ∧
      Along step KeepsLinks (start now) acts := by
  have hall : Sound world ∧ world.AllHeld :=
    Along.invariant (I := fun world => Sound world ∧ world.AllHeld)
      (fun _ _ _ h hfit hstep => ⟨h.1.step hstep, h.2.step h.1 hfit hstep⟩) hfit
      ⟨sound_start now, fun room hroom => by cases hroom⟩ hrun
  refine ⟨fun hidle room served hserved hcontent hexpired => ?_,
    along_keepsLinks (sound_start now) hfit⟩
  rcases hall.2 room (hall.1.served room served hserved).1 with
    (hpurged | hnone) | hslot | ⟨thread, howned⟩ | hrecorded
  · exact .inr (.inr hpurged)
  · rcases (hnone served hserved).2 with hblank | hover
    · exact absurd (hblank.symm.trans hcontent) (by simp)
    · exact absurd hover hexpired
  · exact .inl hslot
  · rw [hidle thread] at howned
    cases howned
  · exact .inr (.inl hrecorded)

/-! ### A link that is stopped -/

/-- A live link of one part, which is posted. -/
def shareLive : List LinkAct :=
  [.call 0 (.start "s" true), .opened 0 ⟨"r", "t"⟩ true, .post 0 true true, .read 0 (some 1),
    .place 0, .publish ⟨"r", "t"⟩]

/-- The link is stopped, and what was said stays for a day. -/
def keepLive : List LinkAct :=
  [.call 0 .stop, .read 0 (some 1), .post 0 true true, .close 0 true true, .load 0 true,
    .openRegistry 0 true, .writeRegistry 0 true true, .renameRegistry 0 true]

/-- A link that is stopped without a failure is recorded. -/
theorem rooms_are_handled_once : ∃ world,
    run step (start 0) (shareLive ++ keepLive) = some world ∧
      (∃ link ∈ world.registry, link.room = ⟨"r", "t"⟩) ∧ (∀ room, world.Handled room) ∧
        Along step KeepsLinks (start 0) (shareLive ++ keepLive) := by
  have hfit : Along step Fit (start 0) (shareLive ++ keepLive) := by decide +kernel
  have hrun : run step (start 0) (shareLive ++ keepLive) =
      some ((run step (start 0) (shareLive ++ keepLive)).getD (start 0)) := rfl
  obtain ⟨hhandled, hkeeps⟩ := rooms_are_handled hfit hrun
  refine ⟨_, hrun, by decide +kernel, hhandled fun thread => ?_, hkeeps⟩
  rcases thread with _ | thread <;> rfl

/-- A recording is shared while that link is revoked.  The second call writes the temporary file
before the first renames it. -/
def shareRecording : List LinkAct :=
  [.call 0 (.create "s"), .read 0 (some 1), .opened 0 ⟨"q", "u"⟩ true, .post 0 true true,
    .post 0 true true, .close 0 true true, .load 0 true, .openRegistry 0 true,
    .writeRegistry 0 true true, .call 1 (.revoke "r"), .load 1 true, .close 1 true true,
    .openRegistry 1 true, .writeRegistry 1 true true, .renameRegistry 0 true,
    .renameRegistry 1 false]

/-- **A link whose transcript cannot be read when it is stopped is lost**: it is in its slot no
more, and was neither recorded nor purged.  And a link is lost that `create_recording_link` has
recorded, as what it renames is what another call wrote. -/
theorem stopped_link_is_lost :
    (∃ world,
      run step (start 0) (shareLive ++ [.call 0 .stop, .read 0 none]) = some world ∧
        (∀ thread, world.calls thread = .idle) ∧ ¬ world.Handled ⟨"r", "t"⟩) ∧
    ∃ world,
      run step (start 0) (shareLive ++ keepLive ++ shareRecording) = some world ∧
        (∀ thread, world.calls thread = .idle) ∧ ¬ world.Handled ⟨"q", "u"⟩ := by
  constructor
  · refine ⟨_, rfl, fun thread => ?_, fun hhandled => ?_⟩
    · rcases thread with _ | thread <;> rfl
    · rcases hhandled ⟨true, 0, false⟩ rfl rfl (by decide) with ⟨link, hlink, -⟩ |
        ⟨link, hlink, -⟩ | hpurged
      · cases hlink
      · cases hlink
      · cases hpurged
  · refine ⟨_, rfl, fun thread => ?_, fun hhandled => ?_⟩
    · rcases thread with _ | _ | thread <;> rfl
    · rcases hhandled ⟨true, 0, true⟩ rfl rfl (by decide) with ⟨link, hlink, -⟩ |
        ⟨link, hlink, -⟩ | hpurged
      · cases hlink
      · cases hlink
      · exact absurd hpurged (by decide)

end World

end Links
end ZuTalk
