/-
# Streams within the reservation

Sessions only grow (`Grown`), whatever the store does (`Evolves`).  So the bound a cap was
reckoned for still holds when its keys are handed out in time, and where no more keys can be
in use than there are lanes, the streams on them add up to no more than was reserved.
-/

import Mathlib.Algebra.Order.Ring.Int
import Mathlib.Tactic.Ring
import ZuTalk.Invite.Streams

namespace ZuTalk
namespace Invite

open Machine

/-- The same session, with no less reserved. -/
def Grown (session session' : SessionRow) : Prop :=
  session'.id = session.id ∧ session'.createdAt = session.createdAt ∧
    session'.laneCount = session.laneCount ∧ session.reservedSeconds ≤ session'.reservedSeconds

theorem Grown.refl (session : SessionRow) : Grown session session := ⟨rfl, rfl, rfl, le_refl _⟩

theorem Grown.trans {session session' session'' : SessionRow} (h : Grown session session')
    (h' : Grown session' session'') : Grown session session'' :=
  ⟨h'.1.trans h.1, h'.2.1.trans h.2.1, h'.2.2.1.trans h.2.2.1, h.2.2.2.trans h'.2.2.2⟩

/-- A session that is made at a moment. -/
def Fresh (now : ℤ) (store : Store) (session : SessionRow) : Prop :=
  session.createdAt = now ∧ 1 ≤ session.laneCount ∧ session.laneCount ≤ maxLanesPerSession ∧
    ∀ old ∈ store.sessions, old.id ≠ session.id

/-- Sessions stay and grow, and new ones are made. -/
structure Evolves (now : ℤ) (store store' : Store) : Prop where
  grows : ∀ session ∈ store.sessions, ∃ session' ∈ store'.sessions, Grown session session'
  origin : ∀ session' ∈ store'.sessions,
    (∃ session ∈ store.sessions, Grown session session') ∨ Fresh now store session'

section Evolves

variable {now : ℤ} {store store' store'' : Store}

theorem Evolves.of_sessions_eq (h : store'.sessions = store.sessions) :
    Evolves now store store' where
  grows := fun session hsession => ⟨session, h ▸ hsession, Grown.refl session⟩
  origin := fun session hsession => .inl ⟨session, h ▸ hsession, Grown.refl session⟩

theorem Evolves.refl (store : Store) : Evolves now store store := .of_sessions_eq rfl

theorem Evolves.trans (h : Evolves now store store') (h' : Evolves now store' store'') :
    Evolves now store store'' where
  grows := by
    intro session hsession
    obtain ⟨session', hsession', hgrown⟩ := h.grows session hsession
    obtain ⟨session'', hsession'', hgrown'⟩ := h'.grows session' hsession'
    exact ⟨session'', hsession'', hgrown.trans hgrown'⟩
  origin := by
    intro session'' hsession''
    rcases h'.origin session'' hsession'' with ⟨session', hsession', hgrown'⟩ | hfresh
    · rcases h.origin session' hsession' with ⟨session, hsession, hgrown⟩ | hfresh
      · exact .inl ⟨session, hsession, hgrown.trans hgrown'⟩
      · obtain ⟨hcreated, hpos, hle, hnew⟩ := hfresh
        obtain ⟨hid, hsame, hlanes, -⟩ := hgrown'
        exact .inr ⟨hsame.trans hcreated, hlanes ▸ hpos, hlanes ▸ hle,
          fun old hold => hid ▸ hnew old hold⟩
    · obtain ⟨hcreated, hpos, hle, hnew⟩ := hfresh
      refine .inr ⟨hcreated, hpos, hle, fun old hold => ?_⟩
      obtain ⟨old', hold', hgrown⟩ := h.grows old hold
      exact hgrown.1 ▸ hnew old' hold'

/-- A session is changed, and its invitation. -/
theorem Evolves.update {sessionId : String} {inviteId : ℕ} {setSession : SessionRow → SessionRow}
    {setInvite : InviteRow → InviteRow} (hgrown : ∀ session, Grown session (setSession session)) :
    Evolves now store
      ((store.updateSession sessionId setSession).updateInvite inviteId setInvite) where
  grows := by
    intro session hsession
    refine ⟨_, List.mem_map_of_mem hsession, ?_⟩
    split
    · exact hgrown session
    · exact Grown.refl session
  origin := by
    intro session' hsession'
    obtain ⟨session, hsession, ⟨-, rfl⟩ | ⟨-, rfl⟩⟩ := Table.mem_update hsession'
    · exact .inl ⟨session, hsession, hgrown session⟩
    · exact .inl ⟨session', hsession, Grown.refl session'⟩

theorem evolves_settleSession (store : Store) (inviteId : ℕ) (sessionId : String)
    (usedSeconds settledAt : ℤ) :
    Evolves now store (store.settleSession inviteId sessionId usedSeconds settledAt).2 := by
  unfold Store.settleSession
  cases store.openSession inviteId sessionId with
  | none => exact Evolves.refl store
  | some session => exact Evolves.update fun row => ⟨rfl, rfl, rfl, le_refl _⟩

theorem evolves_expireStaleReservations (store : Store) (moment : ℤ) :
    Evolves now store (store.expireStaleReservations moment) := by
  unfold Store.expireStaleReservations
  dsimp only
  generalize (store.sessions.filter _) = stale
  induction stale generalizing store with
  | nil => exact Evolves.refl store
  | cons session rest ih =>
      refine Evolves.trans ?_ (ih _)
      exact Evolves.update fun row => ⟨rfl, rfl, rfl, le_refl _⟩

theorem evolves_reserveSession (store : Store) (inviteId : ℕ) (requestedSeconds laneCount : ℤ)
    (sessionId : String) :
    Evolves now store
      (store.reserveSession inviteId requestedSeconds laneCount sessionId now).2 := by
  unfold Store.reserveSession
  dsimp only
  cases store.invites.find? fun invite => invite.id = inviteId && invite.enabled with
  | none => exact Evolves.refl store
  | some invite =>
      dsimp only
      split
      · exact Evolves.refl store
      split
      · exact Evolves.refl store
      · rename_i hnew
        refine ⟨fun session hsession => ⟨session, List.mem_append_left _ hsession,
          Grown.refl session⟩, fun session' hsession' => ?_⟩
        rcases List.mem_append.1 hsession' with hold | hadded
        · exact .inl ⟨session', hold, Grown.refl session'⟩
        · rw [List.mem_singleton.1 hadded]
          refine .inr ⟨rfl, le_max_left _ _, max_le (by decide) (min_le_right _ _), ?_⟩
          intro old hold heq
          exact hnew (List.any_eq_true.2 ⟨old, hold, decide_eq_true heq⟩)

theorem evolves_extendSessionWindow (store : Store) (inviteId : ℕ) (sessionId : String)
    (moment : ℤ) : Evolves now store (store.extendSessionWindow inviteId sessionId moment).2 := by
  unfold Store.extendSessionWindow
  cases store.openSession inviteId sessionId with
  | none => exact Evolves.refl store
  | some session =>
      dsimp only
      split
      · cases store.invite inviteId with
        | none => exact Evolves.refl store
        | some invite =>
            dsimp only
            split
            · rename_i hadded
              exact Evolves.update fun row => ⟨rfl, rfl, rfl, by dsimp only; omega⟩
            · exact Evolves.refl store
      · exact Evolves.refl store

theorem evolves_keyless (store : Store) {transaction : Transaction}
    (h : transaction.keyless = true) : Evolves now store (store.after transaction) := by
  cases transaction with
  | createInvite codeHash gives =>
      refine Evolves.of_sessions_eq ?_
      show (store.createInvite codeHash _).sessions = _
      unfold Store.createInvite
      split
      · rfl
      · rfl
  | redeem codeHash tokenHash =>
      refine Evolves.of_sessions_eq ?_
      show (store.redeem codeHash tokenHash).2.sessions = _
      unfold Store.redeem
      split
      · rfl
      · split
        · rfl
        · rfl
  | expireStaleReservations moment => exact evolves_expireStaleReservations store moment
  | adjustInviteQuota inviteId deltaSeconds =>
      refine Evolves.of_sessions_eq ?_
      show (store.adjustInviteQuota inviteId deltaSeconds).2.sessions = _
      unfold Store.adjustInviteQuota
      split
      · rfl
      · dsimp only
        split
        · rfl
        · rfl
  | setInviteEnabled inviteId enabled => exact Evolves.of_sessions_eq rfl
  | settleSession inviteId sessionId usedSeconds moment =>
      exact evolves_settleSession store inviteId sessionId usedSeconds moment
  | reserveSession _ _ _ _ _ => cases h
  | reserveSessionKeys _ _ _ _ => cases h
  | extendSessionWindow _ _ _ => cases h
  | releaseSessionKeys _ _ => cases h

theorem evolves_giveUp (store : Store) (mint : Mint) (moment : ℤ) :
    Evolves now store (Server.giveUp store mint moment) := by
  unfold Server.giveUp
  split
  · exact evolves_settleSession store _ _ _ _
  · exact Evolves.refl store

end Evolves

/-! ### The service -/

/-- The store has the session, with no less reserved. -/
def Known (store : Store) (session : SessionRow) : Prop :=
  ∃ row ∈ store.sessions, Grown session row

theorem Known.evolves {now : ℤ} {store store' : Store} {session : SessionRow}
    (h : Known store session) (hevolves : Evolves now store store') : Known store' session := by
  obtain ⟨row, hrow, hgrown⟩ := h
  obtain ⟨row', hrow', hgrown'⟩ := hevolves.grows row hrow
  exact ⟨row', hrow', hgrown.trans hgrown'⟩

/-- How the cap of a request follows from its session. -/
structure Reckoned (mint : Mint) : Prop where
  lanes : 1 ≤ mint.session.laneCount
  opening : mint.opening = true → mint.session.laneCount ≤ mint.session.reservedSeconds →
    mint.cap = mint.session.reservedSeconds / mint.session.laneCount
  later : mint.opening = false →
    mint.cap = min sonioxMaxSessionDurationSeconds
      (mint.session.reservedSeconds / mint.session.laneCount -
        Store.elapsedSeconds mint.session.createdAt mint.reckonedAt)
  cap : 0 < mint.cap
  count : 1 ≤ mint.count

/-- A key that was handed out in time. -/
structure Covered (store : Store) (clock : ℤ) (key : StreamKey) : Prop where
  single : key.singleUse = true
  cap : 0 < key.cap
  known : Known store key.session
  created : key.session.createdAt ≤ key.handedAt
  handed : key.handedAt ≤ clock
  lanes : 1 ≤ key.session.laneCount
  covers : key.session.laneCount *
      (key.handedAt + key.cap * microseconds - key.session.createdAt) ≤
    key.session.reservedSeconds * microseconds

/-- The service, all of whose keys were handed out in time. -/
structure Sound (server : Server) : Prop where
  balanced : Balanced server.store
  lanes : ∀ session ∈ server.store.sessions,
    1 ≤ session.laneCount ∧ session.laneCount ≤ maxLanesPerSession
  created : ∀ session ∈ server.store.sessions, session.createdAt ≤ server.clock
  minting : ∀ mint ∈ server.minting, Reckoned mint ∧ Known server.store mint.session
  numbers : server.issued.map StreamKey.number = List.range server.issued.length
  issued : ∀ key ∈ server.issued, Covered server.store server.clock key
  overlap : ∀ session ∈ server.store.sessions, ∀ moment,
    (server.inUse session.id moment : ℤ) ≤ session.laneCount

section Service

variable {server : Server}

theorem Sound.start (clock : ℤ) : Sound (Server.start clock) where
  balanced := Balanced.empty
  lanes := by intro _ h; cases h
  created := by intro _ h; cases h
  minting := by intro _ h; cases h
  numbers := rfl
  issued := by intro _ h; cases h
  overlap := by intro _ h; cases h

/-- Time passes. -/
theorem Sound.tick (h : Sound server) {now : ℤ} (hnow : server.clock ≤ now) :
    Sound { server with clock := now } :=
  { h with
    created := fun session hsession => (h.created session hsession).trans hnow
    issued := fun key hkey =>
      { h.issued key hkey with handed := (h.issued key hkey).handed.trans hnow } }

/-- **The store may evolve** under the keys. -/
theorem Sound.withStore (h : Sound server) {store : Store}
    (hevolves : Evolves server.clock server.store store) (hbalanced : Balanced store) :
    Sound { server with store := store } where
  balanced := hbalanced
  lanes := by
    intro session' hsession'
    rcases hevolves.origin session' hsession' with ⟨session, hsession, hgrown⟩ | hfresh
    · exact hgrown.2.2.1 ▸ h.lanes session hsession
    · exact ⟨hfresh.2.1, hfresh.2.2.1⟩
  created := by
    intro session' hsession'
    rcases hevolves.origin session' hsession' with ⟨session, hsession, hgrown⟩ | hfresh
    · exact hgrown.2.1 ▸ h.created session hsession
    · exact hfresh.1.le
  minting := fun mint hmint =>
    ⟨(h.minting mint hmint).1, (h.minting mint hmint).2.evolves hevolves⟩
  numbers := h.numbers
  issued := fun key hkey =>
    { h.issued key hkey with known := (h.issued key hkey).known.evolves hevolves }
  overlap := by
    intro session' hsession' moment
    rcases hevolves.origin session' hsession' with ⟨session, hsession, hgrown⟩ | hfresh
    · rw [hgrown.1, hgrown.2.2.1]
      exact h.overlap session hsession moment
    · have hnone : server.inUse session'.id moment = 0 := by
        refine List.countP_eq_zero.2 fun key hkey hused => ?_
        obtain ⟨row, hrow, hgrown⟩ := (h.issued key hkey).known
        obtain ⟨hid, -⟩ := Bool.and_eq_true_iff.1 hused
        exact hfresh.2.2.2 row hrow (hgrown.1.trans (of_decide_eq_true hid))
      show (server.inUse session'.id moment : ℤ) ≤ _
      rw [hnone]
      exact (by omega : (0 : ℤ) ≤ 1).trans hfresh.2.1

/-- Requests come and go. -/
theorem Sound.withMinting (h : Sound server) {minting : List Mint}
    (hminting : ∀ mint ∈ minting, Reckoned mint ∧ Known server.store mint.session) :
    Sound { server with minting := minting } := { h with minting := hminting }

theorem Sound.eraseIdx (h : Sound server) (index : ℕ) :
    ∀ mint ∈ server.minting.eraseIdx index, Reckoned mint ∧ Known server.store mint.session :=
  fun mint hmint => h.minting mint (List.mem_of_mem_eraseIdx hmint)

end Service

/-! ### Requests -/

section Requests

variable {server : Server}

theorem lanesOf_eq {laneCount : ℤ} (hpos : 1 ≤ laneCount) (hle : laneCount ≤ maxLanesPerSession) :
    lanesOf laneCount = laneCount := by
  unfold lanesOf
  rw [if_neg (by omega)]
  omega

/-- What a reservation is. -/
theorem reserveSession_some {store store' : Store} {inviteId : ℕ}
    {requestedSeconds laneCount : ℤ} {sessionId : String} {now : ℤ} {session : SessionRow}
    (h : store.reserveSession inviteId requestedSeconds laneCount sessionId now =
      (some session, store')) :
    session ∈ store'.sessions ∧ 1 ≤ session.laneCount ∧
      session.laneCount ≤ maxLanesPerSession := by
  unfold Store.reserveSession at h
  dsimp only at h
  split at h
  · cases h
  split at h
  · cases h
  split at h
  · cases h
  · obtain ⟨hsession, rfl⟩ := Prod.mk.inj h
    obtain rfl := Option.some.inj hsession
    refine ⟨List.mem_append_right _ (List.mem_singleton_self _), le_max_left _ _, ?_⟩
    exact max_le (by decide) (min_le_right _ _)

theorem Sound.realtimeSession (h : Sound server) (inviteId : ℕ) (requestedSeconds laneCount : ℤ)
    (sessionId : String) (initialBatch : Bool) :
    Sound (server.realtimeSession inviteId requestedSeconds laneCount sessionId initialBatch
      server.clock) := by
  have hevolves : Evolves server.clock server.store _ := evolves_reserveSession server.store
    inviteId requestedSeconds (max 1 (min laneCount maxLanesPerSession)) sessionId
  have hbalanced := (balanced_reserveSession h.balanced inviteId requestedSeconds
    (max 1 (min laneCount maxLanesPerSession)) sessionId server.clock).1
  unfold Server.realtimeSession
  dsimp only
  split
  · rename_i store heq
    rw [heq] at hevolves hbalanced
    exact h.withStore hevolves hbalanced
  · rename_i session store heq
    rw [heq] at hevolves hbalanced
    obtain ⟨hmem, hpos, hle⟩ := reserveSession_some heq
    have hsound := h.withStore hevolves hbalanced
    refine hsound.withMinting (List.forall_mem_append.2 ⟨hsound.minting, ?_⟩)
    refine List.forall_mem_singleton.2 ⟨?_, session, hmem, Grown.refl session⟩
    refine ⟨hpos, fun _ hcovered => ?_, fun hlater => ?_, ?_, ?_⟩
    · have hone : 1 ≤ session.reservedSeconds / session.laneCount :=
        (Int.le_ediv_iff_mul_le (by omega)).2 (by dsimp only at hcovered; omega)
      show streamDurationSeconds session = _
      unfold streamDurationSeconds
      rw [lanesOf_eq hpos hle]
      exact max_eq_right hone
    · cases hlater
    · exact lt_of_lt_of_le Int.zero_lt_one (le_max_left _ _)
    · dsimp only
      split
      · exact le_max_left _ _
      · exact le_refl 1

/-- What an extension gives: the session as it stands, and its span from now on. -/
theorem extendSessionWindow_some {store store' : Store} {inviteId : ℕ} {sessionId : String}
    {now streamSeconds : ℤ} {session : SessionRow}
    (hlanes : ∀ session ∈ store.sessions,
      1 ≤ session.laneCount ∧ session.laneCount ≤ maxLanesPerSession)
    (h : store.extendSessionWindow inviteId sessionId now =
      (some (session, streamSeconds), store')) :
    session ∈ store'.sessions ∧ 1 ≤ session.laneCount ∧
      streamSeconds = max 0 (min sonioxMaxSessionDurationSeconds
        (session.reservedSeconds / session.laneCount -
          Store.elapsedSeconds session.createdAt now)) := by
  unfold Store.extendSessionWindow at h
  cases hopen : store.openSession inviteId sessionId with
  | none =>
      rw [hopen] at h
      cases h
  | some row =>
      obtain ⟨hrow, rfl, rfl, -⟩ := mem_of_openSession hopen
      obtain ⟨hpos, hle⟩ := hlanes row hrow
      rw [hopen] at h
      dsimp only at h
      rw [lanesOf_eq hpos hle] at h
      have hsame : some (row, max 0 (min sonioxMaxSessionDurationSeconds
          (row.reservedSeconds / row.laneCount - Store.elapsedSeconds row.createdAt now))) =
            some (session, streamSeconds) → store = store' →
          session ∈ store'.sessions ∧ 1 ≤ session.laneCount ∧
            streamSeconds = max 0 (min sonioxMaxSessionDurationSeconds
              (session.reservedSeconds / session.laneCount -
                Store.elapsedSeconds session.createdAt now)) := by
        rintro heq rfl
        obtain ⟨rfl, rfl⟩ := Prod.mk.inj (Option.some.inj heq)
        exact ⟨hrow, hpos, rfl⟩
      split at h
      · split at h
        · cases h
        · split at h
          · obtain ⟨heq, rfl⟩ := Prod.mk.inj h
            obtain ⟨rfl, rfl⟩ := Prod.mk.inj (Option.some.inj heq)
            refine ⟨List.mem_map.2 ⟨row, hrow, if_pos (decide_eq_true rfl)⟩, hpos, ?_⟩
            -- what was added is so many seconds for each lane
            dsimp only
            generalize min (row.laneCount * _) _ = most
            have hdvd : row.laneCount ∣ most - most % row.laneCount :=
              Int.dvd_self_sub_emod
            rw [Int.add_ediv_of_dvd_right hdvd]
          · obtain ⟨heq, hstore⟩ := Prod.mk.inj h
            exact hsame heq hstore
      · obtain ⟨heq, hstore⟩ := Prod.mk.inj h
        exact hsame heq hstore

theorem Sound.sessionKey (h : Sound server) (inviteId : ℕ) (sessionId : String) (count : ℤ)
    (singleUse : Bool) :
    Sound (server.sessionKey inviteId sessionId count singleUse server.clock) := by
  have hevolves : Evolves server.clock server.store _ :=
    evolves_extendSessionWindow server.store inviteId sessionId server.clock
  have hbalanced := (balanced_extendSessionWindow h.balanced inviteId sessionId server.clock).1
  unfold Server.sessionKey
  split
  · rename_i store heq
    rw [heq] at hevolves hbalanced
    exact h.withStore hevolves hbalanced
  · rename_i session streamSeconds store heq
    rw [heq] at hevolves hbalanced
    obtain ⟨hmem, hpos, rfl⟩ := extendSessionWindow_some h.lanes heq
    have hsound := h.withStore hevolves hbalanced
    split
    · exact hsound
    · rename_i hcap
      refine hsound.withMinting (List.forall_mem_append.2 ⟨hsound.minting, ?_⟩)
      refine List.forall_mem_singleton.2 ⟨?_, session, hmem, Grown.refl session⟩
      refine ⟨hpos, fun hopening => (nomatch hopening), fun _ => ?_, by dsimp only; omega, ?_⟩
      · dsimp only
        omega
      · dsimp only
        split
        · exact le_max_left _ _
        · exact le_refl 1

theorem Sound.claim (h : Sound server) {index : ℕ} {mint : Mint}
    (hmint : server.minting[index]? = some mint) :
    Sound (server.claim index mint server.clock) := by
  have hmem : mint ∈ server.minting := List.mem_of_getElem? hmint
  have hevolves : Evolves server.clock server.store (server.store.reserveSessionKeys
      mint.session.inviteId mint.session.id mint.count server.clock).2 :=
    Evolves.of_sessions_eq (sessions_reserveSessionKeys ..)
  have hbalanced := balanced_reserveSessionKeys h.balanced mint.session.inviteId mint.session.id
    mint.count server.clock
  have hclaimed : ∀ other ∈ server.minting.set index { mint with claimed := true },
      Reckoned other ∧ ∀ store, Evolves server.clock server.store store →
        Known store other.session := by
    intro other hother
    rcases List.mem_or_eq_of_mem_set hother with hold | rfl
    · exact ⟨(h.minting other hold).1, fun store hstore => (h.minting other hold).2.evolves hstore⟩
    · obtain ⟨hreckoned, hknown⟩ := h.minting mint hmem
      exact ⟨{ hreckoned with }, fun store hstore => hknown.evolves hstore⟩
  unfold Server.claim
  dsimp only
  split
  · rename_i issued store heq
    rw [heq] at hevolves hbalanced
    refine (h.withStore hevolves hbalanced).withMinting fun other hother => ?_
    exact ⟨(hclaimed other hother).1, (hclaimed other hother).2 _ hevolves⟩
  · rename_i store heq
    rw [heq] at hevolves hbalanced
    split
    · refine (h.withStore hevolves hbalanced).withMinting fun other hother => ?_
      exact ⟨(hclaimed other hother).1, (hclaimed other hother).2 _ hevolves⟩
    · have hgivenUp : Balanced (Server.giveUp store mint server.clock) := by
        unfold Server.giveUp
        split
        · exact (balanced_settleSession hbalanced _ _ _ _).1
        · exact hbalanced
      have hsound := h.withStore (hevolves.trans (evolves_giveUp store mint server.clock)) hgivenUp
      exact hsound.withMinting (hsound.eraseIdx index)

theorem Sound.fail (h : Sound server) (index : ℕ) (mint : Mint) :
    Sound (server.fail index mint server.clock) := by
  have hbalanced := balanced_releaseSessionKeys h.balanced mint.session.id mint.count
  have hgivenUp : Balanced (Server.giveUp
      (server.store.releaseSessionKeys mint.session.id mint.count) mint server.clock) := by
    unfold Server.giveUp
    split
    · exact (balanced_settleSession hbalanced _ _ _ _).1
    · exact hbalanced
  have hevolves : Evolves server.clock server.store
      (server.store.releaseSessionKeys mint.session.id mint.count) :=
    Evolves.of_sessions_eq (sessions_releaseSessionKeys ..)
  have hsound := h.withStore (hevolves.trans (evolves_giveUp _ mint server.clock)) hgivenUp
  exact hsound.withMinting (hsound.eraseIdx index)

end Requests

/-! ### Handing keys out -/

section HandOut

variable {server : Server} {mint : Mint}

/-- **Keys handed out in time** are covered by what the session had reserved. -/
theorem Reckoned.covers (h : Reckoned mint)
    (hcovered : mint.session.laneCount ≤ mint.session.reservedSeconds) {now : ℤ}
    (hnow : now ≤ mint.deadline) :
    mint.session.laneCount * (now + mint.cap * microseconds - mint.session.createdAt) ≤
      mint.session.reservedSeconds * microseconds := by
  unfold Mint.deadline at hnow
  dsimp only at hnow
  generalize hwhole : (if mint.opening = true then (0 : ℤ)
    else Store.elapsedSeconds mint.session.createdAt mint.reckonedAt +
      max 0 (mint.session.reservedSeconds / mint.session.laneCount -
        Store.elapsedSeconds mint.session.createdAt mint.reckonedAt -
          sonioxMaxSessionDurationSeconds)) = whole at hnow
  -- the cap and the whole seconds up to the deadline are the span
  have hspan : mint.cap + whole = mint.session.reservedSeconds / mint.session.laneCount := by
    cases hopening : mint.opening with
    | true =>
        rw [hopening, if_pos rfl] at hwhole
        rw [h.opening hopening hcovered, ← hwhole, add_zero]
    | false =>
        rw [hopening, if_neg Bool.false_ne_true] at hwhole
        rw [h.later hopening]
        omega
  have hlanes : 0 ≤ mint.session.laneCount := by
    have hone := h.lanes
    omega
  have hrest : mint.session.laneCount *
      (mint.session.reservedSeconds % mint.session.laneCount * microseconds /
        mint.session.laneCount) ≤
      mint.session.reservedSeconds % mint.session.laneCount * microseconds :=
    Int.mul_ediv_self_le (by have hone := h.lanes; omega)
  have hdivision := Int.mul_ediv_add_emod mint.session.reservedSeconds mint.session.laneCount
  generalize mint.session.reservedSeconds % mint.session.laneCount * microseconds /
    mint.session.laneCount = rest at hnow hrest
  calc mint.session.laneCount * (now + mint.cap * microseconds - mint.session.createdAt)
      ≤ mint.session.laneCount * ((mint.cap + whole) * microseconds + rest) := by
        refine mul_le_mul_of_nonneg_left ?_ hlanes
        rw [add_mul]
        omega
    _ = mint.session.laneCount * (mint.session.reservedSeconds / mint.session.laneCount) *
          microseconds + mint.session.laneCount * rest := by
        rw [hspan]
        ring
    _ ≤ mint.session.laneCount * (mint.session.reservedSeconds / mint.session.laneCount) *
          microseconds + mint.session.reservedSeconds % mint.session.laneCount *
            microseconds := by
        omega
    _ = mint.session.reservedSeconds * microseconds := by
        rw [← add_mul, hdivision]

/-- A key that can be used later can be used now. -/
theorem StreamKey.usableAt_of_le {key : StreamKey} {now moment : ℤ} (hhanded : key.handedAt ≤ now)
    (hle : now ≤ moment) (h : key.usableAt moment = true) : key.usableAt now = true := by
  unfold StreamKey.usableAt at h ⊢
  rw [Bool.and_eq_true, decide_eq_true_eq, decide_eq_true_eq] at h ⊢
  omega

theorem mem_keysOf {session : SessionRow} {first : ℕ} {now : ℤ} {key : StreamKey}
    (h : key ∈ Server.keysOf mint session first now) :
    key.session = session ∧ key.handedAt = now ∧ key.cap = mint.cap ∧
      key.singleUse = mint.singleUse := by
  obtain ⟨offset, -, rfl⟩ := List.mem_map.1 h
  exact ⟨rfl, rfl, rfl, rfl⟩

theorem map_number_keysOf (session : SessionRow) (first : ℕ) (now : ℤ) :
    (Server.keysOf mint session first now).map StreamKey.number =
      (List.range mint.count.toNat).map fun offset => first + offset := by
  unfold Server.keysOf
  rw [List.map_map]
  rfl

/-- **No more keys in use** than there are lanes. -/
theorem Sound.overlap_handOut (h : Sound server) {row : SessionRow}
    (hrow : row ∈ server.store.sessions)
    (hid : row.id = mint.session.id) (hlanes : row.laneCount = mint.session.laneCount)
    (hfree : (server.inUse mint.session.id server.clock : ℤ) + mint.count ≤
      mint.session.laneCount) (hcount : 1 ≤ mint.count) :
    ∀ session ∈ server.store.sessions, ∀ moment,
      (((server.issued ++ Server.keysOf mint row server.issued.length server.clock).countP
        fun key => key.session.id = session.id && key.usableAt moment : ℕ) : ℤ) ≤
          session.laneCount := by
  intro session hsession moment
  rw [List.countP_append]
  have hold := h.overlap session hsession moment
  unfold Server.inUse at hold hfree
  by_cases hnew : session.id = row.id ∧ server.clock ≤ moment
  · obtain rfl := Table.eq_of_key_eq h.balanced.sessionIds hsession hrow hnew.1
    have hkeys : (Server.keysOf mint session server.issued.length server.clock).countP
        (fun key => key.session.id = session.id && key.usableAt moment) ≤ mint.count.toNat := by
      refine List.countP_le_length.trans ?_
      unfold Server.keysOf
      rw [List.length_map, List.length_range]
    have hnow : server.issued.countP
        (fun key => key.session.id = session.id && key.usableAt moment) ≤
          server.issued.countP
            fun key => key.session.id = mint.session.id && key.usableAt server.clock := by
      refine List.countP_mono_left fun key hkey hused => ?_
      obtain ⟨hsame, husable⟩ := Bool.and_eq_true_iff.1 hused
      refine Bool.and_eq_true_iff.2 ⟨hid ▸ hsame, ?_⟩
      exact StreamKey.usableAt_of_le (h.issued key hkey).handed hnew.2 husable
    omega
  · have hnone : (Server.keysOf mint row server.issued.length server.clock).countP
        (fun key => key.session.id = session.id && key.usableAt moment) = 0 := by
      refine List.countP_eq_zero.2 fun key hkey hused => hnew ?_
      obtain ⟨hsame, husable⟩ := Bool.and_eq_true_iff.1 hused
      obtain ⟨hsession, hhanded, -, -⟩ := mem_keysOf hkey
      unfold StreamKey.usableAt at husable
      rw [Bool.and_eq_true, decide_eq_true_eq, hhanded] at husable
      rw [hsession] at hsame
      exact ⟨(of_decide_eq_true hsame).symm, husable.1⟩
    rw [hnone]
    simpa using hold

theorem Sound.handOut (h : Sound server) {index : ℕ} {server' : Server}
    (hmint : server.minting[index]? = some mint) (hsingle : mint.singleUse = true)
    (hcovered : mint.session.laneCount ≤ mint.session.reservedSeconds)
    (hnow : server.clock ≤ mint.deadline)
    (hfree : (server.inUse mint.session.id server.clock : ℤ) + mint.count ≤
      mint.session.laneCount)
    (hout : server.handOut index mint server.clock = some server') : Sound server' := by
  obtain ⟨hreckoned, row, hrow, hgrown⟩ := h.minting mint (List.mem_of_getElem? hmint)
  obtain ⟨found, hfound, rfl⟩ := Option.map_eq_some_iff.1 hout
  have hfoundId := List.find?_some hfound
  obtain rfl := Table.eq_of_key_eq h.balanced.sessionIds (List.mem_of_find?_eq_some hfound) hrow
    ((of_decide_eq_true hfoundId).trans hgrown.1.symm)
  have hlength : (server.issued ++
      Server.keysOf mint found server.issued.length server.clock).length =
        server.issued.length + mint.count.toNat := by
    simp [Server.keysOf]
  refine { h with
    minting := h.eraseIdx index
    numbers := ?_
    issued := List.forall_mem_append.2 ⟨h.issued, fun key hkey => ?_⟩
    overlap := h.overlap_handOut hrow hgrown.1 hgrown.2.2.1 hfree hreckoned.count }
  · show (List.map _ (_ ++ _)) = List.range (List.length (_ ++ _))
    rw [List.map_append, h.numbers, map_number_keysOf, hlength, List.range_add]
  · obtain ⟨hsession, hhanded, hcap, hsame⟩ := mem_keysOf hkey
    refine ⟨hsame.trans hsingle, hcap ▸ hreckoned.cap, ?_, ?_, hhanded.le, ?_, ?_⟩
    · exact ⟨found, hrow, hsession ▸ Grown.refl found⟩
    · rw [hsession, hhanded]
      exact h.created found hrow
    · rw [hsession, hgrown.2.2.1]
      exact hreckoned.lanes
    · rw [hsession, hhanded, hcap, hgrown.2.2.1, hgrown.2.1]
      refine (hreckoned.covers hcovered hnow).trans ?_
      exact mul_le_mul_of_nonneg_right hgrown.2.2.2 (by decide)

end HandOut

/-- **Every request**, its keys handed out in time. -/
theorem Sound.step {server server' : Server} {event : ℤ × Request} (h : Sound server)
    (hintime : InTime server event) (hstep : server.step event = some server') :
    Sound server' := by
  obtain ⟨now, request⟩ := event
  unfold Server.step at hstep
  split at hstep
  · rename_i hnow
    have htick := h.tick hnow
    cases request with
    | transaction transaction =>
        dsimp only [Server.serve] at hstep
        split at hstep
        · rename_i hkeyless
          obtain rfl := Option.some.inj hstep
          exact htick.withStore (evolves_keyless server.store hkeyless)
            (h.balanced.after transaction).1
        · cases hstep
    | realtimeSession inviteId requestedSeconds laneCount sessionId initialBatch =>
        obtain rfl := Option.some.inj hstep
        exact htick.realtimeSession inviteId requestedSeconds laneCount sessionId initialBatch
    | key inviteId sessionId count singleUse =>
        obtain rfl := Option.some.inj hstep
        exact htick.sessionKey inviteId sessionId count singleUse
    | claim index =>
        dsimp only [Server.serve] at hstep
        split at hstep
        · rename_i mint hmint
          split at hstep
          · cases hstep
          · obtain rfl := Option.some.inj hstep
            exact htick.claim hmint
        · cases hstep
    | minted index =>
        dsimp only [Server.serve] at hstep
        split at hstep
        · rename_i mint hmint
          obtain ⟨hsingle, hcovered, hdeadline, hfree⟩ := hintime mint hmint
          split at hstep
          · exact htick.handOut hmint hsingle hcovered hdeadline hfree hstep
          · cases hstep
        · cases hstep
    | failed index =>
        dsimp only [Server.serve] at hstep
        split at hstep
        · rename_i mint hmint
          split at hstep
          · obtain rfl := Option.some.inj hstep
            exact htick.fail index mint
          · cases hstep
        · cases hstep
  · cases hstep

/-! ### Streams -/

section Streams

variable {server : Server} {sessionId : String} {streams : List Stream}

/-- **A stream for each key**: so many streams, so many keys. -/
theorem Sound.countP_streams_le (h : Sound server) (hallowed : Allowed server sessionId streams)
    {p : Stream → Bool} {q : StreamKey → Bool} (hpq : ∀ stream ∈ streams, p stream = true →
      q stream.key = true) :
    streams.countP p ≤ server.issued.countP fun key => key.session.id = sessionId && q key := by
  have hnodup : (streams.map Stream.key).Nodup := by
    rw [List.nodup_iff_count_le_one]
    intro key
    unfold List.count
    rw [List.countP_map]
    by_cases hkey : key ∈ server.issued
    · refine le_trans (List.countP_mono_left fun stream _ hsame => ?_)
        (hallowed.once key hkey (h.issued key hkey).single)
      exact decide_eq_true (beq_iff_eq.1 hsame)
    · have hnone : streams.countP ((fun other => other == key) ∘ Stream.key) = 0 := by
        refine List.countP_eq_zero.2 fun stream hstream hsame => hkey ?_
        exact beq_iff_eq.1 hsame ▸ (hallowed.issued stream hstream).1
      rw [hnone]
      exact Nat.zero_le 1
  have hsubset : (streams.filter p).map Stream.key ⊆
      server.issued.filter fun key => key.session.id = sessionId && q key := by
    intro key hkey
    obtain ⟨stream, hstream, rfl⟩ := List.mem_map.1 hkey
    obtain ⟨hmem, hp⟩ := List.mem_filter.1 hstream
    obtain ⟨hissued, hid⟩ := hallowed.issued stream hmem
    exact List.mem_filter.2 ⟨hissued, Bool.and_eq_true_iff.2
      ⟨decide_eq_true hid, hpq stream hmem hp⟩⟩
  have hsub : ((streams.filter p).map Stream.key).Nodup :=
    hnodup.sublist (List.filter_sublist.map Stream.key)
  have hlength := (hsub.subperm hsubset).length_le
  rw [List.length_map] at hlength
  rw [List.countP_eq_length_filter, List.countP_eq_length_filter]
  exact hlength

/-- A key is of the session its streams are of. -/
theorem Sound.grown_of_allowed (h : Sound server) {session : SessionRow}
    (hsession : session ∈ server.store.sessions)
    (hallowed : Allowed server session.id streams) {stream : Stream} (hstream : stream ∈ streams) :
    Covered server.store server.clock stream.key ∧ Grown stream.key.session session := by
  obtain ⟨hissued, hid⟩ := hallowed.issued stream hstream
  have hcovered := h.issued stream.key hissued
  obtain ⟨row, hrow, hgrown⟩ := hcovered.known
  obtain rfl := Table.eq_of_key_eq h.balanced.sessionIds hrow hsession (hgrown.1.trans hid)
  exact ⟨hcovered, hgrown⟩

/-- While a stream is open, its key is in use. -/
theorem Sound.streams_le (h : Sound server) {session : SessionRow}
    (hsession : session ∈ server.store.sessions) (hallowed : Allowed server session.id streams)
    (moment : ℤ) {p : Stream → Bool} (hp : ∀ stream ∈ streams, p stream = true →
      stream.key.usableAt moment = true) :
    (streams.countP p : ℤ) ≤ session.laneCount := by
  have hle := h.countP_streams_le hallowed (q := fun key => key.usableAt moment) hp
  have hoverlap := h.overlap session hsession moment
  unfold Server.inUse at hoverlap
  omega

theorem Sound.lanes_le (h : Sound server) {session : SessionRow}
    (hsession : session ∈ server.store.sessions) (hallowed : Allowed server session.id streams)
    (moment : ℤ) :
    (streams.countP fun stream => stream.runsAt moment : ℤ) ≤ session.laneCount := by
  refine h.streams_le hsession hallowed moment fun stream hstream hruns => ?_
  obtain ⟨hopened, hredeemed⟩ := hallowed.opened stream hstream
  obtain ⟨-, hclosed⟩ := hallowed.closed stream hstream
  unfold Stream.runsAt at hruns
  unfold StreamKey.usableAt
  rw [Bool.and_eq_true, decide_eq_true_eq, decide_eq_true_eq] at hruns ⊢
  rw [add_mul]
  omega

/-- What the cap of a key covers from the moment it is handed out. -/
def StreamKey.span (key : StreamKey) : ℤ × ℤ :=
  (key.handedAt, key.handedAt + key.cap * microseconds)

/-- The spans are inside what the session had reserved for each lane. -/
theorem Sound.span_bounds (h : Sound server) {session : SessionRow}
    (hsession : session ∈ server.store.sessions) (hallowed : Allowed server session.id streams)
    {stream : Stream} (hstream : stream ∈ streams) :
    session.createdAt ≤ stream.key.span.1 ∧ stream.key.span.1 ≤ stream.key.span.2 ∧
      stream.key.span.2 ≤ session.createdAt +
        session.reservedSeconds * microseconds / session.laneCount := by
  obtain ⟨hlanes, -⟩ := h.lanes session hsession
  obtain ⟨hcovered, hgrown⟩ := h.grown_of_allowed hsession hallowed hstream
  have hcap : 0 ≤ stream.key.cap * microseconds := mul_nonneg hcovered.cap.le (by decide)
  have hcovers := hcovered.covers
  rw [← hgrown.2.2.1, ← hgrown.2.1] at hcovers
  have hend : stream.key.handedAt + stream.key.cap * microseconds - session.createdAt ≤
      session.reservedSeconds * microseconds / session.laneCount := by
    refine (Int.le_ediv_iff_mul_le (by omega)).2 ?_
    rw [mul_comm]
    exact hcovers.trans (mul_le_mul_of_nonneg_right hgrown.2.2.2 (by decide))
  have hcreated := hgrown.2.1 ▸ hcovered.created
  refine ⟨hcreated, ?_, ?_⟩
  · show stream.key.handedAt ≤ stream.key.handedAt + stream.key.cap * microseconds
    omega
  · show stream.key.handedAt + stream.key.cap * microseconds ≤ _
    omega

theorem Sound.span_count (h : Sound server) {session : SessionRow}
    (hsession : session ∈ server.store.sessions) (hallowed : Allowed server session.id streams)
    (moment : ℤ) :
    (streams.map fun stream => stream.key.span).countP (Intervals.contains moment) ≤
      session.laneCount.toNat := by
  rw [List.countP_map]
  have hle : (streams.countP (Intervals.contains moment ∘ fun stream => stream.key.span) : ℤ) ≤
      session.laneCount := by
    refine h.streams_le hsession hallowed moment fun stream hstream hcontains => ?_
    obtain ⟨hstart, hstop⟩ := Intervals.contains_iff.1 hcontains
    have hsingle := (h.issued stream.key (hallowed.issued stream hstream).1).single
    have hexpires : 0 ≤ singleUseKeyExpiresSeconds * microseconds := by decide
    unfold StreamKey.usableAt StreamKey.expiresSeconds
    rw [hsingle, if_pos rfl, Bool.and_eq_true, decide_eq_true_eq, decide_eq_true_eq, add_mul]
    unfold StreamKey.span at hstart hstop
    dsimp only at hstart hstop
    omega
  omega

/-- **What is streamed** on the keys of a session adds up to no more than it reserved. -/
theorem Sound.total_le (h : Sound server) {session : SessionRow}
    (hsession : session ∈ server.store.sessions) (hallowed : Allowed server session.id streams) :
    (streams.map fun stream => stream.closed - stream.opened).sum ≤
      session.reservedSeconds * microseconds := by
  obtain ⟨hlanes, -⟩ := h.lanes session hsession
  have hreserved := (h.balanced.charges session hsession).1
  have hnonneg : 0 ≤ session.reservedSeconds * microseconds / session.laneCount :=
    Int.ediv_nonneg (mul_nonneg hreserved.le (by decide)) (by omega)
  have htotal := Intervals.sum_length_le (by omega)
    (List.forall_mem_map.2 fun stream hstream => h.span_bounds hsession hallowed hstream)
    (h.span_count hsession hallowed)
  calc (streams.map fun stream => stream.closed - stream.opened).sum
      ≤ (streams.map ((fun interval : ℤ × ℤ => interval.2 - interval.1) ∘
          fun stream => stream.key.span)).sum := by
        refine List.sum_le_sum fun stream hstream => ?_
        obtain ⟨-, hclosed⟩ := hallowed.closed stream hstream
        show stream.closed - stream.opened ≤
          stream.key.handedAt + stream.key.cap * microseconds - stream.key.handedAt
        omega
    _ ≤ session.laneCount.toNat * (session.createdAt +
          session.reservedSeconds * microseconds / session.laneCount - session.createdAt) := by
        rw [← List.map_map]
        exact htotal
    _ = session.laneCount * (session.reservedSeconds * microseconds / session.laneCount) := by
        rw [Int.toNat_of_nonneg (by omega), add_sub_cancel_left]
    _ ≤ session.reservedSeconds * microseconds := Int.mul_ediv_self_le (by omega)

end Streams

/-- Nothing is streamed past what is reserved. -/
theorem Sound.within {server : Server} (h : Sound server) : WithinReservation server where
  caps := fun key hkey => (h.issued key hkey).covers
  lanes := fun _ hsession _ hallowed moment => h.lanes_le hsession hallowed moment
  total := fun _ hsession _ hallowed => h.total_le hsession hallowed

/-- **No stream is allowed past what was reserved** in any run that hands keys out in time. -/
theorem streams_within_reservation {clock : ℤ} {events : List (ℤ × Request)} {server : Server}
    (hintime : Along Server.step InTime (Server.start clock) events)
    (hrun : run Server.step (Server.start clock) events = some server) :
    WithinReservation server := by
  have hsound : Sound server :=
    hintime.invariant (I := Sound) (fun _ _ _ h hin hstep => h.step hin hstep) (Sound.start clock)
      hrun
  exact hsound.within

/-- An opening batch for two lanes, and the key of a lane that opens again after it. -/
def rolledOver : List (ℤ × Request) :=
  [(0, .transaction (.createInvite "code" 1)), (0, .realtimeSession 1 3600 2 "session" true),
    (0, .claim 0), (0, .minted 0), (2100000000, .key 1 "session" 1 true),
    (2100000000, .claim 0), (2100000000, .minted 0)]

theorem streams_within_reservation_rolledOver :
    WithinReservation ((run Server.step (Server.start 0) rolledOver).get (by decide)) :=
  @streams_within_reservation 0 rolledOver _ (by decide)
    (Option.some_get _).symm

/-- A second for four lanes: each of them gets a key for a second. -/
def secondForFourLanes : List (ℤ × Request) :=
  [(0, .transaction (.createInvite "code" 1)), (0, .realtimeSession 1 1 4 "session" true),
    (0, .claim 0), (0, .minted 0)]

theorem streams_past_reservation :
    ¬ ∀ (clock : ℤ) (events : List (ℤ × Request)) (server : Server),
      run Server.step (Server.start clock) events = some server → WithinReservation server := by
  intro h
  have hwithin := h 0 secondForFourLanes _ (Option.some_get (by decide)).symm
  exact absurd hwithin.caps (by decide)

end Invite
end ZuTalk
