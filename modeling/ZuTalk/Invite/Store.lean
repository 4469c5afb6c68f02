/-
# The invitation store

`services/community-invite/server.py`, class `Store`: the tables `invites`,
`access_tokens`, `sessions` and `session_keys`, and every transaction that moves seconds
or keys between them.

A moment is a number of microseconds.  Times are written by `now_iso` in UTC, where the
order of the texts is that of the moments.  The rows of `session_keys` stand in the order
of their ids.  Random tokens and digests are given from outside.  A statement that SQLite
refuses raises an error and the transaction leaves nothing behind; so does a number that
does not fit in an `INTEGER`.
-/

import Mathlib.Data.Int.Notation
import ZuTalk.Library.Table

namespace ZuTalk
namespace Invite

/-- `SECONDS_PER_GIVE`. -/
def secondsPerGive : ℤ := 6 * 60 * 60

/-- `MAX_SESSION_SECONDS`. -/
def maxSessionSeconds : ℤ := 5 * 60 * 60

/-- `RESERVATION_TTL_SECONDS`. -/
def reservationTtlSeconds : ℤ := 6 * 60 * 60

/-- `STREAM_WINDOW_SECONDS`. -/
def streamWindowSeconds : ℤ := 3 * 60 * 60

/-- `SONIOX_MAX_SESSION_DURATION_SECONDS`. -/
def sonioxMaxSessionDurationSeconds : ℤ := 5 * 60 * 60

/-- `MAX_LANES_PER_SESSION`. -/
def maxLanesPerSession : ℤ := 4

/-- `KEYS_PER_LANE`. -/
def keysPerLane : ℤ := 256

/-- `SESSION_KEY_FLOOR`. -/
def sessionKeyFloor : ℤ := 16

/-- The microseconds of a second. -/
def microseconds : ℤ := 1000000

/-- A row of `invites`. -/
structure InviteRow where
  id : ℕ
  codeHash : String
  quotaSeconds : ℤ
  usedSeconds : ℤ
  reservedSeconds : ℤ
  enabled : Bool
  deriving DecidableEq, Repr

/-- A row of `access_tokens`. -/
structure AccessToken where
  tokenHash : String
  inviteId : ℕ
  deriving DecidableEq, Repr

/-- A row of `sessions`. -/
structure SessionRow where
  id : String
  inviteId : ℕ
  reservedSeconds : ℤ
  laneCount : ℤ
  settledSeconds : Option ℤ
  createdAt : ℤ
  settledAt : Option ℤ
  deriving DecidableEq, Repr

/-- A row of `session_keys`. -/
structure SessionKey where
  sessionId : String
  issuedAt : ℤ
  deriving DecidableEq, Repr

/-- The database. -/
structure Store where
  invites : List InviteRow
  tokens : List AccessToken
  sessions : List SessionRow
  keys : List SessionKey
  deriving DecidableEq, Repr

/-- A database without rows. -/
def Store.empty : Store := ⟨[], [], [], []⟩

/-- What an `INTEGER` column can hold. -/
def fitsInteger (value : ℤ) : Bool := -2 ^ 63 ≤ value && value < 2 ^ 63

/-- The lanes of a count: `max(1, min(int(lane_count or 1), MAX_LANES_PER_SESSION))`. -/
def lanesOf (laneCount : ℤ) : ℤ :=
  max 1 (min (if laneCount = 0 then 1 else laneCount) maxLanesPerSession)

/-- `session_key_budget`. -/
def sessionKeyBudget (laneCount : ℤ) : ℤ := max sessionKeyFloor (keysPerLane * lanesOf laneCount)

/-- `stream_duration_seconds`. -/
def streamDurationSeconds (session : SessionRow) : ℤ :=
  max 1 (session.reservedSeconds / lanesOf session.laneCount)

/-- `quota_payload`, in seconds. -/
structure QuotaPayload where
  quotaSeconds : ℤ
  usedSeconds : ℤ
  remainingSeconds : ℤ
  deriving DecidableEq, Repr

/-- `quota_payload`. -/
def quotaPayload (invite : InviteRow) : QuotaPayload where
  quotaSeconds := invite.quotaSeconds
  usedSeconds := invite.usedSeconds
  remainingSeconds := max 0 (invite.quotaSeconds - invite.usedSeconds - invite.reservedSeconds)

namespace Store

/-- The session, if it is open and of the invitation. -/
def openSession (store : Store) (inviteId : ℕ) (sessionId : String) : Option SessionRow :=
  store.sessions.find? fun session =>
    session.id = sessionId && session.inviteId = inviteId && session.settledSeconds.isNone

/-- The invitation. -/
def invite (store : Store) (inviteId : ℕ) : Option InviteRow :=
  store.invites.find? fun invite => invite.id = inviteId

/-- `UPDATE invites SET ... WHERE id = ?`. -/
def updateInvite (store : Store) (inviteId : ℕ) (set : InviteRow → InviteRow) : Store :=
  { store with invites := Table.update (fun invite => invite.id = inviteId) set store.invites }

/-- `UPDATE sessions SET ... WHERE id = ?`. -/
def updateSession (store : Store) (sessionId : String) (set : SessionRow → SessionRow) : Store :=
  { store with
    sessions := Table.update (fun session => session.id = sessionId) set store.sessions }

/-- The keys a session has claimed. -/
def issuedKeys (store : Store) (sessionId : String) : ℕ :=
  store.keys.countP fun key => key.sessionId = sessionId

/-- `create_invite`. -/
def createInvite (store : Store) (codeHash : String) (quotaSeconds : ℤ) : Store :=
  if store.invites.any (fun invite => invite.codeHash = codeHash) || !fitsInteger quotaSeconds then
    store
  else
    let id := (store.invites.map InviteRow.id).foldl max 0 + 1
    { store with invites := store.invites ++ [⟨id, codeHash, quotaSeconds, 0, 0, true⟩] }

/-- `redeem`: the quota of the invitation, if there is one. -/
def redeem (store : Store) (codeHash tokenHash : String) : Option QuotaPayload × Store :=
  match store.invites.find? fun invite => invite.codeHash = codeHash && invite.enabled with
  | none => (none, store)
  | some invite =>
      if store.tokens.any fun token => token.tokenHash = tokenHash then (none, store)
      else (some (quotaPayload invite),
        { store with tokens := store.tokens ++ [⟨tokenHash, invite.id⟩] })

/-- When a session was last heard of: made, or given a key. -/
def lastIssue (store : Store) (session : SessionRow) : ℤ :=
  (store.keys.filter fun key => key.sessionId = session.id).foldl
    (fun moment key => max moment key.issuedAt) session.createdAt

/-- `expire_stale_reservations`. -/
def expireStaleReservations (store : Store) (now : ℤ) : Store :=
  let cutoff := now - reservationTtlSeconds * microseconds
  let stale := store.sessions.filter fun session =>
    session.settledSeconds.isNone && store.lastIssue session < cutoff
  stale.foldl (fun store session =>
    (store.updateSession session.id fun row =>
      { row with settledSeconds := some 0, settledAt := some now }).updateInvite session.inviteId
        fun row => { row with reservedSeconds := row.reservedSeconds - session.reservedSeconds })
    store

/-- `reserve_session`. -/
def reserveSession (store : Store) (inviteId : ℕ) (requestedSeconds laneCount : ℤ)
    (sessionId : String) (now : ℤ) : Option SessionRow × Store :=
  let requested := max 1 (min requestedSeconds maxSessionSeconds)
  let lanes := max 1 (min laneCount maxLanesPerSession)
  match store.invites.find? fun invite => invite.id = inviteId && invite.enabled with
  | none => (none, store)
  | some invite =>
      let remaining := invite.quotaSeconds - invite.usedSeconds - invite.reservedSeconds
      let reserved := min requested remaining
      if reserved ≤ 0 then (none, store)
      else if store.sessions.any fun session => session.id = sessionId then (none, store)
      else
        let session : SessionRow := ⟨sessionId, inviteId, reserved, lanes, none, now, none⟩
        (some session, { store with sessions := store.sessions ++ [session] }.updateInvite inviteId
          fun row => { row with reservedSeconds := row.reservedSeconds + reserved })

/-- `reserve_session_keys`: the keys issued so far. -/
def reserveSessionKeys (store : Store) (inviteId : ℕ) (sessionId : String) (count now : ℤ) :
    Option ℤ × Store :=
  if count < 1 then (none, store)
  else
    match store.openSession inviteId sessionId with
    | none => (none, store)
    | some session =>
        let issued : ℤ := store.issuedKeys sessionId
        if sessionKeyBudget (lanesOf session.laneCount) < issued + count then (none, store)
        else (some (issued + count),
          { store with keys := store.keys ++ List.replicate count.toNat ⟨sessionId, now⟩ })

/-- The whole seconds since a moment, a second that has begun counting as one. -/
def elapsedSeconds (started now : ℤ) : ℤ := max 0 (-((started - now) / microseconds))

/-- `extend_session_window`: the reservation as it now stands, and the seconds the next key
may stream for. -/
def extendSessionWindow (store : Store) (inviteId : ℕ) (sessionId : String) (now : ℤ) :
    Option (SessionRow × ℤ) × Store :=
  match store.openSession inviteId sessionId with
  | none => (none, store)
  | some session =>
      let lanes := lanesOf session.laneCount
      let elapsed := elapsedSeconds session.createdAt now
      let covered := session.reservedSeconds / lanes
      let wanted := elapsed + streamWindowSeconds
      let settle (session : SessionRow) (covered : ℤ) : Option (SessionRow × ℤ) :=
        some (session, max 0 (min sonioxMaxSessionDurationSeconds (covered - elapsed)))
      if covered < wanted then
        match store.invite inviteId with
        | none => (none, store)
        | some invite =>
            let remaining :=
              max 0 (invite.quotaSeconds - invite.usedSeconds - invite.reservedSeconds)
            let most := min (lanes * (wanted - covered)) remaining
            let added := most - most % lanes
            if 0 < added then
              (settle { session with reservedSeconds := session.reservedSeconds + added }
                (covered + added / lanes),
                (store.updateSession sessionId fun row =>
                  { row with reservedSeconds := row.reservedSeconds + added }).updateInvite inviteId
                    fun row => { row with reservedSeconds := row.reservedSeconds + added })
            else (settle session covered, store)
      else (settle session covered, store)

/-- `release_session_keys`: the last ones go. -/
def releaseSessionKeys (store : Store) (sessionId : String) (count : ℤ) : Store :=
  if count < 1 then store
  else
    let release := store.keys.foldr (fun key (kept : List SessionKey × ℕ) =>
      if key.sessionId = sessionId ∧ 0 < kept.2 then (kept.1, kept.2 - 1)
      else (key :: kept.1, kept.2)) ([], count.toNat)
    { store with keys := release.1 }

/-- `adjust_invite_quota`: the quota as it now stands. -/
def adjustInviteQuota (store : Store) (inviteId : ℕ) (deltaSeconds : ℤ) : Option ℤ × Store :=
  match store.invite inviteId with
  | none => (none, store)
  | some invite =>
      let updated := max (invite.usedSeconds + invite.reservedSeconds)
        (invite.quotaSeconds + deltaSeconds)
      if fitsInteger updated then
        (some updated, store.updateInvite inviteId fun row => { row with quotaSeconds := updated })
      else (none, store)

/-- `set_invite_enabled`: whether there is such an invitation. -/
def setInviteEnabled (store : Store) (inviteId : ℕ) (enabled : Bool) : Bool × Store :=
  (store.invites.any fun invite => invite.id = inviteId,
    store.updateInvite inviteId fun row => { row with enabled := enabled })

/-- `settle_session`. -/
def settleSession (store : Store) (inviteId : ℕ) (sessionId : String) (usedSeconds now : ℤ) :
    Option QuotaPayload × Store :=
  match store.openSession inviteId sessionId with
  | none => (none, store)
  | some session =>
      let charged := max 0 (min usedSeconds session.reservedSeconds)
      let settled := (store.updateSession sessionId fun row =>
        { row with settledSeconds := some charged, settledAt := some now }).updateInvite inviteId
          fun row => { row with
            usedSeconds := row.usedSeconds + charged
            reservedSeconds := row.reservedSeconds - session.reservedSeconds }
      ((settled.invite inviteId).map quotaPayload, settled)

end Store

end Invite
end ZuTalk
