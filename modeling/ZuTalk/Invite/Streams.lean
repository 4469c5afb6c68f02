/-
# Keys and the streams they open

`services/community-invite/server.py`, `do_POST` and `mint_session_key`: a session is
reserved and its opening keys are handed out with it, later ones against a window that is
extended first.  Between the transactions of one request and the answer of the provider,
other requests are served.  A request that is refused before it reserves or extends anything
is left out.

A key that may be used once opens one stream, within the time it may be redeemed; the
provider ends a stream after the key's cap.  Any number of streams may be opened with a
shared key.
-/

import ZuTalk.Library.Intervals
import ZuTalk.Library.Machine
import ZuTalk.Invite.Ledger

namespace ZuTalk
namespace Invite

/-- `MAX_KEYS_PER_REQUEST`. -/
def maxKeysPerRequest : ℤ := maxLanesPerSession

/-- `SINGLE_USE_KEY_EXPIRES_SECONDS`. -/
def singleUseKeyExpiresSeconds : ℤ := 300

/-- A request whose keys are being minted: the session as the request has it, and the
moment its cap was reckoned at. -/
structure Mint where
  session : SessionRow
  reckonedAt : ℤ
  cap : ℤ
  count : ℤ
  singleUse : Bool
  opening : Bool
  claimed : Bool
  deriving DecidableEq, Repr

/-- A key that was handed out, and the session as it was at that moment. -/
structure StreamKey where
  number : ℕ
  session : SessionRow
  handedAt : ℤ
  cap : ℤ
  singleUse : Bool
  deriving DecidableEq, Repr

/-- The service. -/
structure Server where
  store : Store
  minting : List Mint
  issued : List StreamKey
  clock : ℤ
  deriving DecidableEq, Repr

/-- A service without invitations. -/
def Server.start (clock : ℤ) : Server := ⟨Store.empty, [], [], clock⟩

/-- What is asked of the service, or comes back from the provider. -/
inductive Request
  | transaction (transaction : Transaction)
  | realtimeSession (inviteId : ℕ) (requestedSeconds laneCount : ℤ) (sessionId : String)
      (initialBatch : Bool)
  | key (inviteId : ℕ) (sessionId : String) (count : ℤ) (singleUse : Bool)
  | claim (mint : ℕ)
  | minted (mint : ℕ)
  | failed (mint : ℕ)
  deriving DecidableEq, Repr

/-- Whether a transaction is asked for by itself. -/
def Transaction.keyless : Transaction → Bool
  | .reserveSession .. | .reserveSessionKeys .. => false
  | .extendSessionWindow .. | .releaseSessionKeys .. => false
  | _ => true

namespace Server

/-- A reservation that comes to nothing. -/
def giveUp (store : Store) (mint : Mint) (now : ℤ) : Store :=
  if mint.opening then (store.settleSession mint.session.inviteId mint.session.id 0 now).2
  else store

/-- `/v1/realtime-session`, up to the claim. -/
def realtimeSession (server : Server) (inviteId : ℕ) (requestedSeconds laneCount : ℤ)
    (sessionId : String) (initialBatch : Bool) (now : ℤ) : Server :=
  let lanes := max 1 (min laneCount maxLanesPerSession)
  match server.store.reserveSession inviteId requestedSeconds lanes sessionId now with
  | (none, store) => { server with store := store }
  | (some session, store) =>
      { server with
        store := store
        minting := server.minting ++ [⟨session, now, streamDurationSeconds session,
          if initialBatch then lanes else 1, initialBatch, true, false⟩] }

/-- `mint_session_key`, up to the claim. -/
def sessionKey (server : Server) (inviteId : ℕ) (sessionId : String) (count : ℤ)
    (singleUse : Bool) (now : ℤ) : Server :=
  match server.store.extendSessionWindow inviteId sessionId now with
  | (none, store) => { server with store := store }
  | (some (session, streamSeconds), store) =>
      if streamSeconds ≤ 0 then { server with store := store }
      else
        { server with
          store := store
          minting := server.minting ++ [⟨session, now, streamSeconds,
            if singleUse then max 1 (min count maxKeysPerRequest) else 1, singleUse, false,
            false⟩] }

/-- The keys are claimed.  The answer is not looked at for an opening key that is shared. -/
def claim (server : Server) (index : ℕ) (mint : Mint) (now : ℤ) : Server :=
  let claimed := server.minting.set index { mint with claimed := true }
  match server.store.reserveSessionKeys mint.session.inviteId mint.session.id mint.count now with
  | (some _, store) => { server with store := store, minting := claimed }
  | (none, store) =>
      if mint.opening && !mint.singleUse then { server with store := store, minting := claimed }
      else
        { server with store := giveUp store mint now, minting := server.minting.eraseIdx index }

/-- The keys of a request, with the numbers from `first` on. -/
def keysOf (mint : Mint) (session : SessionRow) (first : ℕ) (now : ℤ) : List StreamKey :=
  (List.range mint.count.toNat).map fun offset =>
    ⟨first + offset, session, now, mint.cap, mint.singleUse⟩

/-- The keys are there, and the client gets them. -/
def handOut (server : Server) (index : ℕ) (mint : Mint) (now : ℤ) : Option Server :=
  (server.store.sessions.find? fun session => session.id = mint.session.id).map fun session =>
    { server with
      minting := server.minting.eraseIdx index
      issued := server.issued ++ keysOf mint session server.issued.length now }

/-- The provider did not make them. -/
def fail (server : Server) (index : ℕ) (mint : Mint) (now : ℤ) : Server :=
  { server with
    store := giveUp (server.store.releaseSessionKeys mint.session.id mint.count) mint now
    minting := server.minting.eraseIdx index }

/-- What a request does at a moment. -/
def serve (server : Server) (now : ℤ) : Request → Option Server
  | .transaction transaction =>
      if transaction.keyless then some { server with store := server.store.after transaction }
      else none
  | .realtimeSession inviteId requestedSeconds laneCount sessionId initialBatch =>
      some (server.realtimeSession inviteId requestedSeconds laneCount sessionId initialBatch now)
  | .key inviteId sessionId count singleUse =>
      some (server.sessionKey inviteId sessionId count singleUse now)
  | .claim index =>
      match server.minting[index]? with
      | some mint => if mint.claimed then none else some (server.claim index mint now)
      | none => none
  | .minted index =>
      match server.minting[index]? with
      | some mint => if mint.claimed then server.handOut index mint now else none
      | none => none
  | .failed index =>
      match server.minting[index]? with
      | some mint => if mint.claimed then some (server.fail index mint now) else none
      | none => none

/-- A request at a moment; the clock does not go back. -/
def step (server : Server) (event : ℤ × Request) : Option Server :=
  if server.clock ≤ event.1 then { server with clock := event.1 }.serve event.1 event.2 else none

end Server

/-! ### What keys can be used for -/

/-- How long a key may be redeemed. -/
def StreamKey.expiresSeconds (key : StreamKey) : ℤ :=
  if key.singleUse then singleUseKeyExpiresSeconds else 3600

/-- Whether a stream on the key can be open at a moment. -/
def StreamKey.usableAt (key : StreamKey) (moment : ℤ) : Bool :=
  key.handedAt ≤ moment && moment < key.handedAt + (key.expiresSeconds + key.cap) * microseconds

/-- A stream, from when to when it is open. -/
structure Stream where
  key : StreamKey
  opened : ℤ
  closed : ℤ
  deriving DecidableEq, Repr

/-- Whether the stream is open at a moment. -/
def Stream.runsAt (stream : Stream) (moment : ℤ) : Bool :=
  stream.opened ≤ moment && moment < stream.closed

/-- The streams that the provider allows with the keys of a session. -/
structure Allowed (server : Server) (sessionId : String) (streams : List Stream) : Prop where
  issued : ∀ stream ∈ streams, stream.key ∈ server.issued ∧ stream.key.session.id = sessionId
  opened : ∀ stream ∈ streams, stream.key.handedAt ≤ stream.opened ∧
    stream.opened < stream.key.handedAt + stream.key.expiresSeconds * microseconds
  closed : ∀ stream ∈ streams, stream.opened ≤ stream.closed ∧
    stream.closed ≤ stream.opened + stream.key.cap * microseconds
  once : ∀ key ∈ server.issued, key.singleUse = true →
    streams.countP (fun stream => stream.key = key) ≤ 1

/-- No stream is allowed past what was reserved. -/
structure WithinReservation (server : Server) : Prop where
  caps : ∀ key ∈ server.issued,
    key.session.laneCount * (key.handedAt + key.cap * microseconds - key.session.createdAt) ≤
      key.session.reservedSeconds * microseconds
  lanes : ∀ session ∈ server.store.sessions, ∀ streams, Allowed server session.id streams →
    ∀ moment, (streams.countP fun stream => stream.runsAt moment : ℤ) ≤ session.laneCount
  total : ∀ session ∈ server.store.sessions, ∀ streams, Allowed server session.id streams →
    (streams.map fun stream => stream.closed - stream.opened).sum ≤
      session.reservedSeconds * microseconds

/-! ### When keys are handed out in time -/

/-- The moment up to which the keys of a request can be handed out: what the rounding of
their cap leaves, and what the provider's own ceiling cuts off. -/
def Mint.deadline (mint : Mint) : ℤ :=
  let lanes := mint.session.laneCount
  let elapsed := Store.elapsedSeconds mint.session.createdAt mint.reckonedAt
  let whole := if mint.opening then 0
    else elapsed + max 0 (mint.session.reservedSeconds / lanes - elapsed -
      sonioxMaxSessionDurationSeconds)
  mint.session.createdAt + whole * microseconds +
    mint.session.reservedSeconds % lanes * microseconds / lanes

/-- The keys of a session that a stream can be open on. -/
def Server.inUse (server : Server) (sessionId : String) (moment : ℤ) : ℕ :=
  server.issued.countP fun key => key.session.id = sessionId && key.usableAt moment

/-- Keys that may be used once, handed out in time, for a reservation of a second for each
lane, and no more of them than there are lanes nothing may be streaming on. -/
def InTime (server : Server) (event : ℤ × Request) : Prop :=
  match event.2 with
  | .minted index => ∀ mint, server.minting[index]? = some mint →
      mint.singleUse = true ∧ mint.session.laneCount ≤ mint.session.reservedSeconds ∧
        event.1 ≤ mint.deadline ∧
        server.inUse mint.session.id event.1 + mint.count ≤ mint.session.laneCount
  | _ => True

instance (server : Server) (event : ℤ × Request) : Decidable (InTime server event) :=
  match event with
  | (now, .minted index) =>
      match hmint : server.minting[index]? with
      | none => isTrue fun mint hsome => by rw [hmint] at hsome; cases hsome
      | some mint =>
          decidable_of_iff (mint.singleUse = true ∧
            mint.session.laneCount ≤ mint.session.reservedSeconds ∧ now ≤ mint.deadline ∧
              server.inUse mint.session.id now + mint.count ≤ mint.session.laneCount)
            ⟨fun h other hsome => by
              obtain rfl := Option.some.inj (hmint.symm.trans hsome)
              exact h, fun h => h mint hmint⟩
  | (_, .transaction _) => isTrue trivial
  | (_, .realtimeSession ..) => isTrue trivial
  | (_, .key ..) => isTrue trivial
  | (_, .claim _) => isTrue trivial
  | (_, .failed _) => isTrue trivial

end Invite
end ZuTalk
