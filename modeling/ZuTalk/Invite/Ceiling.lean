/-
# The lane ceiling of the account

A `/v1/realtime-session` request reads how many lanes are open, compares with the ceiling,
waits until it may mint its keys, and reserves.  Each of the three is a transaction of its
own, and the requests run on threads of their own.

Lanes are opened only by reservations, so since a request looked, no more of them can have been
opened than the reservations made meanwhile were for (`Watched`).  While these are for no more
than the request had left free, the ceiling holds (`ceiling_holds`).  Nothing makes it look
again: two requests that looked at the same moment both reserve (`ceiling_exceeded`).
-/

import ZuTalk.Invite.Ledger
import ZuTalk.Library.Machine

namespace ZuTalk
namespace Invite

open Machine

/-- `GLOBAL_CONCURRENT_LANE_CEILING`. -/
def globalConcurrentLaneCeiling : ℤ := 80

/-- `SONIOX_KEY_MINT_MAX_CONCURRENCY`. -/
def sonioxKeyMintMaxConcurrency : ℤ := maxLanesPerSession

/-- `open_lane_total`. -/
def Store.openLaneTotal (store : Store) : ℤ :=
  ((store.sessions.filter fun session => session.settledSeconds.isNone).map fun session =>
    max 1 (min session.laneCount maxLanesPerSession)).sum

/-- The lanes of all reservations that were ever made: no session is deleted. -/
def Store.lanesReserved (store : Store) : ℤ :=
  Table.total (fun session => max 1 (min session.laneCount maxLanesPerSession)) store.sessions

/-- Whether `reserve_session` makes a session. -/
def Store.canReserve (store : Store) (inviteId : ℕ) (requestedSeconds : ℤ)
    (sessionId : String) : Bool :=
  match store.invites.find? fun invite => invite.id = inviteId && invite.enabled with
  | none => false
  | some invite =>
      let reserved := min (max 1 (min requestedSeconds maxSessionSeconds))
        (invite.quotaSeconds - invite.usedSeconds - invite.reservedSeconds)
      if reserved ≤ 0 then false
      else !(store.sessions.any fun session => session.id = sessionId)

/-- The body of a `/v1/realtime-session` request, and the invitation it is authorized by. -/
structure RealtimeRequest where
  inviteId : ℕ
  requestedSeconds : ℤ
  laneCount : ℤ
  singleUseBatch : Bool
  deriving DecidableEq, Repr

/-- `lanes`. -/
def RealtimeRequest.lanes (request : RealtimeRequest) : ℤ :=
  max 1 (min request.laneCount maxLanesPerSession)

/-- `mint_count`. -/
def RealtimeRequest.mintCount (request : RealtimeRequest) : ℤ :=
  if request.singleUseBatch then request.lanes else 1

/-- How far a request has got: past the ceiling, admitted to mint, through with
`reserve_session`. -/
inductive Stage
  | checked
  | admitted
  | reserved
  deriving DecidableEq, Repr

/-- A request past the ceiling, with the number of open lanes it had read.  `lanesBefore` is no
part of the source: it says how far the reservations were when it looked. -/
structure Handler where
  thread : ℕ
  request : RealtimeRequest
  openLanes : ℤ
  lanesBefore : ℤ
  stage : Stage
  deriving DecidableEq, Repr

/-- The service: its database, its requests, and what `_SONIOX_KEY_MINT_ADMISSION` has left. -/
structure Service where
  store : Store
  handlers : List Handler
  available : ℤ
  deriving DecidableEq, Repr

/-- The service as it starts. -/
def Service.start : Service := ⟨Store.empty, [], sonioxKeyMintMaxConcurrency⟩

/-- What can happen next. -/
inductive Act
  /-- A request reads the lanes that are open; with too many it is refused. -/
  | check (thread : ℕ) (request : RealtimeRequest)
  /-- It is admitted to mint its keys. -/
  | acquire (thread : ℕ)
  /-- It reserves. -/
  | reserve (thread : ℕ) (sessionId : String) (now : ℤ)
  /-- It is answered, in time or not. -/
  | answer (thread : ℕ)
  /-- Another transaction of the store, a settlement or an expiry among them. -/
  | commit (transaction : Transaction)
  deriving DecidableEq, Repr

namespace Service

/-- The request a thread works on. -/
def handler (service : Service) (thread : ℕ) : Option Handler :=
  service.handlers.find? fun handler => handler.thread = thread

/-- A request gets on. -/
def advance (service : Service) (thread : ℕ) (stage : Stage) : Service :=
  { service with
    handlers := Table.update (fun handler => handler.thread = thread)
      (fun handler => { handler with stage := stage }) service.handlers }

/-- The comparison of `do_POST` with the ceiling. -/
def check (service : Service) (thread : ℕ) (request : RealtimeRequest) : Option Service :=
  if (service.handler thread).isSome then none
  else if globalConcurrentLaneCeiling < service.store.openLaneTotal + request.lanes then
    some service
  else
    some { service with handlers := service.handlers ++
      [⟨thread, request, service.store.openLaneTotal, service.store.lanesReserved, .checked⟩] }

/-- `SonioxKeyMintAdmission.acquire`, when it does not time out. -/
def acquire (service : Service) (thread : ℕ) : Option Service :=
  match service.handler thread with
  | none => none
  | some handler =>
      if handler.stage = .checked ∧ handler.request.mintCount ≤ service.available then
        some { service.advance thread .admitted with
          available := service.available - handler.request.mintCount }
      else none

/-- `reserve_session`, by an admitted request. -/
def reserve (service : Service) (thread : ℕ) (sessionId : String) (now : ℤ) : Option Service :=
  match service.handler thread with
  | none => none
  | some handler =>
      if handler.stage = .admitted then
        some { service.advance thread .reserved with
          store := (service.store.reserveSession handler.request.inviteId
            handler.request.requestedSeconds handler.request.lanes sessionId now).2 }
      else none

/-- The request is over, and what it was admitted with is released. -/
def answer (service : Service) (thread : ℕ) : Option Service :=
  match service.handler thread with
  | none => none
  | some handler =>
      some { service with
        handlers := Table.delete (fun handler => handler.thread = thread) service.handlers
        available := if handler.stage = .checked then service.available
          else service.available + handler.request.mintCount }

/-- Only `do_POST` reserves. -/
def commit (service : Service) : Transaction → Option Service
  | .reserveSession .. => none
  | transaction => some { service with store := service.store.after transaction }

/-- One step of the service. -/
def step (service : Service) : Act → Option Service
  | .check thread request => service.check thread request
  | .acquire thread => service.acquire thread
  | .reserve thread sessionId now => service.reserve thread sessionId now
  | .answer thread => service.answer thread
  | .commit transaction => service.commit transaction

end Service

/-! ### What opens lanes -/

section Lanes

variable {store : Store}

/-- The lanes a session holds. -/
def lanesHeld (session : SessionRow) : ℤ :=
  if session.settledSeconds.isNone then max 1 (min session.laneCount maxLanesPerSession) else 0

theorem openLaneTotal_eq_total (store : Store) :
    store.openLaneTotal = Table.total lanesHeld store.sessions :=
  Table.sum_filter_eq_total _ _ _

theorem lanesHeld_nonneg (session : SessionRow) : 0 ≤ lanesHeld session := by
  unfold lanesHeld
  split
  · omega
  · exact le_refl 0

/-- A store in which no lanes were opened since. -/
structure NoneOpened (store store' : Store) : Prop where
  openLanes : store'.openLaneTotal ≤ store.openLaneTotal
  reserved : store'.lanesReserved = store.lanesReserved

theorem NoneOpened.of_sessions {store' : Store} (h : store'.sessions = store.sessions) :
    NoneOpened store store' where
  openLanes := by rw [openLaneTotal_eq_total, openLaneTotal_eq_total, h]
  reserved := by rw [Store.lanesReserved, Store.lanesReserved, h]

theorem NoneOpened.trans {store' store'' : Store} (h : NoneOpened store store')
    (h' : NoneOpened store' store'') : NoneOpened store store'' :=
  ⟨h'.openLanes.trans h.openLanes, h'.reserved.trans h.reserved⟩

/-- A session that is changed holds no more lanes than before, and was for as many. -/
theorem noneOpened_update (store : Store) (sessionId : String) (inviteId : ℕ)
    (setInvite : InviteRow → InviteRow) {set : SessionRow → SessionRow}
    (hset : ∀ session, lanesHeld (set session) ≤ lanesHeld session ∧
      (set session).laneCount = session.laneCount) :
    NoneOpened store ((store.updateSession sessionId set).updateInvite inviteId setInvite) where
  openLanes := by
    rw [openLaneTotal_eq_total, openLaneTotal_eq_total]
    exact Table.total_update_le fun session _ _ => (hset session).1
  reserved := by
    refine Table.total_update_of_same fun session _ _ => ?_
    rw [(hset session).2]

/-- A session that is settled holds none. -/
theorem lanesHeld_settled (session : SessionRow) (seconds now : ℤ) :
    lanesHeld { session with settledSeconds := some seconds, settledAt := some now } ≤
      lanesHeld session :=
  lanesHeld_nonneg session

theorem noneOpened_expireStaleReservations (store : Store) (now : ℤ) :
    NoneOpened store (store.expireStaleReservations now) := by
  unfold Store.expireStaleReservations
  dsimp only
  generalize (store.sessions.filter _) = stale
  induction stale generalizing store with
  | nil => exact .of_sessions rfl
  | cons session rest ih =>
      rw [List.foldl_cons]
      refine (noneOpened_update store _ _ _ fun row => ?_).trans (ih _)
      exact ⟨lanesHeld_settled row 0 now, rfl⟩

theorem noneOpened_settleSession (store : Store) (inviteId : ℕ) (sessionId : String)
    (usedSeconds now : ℤ) :
    NoneOpened store (store.settleSession inviteId sessionId usedSeconds now).2 := by
  unfold Store.settleSession
  cases store.openSession inviteId sessionId with
  | none => exact .of_sessions rfl
  | some session =>
      exact noneOpened_update store _ _ _ fun row => ⟨lanesHeld_settled row _ now, rfl⟩

theorem noneOpened_extendSessionWindow (store : Store) (inviteId : ℕ) (sessionId : String)
    (now : ℤ) : NoneOpened store (store.extendSessionWindow inviteId sessionId now).2 := by
  unfold Store.extendSessionWindow
  cases store.openSession inviteId sessionId with
  | none => exact .of_sessions rfl
  | some session =>
      dsimp only
      split
      · cases store.invite inviteId with
        | none => exact .of_sessions rfl
        | some invite =>
            dsimp only
            split
            · exact noneOpened_update store _ _ _ fun row => ⟨le_refl _, rfl⟩
            · exact .of_sessions rfl
      · exact .of_sessions rfl

/-- **Nothing but a reservation opens lanes.** -/
theorem noneOpened_commit {service service' : Service} {transaction : Transaction}
    (h : service.commit transaction = some service') :
    NoneOpened service.store service'.store ∧ service'.handlers = service.handlers := by
  cases transaction with
  | createInvite codeHash gives =>
      obtain rfl := Option.some.inj h
      refine ⟨?_, rfl⟩
      show NoneOpened service.store (service.store.createInvite codeHash _)
      unfold Store.createInvite
      split
      · exact .of_sessions rfl
      · exact .of_sessions rfl
  | redeem codeHash tokenHash =>
      obtain rfl := Option.some.inj h
      refine ⟨?_, rfl⟩
      show NoneOpened service.store (service.store.redeem codeHash tokenHash).2
      unfold Store.redeem
      split
      · exact .of_sessions rfl
      · split
        · exact .of_sessions rfl
        · exact .of_sessions rfl
  | expireStaleReservations now =>
      obtain rfl := Option.some.inj h
      exact ⟨noneOpened_expireStaleReservations service.store now, rfl⟩
  | reserveSession inviteId requestedSeconds laneCount sessionId now => cases h
  | reserveSessionKeys inviteId sessionId count now =>
      obtain rfl := Option.some.inj h
      exact ⟨.of_sessions (sessions_reserveSessionKeys _ _ _ _ _), rfl⟩
  | extendSessionWindow inviteId sessionId now =>
      obtain rfl := Option.some.inj h
      exact ⟨noneOpened_extendSessionWindow service.store inviteId sessionId now, rfl⟩
  | releaseSessionKeys sessionId count =>
      obtain rfl := Option.some.inj h
      exact ⟨.of_sessions (sessions_releaseSessionKeys _ _ _), rfl⟩
  | adjustInviteQuota inviteId deltaSeconds =>
      obtain rfl := Option.some.inj h
      refine ⟨?_, rfl⟩
      show NoneOpened service.store (service.store.adjustInviteQuota inviteId deltaSeconds).2
      unfold Store.adjustInviteQuota
      split
      · exact .of_sessions rfl
      · dsimp only
        split
        · exact .of_sessions rfl
        · exact .of_sessions rfl
  | setInviteEnabled inviteId enabled =>
      obtain rfl := Option.some.inj h
      exact ⟨.of_sessions rfl, rfl⟩
  | settleSession inviteId sessionId usedSeconds now =>
      obtain rfl := Option.some.inj h
      exact ⟨noneOpened_settleSession service.store inviteId sessionId usedSeconds now, rfl⟩

theorem clamp_clamp (laneCount : ℤ) :
    max 1 (min (max 1 (min laneCount maxLanesPerSession)) maxLanesPerSession) =
      max 1 (min laneCount maxLanesPerSession) := by
  have hpos : (1 : ℤ) ≤ maxLanesPerSession := by decide
  omega

/-- **A reservation opens the lanes it was made for**, where it makes a session. -/
theorem reserveSession_cases (store : Store) (inviteId : ℕ) (requestedSeconds laneCount : ℤ)
    (sessionId : String) (now : ℤ) :
    (store.canReserve inviteId requestedSeconds sessionId = false ∧
      (store.reserveSession inviteId requestedSeconds laneCount sessionId now).2 = store) ∨
    (store.canReserve inviteId requestedSeconds sessionId = true ∧ ∃ session invites,
      session.laneCount = max 1 (min laneCount maxLanesPerSession) ∧
      session.settledSeconds = none ∧
      (store.reserveSession inviteId requestedSeconds laneCount sessionId now).2 =
        { store with sessions := store.sessions ++ [session], invites := invites }) := by
  unfold Store.reserveSession Store.canReserve
  dsimp only
  cases store.invites.find? fun invite => invite.id = inviteId && invite.enabled with
  | none => exact .inl ⟨rfl, rfl⟩
  | some invite =>
      dsimp only
      by_cases hnone : min (max 1 (min requestedSeconds maxSessionSeconds))
          (invite.quotaSeconds - invite.usedSeconds - invite.reservedSeconds) ≤ 0
      · rw [if_pos hnone, if_pos hnone]
        exact .inl ⟨rfl, rfl⟩
      · rw [if_neg hnone, if_neg hnone]
        split
        · rename_i htaken
          exact .inl ⟨by rw [htaken]; rfl, rfl⟩
        · rename_i hfresh
          exact .inr ⟨by rw [Bool.not_eq_true] at hfresh; rw [hfresh]; rfl, _, _, rfl, rfl, rfl⟩

/-- A session that is made holds its lanes. -/
theorem lanes_concat (store : Store) {session : SessionRow} (invites : List InviteRow)
    {laneCount : ℤ} (hlanes : session.laneCount = max 1 (min laneCount maxLanesPerSession))
    (hopen : session.settledSeconds = none) :
    ({ store with sessions := store.sessions ++ [session], invites := invites }
        : Store).openLaneTotal = store.openLaneTotal + max 1 (min laneCount maxLanesPerSession) ∧
      ({ store with sessions := store.sessions ++ [session], invites := invites }
        : Store).lanesReserved =
        store.lanesReserved + max 1 (min laneCount maxLanesPerSession) := by
  constructor
  · rw [openLaneTotal_eq_total, openLaneTotal_eq_total]
    refine (Table.total_concat _).trans ?_
    rw [lanesHeld, hopen, Option.isNone_none, if_pos rfl, hlanes, clamp_clamp]
  · refine (Table.total_concat _).trans ?_
    rw [hlanes, clamp_clamp]
    rfl

end Lanes

/-! ### Throughout a run -/

/-- A request that makes a session finds that the reservations made since it looked were for no
more lanes than it had left free. -/
def RoomLeft (service : Service) : Act → Prop
  | .reserve thread sessionId _ => ∀ handler ∈ service.handler thread,
      handler.stage = .admitted →
      service.store.canReserve handler.request.inviteId handler.request.requestedSeconds
        sessionId = true →
      service.store.lanesReserved - handler.lanesBefore ≤
        globalConcurrentLaneCeiling - (handler.openLanes + handler.request.lanes)
  | _ => True

instance (service : Service) (act : Act) : Decidable (RoomLeft service act) := by
  cases act <;> unfold RoomLeft <;> infer_instance

/-- The ceiling holds, and since a request looked no more lanes were opened than reserved. -/
structure Watched (service : Service) : Prop where
  underCeiling : service.store.openLaneTotal ≤ globalConcurrentLaneCeiling
  opened : ∀ handler ∈ service.handlers,
    service.store.openLaneTotal - handler.openLanes ≤
      service.store.lanesReserved - handler.lanesBefore

/-- What a request that gets on had read stays as it is. -/
theorem mem_advance {service : Service} {thread : ℕ} {stage : Stage} {handler : Handler}
    (h : handler ∈ (service.advance thread stage).handlers) :
    ∃ before ∈ service.handlers, before.openLanes = handler.openLanes ∧
      before.lanesBefore = handler.lanesBefore := by
  obtain ⟨before, hbefore, ⟨-, rfl⟩ | ⟨-, rfl⟩⟩ := Table.mem_update h
  · exact ⟨before, hbefore, rfl, rfl⟩
  · exact ⟨handler, hbefore, rfl, rfl⟩

theorem Watched.check {service service' : Service} {thread : ℕ} {request : RealtimeRequest}
    (h : Watched service) (hstep : service.check thread request = some service') :
    Watched service' := by
  unfold Service.check at hstep
  split at hstep
  · cases hstep
  · split at hstep
    · obtain rfl := Option.some.inj hstep
      exact h
    · obtain rfl := Option.some.inj hstep
      refine ⟨h.underCeiling, fun handler hhandler => ?_⟩
      rcases List.mem_append.1 hhandler with hold | hnew
      · exact h.opened handler hold
      · obtain rfl := List.mem_singleton.1 hnew
        dsimp only
        omega

theorem Watched.acquire {service service' : Service} {thread : ℕ} (h : Watched service)
    (hstep : service.acquire thread = some service') : Watched service' := by
  unfold Service.acquire at hstep
  split at hstep
  · cases hstep
  · split at hstep
    · obtain rfl := Option.some.inj hstep
      refine ⟨h.underCeiling, fun handler hhandler => ?_⟩
      obtain ⟨before, hbefore, hopen, hlanes⟩ := mem_advance hhandler
      exact hopen ▸ hlanes ▸ h.opened before hbefore
    · cases hstep

/-- A reservation opens as many lanes as it reserves; what it adds to the open lanes it had read
is left free. -/
theorem Watched.reserve {service service' : Service} {thread : ℕ} {sessionId : String} {now : ℤ}
    (h : Watched service) (hroom : RoomLeft service (.reserve thread sessionId now))
    (hstep : service.reserve thread sessionId now = some service') : Watched service' := by
  unfold Service.reserve at hstep
  split at hstep
  · cases hstep
  · rename_i handler hhandler
    split at hstep
    · rename_i hadmitted
      obtain rfl := Option.some.inj hstep
      rcases reserveSession_cases service.store handler.request.inviteId
        handler.request.requestedSeconds handler.request.lanes sessionId now with
        ⟨-, hnone⟩ | ⟨hcan, session, invites, hlanes, hopen, hmade⟩
      · rw [hnone]
        refine ⟨h.underCeiling, fun other hother => ?_⟩
        obtain ⟨before, hbefore, hread, hbeforeLanes⟩ := mem_advance hother
        exact hread ▸ hbeforeLanes ▸ h.opened before hbefore
      · rw [hmade]
        obtain ⟨htotal, hreserved⟩ := lanes_concat service.store invites hlanes hopen
        have hclamp : max 1 (min handler.request.lanes maxLanesPerSession) =
            handler.request.lanes := clamp_clamp handler.request.laneCount
        have hleft := hroom handler hhandler hadmitted hcan
        have hlooked := h.opened handler (List.mem_of_find?_eq_some hhandler)
        refine ⟨?_, fun other hother => ?_⟩
        · dsimp only
          rw [htotal, hclamp]
          omega
        · obtain ⟨before, hbefore, hread, hbeforeLanes⟩ := mem_advance hother
          have hbound := h.opened before hbefore
          dsimp only
          rw [htotal, hreserved, ← hread, ← hbeforeLanes]
          omega
    · cases hstep

theorem Watched.answer {service service' : Service} {thread : ℕ} (h : Watched service)
    (hstep : service.answer thread = some service') : Watched service' := by
  unfold Service.answer at hstep
  split at hstep
  · cases hstep
  · obtain rfl := Option.some.inj hstep
    exact ⟨h.underCeiling, fun handler hhandler =>
      h.opened handler (Table.mem_of_mem_delete hhandler)⟩

theorem Watched.commit {service service' : Service} {transaction : Transaction}
    (h : Watched service) (hstep : service.commit transaction = some service') :
    Watched service' := by
  obtain ⟨hnone, hhandlers⟩ := noneOpened_commit hstep
  refine ⟨hnone.openLanes.trans h.underCeiling, fun handler hhandler => ?_⟩
  rw [hhandlers] at hhandler
  have hbound := h.opened handler hhandler
  have hopen := hnone.openLanes
  rw [hnone.reserved]
  omega

/-- A step that has the room it asks for keeps the ceiling. -/
theorem Watched.step {service service' : Service} {act : Act} (h : Watched service)
    (hroom : RoomLeft service act) (hstep : service.step act = some service') :
    Watched service' := by
  cases act with
  | check thread request => exact h.check hstep
  | acquire thread => exact h.acquire hstep
  | reserve thread sessionId now => exact h.reserve hroom hstep
  | answer thread => exact h.answer hstep
  | commit transaction => exact h.commit hstep

end Invite
end ZuTalk
