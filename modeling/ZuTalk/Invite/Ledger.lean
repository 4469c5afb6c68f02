/-
# The ledger of an invitation

Five operations move the same seconds between three columns in two tables.  `Balanced`
says how the columns of an invitation relate to the rows of its sessions.  Whatever moves
seconds changes one session and its invitation by the same amount (`Balanced.transfer`),
so each operation keeps the ledger balanced, and a session that is settled stays as it is
(`Keeps`).
-/

import ZuTalk.Invite.Store

namespace ZuTalk
namespace Invite

/-- What the unsettled sessions of an invitation have reserved. -/
def reservedOf (store : Store) (inviteId : ℕ) : ℤ :=
  ((store.sessions.filter fun session =>
    session.inviteId = inviteId && session.settledSeconds.isNone).map
      SessionRow.reservedSeconds).sum

/-- What the settled sessions of an invitation were charged. -/
def settledOf (store : Store) (inviteId : ℕ) : ℤ :=
  ((store.sessions.filter fun session =>
    session.inviteId = inviteId && session.settledSeconds.isSome).map fun session =>
      session.settledSeconds.getD 0).sum

/-- What a session holds of its invitation. -/
def held (session : SessionRow) : ℤ :=
  if session.settledSeconds.isNone then session.reservedSeconds else 0

/-- What a session was charged. -/
def charged (session : SessionRow) : ℤ :=
  if session.settledSeconds.isSome then session.settledSeconds.getD 0 else 0

/-- The amount, if the session is of the invitation. -/
def ofInvite (inviteId : ℕ) (amount : SessionRow → ℤ) (session : SessionRow) : ℤ :=
  if session.inviteId = inviteId then amount session else 0

theorem reservedOf_eq_total (store : Store) (inviteId : ℕ) :
    reservedOf store inviteId = Table.total (ofInvite inviteId held) store.sessions := by
  unfold reservedOf
  rw [Table.sum_filter_eq_total]
  refine Table.total_congr fun session _ => ?_
  by_cases heq : session.inviteId = inviteId
  · simp [ofInvite, held, heq]
  · simp [ofInvite, heq]

theorem settledOf_eq_total (store : Store) (inviteId : ℕ) :
    settledOf store inviteId = Table.total (ofInvite inviteId charged) store.sessions := by
  unfold settledOf
  rw [Table.sum_filter_eq_total]
  refine Table.total_congr fun session _ => ?_
  by_cases heq : session.inviteId = inviteId
  · simp [ofInvite, charged, heq]
  · simp [ofInvite, heq]

/-- A session has reserved something, and it is charged no more than that. -/
def Charged (session : SessionRow) : Prop :=
  0 < session.reservedSeconds ∧
    ∀ seconds, session.settledSeconds = some seconds →
      0 ≤ seconds ∧ seconds ≤ session.reservedSeconds

/-- The ledger of a database. -/
structure Balanced (store : Store) : Prop where
  inviteIds : Table.Distinct InviteRow.id store.invites
  sessionIds : Table.Distinct SessionRow.id store.sessions
  belongs : ∀ session ∈ store.sessions, ∃ invite ∈ store.invites, invite.id = session.inviteId
  keysBelong : ∀ key ∈ store.keys, ∃ session ∈ store.sessions, session.id = key.sessionId
  charges : ∀ session ∈ store.sessions, Charged session
  reserved : ∀ invite ∈ store.invites, invite.reservedSeconds = reservedOf store invite.id
  used : ∀ invite ∈ store.invites, invite.usedSeconds = settledOf store invite.id
  within : ∀ invite ∈ store.invites,
    invite.usedSeconds + invite.reservedSeconds ≤ invite.quotaSeconds
  budget : ∀ session ∈ store.sessions,
    (store.issuedKeys session.id : ℤ) ≤ sessionKeyBudget session.laneCount

/-- Sessions that were settled are as they were. -/
def Keeps (store store' : Store) : Prop :=
  ∀ session ∈ store.sessions, session.settledSeconds ≠ none → session ∈ store'.sessions

theorem Keeps.refl (store : Store) : Keeps store store := fun _ hmem _ => hmem

theorem Keeps.trans {store store' store'' : Store} (h : Keeps store store')
    (h' : Keeps store' store'') : Keeps store store'' :=
  fun session hmem hsettled => h' session (h session hmem hsettled) hsettled

section Amounts

variable {session : SessionRow}

theorem Charged.held_nonneg (h : Charged session) : 0 ≤ held session := by
  have hpos := h.1
  unfold held
  split
  · omega
  · exact le_refl 0

theorem Charged.charged_nonneg (h : Charged session) : 0 ≤ charged session := by
  unfold charged
  cases hsettled : session.settledSeconds with
  | none => exact le_refl 0
  | some seconds => exact (h.2 seconds hsettled).1

end Amounts

theorem Balanced.reserved_nonneg {store : Store} (h : Balanced store) {invite : InviteRow}
    (hinvite : invite ∈ store.invites) : 0 ≤ invite.reservedSeconds := by
  rw [h.reserved invite hinvite, reservedOf_eq_total]
  refine Table.total_nonneg fun session hsession => ?_
  have hheld := (h.charges session hsession).held_nonneg
  unfold ofInvite
  split
  · exact hheld
  · exact le_refl 0

theorem Balanced.used_nonneg {store : Store} (h : Balanced store) {invite : InviteRow}
    (hinvite : invite ∈ store.invites) : 0 ≤ invite.usedSeconds := by
  rw [h.used invite hinvite, settledOf_eq_total]
  refine Table.total_nonneg fun session hsession => ?_
  have hcharged := (h.charges session hsession).charged_nonneg
  unfold ofInvite
  split
  · exact hcharged
  · exact le_refl 0

theorem Balanced.empty : Balanced Store.empty where
  inviteIds := List.nodup_nil
  sessionIds := List.nodup_nil
  belongs := by intro _ h; cases h
  keysBelong := by intro _ h; cases h
  charges := by intro _ h; cases h
  reserved := by intro _ h; cases h
  used := by intro _ h; cases h
  within := by intro _ h; cases h
  budget := by intro _ h; cases h

/-! ### Moving seconds -/

/-- How a change of a session and the one of its invitation belong together. -/
structure Transfer (store : Store) (session : SessionRow) (setSession : SessionRow → SessionRow)
    (setInvite : InviteRow → InviteRow) : Prop where
  id : ∀ row, (setSession row).id = row.id
  inviteId : ∀ row, (setSession row).inviteId = row.inviteId
  laneCount : ∀ row, (setSession row).laneCount = row.laneCount
  charges : Charged (setSession session)
  ofId : ∀ row, (setInvite row).id = row.id
  quota : ∀ row, (setInvite row).quotaSeconds = row.quotaSeconds
  reserved : ∀ row, (setInvite row).reservedSeconds =
    row.reservedSeconds + (held (setSession session) - held session)
  used : ∀ row, (setInvite row).usedSeconds =
    row.usedSeconds + (charged (setSession session) - charged session)
  within : ∀ invite ∈ store.invites, invite.id = session.inviteId →
    (setInvite invite).usedSeconds + (setInvite invite).reservedSeconds ≤ invite.quotaSeconds

section Transfer

variable {store : Store} {session : SessionRow} {setSession : SessionRow → SessionRow}
  {setInvite : InviteRow → InviteRow}

/-- The amounts of an invitation after one session was changed. -/
theorem total_of_transfer (h : Balanced store) (hsession : session ∈ store.sessions)
    (hinviteId : ∀ row, (setSession row).inviteId = row.inviteId) (amount : SessionRow → ℤ)
    (inviteId : ℕ) :
    Table.total (ofInvite inviteId amount)
        (Table.update (fun row => row.id = session.id) setSession store.sessions) =
      Table.total (ofInvite inviteId amount) store.sessions +
        (if session.inviteId = inviteId then amount (setSession session) - amount session
          else 0) := by
  rw [Table.total_update h.sessionIds hsession fun row _ => decide_eq_true_iff]
  unfold ofInvite
  rw [hinviteId]
  split
  · rfl
  · rfl

/-- **Moving seconds** keeps the ledger balanced. -/
theorem Balanced.transfer (h : Balanced store) (hsession : session ∈ store.sessions)
    (hmove : Transfer store session setSession setInvite) :
    Balanced ((store.updateSession session.id setSession).updateInvite session.inviteId
      setInvite) where
  inviteIds := h.inviteIds.update hmove.ofId
  sessionIds := h.sessionIds.update hmove.id
  belongs := by
    intro row' hrow'
    obtain ⟨row, hrow, hid⟩ : ∃ row ∈ store.sessions, row'.inviteId = row.inviteId := by
      obtain ⟨row, hrow, ⟨-, rfl⟩ | ⟨-, rfl⟩⟩ := Table.mem_update hrow'
      · exact ⟨row, hrow, hmove.inviteId row⟩
      · exact ⟨row', hrow, rfl⟩
    rw [hid]
    exact Table.exists_key_update hmove.ofId (h.belongs row hrow)
  keysBelong := fun key hkey => Table.exists_key_update hmove.id (h.keysBelong key hkey)
  charges := by
    refine Table.forall_update h.charges fun row hrow hselected _ => ?_
    rw [Table.eq_of_key_eq h.sessionIds hrow hsession (of_decide_eq_true hselected)]
    exact hmove.charges
  reserved := by
    intro invite' hinvite'
    rw [reservedOf_eq_total]
    refine Eq.trans ?_ (total_of_transfer h hsession hmove.inviteId held invite'.id).symm
    obtain ⟨invite, hinvite, ⟨hselected, rfl⟩ | ⟨hselected, rfl⟩⟩ := Table.mem_update hinvite'
    · have hid : invite.id = session.inviteId := of_decide_eq_true hselected
      rw [hmove.ofId, hmove.reserved, h.reserved invite hinvite, reservedOf_eq_total,
        if_pos hid.symm]
    · have hid : session.inviteId ≠ invite'.id := fun heq => of_decide_eq_false hselected heq.symm
      rw [h.reserved invite' hinvite, reservedOf_eq_total, if_neg hid, add_zero]
  used := by
    intro invite' hinvite'
    rw [settledOf_eq_total]
    refine Eq.trans ?_ (total_of_transfer h hsession hmove.inviteId charged invite'.id).symm
    obtain ⟨invite, hinvite, ⟨hselected, rfl⟩ | ⟨hselected, rfl⟩⟩ := Table.mem_update hinvite'
    · have hid : invite.id = session.inviteId := of_decide_eq_true hselected
      rw [hmove.ofId, hmove.used, h.used invite hinvite, settledOf_eq_total, if_pos hid.symm]
    · have hid : session.inviteId ≠ invite'.id := fun heq => of_decide_eq_false hselected heq.symm
      rw [h.used invite' hinvite, settledOf_eq_total, if_neg hid, add_zero]
  within := by
    refine Table.forall_update h.within fun invite hinvite hselected _ => ?_
    rw [hmove.quota]
    exact hmove.within invite hinvite (of_decide_eq_true hselected)
  budget := by
    refine Table.forall_update h.budget fun row _ _ hbudget => ?_
    rw [hmove.id, hmove.laneCount]
    exact hbudget

/-- A session that is settled is not the one that is changed. -/
theorem keeps_transfer (h : Balanced store) (hsession : session ∈ store.sessions)
    (hopen : session.settledSeconds = none) :
    Keeps store ((store.updateSession session.id setSession).updateInvite session.inviteId
      setInvite) := by
  intro row hrow hsettled
  refine List.mem_map.2 ⟨row, hrow, if_neg fun hid => hsettled ?_⟩
  rw [Table.eq_of_key_eq h.sessionIds hrow hsession (of_decide_eq_true hid)]
  exact hopen

end Transfer

/-! ### The operations -/

section Operations

variable {store : Store}

theorem mem_of_invite {inviteId : ℕ} {invite : InviteRow}
    (h : store.invite inviteId = some invite) : invite ∈ store.invites ∧ invite.id = inviteId := by
  have hfound := List.find?_some (p := fun row : InviteRow => decide (row.id = inviteId)) h
  exact ⟨List.mem_of_find?_eq_some h, of_decide_eq_true hfound⟩

theorem mem_of_openSession {inviteId : ℕ} {sessionId : String} {session : SessionRow}
    (h : store.openSession inviteId sessionId = some session) :
    session ∈ store.sessions ∧ session.id = sessionId ∧ session.inviteId = inviteId ∧
      session.settledSeconds = none := by
  unfold Store.openSession at h
  have hfound := List.find?_some h
  simp only [Bool.and_eq_true, decide_eq_true_eq, Option.isNone_iff_eq_none] at hfound
  exact ⟨List.mem_of_find?_eq_some h, hfound.1.1, hfound.1.2, hfound.2⟩

/-- What an invitation is worth may change as long as it covers what is spent and held. -/
theorem Balanced.updateInvite (h : Balanced store) {inviteId : ℕ} {set : InviteRow → InviteRow}
    (hid : ∀ row, (set row).id = row.id) (hused : ∀ row, (set row).usedSeconds = row.usedSeconds)
    (hreserved : ∀ row, (set row).reservedSeconds = row.reservedSeconds)
    (hwithin : ∀ invite ∈ store.invites, invite.id = inviteId →
      invite.usedSeconds + invite.reservedSeconds ≤ (set invite).quotaSeconds) :
    Balanced (store.updateInvite inviteId set) where
  inviteIds := h.inviteIds.update hid
  sessionIds := h.sessionIds
  belongs := fun session hsession => Table.exists_key_update hid (h.belongs session hsession)
  keysBelong := h.keysBelong
  charges := h.charges
  reserved := by
    refine Table.forall_update h.reserved fun invite hinvite _ hreservedOf => ?_
    rw [hreserved, hid]
    exact hreservedOf
  used := by
    refine Table.forall_update h.used fun invite hinvite _ husedOf => ?_
    rw [hused, hid]
    exact husedOf
  within := by
    refine Table.forall_update h.within fun invite hinvite hselected _ => ?_
    rw [hused, hreserved]
    exact hwithin invite hinvite (of_decide_eq_true hselected)
  budget := h.budget

theorem le_foldl_max (ids : List ℕ) (start id : ℕ) (h : id ∈ ids ∨ id ≤ start) :
    id ≤ ids.foldl max start := by
  induction ids generalizing start with
  | nil => exact h.resolve_left (by intro hmem; cases hmem)
  | cons first rest ih =>
      refine ih (max start first) ?_
      rcases h with hmem | hle
      · rcases List.mem_cons.1 hmem with rfl | hrest
        · exact .inr (le_max_right _ _)
        · exact .inl hrest
      · exact .inr (hle.trans (le_max_left _ _))

/-- An invitation no session refers to has nothing reserved or charged. -/
theorem total_of_unused (h : ∀ session ∈ store.sessions, session.inviteId ≠ inviteId)
    (amount : SessionRow → ℤ) : Table.total (ofInvite inviteId amount) store.sessions = 0 := by
  have hzero : Table.total (ofInvite inviteId amount) store.sessions =
      Table.total (fun _ => 0) store.sessions :=
    Table.total_congr fun session hsession => if_neg (h session hsession)
  rw [hzero]
  simp [Table.total]

theorem balanced_createInvite (h : Balanced store) (codeHash : String) {quotaSeconds : ℤ}
    (hquota : 0 ≤ quotaSeconds) : Balanced (store.createInvite codeHash quotaSeconds) := by
  unfold Store.createInvite
  split
  · exact h
  · have hfresh : ∀ invite ∈ store.invites,
        invite.id ≠ (store.invites.map InviteRow.id).foldl max 0 + 1 := by
      intro invite hinvite heq
      have hle := le_foldl_max (store.invites.map InviteRow.id) 0 invite.id
        (.inl (List.mem_map_of_mem hinvite))
      omega
    have hunused : ∀ session ∈ store.sessions,
        session.inviteId ≠ (store.invites.map InviteRow.id).foldl max 0 + 1 := by
      intro session hsession heq
      obtain ⟨invite, hinvite, hid⟩ := h.belongs session hsession
      exact hfresh invite hinvite (hid.trans heq)
    refine { h with inviteIds := ?_, belongs := ?_, reserved := ?_, used := ?_, within := ?_ }
    · unfold Table.Distinct
      rw [List.map_append]
      refine List.nodup_append.2 ⟨h.inviteIds, List.nodup_singleton _, ?_⟩
      intro id hid other hother heq
      obtain ⟨invite, hinvite, rfl⟩ := List.mem_map.1 hid
      exact hfresh invite hinvite (heq.trans (List.mem_singleton.1 hother))
    · intro session hsession
      obtain ⟨invite, hinvite, hid⟩ := h.belongs session hsession
      exact ⟨invite, List.mem_append_left _ hinvite, hid⟩
    · refine List.forall_mem_append.2 ⟨h.reserved, List.forall_mem_singleton.2 ?_⟩
      rw [reservedOf_eq_total]
      exact (total_of_unused hunused held).symm
    · refine List.forall_mem_append.2 ⟨h.used, List.forall_mem_singleton.2 ?_⟩
      rw [settledOf_eq_total]
      exact (total_of_unused hunused charged).symm
    · refine List.forall_mem_append.2 ⟨h.within, List.forall_mem_singleton.2 ?_⟩
      simpa using hquota

theorem balanced_redeem (h : Balanced store) (codeHash tokenHash : String) :
    Balanced (store.redeem codeHash tokenHash).2 := by
  unfold Store.redeem
  cases store.invites.find? fun invite => invite.codeHash = codeHash && invite.enabled with
  | none => exact h
  | some invite =>
      dsimp only
      split
      · exact h
      · exact { h with }

theorem balanced_adjustInviteQuota (h : Balanced store) (inviteId : ℕ) (deltaSeconds : ℤ) :
    Balanced (store.adjustInviteQuota inviteId deltaSeconds).2 := by
  unfold Store.adjustInviteQuota
  cases hinvite : store.invite inviteId with
  | none => exact h
  | some invite =>
      dsimp only
      split
      · refine h.updateInvite (fun _ => rfl) (fun _ => rfl) (fun _ => rfl) ?_
        intro row hrow hid
        obtain ⟨hmem, hfound⟩ := mem_of_invite hinvite
        rw [Table.eq_of_key_eq h.inviteIds hmem hrow (hfound.trans hid.symm)]
        exact le_max_left _ _
      · exact h

theorem balanced_setInviteEnabled (h : Balanced store) (inviteId : ℕ) (enabled : Bool) :
    Balanced (store.setInviteEnabled inviteId enabled).2 :=
  h.updateInvite (fun _ => rfl) (fun _ => rfl) (fun _ => rfl) fun invite hinvite _ =>
    h.within invite hinvite

end Operations

/-! ### Sessions -/

section Sessions

variable {store : Store}

/-- A session that is open is charged and gives back what it had reserved. -/
theorem transfer_settle (h : Balanced store) {session : SessionRow}
    (hsession : session ∈ store.sessions) (hopen : session.settledSeconds = none)
    {seconds : ℤ} (hnonneg : 0 ≤ seconds) (hle : seconds ≤ session.reservedSeconds) (now : ℤ) :
    Transfer store session
      (fun row => { row with settledSeconds := some seconds, settledAt := some now })
      (fun row => { row with
        usedSeconds := row.usedSeconds + seconds
        reservedSeconds := row.reservedSeconds - session.reservedSeconds }) where
  id := fun _ => rfl
  inviteId := fun _ => rfl
  laneCount := fun _ => rfl
  charges := by
    refine ⟨(h.charges session hsession).1, fun charged hcharged => ?_⟩
    obtain rfl := Option.some.inj hcharged
    exact ⟨hnonneg, hle⟩
  ofId := fun _ => rfl
  quota := fun _ => rfl
  reserved := by
    intro row
    have hheld : held session = session.reservedSeconds := by simp [held, hopen]
    rw [hheld]
    show row.reservedSeconds - session.reservedSeconds =
      row.reservedSeconds + (0 - session.reservedSeconds)
    omega
  used := by
    intro row
    simp [charged, hopen]
  within := by
    intro invite hinvite _
    have hwithin := h.within invite hinvite
    dsimp only
    omega

theorem balanced_settleSession (h : Balanced store) (inviteId : ℕ) (sessionId : String)
    (usedSeconds now : ℤ) :
    Balanced (store.settleSession inviteId sessionId usedSeconds now).2 ∧
      Keeps store (store.settleSession inviteId sessionId usedSeconds now).2 := by
  unfold Store.settleSession
  cases hopen : store.openSession inviteId sessionId with
  | none => exact ⟨h, Keeps.refl store⟩
  | some session =>
      obtain ⟨hsession, rfl, rfl, hunsettled⟩ := mem_of_openSession hopen
      have hpos := (h.charges session hsession).1
      have hfloor : 0 ≤ max 0 (min usedSeconds session.reservedSeconds) := by omega
      have hmove := transfer_settle h hsession hunsettled hfloor (by omega) now
      exact ⟨h.transfer hsession hmove, keeps_transfer h hsession hunsettled⟩

/-- An open session that is given up for nothing. -/
theorem balanced_expire (h : Balanced store) {session : SessionRow}
    (hsession : session ∈ store.sessions) (hopen : session.settledSeconds = none) (now : ℤ) :
    Balanced ((store.updateSession session.id fun row =>
      { row with settledSeconds := some 0, settledAt := some now }).updateInvite session.inviteId
        fun row =>
          { row with reservedSeconds := row.reservedSeconds - session.reservedSeconds }) := by
  have hpos := (h.charges session hsession).1
  have hmove := transfer_settle h hsession hopen (le_refl 0) hpos.le now
  refine h.transfer hsession { hmove with used := ?_, within := ?_ }
  · intro row
    simpa using hmove.used row
  · intro invite hinvite hid
    simpa using hmove.within invite hinvite hid

theorem balanced_expireStaleReservations (h : Balanced store) (now : ℤ) :
    Balanced (store.expireStaleReservations now) ∧
      Keeps store (store.expireStaleReservations now) := by
  unfold Store.expireStaleReservations
  dsimp only
  generalize hstale : (store.sessions.filter fun session => session.settledSeconds.isNone &&
    decide (store.lastIssue session < now - reservationTtlSeconds * microseconds)) = stale
  have hmem : ∀ session ∈ stale, session ∈ store.sessions ∧ session.settledSeconds = none := by
    intro session hsession
    rw [← hstale, List.mem_filter, Bool.and_eq_true, Option.isNone_iff_eq_none] at hsession
    exact ⟨hsession.1, hsession.2.1⟩
  have hids : (stale.map SessionRow.id).Nodup :=
    hstale ▸ h.sessionIds.sublist (List.filter_sublist.map SessionRow.id)
  clear hstale
  -- the sessions still to come are as they were: they have other ids
  induction stale generalizing store with
  | nil => exact ⟨h, Keeps.refl store⟩
  | cons session rest ih =>
      obtain ⟨⟨hsession, hopen⟩, hrest⟩ := List.forall_mem_cons.1 hmem
      obtain ⟨hnotin, hrestIds⟩ := List.nodup_cons.1 hids
      obtain ⟨hbalanced, hkeeps⟩ := ih (balanced_expire h hsession hopen now) (by
        intro other hother
        refine ⟨List.mem_map.2 ⟨other, (hrest other hother).1, if_neg fun hid => hnotin ?_⟩,
          (hrest other hother).2⟩
        exact of_decide_eq_true hid ▸ List.mem_map_of_mem hother) hrestIds
      exact ⟨hbalanced, (keeps_transfer h hsession hopen).trans hkeeps⟩

/-- **A new session** draws on what the invitation has left. -/
theorem Balanced.reserve (h : Balanced store) {invite : InviteRow}
    (hinvite : invite ∈ store.invites) {sessionId : String}
    (hfresh : ∀ session ∈ store.sessions, session.id ≠ sessionId) {reserved : ℤ}
    (hpos : 0 < reserved)
    (hle : reserved ≤ invite.quotaSeconds - invite.usedSeconds - invite.reservedSeconds)
    (lanes now : ℤ) :
    Balanced (Store.updateInvite
      { store with sessions := store.sessions ++
          [⟨sessionId, invite.id, reserved, lanes, none, now, none⟩] } invite.id
      fun row => { row with reservedSeconds := row.reservedSeconds + reserved }) where
  inviteIds := h.inviteIds.update fun _ => rfl
  sessionIds := by
    show (List.map _ (_ ++ _)).Nodup
    rw [List.map_append]
    refine List.nodup_append.2 ⟨h.sessionIds, List.nodup_singleton _, ?_⟩
    intro id hid other hother heq
    obtain ⟨session, hsession, rfl⟩ := List.mem_map.1 hid
    exact hfresh session hsession (heq.trans (List.mem_singleton.1 hother))
  belongs := by
    intro session hsession
    have hthere : ∃ row ∈ store.invites, row.id = session.inviteId := by
      rcases List.mem_append.1 hsession with hold | hnew
      · exact h.belongs session hold
      · rw [List.mem_singleton.1 hnew]
        exact ⟨invite, hinvite, rfl⟩
    have hkey : ∀ row : InviteRow,
        InviteRow.id { row with reservedSeconds := row.reservedSeconds + reserved } = row.id :=
      fun _ => rfl
    exact Table.exists_key_update hkey hthere
  keysBelong := by
    intro key hkey
    obtain ⟨session, hsession, hid⟩ := h.keysBelong key hkey
    exact ⟨session, List.mem_append_left _ hsession, hid⟩
  charges := by
    refine List.forall_mem_append.2 ⟨h.charges, List.forall_mem_singleton.2 ⟨hpos, ?_⟩⟩
    intro seconds hseconds
    cases hseconds
  reserved := by
    intro row' hrow'
    rw [reservedOf_eq_total]
    refine Eq.trans ?_ (Table.total_concat _).symm
    obtain ⟨row, hrow, ⟨hselected, rfl⟩ | ⟨hselected, rfl⟩⟩ := Table.mem_update hrow'
    · have hid : invite.id = row.id := (of_decide_eq_true hselected).symm
      have hamount : ofInvite row.id held ⟨sessionId, invite.id, reserved, lanes, none, now, none⟩ =
          reserved := if_pos hid
      rw [hamount, ← reservedOf_eq_total, ← h.reserved row hrow]
    · have hid : invite.id ≠ row'.id := fun heq => of_decide_eq_false hselected heq.symm
      have hamount : ofInvite row'.id held
          ⟨sessionId, invite.id, reserved, lanes, none, now, none⟩ = 0 := if_neg hid
      rw [hamount, ← reservedOf_eq_total, ← h.reserved row' hrow, add_zero]
  used := by
    have hzero : ∀ inviteId, ofInvite inviteId charged
        ⟨sessionId, invite.id, reserved, lanes, none, now, none⟩ = 0 := fun _ => ite_self 0
    intro row' hrow'
    rw [settledOf_eq_total]
    refine Eq.trans ?_ (Table.total_concat _).symm
    rw [hzero, add_zero, ← settledOf_eq_total]
    obtain ⟨row, hrow, ⟨-, rfl⟩ | ⟨-, rfl⟩⟩ := Table.mem_update hrow'
    · exact h.used row hrow
    · exact h.used row' hrow
  within := by
    refine Table.forall_update h.within fun row hrow hselected _ => ?_
    rw [Table.eq_of_key_eq h.inviteIds hrow hinvite (of_decide_eq_true hselected)]
    dsimp only
    omega
  budget := by
    refine List.forall_mem_append.2 ⟨h.budget, List.forall_mem_singleton.2 ?_⟩
    have hnone : store.issuedKeys sessionId = 0 := by
      refine List.countP_eq_zero.2 fun key hkey hid => ?_
      obtain ⟨session, hsession, hsame⟩ := h.keysBelong key hkey
      exact hfresh session hsession (hsame.trans (of_decide_eq_true hid))
    show (store.issuedKeys sessionId : ℤ) ≤ _
    rw [hnone]
    exact le_max_of_le_left (by decide)

theorem balanced_reserveSession (h : Balanced store) (inviteId : ℕ)
    (requestedSeconds laneCount : ℤ) (sessionId : String) (now : ℤ) :
    Balanced (store.reserveSession inviteId requestedSeconds laneCount sessionId now).2 ∧
      Keeps store (store.reserveSession inviteId requestedSeconds laneCount sessionId now).2 := by
  unfold Store.reserveSession
  dsimp only
  cases hfind : store.invites.find? fun invite => invite.id = inviteId && invite.enabled with
  | none => exact ⟨h, Keeps.refl store⟩
  | some invite =>
      have hfound := List.find?_some hfind
      obtain ⟨hid, -⟩ := Bool.and_eq_true_iff.1 hfound
      obtain rfl := of_decide_eq_true hid
      have hinvite : invite ∈ store.invites := List.mem_of_find?_eq_some hfind
      dsimp only
      generalize hreserved : min (max 1 (min requestedSeconds maxSessionSeconds))
        (invite.quotaSeconds - invite.usedSeconds - invite.reservedSeconds) = reserved
      generalize max 1 (min laneCount maxLanesPerSession) = lanes
      split
      · exact ⟨h, Keeps.refl store⟩
      split
      · exact ⟨h, Keeps.refl store⟩
      · rename_i hpos hnew
        have hfresh : ∀ session ∈ store.sessions, session.id ≠ sessionId := by
          intro session hsession heq
          exact hnew (List.any_eq_true.2 ⟨session, hsession, decide_eq_true heq⟩)
        refine ⟨?_, fun session hsession _ => List.mem_append_left _ hsession⟩
        exact h.reserve hinvite hfresh (by omega) (by omega) lanes now

theorem lanesOf_pos (laneCount : ℤ) : 0 < lanesOf laneCount :=
  lt_of_lt_of_le Int.zero_lt_one (le_max_left _ _)

/-- The lanes of a number of lanes. -/
theorem lanesOf_lanesOf (laneCount : ℤ) :
    sessionKeyBudget (lanesOf laneCount) = sessionKeyBudget laneCount := by
  have hsame : lanesOf (lanesOf laneCount) = lanesOf laneCount := by
    have hpos := lanesOf_pos laneCount
    have hle : lanesOf laneCount ≤ maxLanesPerSession := max_le (by decide) (min_le_right _ _)
    unfold lanesOf at hpos hle ⊢
    rw [if_neg (by omega)]
    omega
  unfold sessionKeyBudget
  rw [hsame]

/-- An open session that grows. -/
theorem transfer_extend (h : Balanced store) {session : SessionRow}
    (hsession : session ∈ store.sessions) (hopen : session.settledSeconds = none)
    {invite : InviteRow} (hinvite : store.invite session.inviteId = some invite) {added : ℤ}
    (hpos : 0 < added)
    (hle : added ≤ max 0 (invite.quotaSeconds - invite.usedSeconds - invite.reservedSeconds)) :
    Transfer store session
      (fun row => { row with reservedSeconds := row.reservedSeconds + added })
      (fun row => { row with reservedSeconds := row.reservedSeconds + added }) where
  id := fun _ => rfl
  inviteId := fun _ => rfl
  laneCount := fun _ => rfl
  charges := by
    obtain ⟨hreserved, -⟩ := h.charges session hsession
    refine ⟨by dsimp only; omega, fun seconds hseconds => ?_⟩
    rw [hopen] at hseconds
    cases hseconds
  ofId := fun _ => rfl
  quota := fun _ => rfl
  reserved := by
    intro row
    simp [held, hopen]
  used := by
    intro row
    simp [charged, hopen]
  within := by
    intro row hrow hid
    obtain ⟨hmem, hfound⟩ := mem_of_invite hinvite
    obtain rfl := Table.eq_of_key_eq h.inviteIds hrow hmem (hid.trans hfound.symm)
    have hwithin := h.within row hrow
    dsimp only
    omega

theorem balanced_extendSessionWindow (h : Balanced store) (inviteId : ℕ) (sessionId : String)
    (now : ℤ) :
    Balanced (store.extendSessionWindow inviteId sessionId now).2 ∧
      Keeps store (store.extendSessionWindow inviteId sessionId now).2 := by
  unfold Store.extendSessionWindow
  cases hopen : store.openSession inviteId sessionId with
  | none => exact ⟨h, Keeps.refl store⟩
  | some session =>
      obtain ⟨hsession, rfl, rfl, hunsettled⟩ := mem_of_openSession hopen
      dsimp only
      split
      · cases hinvite : store.invite session.inviteId with
        | none => exact ⟨h, Keeps.refl store⟩
        | some invite =>
            dsimp only
            generalize hmost : min (lanesOf session.laneCount *
              (Store.elapsedSeconds session.createdAt now + streamWindowSeconds -
                session.reservedSeconds / lanesOf session.laneCount))
              (max 0 (invite.quotaSeconds - invite.usedSeconds - invite.reservedSeconds)) = most
            split
            · rename_i hadded
              refine ⟨h.transfer hsession ?_, keeps_transfer h hsession hunsettled⟩
              exact transfer_extend h hsession hunsettled hinvite hadded (by
                have hmod : 0 ≤ most % lanesOf session.laneCount :=
                  Int.emod_nonneg _ (lanesOf_pos _).ne'
                omega)
            · exact ⟨h, Keeps.refl store⟩
      · exact ⟨h, Keeps.refl store⟩

end Sessions

/-! ### Keys -/

section Keys

variable {store : Store}

/-- Key claims change nothing but the keys. -/
theorem Balanced.withKeys (h : Balanced store) {keys : List SessionKey}
    (hbelong : ∀ key ∈ keys, ∃ session ∈ store.sessions, session.id = key.sessionId)
    (hbudget : ∀ session ∈ store.sessions,
      (Store.issuedKeys { store with keys := keys } session.id : ℤ) ≤
        sessionKeyBudget session.laneCount) :
    Balanced { store with keys := keys } :=
  { h with keysBelong := hbelong, budget := hbudget }

theorem sessions_reserveSessionKeys (store : Store) (inviteId : ℕ) (sessionId : String)
    (count moment : ℤ) :
    (store.reserveSessionKeys inviteId sessionId count moment).2.sessions = store.sessions := by
  unfold Store.reserveSessionKeys
  split
  · rfl
  cases store.openSession inviteId sessionId with
  | none => rfl
  | some session =>
      dsimp only
      split
      · rfl
      · rfl

theorem sessions_releaseSessionKeys (store : Store) (sessionId : String) (count : ℤ) :
    (store.releaseSessionKeys sessionId count).sessions = store.sessions := by
  unfold Store.releaseSessionKeys
  split
  · rfl
  · rfl

theorem balanced_reserveSessionKeys (h : Balanced store) (inviteId : ℕ) (sessionId : String)
    (count now : ℤ) : Balanced (store.reserveSessionKeys inviteId sessionId count now).2 := by
  unfold Store.reserveSessionKeys
  split
  · exact h
  cases hopen : store.openSession inviteId sessionId with
  | none => exact h
  | some session =>
      obtain ⟨hsession, rfl, rfl, -⟩ := mem_of_openSession hopen
      dsimp only
      split
      · exact h
      · rename_i hcount hfits
        refine h.withKeys ?_ ?_
        · intro key hkey
          rcases List.mem_append.1 hkey with hold | hnew
          · exact h.keysBelong key hold
          · rw [(List.mem_replicate.1 hnew).2]
            exact ⟨session, hsession, rfl⟩
        · intro other hother
          unfold Store.issuedKeys
          rw [List.countP_append, List.countP_replicate]
          by_cases hid : other.id = session.id
          · obtain rfl := Table.eq_of_key_eq h.sessionIds hother hsession hid
            rw [lanesOf_lanesOf] at hfits
            simp only [decide_true, if_true]
            unfold Store.issuedKeys at hfits
            omega
          · have hnot : (session.id = other.id) = False := eq_false fun heq => hid heq.symm
            simp only [hnot, decide_false, Bool.false_eq_true, if_false, add_zero]
            exact h.budget other hother

/-- What is released goes, and the rest stays in its order. -/
theorem releaseSessionKeys_sublist (store : Store) (sessionId : String) (count : ℤ) :
    (store.releaseSessionKeys sessionId count).keys.Sublist store.keys := by
  unfold Store.releaseSessionKeys
  split
  · exact List.Sublist.refl _
  · dsimp only
    induction store.keys with
    | nil => exact List.Sublist.refl _
    | cons key keys ih =>
        rw [List.foldr_cons]
        split
        · exact ih.cons key
        · exact ih.cons_cons key

theorem balanced_releaseSessionKeys (h : Balanced store) (sessionId : String) (count : ℤ) :
    Balanced (store.releaseSessionKeys sessionId count) := by
  have hsublist := releaseSessionKeys_sublist store sessionId count
  have hrest : store.releaseSessionKeys sessionId count =
      { store with keys := (store.releaseSessionKeys sessionId count).keys } := by
    unfold Store.releaseSessionKeys
    split
    · rfl
    · rfl
  rw [hrest]
  refine h.withKeys (fun key hkey => h.keysBelong key (hsublist.subset hkey)) ?_
  intro session hsession
  have hcount : Store.issuedKeys { store with
      keys := (store.releaseSessionKeys sessionId count).keys } session.id ≤
        store.issuedKeys session.id := hsublist.countP_le
  have hbudget := h.budget session hsession
  omega

end Keys

/-! ### Runs -/

/-- A transaction of the store.  An invitation is made of whole gives. -/
inductive Transaction
  | createInvite (codeHash : String) (gives : ℕ)
  | redeem (codeHash tokenHash : String)
  | expireStaleReservations (now : ℤ)
  | reserveSession (inviteId : ℕ) (requestedSeconds laneCount : ℤ) (sessionId : String) (now : ℤ)
  | reserveSessionKeys (inviteId : ℕ) (sessionId : String) (count now : ℤ)
  | extendSessionWindow (inviteId : ℕ) (sessionId : String) (now : ℤ)
  | releaseSessionKeys (sessionId : String) (count : ℤ)
  | adjustInviteQuota (inviteId : ℕ) (deltaSeconds : ℤ)
  | setInviteEnabled (inviteId : ℕ) (enabled : Bool)
  | settleSession (inviteId : ℕ) (sessionId : String) (usedSeconds now : ℤ)
  deriving DecidableEq, Repr

/-- The database after a transaction. -/
def Store.after (store : Store) : Transaction → Store
  | .createInvite codeHash gives => store.createInvite codeHash (gives * secondsPerGive)
  | .redeem codeHash tokenHash => (store.redeem codeHash tokenHash).2
  | .expireStaleReservations now => store.expireStaleReservations now
  | .reserveSession inviteId requestedSeconds laneCount sessionId now =>
      (store.reserveSession inviteId requestedSeconds laneCount sessionId now).2
  | .reserveSessionKeys inviteId sessionId count now =>
      (store.reserveSessionKeys inviteId sessionId count now).2
  | .extendSessionWindow inviteId sessionId now =>
      (store.extendSessionWindow inviteId sessionId now).2
  | .releaseSessionKeys sessionId count => store.releaseSessionKeys sessionId count
  | .adjustInviteQuota inviteId deltaSeconds => (store.adjustInviteQuota inviteId deltaSeconds).2
  | .setInviteEnabled inviteId enabled => (store.setInviteEnabled inviteId enabled).2
  | .settleSession inviteId sessionId usedSeconds now =>
      (store.settleSession inviteId sessionId usedSeconds now).2

/-- The database after transactions, one after the other. -/
def Store.afterAll (store : Store) (transactions : List Transaction) : Store :=
  transactions.foldl Store.after store

/-- **Every transaction** keeps the ledger balanced and leaves settled sessions alone. -/
theorem Balanced.after {store : Store} (h : Balanced store) (transaction : Transaction) :
    Balanced (store.after transaction) ∧ Keeps store (store.after transaction) := by
  cases transaction with
  | createInvite codeHash gives =>
      refine ⟨balanced_createInvite h codeHash (by unfold secondsPerGive; omega), ?_⟩
      show Keeps store (store.createInvite codeHash _)
      unfold Store.createInvite
      split
      · exact Keeps.refl store
      · exact Keeps.refl store
  | redeem codeHash tokenHash =>
      refine ⟨balanced_redeem h codeHash tokenHash, ?_⟩
      show Keeps store (store.redeem codeHash tokenHash).2
      unfold Store.redeem
      split
      · exact Keeps.refl store
      · split
        · exact Keeps.refl store
        · exact Keeps.refl store
  | expireStaleReservations now => exact balanced_expireStaleReservations h now
  | reserveSession inviteId requestedSeconds laneCount sessionId now =>
      exact balanced_reserveSession h inviteId requestedSeconds laneCount sessionId now
  | reserveSessionKeys inviteId sessionId count now =>
      refine ⟨balanced_reserveSessionKeys h inviteId sessionId count now, ?_⟩
      show Keeps store (store.reserveSessionKeys inviteId sessionId count now).2
      unfold Store.reserveSessionKeys
      split
      · exact Keeps.refl store
      · split
        · exact Keeps.refl store
        · dsimp only
          split
          · exact Keeps.refl store
          · exact Keeps.refl store
  | extendSessionWindow inviteId sessionId now =>
      exact balanced_extendSessionWindow h inviteId sessionId now
  | releaseSessionKeys sessionId count =>
      refine ⟨balanced_releaseSessionKeys h sessionId count, ?_⟩
      show Keeps store (store.releaseSessionKeys sessionId count)
      unfold Store.releaseSessionKeys
      split
      · exact Keeps.refl store
      · exact Keeps.refl store
  | adjustInviteQuota inviteId deltaSeconds =>
      refine ⟨balanced_adjustInviteQuota h inviteId deltaSeconds, ?_⟩
      show Keeps store (store.adjustInviteQuota inviteId deltaSeconds).2
      unfold Store.adjustInviteQuota
      split
      · exact Keeps.refl store
      · dsimp only
        split
        · exact Keeps.refl store
        · exact Keeps.refl store
  | setInviteEnabled inviteId enabled =>
      exact ⟨balanced_setInviteEnabled h inviteId enabled, Keeps.refl store⟩
  | settleSession inviteId sessionId usedSeconds now =>
      exact balanced_settleSession h inviteId sessionId usedSeconds now

theorem Balanced.afterAll {store : Store} (h : Balanced store) (transactions : List Transaction) :
    Balanced (store.afterAll transactions) ∧ Keeps store (store.afterAll transactions) := by
  induction transactions generalizing store with
  | nil => exact ⟨h, Keeps.refl store⟩
  | cons transaction rest ih =>
      obtain ⟨hbalanced, hkeeps⟩ := h.after transaction
      obtain ⟨hrest, hkeepsRest⟩ := ih hbalanced
      exact ⟨hrest, hkeeps.trans hkeepsRest⟩

/-- **The ledger balances** after any transactions: what an invitation has reserved is what
its unsettled sessions have, what it has used is what its settled sessions were charged, and
together they are within its quota; a session is settled once, for no more than it had
reserved; and no session has more keys than its budget. -/
theorem ledger_balances (transactions : List Transaction) :
    (∀ invite ∈ (Store.empty.afterAll transactions).invites,
      invite.reservedSeconds = reservedOf (Store.empty.afterAll transactions) invite.id ∧
      invite.usedSeconds = settledOf (Store.empty.afterAll transactions) invite.id ∧
      0 ≤ invite.usedSeconds + invite.reservedSeconds ∧
      invite.usedSeconds + invite.reservedSeconds ≤ invite.quotaSeconds) ∧
    (∀ session ∈ (Store.empty.afterAll transactions).sessions,
      (∀ seconds, session.settledSeconds = some seconds →
        0 ≤ seconds ∧ seconds ≤ session.reservedSeconds ∧
        ∀ more, session ∈ (Store.empty.afterAll (transactions ++ more)).sessions) ∧
      ((Store.empty.afterAll transactions).issuedKeys session.id : ℤ) ≤
        sessionKeyBudget session.laneCount) := by
  obtain ⟨hbalanced, -⟩ := Balanced.empty.afterAll transactions
  refine ⟨fun invite hinvite => ?_, fun session hsession => ⟨fun seconds hseconds => ?_, ?_⟩⟩
  · have hused := hbalanced.used_nonneg hinvite
    have hreserved := hbalanced.reserved_nonneg hinvite
    exact ⟨hbalanced.reserved invite hinvite, hbalanced.used invite hinvite, by omega,
      hbalanced.within invite hinvite⟩
  · obtain ⟨hnonneg, hle⟩ := (hbalanced.charges session hsession).2 seconds hseconds
    refine ⟨hnonneg, hle, fun more => ?_⟩
    unfold Store.afterAll
    rw [List.foldl_append]
    have hkeeps := (hbalanced.afterAll more).2
    refine hkeeps session hsession ?_
    rw [hseconds]
    exact Option.some_ne_none seconds
  · exact hbalanced.budget session hsession

end Invite
end ZuTalk
