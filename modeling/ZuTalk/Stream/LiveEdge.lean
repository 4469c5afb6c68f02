/-
# A cut at the live edge

A lane whose provider has fallen too far behind ends its session with
`behind_live_edge`, sheds what arrives while it reconnects, and starts the next
connection at the live edge.  The intent travels through `skip_to_live_edge`,
which every attempt clears and every failed attempt rewrites.

`liveEdge_cut_honoured`: in a run whose every session configured after a cut is
configured by the first dial since, or by one that begins more than the
continuity window after the cut, each such session starts at the live edge and
no session replays audio across a stretch that was shed.  A second dial within
the window does neither (`liveEdge_cut_not_honoured`).
-/

import ZuTalk.Stream.Conservation

namespace ZuTalk
namespace Stream

open Machine

/-- Nothing on the timeline since the anchor was shed. -/
def History.ShedsNone (h : History) : Prop := ∀ b ∈ h.counted, b.sent = true

/-- The lane has been without a connection for longer than the continuity
window. -/
def Lane.Overdue (l : Lane) : Prop := continuityWindow < l.outageSoFar

/-- The next session does not replay, if the dial that configures it keeps the
cut. -/
def Lane.MaySkip (l : Lane) : Prop := l.dialsSinceCut.isSome = true ∨ l.Overdue

/-- A dial with this outage keeps a cut: there is none to keep, it is the first
dial since, or it began more than the continuity window after the lane lost its
connection. -/
def Lane.DialKeepsCut (l : Lane) (outage : Option Duration) : Prop :=
  l.dialsSinceCut = none ∨ l.dialsSinceCut = some 1 ∨
    (outage.any fun w => decide (continuityWindow < w)) = true

/-- If this input configures a session, its dial keeps a cut. -/
def Input.KeepsCut (l : Lane) : Input → Prop
  | .dial _ _ (.configured _) =>
      match l.phase with
      | .dialing outage _ _ _ => l.DialKeepsCut outage
      | _ => True
  | _ => True

instance (l : Lane) (outage : Option Duration) : Decidable (l.DialKeepsCut outage) := by
  unfold Lane.DialKeepsCut
  infer_instance

instance (l : Lane) (i : Input) : Decidable (i.KeepsCut l) := by
  unfold Input.KeepsCut
  split
  · split <;> infer_instance
  · infer_instance

theorem Input.KeepsCut.tick {l : Lane} {i : Input} {now : Instant} (h : i.KeepsCut l) :
    i.KeepsCut { l with now := now } := by
  unfold Input.KeepsCut at h ⊢
  exact h

/-- The frames a session is sent again when it is configured. -/
def Lane.replays (l : Lane) (outage : Option Duration) (skips afterHandover : Bool) :
    List ReplayAudioFrame :=
  match outage with
  | none => []
  | some w =>
      if cleanHandover (some w) afterHandover then []
      else (l.recovery.prepareReplay (effectiveOutage l.recovery w skips)).2

/-- A connection that starts at the live edge of a timeline that counts
everything. -/
structure AtLiveEdge (captureOriginMs : ℕ) (l : Lane) : Prop where
  origin : l.recovery.connectionOriginMs = l.recovery.nextAudioMs
  acknowledged : l.recovery.acknowledgedMs = l.recovery.nextAudioMs
  replaysNothing : l.session.catchUp.replay = [] ∧ l.session.sentAudio = false
  counted : CountsTaken captureOriginMs l

/-- A session configured in this state starts at the live edge, unless nobody
listens to the lane any more. -/
def OpensAtLiveEdge (t : StreamTimeouts) (o : Opening) (captureOriginMs : ℕ)
    (outage : Option Duration) (skips afterHandover : Bool) (l : Lane) : Prop :=
  Ends (fun _ opened => AtLiveEdge captureOriginMs opened) (fun _ _ => l.listening = false)
    (openTimeline t o outage skips afterHandover l)

/-! ### Opening a connection -/

section Opening

variable (t : StreamTimeouts) (o : Opening)

theorem le_effectiveOutage (r : StreamRecoveryState) (outage : Duration) (skips : Bool) :
    outage ≤ effectiveOutage r outage skips := by
  unfold effectiveOutage
  split
  · exact (le_max_left _ _).trans (le_max_left _ _)
  · exact le_rfl

theorem effectiveOutage_of_skips (r : StreamRecoveryState) (outage : Duration) :
    continuityWindow < effectiveOutage r outage true := by
  unfold effectiveOutage
  rw [if_pos rfl]
  refine lt_of_lt_of_le ?_ (le_max_right _ _)
  exact Nat.lt_add_of_pos_right (by decide)

theorem sendEvent_of_listening {l : Lane} (hl : l.listening = true) (e : SttStreamEvent) :
    sendEvent e l = .ok () { l with events := l.events ++ [e] } := by
  change (if l.listening = true then modify fun lane => { lane with events := lane.events ++ [e] }
    else throw (.err .receiverClosed) : LaneM Unit) l = _
  rw [if_pos hl]
  rfl

theorem sendEvent_of_not_listening {l : Lane} (hl : l.listening = false) (e : SttStreamEvent) :
    sendEvent e l = .error (.err .receiverClosed) l := by
  change (if l.listening = true then modify fun lane => { lane with events := lane.events ++ [e] }
    else throw (.err .receiverClosed) : LaneM Unit) l = _
  rw [if_neg (by rw [hl]; decide)]
  rfl

/-- Sending an event only fails when nobody listens. -/
theorem sendEvent_ends (e : SttStreamEvent) (l : Lane) :
    Ends (fun _ l' => ∃ events, l' = { l with events := events })
      (fun _ l' => l.listening = false ∧ l' = l) (sendEvent e l) := by
  rcases Bool.eq_false_or_eq_true l.listening with hl | hl
  · rw [sendEvent_of_listening hl]
    exact ⟨_, rfl⟩
  · rw [sendEvent_of_not_listening hl]
    exact ⟨hl, rfl⟩

/-- Announcing a recovery changes nothing but the events. -/
theorem announceRecovery_ends (outage : Duration) (l : Lane) :
    Ends (fun _ l' => ∃ events, l' = { l with events := events })
      (fun _ l' => l.listening = false ∧ l'.listening = false ∧ l'.history = l.history)
      (announceRecovery outage l) := by
  refine Ends.bind ((sendEvent_ends _ l).mono ?_ ?_)
  · rintro - - ⟨events, rfl⟩
    refine Ends.get_bind ((sendEvent_ends _ _).mono ?_ ?_)
    · rintro - - ⟨events', rfl⟩
      exact ⟨events', rfl⟩
    · rintro - - ⟨hl, rfl⟩
      exact ⟨hl, hl, rfl⟩
  · rintro _ _ ⟨hl, rfl⟩
    exact ⟨hl, hl, rfl⟩

/-- Discarding blocks one after the other never fails. -/
theorem forM_noteDiscarded (pcms : List Pcm) (l : Lane) :
    (pcms.forM fun pcm => modify (·.noteDiscarded pcm) : LaneM Unit) l =
      .ok () (pcms.foldl Lane.noteDiscarded l) := by
  induction pcms generalizing l with
  | nil => rfl
  | cons pcm pcms ih => exact ih (l.noteDiscarded pcm)

@[simp] theorem foldl_noteDiscarded_session (pcms : List Pcm) (l : Lane) :
    (pcms.foldl Lane.noteDiscarded l).session = l.session := by
  induction pcms generalizing l with
  | nil => rfl
  | cons pcm pcms ih => exact ih (l.noteDiscarded pcm)

/-- The connection starts where the timeline ends. -/
structure Fresh (before after : Lane) : Prop where
  origin : after.recovery.connectionOriginMs = after.recovery.nextAudioMs
  acknowledged : after.recovery.acknowledgedMs = after.recovery.nextAudioMs
  nothingShed : after.history.ShedsNone
  replay : after.session.catchUp.replay = before.session.catchUp.replay
  sentAudio : after.session.sentAudio = before.session.sentAudio

/-- A lane that has just re-anchored. -/
theorem Fresh.of_reAnchor {before l : Lane} (h : l.session.catchUp = before.session.catchUp)
    (hs : l.session.sentAudio = before.session.sentAudio) : Fresh before l.reAnchorToLiveEdge where
  origin := rfl
  acknowledged := rfl
  nothingShed := fun _ hb => by cases hb
  replay := congrArg CatchUp.replay h
  sentAudio := hs

/-- A replay of nothing past the continuity window goes out at once. -/
theorem sendReplay_nil {outage : Duration} (hlong : continuityWindow < outage)
    (fails : Option (ℕ × SendError)) (l : Lane) :
    sendReplay t outage [] fails l =
      .ok () { l with session := { l.session with sentAudio := l.session.sentAudio || false } } := by
  unfold sendReplay
  rw [if_neg fun h => absurd h.2 (not_le.2 hlong)]
  cases fails <;> rfl

/-- A reconnect past the continuity window starts at the live edge. -/
theorem openAfterOutage_ends_of_lt {l : Lane} {outage : Duration} {skips : Bool}
    (hlong : continuityWindow < effectiveOutage l.recovery outage skips) :
    Ends (fun _ opened => Fresh l opened)
      (fun _ l' => l.listening = false ∧ l'.listening = false ∧ l'.history = l.history)
      (openAfterOutage t o outage skips l) := by
  refine Ends.get_bind (Ends.bind ?_)
  refine (announceRecovery_ends _ l).mono ?_ (fun _ _ h => h)
  rintro - - ⟨events, rfl⟩
  generalize effectiveOutage l.recovery outage skips = outage at hlong ⊢
  refine Ends.get_bind (Ends.modify_bind (Ends.modify_bind (Ends.bind ?_)))
  rw [StreamRecoveryState.prepareReplay_of_lt hlong, sendReplay_nil t hlong]
  unfold when
  rw [if_pos (decide_eq_true hlong)]
  refine Ends.bind ?_
  rw [forM_noteDiscarded]
  refine Fresh.of_reAnchor ?_ ?_
  · rw [foldl_noteDiscarded_session]
    rfl
  · rw [foldl_noteDiscarded_session]
    exact Bool.or_false _

/-- Within the continuity window nothing is shed. -/
theorem openAfterOutage_moves_of_le {l : Lane} {outage : Duration} {skips : Bool}
    (hshort : effectiveOutage l.recovery outage skips ≤ continuityWindow) :
    Moves False False l (finalState (openAfterOutage t o outage skips l)) := by
  refine Within.get_bind_at ?_
  generalize effectiveOutage l.recovery outage skips = outage at hshort ⊢
  have hrest : Within (Moves False False) (when (outage > continuityWindow) (do
      o.discarded.forM fun pcm => modify (·.noteDiscarded pcm)
      modify (·.reAnchorToLiveEdge)) : LaneM Unit) := by
    unfold when
    rw [if_neg (by simpa using hshort)]
    exact .pure _
  exact Within.bind (announceRecovery_moves _) (fun _ => .bind .get fun _ =>
    .bind (fun l => (Move.prepareReplay l _).moves) fun _ =>
      .bind (modifySessionBy_moves _) fun _ => .bind (sendReplay_moves t _ _ _) fun _ => hrest) l

/-- A clean hand-over starts at the live edge. -/
theorem openAfterHandover_ends (l : Lane) (outage : Duration) :
    Ends (fun _ opened => Fresh l opened) (fun _ l' => l.listening = false ∧ l'.history.ShedsNone)
      (openAfterHandover outage l) := by
  refine Ends.modify_bind ?_
  refine (announceRecovery_ends outage l.reAnchorToLiveEdge).mono ?_ ?_
  · rintro - - ⟨events, rfl⟩
    exact ⟨rfl, rfl, fun _ hb => (by cases hb), rfl, rfl⟩
  · rintro _ l' ⟨hl, -, hh⟩
    exact ⟨hl, hh ▸ fun _ hb => (by cases hb)⟩

end Opening

/-! ### What was shed -/

theorem History.ShedsNone.count {h : History} (hs : h.ShedsNone) (pcm : Pcm) :
    (h.count pcm true).ShedsNone := by
  intro b hb
  rcases List.mem_append.1 hb with hb | hb
  · exact hs b hb
  · rw [List.mem_singleton.1 hb]

theorem History.shedsNone_reAnchor (h : History) (edgeMs : ℕ) : (h.reAnchor edgeMs).ShedsNone :=
  fun _ hb => by cases hb

/-- Moves that shed nothing leave nothing shed. -/
theorem Moves.shedsNone {lossy : Prop} {l l' : Lane} (hm : Moves lossy False l l')
    (h : l.history.ShedsNone) : l'.history.ShedsNone := by
  refine Moves.invariant (I := fun l => l.history.ShedsNone) (fun l l' h hm => ?_) h hm
  cases hm with
  | frame _ history => exact history ▸ h
  | clock _ _ _ history => exact history ▸ h
  | recordSent pcm => exact h.count pcm
  | noteDiscarded pcm may => exact may.elim
  | lose pcm _ => exact h
  | drop pcm _ => exact h
  | acknowledge _ _ history => exact history ▸ h
  | reAnchor => exact History.shedsNone_reAnchor _ _
  | prepareReplay outage =>
      unfold Lane.prepareReplay
      dsimp only
      split
      · exact History.shedsNone_reAnchor _ _
      · exact h
  | openFirst _ history => exact history ▸ h

/-- After the timeline of a connection is open nothing on it was shed, if
nothing was before or the connection does not replay. -/
theorem openTimeline_shedsNone (t : StreamTimeouts) (o : Opening) {outage : Option Duration}
    {skips : Bool} (afterHandover : Bool) {l : Lane}
    (h : l.history.ShedsNone ∨ ∃ w ∈ outage, skips = true ∨ continuityWindow < w) :
    Ends (fun _ l' => l'.history.ShedsNone)
      (fun _ l' => l'.listening = false ∨ l'.history.ShedsNone)
      (openTimeline t o outage skips afterHandover l) := by
  match outage with
  | none =>
      rcases h with h | ⟨_, hw, _⟩
      · exact h
      · cases hw
  | some w =>
      unfold openTimeline
      dsimp only
      split
      · exact (openAfterHandover_ends l w).mono (fun _ _ hf => hf.nothingShed)
          (fun _ _ he => Or.inr he.2)
      · rcases lt_or_ge continuityWindow (effectiveOutage l.recovery w skips) with hlong | hshort
        · refine (openAfterOutage_ends_of_lt t o hlong).mono (fun _ _ hf => hf.nothingShed) ?_
          exact fun _ _ he => Or.inl he.2.1
        · have hs : l.history.ShedsNone := by
            refine h.resolve_right ?_
            rintro ⟨w', hw', hskip⟩
            obtain rfl := Option.some.inj hw'
            rcases hskip with rfl | hlong
            · exact absurd (effectiveOutage_of_skips l.recovery w) (not_lt.2 hshort)
            · exact absurd (hlong.trans_le (le_effectiveOutage l.recovery w skips))
                (not_lt.2 hshort)
          exact (Ends.of_finalState (P := fun l => l.history.ShedsNone)
            ((openAfterOutage_moves_of_le t o hshort).shedsNone hs)).mono
              (fun _ _ h => h) (fun _ _ h => Or.inr h)

/-- The same after a whole session has been opened. -/
theorem openSession_shedsNone (t : StreamTimeouts) (o : Opening)
    (handover : Option HandoverSchedule) {outage : Option Duration} {skips : Bool}
    (afterHandover : Bool) {l : Lane}
    (h : l.history.ShedsNone ∨ ∃ w ∈ outage, skips = true ∨ continuityWindow < w) :
    Ends (fun _ l' => l'.history.ShedsNone)
      (fun _ l' => l'.listening = false ∨ l'.history.ShedsNone)
      (openSession t o handover outage skips afterHandover l) := by
  refine Ends.modify_bind (Ends.bind ?_)
  refine (openTimeline_shedsNone t o afterHandover (by exact h)).mono (fun _ l' hs => ?_)
    (fun _ _ he => he)
  have hrest : Moves True False l' _ := openRest_moves t (o := o) (fun _ => trivial) l'
  exact (Ends.of_finalState (P := fun l => l.history.ShedsNone) (hrest.shedsNone hs)).mono
    (fun _ _ h => h) (fun _ _ h => Or.inr h)

/-! ### The cut on its way to the next session -/

/-- What is known between two sessions: the intent to skip is in the flag until
a dial takes it, and what was shed may be skipped. -/
structure Lane.AwaitsDial (l : Lane) : Prop where
  disconnected : l.dialsSinceCut.isSome = true → l.disconnectedAt.isSome = true
  flag : l.dialsSinceCut = some 0 → l.skipToLiveEdge = true
  shed : l.history.ShedsNone ∨ l.MaySkip

/-- What is known of a lane about the last cut, by what it is doing: the intent
to skip is still in the flag until the first dial since takes it, and anything
on the timeline was shed only if the next session may skip it. -/
def CutOnItsWay (l : Lane) : Prop :=
  match l.phase with
  | .idle => l.AwaitsDial
  | .waiting _ shedAudio _ => l.AwaitsDial ∧ (shedAudio = true → l.MaySkip)
  | .dialing outage skips _ _ =>
      (l.dialsSinceCut.isSome = true → l.disconnectedAt.isSome = true) ∧
        outage.isSome = l.disconnectedAt.isSome ∧ l.dialsSinceCut ≠ some 0 ∧
        (l.dialsSinceCut = some 1 → skips = true) ∧
        (l.history.ShedsNone ∨ l.dialsSinceCut.isSome = true ∨
          l.Overdue ∧ ∃ w ∈ outage, continuityWindow < w)
  | .live _ => l.history.ShedsNone
  | .failed true _ _ => l.listening = false ∨ l.history.ShedsNone
  | .failed false _ _ =>
      (l.dialsSinceCut.isSome = true → l.disconnectedAt.isSome = true) ∧
        l.dialsSinceCut ≠ some 0 ∧ (l.history.ShedsNone ∨ l.MaySkip)
  | .ended _ => True

theorem Lane.overdue_iff {l : Lane} :
    l.Overdue ↔ ∃ t₀ ∈ l.disconnectedAt, continuityWindow < l.now - t₀ := by
  unfold Lane.Overdue Lane.outageSoFar
  cases hd : l.disconnectedAt with
  | none => simp
  | some t₀ => simp

/-- Time only lengthens an outage. -/
theorem Lane.Overdue.mono {l l' : Lane} (h : l.Overdue)
    (hdisconnected : l'.disconnectedAt = l.disconnectedAt) (hnow : l.now ≤ l'.now) :
    l'.Overdue := by
  obtain ⟨t₀, hd, ht⟩ := Lane.overdue_iff.1 h
  exact Lane.overdue_iff.2 ⟨t₀, hdisconnected ▸ hd, lt_of_lt_of_le ht (Nat.sub_le_sub_right hnow _)⟩

/-- What `CutOnItsWay` reads of a lane besides its phase. -/
theorem Lane.MaySkip.mono {l l' : Lane} (h : l.MaySkip)
    (hcut : l.dialsSinceCut.isSome = true → l'.dialsSinceCut.isSome = true)
    (hdisconnected : l'.disconnectedAt = l.disconnectedAt) (hnow : l.now ≤ l'.now) :
    l'.MaySkip :=
  h.imp hcut fun ho => ho.mono hdisconnected hnow

/-- What `AwaitsDial` reads of a lane. -/
theorem Lane.AwaitsDial.congr {l l' : Lane} (h : l.AwaitsDial)
    (hcut : l'.dialsSinceCut = l.dialsSinceCut) (hdisconnected : l'.disconnectedAt = l.disconnectedAt)
    (hflag : l'.skipToLiveEdge = l.skipToLiveEdge) (hhistory : l'.history = l.history)
    (hnow : l.now ≤ l'.now) : l'.AwaitsDial where
  disconnected := by rw [hcut, hdisconnected]; exact h.disconnected
  flag := by rw [hcut, hflag]; exact h.flag
  shed := by
    rw [hhistory]
    exact h.shed.imp_right fun hm => hm.mono (by rw [hcut]; exact id) hdisconnected hnow

/-- The clock moves on. -/
theorem CutOnItsWay.tick {l : Lane} (h : CutOnItsWay l) {now : Instant} (hnow : l.now ≤ now) :
    CutOnItsWay { l with now := now } := by
  have hskip : l.MaySkip → Lane.MaySkip { l with now := now } := fun hm => hm.mono id rfl hnow
  have hover : l.Overdue → Lane.Overdue { l with now := now } := fun ho => ho.mono rfl hnow
  unfold CutOnItsWay at h ⊢
  dsimp only at h ⊢
  cases hp : l.phase with
  | idle =>
      rw [hp] at h
      exact h.congr rfl rfl rfl rfl hnow
  | dialing outage skips afterHandover startedAt =>
      rw [hp] at h
      exact ⟨h.1, h.2.1, h.2.2.1, h.2.2.2.1,
        h.2.2.2.2.imp_right fun hs => hs.imp_right fun ho => ⟨hover ho.1, ho.2⟩⟩
  | live startedAt =>
      rw [hp] at h
      exact h
  | failed connected startedAt failure =>
      rw [hp] at h
      cases connected with
      | true => exact h
      | false => exact ⟨h.1, h.2.1, h.2.2.imp_right hskip⟩
  | waiting wakeAt shedAudio audioOpen =>
      rw [hp] at h
      exact ⟨h.1.congr rfl rfl rfl rfl hnow, fun hs => hskip (h.2 hs)⟩
  | ended result => trivial

/-- The lane's task is done. -/
theorem cutOnItsWay_finish (l : Lane) (result : Except StreamFailure Unit) :
    CutOnItsWay (l.finish result) := by
  unfold Lane.finish
  cases result with
  | ok _ => trivial
  | error f =>
      dsimp only
      split <;> trivial

/-- `run_stream` starts a session: the intent to skip moves from the flag to
the dial. -/
theorem CutOnItsWay.attempt {l : Lane} (h : CutOnItsWay l) (hp : l.phase = .idle) :
    CutOnItsWay l.attempt := by
  unfold CutOnItsWay at h
  rw [hp] at h
  obtain ⟨hdisconnected, hflag, hshed⟩ := h
  refine ⟨?_, ?_, ?_, ?_, ?_⟩
  · simpa [Lane.attempt] using hdisconnected
  · simp [Lane.attempt]
  · cases hc : l.dialsSinceCut <;> simp [Lane.attempt, hc]
  · intro hone
    cases hc : l.dialsSinceCut with
    | none => simp [Lane.attempt, hc] at hone
    | some n =>
        simp only [Lane.attempt, hc, Option.map_some, Option.some.injEq] at hone
        exact hflag (by rw [hc]; congr; omega)
  · refine hshed.imp_right fun hm => hm.imp (fun hc => ?_) fun ho => ?_
    · simpa [Lane.attempt] using hc
    · obtain ⟨t₀, hd, ht⟩ := Lane.overdue_iff.1 ho
      exact ⟨ho.mono rfl le_rfl, _, Option.mem_map_of_mem _ hd, ht⟩

/-- A dial fails. -/
theorem CutOnItsWay.dialFailed {l l' : Lane} {outage : Option Duration}
    {skips afterHandover : Bool} {startedAt startedAt' : Instant} {failure : StreamFailure}
    (h : CutOnItsWay l) (hp : l.phase = .dialing outage skips afterHandover startedAt)
    (hl' : l' = { l with unpresentedCredential := l'.unpresentedCredential
                         phase := .failed false startedAt' failure }) :
    CutOnItsWay l' := by
  unfold CutOnItsWay at h
  rw [hp] at h
  rw [hl']
  exact ⟨h.1, h.2.2.1, h.2.2.2.2.imp_right fun hs => hs.imp id fun ho => ho.1⟩

/-- What becomes of a lane when an action of its session ends. -/
theorem cutOnItsWay_after {r : EStateM.Result Stop Lane Unit} (startedAt : Instant)
    (h : Ends (fun _ l => l.history.ShedsNone)
      (fun _ l => l.listening = false ∨ l.history.ShedsNone) r) :
    CutOnItsWay (Lane.after startedAt r) := by
  match r with
  | .ok _ l => exact h
  | .error .ok l => exact (cutOnItsWay_finish l (.ok ()) :)
  | .error (.err f) l => exact h

/-- A dial ends: it fails, or the session it configures leaves nothing shed on
the timeline. -/
theorem CutOnItsWay.dial {l : Lane} (t : StreamTimeouts) {outage : Option Duration}
    {skips afterHandover : Bool} {startedAt : Instant} {minted : LaneCredential}
    {dialedAt : Instant} {outcome : Dialed} (h : CutOnItsWay l)
    (hp : l.phase = .dialing outage skips afterHandover startedAt)
    (hkeeps : (Input.dial minted dialedAt outcome).KeepsCut l) :
    CutOnItsWay (l.dial t outage skips afterHandover startedAt minted dialedAt outcome) := by
  cases outcome with
  | connectTimedOut | connectFailed | configurationLost => exact h.dialFailed hp rfl
  | configured o =>
      have hdial : l.DialKeepsCut outage := by
        unfold Input.KeepsCut at hkeeps
        rw [hp] at hkeeps
        exact hkeeps
      unfold CutOnItsWay at h
      rw [hp] at h
      obtain ⟨hdisconnected, houtage, -, hone, hshed⟩ := h
      refine cutOnItsWay_after startedAt (openSession_shedsNone t o _ afterHandover ?_)
      refine hshed.imp_right fun hs => ?_
      rcases hs with hcut | ⟨-, w, hw, hlong⟩
      · rcases hdial with hnone | hfirst | hany
        · rw [hnone] at hcut
          cases hcut
        · obtain ⟨w, hw⟩ := Option.isSome_iff_exists.1 (houtage.trans (hdisconnected hcut))
          exact ⟨w, hw, Or.inl (hone hfirst)⟩
        · obtain ⟨w, hw, hlong⟩ := (Option.any_eq_true _ _).1 hany
          exact ⟨w, hw, Or.inr (of_decide_eq_true hlong)⟩
      · exact ⟨w, hw, Or.inr hlong⟩

/-- `run_stream` looks at the failure of a session. -/
theorem CutOnItsWay.noteFailure {l : Lane} {connected : Bool} {startedAt : Instant}
    {failure : StreamFailure} {measuredAt : Instant} (h : CutOnItsWay l)
    (hp : l.phase = .failed connected startedAt failure) (hnow : l.now ≤ measuredAt)
    (hl : l.listening = true) : (l.noteFailure connected failure measuredAt).AwaitsDial := by
  unfold CutOnItsWay at h
  rw [hp] at h
  cases connected with
  | true =>
      refine ⟨fun _ => rfl, fun hc => ?_, Or.inl (h.resolve_left (by rw [hl]; decide))⟩
      unfold Lane.noteFailure at hc ⊢
      dsimp only at hc ⊢
      cases hs : failure.skipsToLiveEdge with
      | true => rfl
      | false => simp [hs] at hc
  | false =>
      obtain ⟨hdisconnected, hzero, hshed⟩ := h
      refine ⟨fun _ => rfl, fun hc => ?_, hshed.imp_right fun hm => ?_⟩
      · unfold Lane.noteFailure at hc ⊢
        dsimp only at hc ⊢
        cases hs : failure.skipsToLiveEdge with
        | true => rfl
        | false => simp [hs, hzero] at hc
      · refine hm.imp (fun hc => ?_) fun ho => ?_
        · unfold Lane.noteFailure
          cases failure.skipsToLiveEdge <;> simp [hc]
        · obtain ⟨t₀, hd, ht⟩ := Lane.overdue_iff.1 ho
          refine Lane.overdue_iff.2 ⟨t₀, ?_, lt_of_lt_of_le ht (Nat.sub_le_sub_right hnow _)⟩
          simp [Lane.noteFailure, Option.mem_def.1 hd]

/-- What a reconnect does: the lane waits, or it ends because nobody listens. -/
theorem reconnect_cases (t : StreamTimeouts) (l : Lane) (rollsOverNow : Bool) :
    (l.listening = true ∧ ∃ wakeAt attempt events, l.reconnect t rollsOverNow =
      { l with phase := .waiting wakeAt l.shedsAudio true
               reconnectAttempt := attempt
               events := events }) ∨
    (l.listening = false ∧ ∃ l' result, l.reconnect t rollsOverNow = Lane.finish l' result) := by
  unfold Lane.reconnect
  dsimp only
  rcases Bool.eq_false_or_eq_true l.listening with hl | hl
  · rw [sendEvent_of_listening (by exact hl)]
    exact Or.inl ⟨hl, _, _, _, rfl⟩
  · rw [sendEvent_of_not_listening (by exact hl)]
    exact Or.inr ⟨hl, _, _, rfl⟩

/-- What a turn of the wait does: the lane ends, waits on or dials, or sheds a
block. -/
theorem wait_cases {l l' : Lane} {wakeAt : Instant} {shedAudio audioOpen : Bool} {w : Wait}
    (h : l.wait wakeAt shedAudio audioOpen w = some l') :
    l' = l.finish (.ok ()) ∨
    (∃ paused finishing phase, (phase = l.phase ∨ phase = .idle ∨
        ∃ audioOpen, phase = .waiting wakeAt shedAudio audioOpen) ∧
      l' = { l with paused := paused, finishRequested := finishing, phase := phase }) ∨
    (shedAudio = true ∧ ∃ pcm, l' = l.noteDiscarded pcm) := by
  cases w with
  | cancelled => exact Or.inl (Option.some.inj h).symm
  | control c =>
      simp only [Lane.wait] at h
      split at h
      · cases h
      · split at h <;> obtain rfl := Option.some.inj h
        · exact Or.inr (Or.inl ⟨true, l.finishRequested, l.phase, Or.inl rfl, rfl⟩)
        · exact Or.inr (Or.inl ⟨false, l.finishRequested, l.phase, Or.inl rfl, rfl⟩)
        · exact Or.inr (Or.inl ⟨l.paused, true, .idle, Or.inr (Or.inl rfl), rfl⟩)
        · exact Or.inr (Or.inl ⟨l.paused, true, .idle, Or.inr (Or.inl rfl), rfl⟩)
        · exact Or.inr (Or.inl ⟨l.paused, l.finishRequested, l.phase, Or.inl rfl, rfl⟩)
        · exact Or.inr (Or.inl ⟨l.paused, l.finishRequested, l.phase, Or.inl rfl, rfl⟩)
  | audio pcm =>
      simp only [Lane.wait] at h
      split at h
      · rename_i hshed
        split at h <;> obtain rfl := Option.some.inj h
        · exact Or.inr (Or.inr ⟨(Bool.and_eq_true _ _ ▸ hshed).1, _, rfl⟩)
        · exact Or.inr (Or.inl ⟨l.paused, l.finishRequested, _, Or.inr (Or.inr ⟨false, rfl⟩), rfl⟩)
      · cases h
  | elapsed =>
      simp only [Lane.wait] at h
      split at h
      · obtain rfl := Option.some.inj h
        exact Or.inr (Or.inl ⟨l.paused, l.finishRequested, .idle, Or.inr (Or.inl rfl), rfl⟩)
      · cases h

theorem CutOnItsWay.settle {l : Lane} {t : StreamTimeouts} {connected : Bool} {startedAt : Instant}
    {failure : StreamFailure} {measuredAt : Instant} (h : CutOnItsWay l)
    (hp : l.phase = .failed connected startedAt failure) (hnow : l.now ≤ measuredAt) :
    CutOnItsWay (l.settle t connected startedAt failure measuredAt) := by
  unfold Lane.settle
  split
  · exact cutOnItsWay_finish _ _
  · dsimp only
    split
    · exact cutOnItsWay_finish _ _
    · rcases reconnect_cases t (l.noteFailure connected failure measuredAt)
        (Lane.rollsOverNow t _ connected startedAt failure) with
        ⟨hl, wakeAt, attempt, events, heq⟩ | ⟨-, l', result, heq⟩ <;> rw [heq]
      · have hawaits := h.noteFailure hp hnow hl
        refine ⟨hawaits.congr rfl rfl rfl rfl le_rfl, fun hs => ?_⟩
        -- a lane that waits sheds audio only when the next session may skip it
        rcases Bool.or_eq_true _ _ ▸ hs with hlong | hskip
        · exact Or.inr (show continuityWindow < _ from of_decide_eq_true hlong)
        · refine Or.inl ?_
          change failure.skipsToLiveEdge = true at hskip
          simp [Lane.noteFailure, hskip]
      · exact cutOnItsWay_finish _ _

theorem CutOnItsWay.wait {l l' : Lane} {wakeAt : Instant} {shedAudio audioOpen : Bool} {w : Wait}
    (h : CutOnItsWay l) (hp : l.phase = .waiting wakeAt shedAudio audioOpen)
    (hw : l.wait wakeAt shedAudio audioOpen w = some l') : CutOnItsWay l' := by
  unfold CutOnItsWay at h
  rw [hp] at h
  obtain ⟨hawaits, hsheds⟩ := h
  rcases wait_cases hw with rfl | ⟨paused, finishing, phase, hphase, rfl⟩ | ⟨hshed, pcm, rfl⟩
  · exact cutOnItsWay_finish l _
  · rw [hp] at hphase
    rcases hphase with rfl | rfl | ⟨audioOpen', rfl⟩
    · exact ⟨hawaits.congr rfl rfl rfl rfl le_rfl, hsheds⟩
    · exact hawaits.congr rfl rfl rfl rfl le_rfl
    · exact ⟨hawaits.congr rfl rfl rfl rfl le_rfl, hsheds⟩
  · have hphase : (l.noteDiscarded pcm).phase = .waiting wakeAt shedAudio audioOpen := hp
    unfold CutOnItsWay
    rw [hphase]
    exact ⟨⟨hawaits.disconnected, hawaits.flag, Or.inr (hsheds hshed)⟩, hsheds⟩

/-- Whoever listened goes away. -/
theorem CutOnItsWay.hangUp {l : Lane} (h : CutOnItsWay l) :
    CutOnItsWay { l with listening := false } := by
  unfold CutOnItsWay at h ⊢
  dsimp only at h ⊢
  cases hp : l.phase with
  | idle =>
      rw [hp] at h
      exact h.congr rfl rfl rfl rfl le_rfl
  | waiting wakeAt shedAudio audioOpen =>
      rw [hp] at h
      exact ⟨h.1.congr rfl rfl rfl rfl le_rfl, h.2⟩
  | failed connected startedAt failure =>
      rw [hp] at h
      cases connected with
      | true => exact Or.inl rfl
      | false => exact h
  | dialing outage skips afterHandover startedAt =>
      rw [hp] at h
      exact h
  | live startedAt =>
      rw [hp] at h
      exact h
  | ended result => trivial

/-- A turn of the session loop sheds nothing. -/
theorem CutOnItsWay.select {l : Lane} {startedAt : Instant} (h : CutOnItsWay l)
    (hp : l.phase = .live startedAt) (t : StreamTimeouts) (closeLong : Bool) (b : Branch) :
    CutOnItsWay (Lane.after startedAt (select t closeLong b l)) := by
  unfold CutOnItsWay at h
  rw [hp] at h
  have hmoves : Moves True False l _ := select_moves t closeLong (b := b) fun _ => trivial
  exact cutOnItsWay_after startedAt
    ((Ends.of_finalState (P := fun l => l.history.ShedsNone) (hmoves.shedsNone h)).mono
      (fun _ _ h => h) (fun _ _ h => Or.inr h))

/-- **Every step that keeps the cut keeps the invariant.** -/
theorem CutOnItsWay.step {t : StreamTimeouts} {closeLong : Bool} {l l' : Lane}
    {i : Instant × Input} (h : CutOnItsWay l) (hkeeps : i.2.KeepsCut l)
    (hstep : step t closeLong l i = some l') : CutOnItsWay l' := by
  unfold Stream.step at hstep
  split at hstep
  · rename_i hnow
    have htick := h.tick hnow
    dsimp only at hstep
    split at hstep
    · cases hstep
    · obtain rfl := Option.some.inj hstep
      exact htick.hangUp
    · rename_i hp _
      obtain rfl := Option.some.inj hstep
      exact htick.attempt hp
    · rename_i hp _
      split at hstep
      · cases hstep
      · obtain rfl := Option.some.inj hstep
        exact htick.dialFailed hp rfl
    · rename_i hp hinput
      split at hstep
      · obtain rfl := Option.some.inj hstep
        rw [hinput] at hkeeps
        exact htick.dial t hp hkeeps.tick
      · cases hstep
    · rename_i hp _
      split at hstep
      · obtain rfl := Option.some.inj hstep
        exact htick.select hp t closeLong _
      · cases hstep
    · rename_i hp _
      split at hstep
      · obtain rfl := Option.some.inj hstep
        exact htick.settle hp ‹_›
      · cases hstep
    · rename_i hp _
      exact htick.wait hp hstep
    · cases hstep
  · cases hstep

section Runs

variable {t : StreamTimeouts} {closeLong : Bool} {captureOriginMs : ℕ}
  {is : List (Instant × Input)} {l : Lane}

/-- Every session of the run that is configured is configured by a dial that
keeps the cut. -/
abbrev KeepsCuts (t : StreamTimeouts) (closeLong : Bool) : Lane → List (Instant × Input) → Prop :=
  Along (step t closeLong) fun lane input => input.2.KeepsCut lane

theorem Reaches.cutOnItsWay (h : Reaches t closeLong captureOriginMs is l)
    (hkeeps : KeepsCuts t closeLong (Lane.start captureOriginMs) is) : CutOnItsWay l := by
  refine hkeeps.invariant (fun _ _ _ hs hk hstep => hs.step hk hstep) ?_ h
  exact ⟨fun hc => (by cases hc), fun hc => (by cases hc), Or.inl fun _ hb => (by cases hb)⟩

/-- The outage a dial that keeps the cut bridges is too long to replay. -/
theorem CutOnItsWay.skips {outage : Option Duration} {skips afterHandover : Bool}
    {startedAt : Instant} (h : CutOnItsWay l)
    (hp : l.phase = .dialing outage skips afterHandover startedAt) (hdial : l.DialKeepsCut outage)
    (hcut : l.dialsSinceCut.isSome = true) :
    ∃ w, outage = some w ∧ continuityWindow < effectiveOutage l.recovery w skips := by
  unfold CutOnItsWay at h
  rw [hp] at h
  obtain ⟨hdisconnected, houtage, -, hone, -⟩ := h
  rcases hdial with hnone | hfirst | hany
  · rw [hnone] at hcut
    cases hcut
  · obtain ⟨w, hw⟩ := Option.isSome_iff_exists.1 (houtage.trans (hdisconnected hcut))
    rw [hone hfirst]
    exact ⟨w, hw, effectiveOutage_of_skips _ _⟩
  · obtain ⟨w, hw, hlong⟩ := (Option.any_eq_true _ _).1 hany
    exact ⟨w, hw, (of_decide_eq_true hlong : continuityWindow < w).trans_le
      (le_effectiveOutage _ _ _)⟩

/-- A dial too late to replay replays nothing. -/
theorem replays_of_lt {w : Duration} {skips : Bool}
    (hlong : continuityWindow < effectiveOutage l.recovery w skips) (afterHandover : Bool) :
    l.replays (some w) skips afterHandover = [] := by
  unfold Lane.replays
  dsimp only
  split
  · rfl
  · rw [StreamRecoveryState.prepareReplay_of_lt hlong]

/-- A session configured after an outage too long to replay starts at the live
edge. -/
theorem opensAtLiveEdge_of_lt {w : Duration} {skips : Bool}
    (hlong : continuityWindow < effectiveOutage l.recovery w skips)
    (hcounts : CountsTaken captureOriginMs l) (hreplay : l.session.catchUp.replay = [])
    (hsent : l.session.sentAudio = false) (t : StreamTimeouts) (o : Opening)
    (afterHandover : Bool) :
    OpensAtLiveEdge t o captureOriginMs (some w) skips afterHandover l := by
  have hfresh : Ends (fun _ opened => Fresh l opened) (fun _ _ => l.listening = false)
      (openTimeline t o (some w) skips afterHandover l) := by
    unfold openTimeline
    dsimp only
    split
    · exact (openAfterHandover_ends l w).mono (fun _ _ h => h) (fun _ _ h => h.1)
    · exact (openAfterOutage_ends_of_lt t o hlong).mono (fun _ _ h => h) (fun _ _ h => h.1)
  have hmoves : Moves True True l _ := openTimeline_moves t trivial o (some w) skips afterHandover l
  have hcounted := Ends.of_finalState (P := CountsTaken captureOriginMs)
    (hmoves.invariant (fun _ _ => .move) hcounts)
  refine (hfresh.and hcounted).mono (fun _ opened h => ?_) (fun _ _ h => h.1)
  obtain ⟨hf, hc⟩ := h
  exact ⟨hf.origin, hf.acknowledged, ⟨hf.replay.trans hreplay, hf.sentAudio.trans hsent⟩, hc⟩

/-- **A cut at the live edge is honoured.**  In a run whose sessions are all
configured by dials that keep the cut, the next session configured after a cut
starts at the live edge, and no session is sent a replay while anything on the
timeline since the anchor was shed. -/
theorem liveEdge_cut_honoured (h : Reaches t closeLong captureOriginMs is l)
    (hkeeps : KeepsCuts t closeLong (Lane.start captureOriginMs) is)
    {outage : Option Duration} {skips afterHandover : Bool} {startedAt : Instant}
    (hphase : l.phase = .dialing outage skips afterHandover startedAt)
    (hdial : l.DialKeepsCut outage) :
    (l.dialsSinceCut.isSome = true → ∀ (o : Opening) (handover : Option HandoverSchedule)
      (now : Instant), OpensAtLiveEdge t o captureOriginMs outage skips afterHandover
        { l with now := now, unpresentedCredential := none, session := .start handover }) ∧
    (l.replays outage skips afterHandover = [] ∨ l.history.ShedsNone) := by
  have hcut := h.cutOnItsWay hkeeps
  refine ⟨fun hc o handover now => ?_, ?_⟩
  · obtain ⟨w, rfl, hlong⟩ := hcut.skips hphase hdial hc
    refine opensAtLiveEdge_of_lt (by exact hlong) ?_ rfl rfl t o afterHandover
    exact (h.countsTaken).congr rfl rfl
  · by_cases hc : l.dialsSinceCut.isSome = true
    · obtain ⟨w, rfl, hlong⟩ := hcut.skips hphase hdial hc
      exact Or.inl (replays_of_lt hlong _)
    · unfold CutOnItsWay at hcut
      rw [hphase] at hcut
      obtain ⟨-, -, -, -, hshed⟩ := hcut
      rcases hshed with hs | hs | ⟨-, w, rfl, hlong⟩
      · exact Or.inr hs
      · exact absurd hs hc
      · exact Or.inl (replays_of_lt (hlong.trans_le (le_effectiveOutage _ _ _)) _)

end Runs

/-- The provider hears nothing while a lane sends it 15.1 seconds of audio and
cuts itself; it sheds a block while it waits, and dials again. -/
def cutAndDial : List (Instant × Input) :=
  [(0, .attempt), (0, .dial ⟨"key", none⟩ 0 (.configured ⟨none, [], .empty, none, .empty, none⟩))]
    ++ List.replicate 151
      (0, .select (.audio (some (List.replicate 3200 0)) none false none none))
    ++ [(0, .settle 0), (0, .wait (.audio (some [0, 0]))), (1000000000, .wait .elapsed),
      (1000000000, .attempt)]

/-- That dial fails, and the next one begins three seconds after the cut. -/
def cutAndDialTwice : List (Instant × Input) :=
  cutAndDial ++ [(1000000000, .dial ⟨"key", none⟩ 1000000000 (.connectFailed "refused")),
    (1000000000, .settle 1000000000), (3000000000, .wait .elapsed), (3000000000, .attempt)]

/-- The arguments of the session a lane dials for. -/
def Lane.dialed (l : Lane) : Option (Option Duration × Bool × Bool × Instant) :=
  match l.phase with
  | .dialing outage skips afterHandover startedAt => some (outage, skips, afterHandover, startedAt)
  | _ => none

theorem Lane.phase_of_dialed {l : Lane} {outage : Option Duration} {skips afterHandover : Bool}
    {startedAt : Instant} (h : l.dialed = some (outage, skips, afterHandover, startedAt)) :
    l.phase = .dialing outage skips afterHandover startedAt := by
  unfold Lane.dialed at h
  split at h
  · rename_i hp
    simp only [Option.some.injEq, Prod.mk.injEq] at h
    obtain ⟨rfl, rfl, rfl, rfl⟩ := h
    exact hp
  · cases h

/-- The first dial after the cut starts at the live edge. -/
theorem liveEdge_cut_honoured_cutAndDial :
    ∃ l, Reaches .default false 0 cutAndDial l ∧ l.dialsSinceCut = some 1 ∧
      ∀ (o : Opening) (handover : Option HandoverSchedule) (now : Instant),
        OpensAtLiveEdge .default o 0 (some (Duration.ofSecs 1)) true false
          { l with now := now, unpresentedCredential := none, session := .start handover } := by
  have hrun : (run (step .default false) (Lane.start 0) cutAndDial).map
      (fun l => (l.dialsSinceCut, l.dialed)) =
      some (some 1, some (some (Duration.ofSecs 1), true, false, 1000000000)) := by decide +kernel
  obtain ⟨l, hl, heq⟩ := Option.map_eq_some_iff.1 hrun
  obtain ⟨hcut, hdialed⟩ := Prod.mk.inj heq
  exact ⟨l, hl, hcut, (liveEdge_cut_honoured hl (by decide +kernel) (Lane.phase_of_dialed hdialed)
    (Or.inr (Or.inl hcut))).1 (by rw [hcut]; rfl)⟩

/-- **The second dial within the continuity window does not:** the flag was
rewritten by the first. -/
theorem liveEdge_cut_not_honoured :
    ¬ ∀ (t : StreamTimeouts) (closeLong : Bool) (captureOriginMs : ℕ) (is : List (Instant × Input))
      (l : Lane) (outage : Option Duration) (skips afterHandover : Bool) (startedAt : Instant),
      Reaches t closeLong captureOriginMs is l →
      l.phase = .dialing outage skips afterHandover startedAt →
      (l.dialsSinceCut.isSome = true → ∀ (o : Opening) (handover : Option HandoverSchedule)
        (now : Instant), OpensAtLiveEdge t o captureOriginMs outage skips afterHandover
          { l with now := now, unpresentedCredential := none, session := .start handover }) ∧
      (l.replays outage skips afterHandover = [] ∨ l.history.ShedsNone) := by
  intro h
  have hrun : (run (step .default false) (Lane.start 0) cutAndDialTwice).map
      (fun l => (l.dialed, (l.replays (some (Duration.ofSecs 3)) false false).isEmpty,
        l.history.counted.all (·.sent))) =
      some (some (some (Duration.ofSecs 3), false, false, 3000000000), false, false) := by
    decide +kernel
  obtain ⟨l, hl, heq⟩ := Option.map_eq_some_iff.1 hrun
  obtain ⟨hdialed, hrest⟩ := Prod.mk.inj heq
  obtain ⟨hreplays, hsheds⟩ := Prod.mk.inj hrest
  rcases (h _ _ _ _ l _ _ _ _ hl (Lane.phase_of_dialed hdialed)).2 with hnone | hsent
  · rw [hnone] at hreplays
    cases hreplays
  · rw [List.all_eq_true.2 hsent] at hsheds
    cases hsheds

end Stream
end ZuTalk
