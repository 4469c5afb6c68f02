/-
# What a step of a lane can do to its timeline

Every handler of `run_stream_session` and every transition of `run_stream`
changes the recovery state and the history of a lane through the few moves of
`Move`, and through nothing else.  `step_moves` says so for a whole step, so an
invariant of the timeline is checked once per move.  `lossy` is whether a block
may be lost on the way, which it may only when the send of a block just taken
off the audio channel fails (`Input.Loses`); `sheds` is whether one may be
discarded on purpose, which no branch of a connected lane does.
-/

import ZuTalk.Stream.Run
import Mathlib.Logic.Relation

namespace ZuTalk
namespace Stream

open Machine

/-- One change to the timeline of a lane. -/
inductive Move (lossy sheds : Prop) : Lane → Lane → Prop
  /-- anything that leaves the recovery state and the history alone -/
  | frame {l l' : Lane} (recovery : l'.recovery = l.recovery) (history : l'.history = l.history) :
      Move lossy sheds l l'
  /-- a finalize sent or answered: the marks and the provider's lead -/
  | clock {l l' : Lane} (marks : List ℕ) (lead : List (ℕ × ℕ))
      (recovery : l'.recovery = { l.recovery with finalizeMarks := marks, providerLead := lead })
      (history : l'.history = l.history) : Move lossy sheds l l'
  | recordSent (l : Lane) (pcm : Pcm) : Move lossy sheds l (l.recordSent pcm)
  | noteDiscarded (l : Lane) (pcm : Pcm) (may : sheds) : Move lossy sheds l (l.noteDiscarded pcm)
  | lose (l : Lane) (pcm : Pcm) (may : lossy) : Move lossy sheds l (l.forget pcm .lost)
  | drop (l : Lane) (pcm : Pcm) (paused : l.paused = true) : Move lossy sheds l (l.forget pcm .dropped)
  | acknowledge {l l' : Lane} (totalMs : ℕ) (recovery : l'.recovery = l.recovery.acknowledge totalMs)
      (history : l'.history = l.history) : Move lossy sheds l l'
  | reAnchor (l : Lane) : Move lossy sheds l l.reAnchorToLiveEdge
  | prepareReplay (l : Lane) (outage : Duration) : Move lossy sheds l (l.prepareReplay outage)
  | openFirst {l l' : Lane}
      (recovery : l'.recovery = StreamRecoveryState.beginProviderClock
        { l.recovery with connectionOriginMs := l.recovery.nextAudioMs })
      (history : l'.history = l.history) : Move lossy sheds l l'

/-- Any number of moves. -/
abbrev Moves (lossy sheds : Prop) : Lane → Lane → Prop :=
  Relation.ReflTransGen (Move lossy sheds)

variable {lossy sheds : Prop}

theorem Move.moves {l l' : Lane} (h : Move lossy sheds l l') : Moves lossy sheds l l' := .single h

theorem Moves.frame {l l' : Lane} (recovery : l'.recovery = l.recovery)
    (history : l'.history = l.history) : Moves lossy sheds l l' := (Move.frame recovery history).moves

/-- **The invariant rule for moves.** -/
theorem Moves.invariant {I : Lane → Prop} (h : ∀ l l', I l → Move lossy sheds l l' → I l') {l l' : Lane}
    (hl : I l) (hm : Moves lossy sheds l l') : I l' := by
  induction hm with
  | refl => exact hl
  | tail _ hmove ih => exact h _ _ ih hmove

/-- The send of a block this drain took off the audio channel fails. -/
def Drain.Loses (d : Drain) : Prop := d.lost.isSome = true

/-- The send of a block this branch took off the audio channel fails. -/
def Branch.Loses (lane : Lane) : Branch → Prop
  | .control _ d _ => d.Loses
  | .message _ _ d _ => d.Loses
  | .handover d _ => d.Loses
  | .catchUp queued answer =>
      lane.session.catchUp.replay = [] ∧ queued.isSome = true ∧ answer.isSome = true
  | .audio pcm answer _ _ _ => lane.paused = false ∧ pcm.isSome = true ∧ answer.isSome = true
  | _ => False

theorem Branch.loses_now {lane : Lane} {now : Instant} {b : Branch}
    (h : b.Loses { lane with now := now }) : b.Loses lane := by
  cases b <;> exact h

/-- The send of a block this input makes the lane take off the audio channel
fails. -/
def Input.Loses (lane : Lane) : Input → Prop
  | .dial _ _ (.configured o) => o.pauseDrain.Loses ∨ o.finishDrain.Loses
  | .select b => b.Loses lane
  | _ => False

section Session

variable (t : StreamTimeouts)

theorem modifySession_moves (f : Session → Session) : Within (Moves lossy sheds) (modifySession f) :=
  fun _ => .frame rfl rfl

theorem modifySessionBy_moves (f : Lane → Session → Session) : Within (Moves lossy sheds) (modifySessionBy f) :=
  fun _ => .frame rfl rfl

theorem sendMessage_moves (operation : String) (limit : Duration) (answer : Option SendError) :
    Within (Moves lossy sheds) (sendMessage operation limit answer) := by
  cases answer with
  | none => exact .pure _
  | some e => exact .throw _

theorem sendEvent_moves (e : SttStreamEvent) : Within (Moves lossy sheds) (sendEvent e) :=
  .bind .get fun _ => .ite (.modify fun _ => .frame rfl rfl) (.throw _)

theorem sendFinalize_moves (answer : Option SendError) :
    Within (Moves lossy sheds) (sendFinalize t answer) := by
  refine .bind (sendMessage_moves _ _ _) fun _ => .modify fun l => Move.moves ?_
  exact .clock _ _ rfl rfl

theorem recordSent_moves (pcm : Pcm) :
    Within (Moves lossy sheds) (modify (·.recordSent pcm) : LaneM Unit) := fun l => (Move.recordSent l pcm).moves

theorem loseBlock_moves (may : lossy) (operation : String) (lost : Pcm × SendError) :
    Within (Moves lossy sheds) (loseBlock t operation lost) :=
  .bind (fun l => (Move.lose l lost.1 may).moves) fun _ => .throw _

theorem sendReplayed_moves (count : ℕ) (fails : Option (ℕ × SendError)) :
    Within (Moves lossy sheds) (sendReplayed t count fails) :=
  .optionForM fun _ _ => .when (.throw _)

theorem drainReplay_moves (fails : Option (ℕ × SendError)) :
    Within (Moves lossy sheds) (drainReplay t fails) :=
  .bind .get fun _ => .bind (modifySession_moves _) fun _ =>
    .bind (sendReplayed_moves t _ _) fun _ => .pure _

theorem drainQueuedAudio_moves {d : Drain} (may : d.Loses → lossy) :
    Within (Moves lossy sheds) (drainQueuedAudio t d) :=
  .bind (drainReplay_moves t _) fun _ => .bind (.forM recordSent_moves _) fun _ =>
    .bind (.optionForM fun b hb =>
      loseBlock_moves t (may (Option.isSome_of_mem hb)) _ b) fun _ => .pure _

theorem drainAndNote_moves {d : Drain} (may : d.Loses → lossy) :
    Within (Moves lossy sheds) (drainAndNote t d) :=
  .bind (drainQueuedAudio_moves t may) fun _ => modifySession_moves _

theorem beginDrain_moves (answer : Option SendError) : Within (Moves lossy sheds) (beginDrain t answer) :=
  .bind .get fun _ => .when (.bind (sendMessage_moves _ _ _) fun _ => modifySessionBy_moves _)

theorem handOver_moves (answer : Option SendError) : Within (Moves lossy sheds) (handOver t answer) :=
  .bind (beginDrain_moves t _) fun _ => modifySession_moves _

theorem announceRecovery_moves (outage : Duration) : Within (Moves lossy sheds) (announceRecovery outage) :=
  .bind (sendEvent_moves _) fun _ => .bind .get fun _ => sendEvent_moves _

theorem sendReplay_moves (outage : Duration) (replay : List ReplayAudioFrame)
    (fails : Option (ℕ × SendError)) : Within (Moves lossy sheds) (sendReplay t outage replay fails) :=
  .ite (modifySession_moves _) (.bind (sendReplayed_moves t _ _) fun _ => modifySession_moves _)

theorem openAfterOutage_moves (may : sheds) (o : Opening) (outage : Duration) (skips : Bool) :
    Within (Moves lossy sheds) (openAfterOutage t o outage skips) :=
  .bind .get fun _ => .bind (announceRecovery_moves _) fun _ => .bind .get fun _ =>
    .bind (fun l => (Move.prepareReplay l _).moves) fun _ =>
      .bind (modifySessionBy_moves _) fun _ => .bind (sendReplay_moves t _ _ _) fun _ =>
        .when (.bind (.forM (fun pcm l => (Move.noteDiscarded l pcm may).moves) _)
          fun _ l => (Move.reAnchor l).moves)

theorem openTimeline_moves (may : sheds) (o : Opening) (outage : Option Duration)
    (skips afterHandover : Bool) :
    Within (Moves lossy sheds) (openTimeline t o outage skips afterHandover) := by
  cases outage with
  | none =>
      refine .modify fun l => Move.moves ?_
      exact .openFirst rfl rfl
  | some outage =>
      refine .ite ?_ (openAfterOutage_moves t may o outage skips)
      exact .bind (fun l => (Move.reAnchor l).moves) fun _ => announceRecovery_moves outage

theorem onFinish_moves {d : Drain} (may : d.Loses → lossy) (answer : Option SendError) :
    Within (Moves lossy sheds) (onFinish t d answer) :=
  .bind (drainAndNote_moves t may) fun _ => .bind .get fun _ =>
    .bind (.when (.bind (sendEvent_moves _) fun _ => .throw _)) fun _ => beginDrain_moves t answer

/-- What a connection does once its timeline is open. -/
theorem openRest_moves {o : Opening} (may : o.pauseDrain.Loses ∨ o.finishDrain.Loses → lossy) :
    Within (Moves lossy sheds)
      (do openPaused t o; sendEvent .connected; armTimers t; openFinishing t o) :=
  .bind (.bind .get fun _ => .when (.bind (drainAndNote_moves t fun h => may (Or.inl h)) fun _ =>
      .bind .get fun _ => .when (sendFinalize_moves t _))) fun _ =>
    .bind (sendEvent_moves _) fun _ => .bind (modifySessionBy_moves _) fun _ =>
      .bind .get fun _ => .when (onFinish_moves t (fun h => may (Or.inr h)) _)

theorem openSession_moves {o : Opening} (may : o.pauseDrain.Loses ∨ o.finishDrain.Loses → lossy)
    (maySheds : sheds) (handover : Option HandoverSchedule) (outage : Option Duration)
    (skips afterHandover : Bool) :
    Within (Moves lossy sheds) (openSession t o handover outage skips afterHandover) :=
  .bind (modifySession_moves _) fun _ => .bind (openTimeline_moves t maySheds o _ _ _) fun _ =>
    openRest_moves t may

theorem onControl_moves (c : Option SttStreamControl) {d : Drain} (may : d.Loses → lossy)
    (answer : Option SendError) :
    Within (Moves lossy sheds) (onControl t c d answer) := by
  match c with
  | some .finalize =>
      exact .bind (drainAndNote_moves t may) fun _ => sendFinalize_moves t answer
  | some .pause =>
      exact .bind (drainAndNote_moves t may) fun _ => .bind (sendFinalize_moves t answer) fun _ =>
        .bind (.modify fun _ => .frame rfl rfl) fun _ => modifySessionBy_moves _
  | some .resume =>
      exact .bind (.modify fun _ => .frame rfl rfl) fun _ => modifySessionBy_moves _
  | some .keepalive => exact sendMessage_moves _ _ _
  | some .finish => exact onFinish_moves t may answer
  | none => exact .bind (modifySession_moves _) fun _ => onFinish_moves t may answer

theorem emitResponseEvents_moves (tokens : List SonioxStreamTokenWire) :
    Within (Moves lossy sheds) (emitResponseEvents tokens) :=
  .bind .get fun _ => .bind (.when (sendEvent_moves _)) fun _ =>
    .forM (fun _ => sendEvent_moves _) _

theorem noteFinalizeAnswered_clock (r : StreamRecoveryState) (totalMs : ℕ) :
    ∃ marks lead, r.noteFinalizeAnswered totalMs =
      { r with finalizeMarks := marks, providerLead := lead } := by
  unfold StreamRecoveryState.noteFinalizeAnswered
  dsimp only
  split
  · exact ⟨[], r.providerLead, rfl⟩
  · split
    · exact ⟨_, _, rfl⟩
    · exact ⟨_, r.providerLead, rfl⟩

theorem onProgress_moves (response : SonioxStreamResponse) (queuedBlocks totalMs : ℕ) :
    Within (Moves lossy sheds) (onProgress response queuedBlocks totalMs) := by
  refine .bind (.when (.modify fun l => Move.moves ?_)) fun _ =>
    .bind (.modify fun l => Move.moves ?_) fun _ => .bind .get fun _ => sendEvent_moves _
  · obtain ⟨marks, lead, h⟩ := noteFinalizeAnswered_clock l.recovery totalMs
    exact .clock marks lead h rfl
  · exact .acknowledge totalMs rfl rfl

theorem afterResponse_moves (finished reachedPause : Bool) {d : Drain} (may : d.Loses → lossy)
    (answer : Option SendError) :
    Within (Moves lossy sheds) (afterResponse t finished reachedPause d answer) :=
  .bind .get fun _ =>
    .bind (.when (.bind (.when (.throw _)) fun _ =>
      .bind (.when (.bind (sendEvent_moves _) fun _ => .throw _)) fun _ => .throw _)) fun _ =>
      .when (.bind (.when (drainAndNote_moves t may)) fun _ => handOver_moves t answer)

theorem onResponse_moves (response : SonioxStreamResponse) (queuedBlocks : ℕ) {d : Drain}
    (may : d.Loses → lossy) (answer : Option SendError) :
    Within (Moves lossy sheds) (onResponse t response queuedBlocks d answer) :=
  .bind (.optionForM fun _ _ => .throw _) fun _ =>
    .bind (.optionForM fun ms _ => onProgress_moves response queuedBlocks ms) fun _ =>
      .bind .get fun _ => .bind (modifySession_moves _) fun _ =>
        .bind (.when (modifySessionBy_moves _)) fun _ => .bind .get fun _ =>
          .bind (emitResponseEvents_moves _) fun _ => afterResponse_moves t _ _ may answer

theorem onMessage_moves (m : WsMessage) (queuedBlocks : ℕ) {d : Drain} (may : d.Loses → lossy)
    (answer : Option SendError) : Within (Moves lossy sheds) (onMessage t m queuedBlocks d answer) := by
  refine .bind (modifySessionBy_moves _) fun _ => ?_
  match m with
  | .text (.ok response) => exact onResponse_moves t response queuedBlocks may answer
  | .text (.error _) => exact .throw _
  | .close _ => exact .throw _
  | .other => exact .pure _
  | .error _ => exact .throw _
  | .none => exact .throw _

theorem onCatchUp_moves {queued : Option Pcm} {answer : Option SendError} {l : Lane}
    (may : (Branch.catchUp queued answer).Loses l → lossy) :
    Moves lossy sheds l (finalState (onCatchUp t queued answer l)) := by
  refine Within.get_bind_at ?_
  match hreplay : l.session.catchUp.replay with
  | pcm :: replay =>
      exact Within.bind (modifySession_moves _) (fun _ => .bind (sendMessage_moves _ _ _) fun _ =>
        modifySessionBy_moves _) l
  | [] =>
      match queued, answer with
      | none, _ => exact modifySession_moves _ l
      | some pcm, some e => exact loseBlock_moves t (may ⟨hreplay, rfl, rfl⟩) _ _ l
      | some pcm, none => exact Within.bind (recordSent_moves pcm) (fun _ => modifySessionBy_moves _) l

theorem closeLongUtterance_moves (quiet : Bool) (pcm : Pcm) (answer : Option SendError) :
    Within (Moves lossy sheds) (closeLongUtterance t quiet pcm answer) :=
  .bind .get fun _ => .bind (modifySession_moves _) fun _ => .when (sendFinalize_moves t answer)

theorem cutBehindLiveEdge_moves : Within (Moves lossy sheds) (cutBehindLiveEdge t) :=
  .bind .get fun _ => .when (.throw _)

theorem afterAudio_moves (closeLong : Bool) (pcm : Pcm) (quiet : Bool)
    (finalizeAnswer drainAnswer : Option SendError) :
    Within (Moves lossy sheds) (afterAudio t closeLong pcm quiet finalizeAnswer drainAnswer) :=
  .bind (modifySession_moves _) fun _ => .bind .get fun _ =>
    .bind (.when (closeLongUtterance_moves t quiet pcm finalizeAnswer)) fun _ =>
      .bind .get fun _ => .ite (handOver_moves t drainAnswer) (cutBehindLiveEdge_moves t)

theorem onAudio_moves (closeLong : Bool) {pcm : Option Pcm} {answer : Option SendError}
    {quiet : Bool} {finalizeAnswer drainAnswer : Option SendError} {l : Lane}
    (may : (Branch.audio pcm answer quiet finalizeAnswer drainAnswer).Loses l → lossy) :
    Moves lossy sheds l
      (finalState (onAudio t closeLong pcm answer quiet finalizeAnswer drainAnswer l)) := by
  unfold onAudio
  match pcm with
  | none => exact modifySession_moves _ l
  | some pcm =>
      refine Within.get_bind_at ?_
      by_cases hp : l.paused = true
      · rw [if_pos hp]
        exact (Move.drop l pcm hp).moves
      · rw [if_neg hp]
        match answer with
        | some e => exact loseBlock_moves t (may ⟨eq_false_of_ne_true hp, rfl, rfl⟩) _ _ l
        | none =>
            exact Within.bind (recordSent_moves pcm)
              (fun _ => afterAudio_moves t closeLong pcm quiet finalizeAnswer drainAnswer) l

theorem onHandover_moves {d : Drain} (may : d.Loses → lossy) (answer : Option SendError) :
    Within (Moves lossy sheds) (onHandover t d answer) :=
  .bind .get fun _ =>
    .ite (.bind (.when (drainAndNote_moves t may)) fun _ => handOver_moves t answer)
      (.optionForM fun _ _ => modifySession_moves _)

theorem select_moves (closeLong : Bool) {b : Branch} {l : Lane} (may : b.Loses l → lossy) :
    Moves lossy sheds l (finalState (select t closeLong b l)) := by
  cases b with
  | cancelled => exact Within.throw _ l
  | control c d answer => exact onControl_moves t c may answer l
  | message m queuedBlocks d answer => exact onMessage_moves t m queuedBlocks may answer l
  | catchUp queued answer => exact onCatchUp_moves t may
  | audio pcm answer quiet finalizeAnswer drainAnswer => exact onAudio_moves t closeLong may
  | keepalive answer =>
      exact Within.bind (sendMessage_moves _ _ _) (fun _ => modifySessionBy_moves _) l
  | drainElapsed =>
      exact Within.bind .get (fun _ => .bind (.when (.throw _)) fun _ => .throw _) l
  | handover d answer => exact onHandover_moves t may answer l
  | receiveIdle => exact Within.throw _ l

end Session

theorem finish_moves (l : Lane) (result : Except StreamFailure Unit) : Moves lossy sheds l (l.finish result) := by
  unfold Lane.finish
  cases result with
  | ok _ => exact Moves.frame rfl rfl
  | error f =>
      dsimp only
      split <;> exact Moves.frame rfl rfl

theorem returned_moves (connected : Bool) (startedAt : Instant) (l : Lane) (stop : Stop) :
    Moves lossy sheds l (l.returned connected startedAt stop) := by
  cases stop with
  | ok => exact finish_moves l (.ok ())
  | err f => exact Moves.frame rfl rfl

/-- An action of the session, and what `run_stream` makes of its end. -/
theorem after_moves {x : LaneM Unit} {l : Lane} (h : Moves lossy sheds l (finalState (x l)))
    (startedAt : Instant) : Moves lossy sheds l (Lane.after startedAt (x l)) := by
  cases hr : x l with
  | ok a l' =>
      rw [hr] at h
      exact h.trans (Moves.frame rfl rfl)
  | error stop l' =>
      rw [hr] at h
      exact h.trans (returned_moves true startedAt l' stop)

theorem dial_moves (t : StreamTimeouts) (l : Lane) (outage : Option Duration)
    (skips afterHandover : Bool) (startedAt : Instant) {minted : LaneCredential}
    {dialedAt : Instant} {outcome : Dialed}
    (may : (Input.dial minted dialedAt outcome).Loses l → lossy) (maySheds : sheds) :
    Moves lossy sheds l (l.dial t outage skips afterHandover startedAt minted dialedAt outcome) := by
  cases outcome with
  | connectTimedOut | connectFailed | configurationLost => exact Moves.frame rfl rfl
  | configured o =>
      have hspent : Moves lossy sheds l { l with unpresentedCredential := none } := Moves.frame rfl rfl
      exact hspent.trans (after_moves (openSession_moves t may maySheds _ outage skips afterHandover _) startedAt)

theorem reconnect_moves (t : StreamTimeouts) (l : Lane) (rollsOverNow : Bool) :
    Moves lossy sheds l (l.reconnect t rollsOverNow) := by
  have hnumber : Moves lossy sheds l { l with reconnectAttempt := min (l.reconnectAttempt + 1) 255 } :=
    Moves.frame rfl rfl
  unfold Lane.reconnect
  dsimp only
  split <;> rename_i hsend
  all_goals refine (hnumber.trans ((sendEvent_moves _).of_eq hsend)).trans ?_
  · exact Moves.frame rfl rfl
  · exact finish_moves _ _
  · exact finish_moves _ _

theorem settle_moves (t : StreamTimeouts) (l : Lane) (connected : Bool) (startedAt : Instant)
    (failure : StreamFailure) (measuredAt : Instant) :
    Moves lossy sheds l (l.settle t connected startedAt failure measuredAt) := by
  have hnote : Moves lossy sheds l (l.noteFailure connected failure measuredAt) := Moves.frame rfl rfl
  unfold Lane.settle
  split
  · exact finish_moves l _
  · dsimp only
    split
    · exact hnote.trans (finish_moves _ _)
    · exact hnote.trans (reconnect_moves t _ _)

theorem wait_moves {l l' : Lane} {wakeAt : Instant} {shedAudio audioOpen : Bool} {w : Wait}
    (may : sheds)
    (h : l.wait wakeAt shedAudio audioOpen w = some l') : Moves lossy sheds l l' := by
  cases w with
  | cancelled =>
      obtain rfl := Option.some.inj h
      exact finish_moves l _
  | control c =>
      simp only [Lane.wait] at h
      split at h
      · cases h
      · split at h <;> obtain rfl := Option.some.inj h <;> exact Moves.frame rfl rfl
  | audio pcm =>
      simp only [Lane.wait] at h
      split at h
      · split at h <;> obtain rfl := Option.some.inj h
        · exact (Move.noteDiscarded l _ may).moves
        · exact Moves.frame rfl rfl
      · cases h
  | elapsed =>
      simp only [Lane.wait] at h
      split at h
      · obtain rfl := Option.some.inj h
        exact Moves.frame rfl rfl
      · cases h

/-- **What a step can do to the timeline:** moves, and nothing else. -/
theorem step_moves {t : StreamTimeouts} {closeLong : Bool} {l l' : Lane} {i : Instant × Input}
    (h : step t closeLong l i = some l') (may : i.2.Loses l → lossy) (maySheds : sheds) : Moves lossy sheds l l' := by
  unfold step at h
  split at h
  · have hnow : Moves lossy sheds l { l with now := i.1 } := Moves.frame rfl rfl
    refine hnow.trans ?_
    dsimp only at h
    split at h
    · cases h
    · obtain rfl := Option.some.inj h
      exact Moves.frame rfl rfl
    · obtain rfl := Option.some.inj h
      exact Moves.frame rfl rfl
    · split at h
      · cases h
      · obtain rfl := Option.some.inj h
        refine Relation.ReflTransGen.trans ?_ (returned_moves _ _ _ _)
        exact Moves.frame rfl rfl
    · split at h
      · obtain rfl := Option.some.inj h
        rename_i hinput _
        rw [hinput] at may
        exact dial_moves t _ _ _ _ _ may maySheds
      · cases h
    · split at h
      · obtain rfl := Option.some.inj h
        rename_i hinput _
        rw [hinput] at may
        exact after_moves (select_moves t closeLong fun hb => may (Branch.loses_now hb)) _
      · cases h
    · split at h
      · obtain rfl := Option.some.inj h
        exact settle_moves t _ _ _ _ _
      · cases h
    · exact wait_moves maySheds h
    · cases h
  · cases h

end Stream
end ZuTalk
