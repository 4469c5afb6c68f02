/-
# An auxiliary lane and the others

Two runs of a capture that differ only in the channel of one auxiliary lane, which may be full or
closed in the one and not in the other, go on alike: the same blocks are journaled, and every
other lane has the same connection, which was given the same blocks (`run_alike`).  Where that
lane fails, the collector takes the report of it; where it cannot, the group ends.
-/

import Mathlib.Data.List.Forall2
import ZuTalk.Recorder.Fanout

namespace ZuTalk
namespace Recorder

/-- If the lane fails, the collector is told.  The report is lost only once the collector has
ended, and then its guard has cancelled the group. -/
def LaneOutcome.heard (outcome : LaneOutcome) : Prop :=
  outcome.collectorGone = true →
    outcome.closed = false ∧ outcome.full = false ∧ outcome.refused = none

/-- What the lanes meet is the same, but for the channel of one. -/
structure OutcomesAlike (lane : ℕ) (outcomes outcomes' : ℕ → LaneOutcome) : Prop where
  others : ∀ i ≠ lane, outcomes i = outcomes' i
  groupCancelled : (outcomes lane).groupCancelled = (outcomes' lane).groupCancelled
  cancelledAtRestart : (outcomes lane).cancelledAtRestart = (outcomes' lane).cancelledAtRestart
  heard : (outcomes lane).heard
  heard' : (outcomes' lane).heard

/-- The same happens to a capture, but for the channel of one lane. -/
inductive StepAlike (lane : ℕ) : CaptureStep → CaptureStep → Prop
  | push (audioData : Block) (journaled : Bool) (now : ℕ) {lanes lanes' : ℕ → LaneOutcome}
      (healthPersisted : Bool) (h : OutcomesAlike lane lanes lanes') :
      StepAlike lane (.push audioData journaled now lanes healthPersisted)
        (.push audioData journaled now lanes' healthPersisted)
  | pause (paused : Bool) (outcome : PauseOutcome) {lanes restartLanes : ℕ → LaneOutcome}
      (h : OutcomesAlike lane outcome.lanes lanes)
      (hrestart : OutcomesAlike lane outcome.restart.lanes restartLanes) :
      StepAlike lane (.pause paused outcome)
        (.pause paused { outcome with
          lanes := lanes
          restart := { outcome.restart with lanes := restartLanes } })
  | restart (outcome : RestartOutcome) {lanes : ℕ → LaneOutcome}
      (h : OutcomesAlike lane outcome.lanes lanes) :
      StepAlike lane (.restart outcome) (.restart { outcome with lanes := lanes })
  | cancelGroup : StepAlike lane .cancelGroup .cancelGroup
  | stop : StepAlike lane .stop .stop

/-- Two lists of lanes are the same, but for one lane, which is an auxiliary one. -/
structure StreamsAlike (lane : ℕ) (streams streams' : List ActiveRemoteStream) : Prop where
  length : streams.length = streams'.length
  others : ∀ i ≠ lane, streams[i]? = streams'[i]?
  auxiliary : ∀ s ∈ streams[lane]?, s.descriptor.canonical = false
  auxiliary' : ∀ s ∈ streams'[lane]?, s.descriptor.canonical = false

/-- Two groups are the same, but for one auxiliary lane. -/
structure GroupAlike (lane : ℕ) (remote remote' : ActiveRemoteCapture) : Prop where
  streams : StreamsAlike lane remote.streams remote'.streams
  cancelled : remote.cancelled = remote'.cancelled
  laneRestarts : ∀ i ≠ lane, remote.laneRestarts[i]? = remote'.laneRestarts[i]?
  laneRestartedAt : ∀ i ≠ lane, remote.laneRestartedAt[i]? = remote'.laneRestartedAt[i]?

/-- Two captures are the same, but for one auxiliary lane of their groups. -/
structure CaptureAlike (lane : ℕ) (capture capture' : NotebookCapture) : Prop where
  state : capture.state = capture'.state
  remoteRealtimeEnabled : capture.remoteRealtimeEnabled = capture'.remoteRealtimeEnabled
  plan : capture.plan = capture'.plan
  capturedFrames : capture.capturedFrames = capture'.capturedFrames
  pushed : capture.pushed = capture'.pushed
  auxiliary : ∀ descriptor ∈ capture.plan[lane]?, descriptor.canonical = false
  remote : Option.Rel (GroupAlike lane) capture.remote capture'.remote

/-! ### Handing round -/

theorem LaneOutcome.heard.told {outcome : LaneOutcome} (h : outcome.heard)
    (hfailure : outcome.sendFailure ≠ none ∨ outcome.controlFailure ≠ none) :
    outcome.collectorGone = false := by
  cases hgone : outcome.collectorGone with
  | false => rfl
  | true =>
      obtain ⟨hclosed, hfull, hrefused⟩ := h hgone
      simp [LaneOutcome.sendFailure, LaneOutcome.controlFailure, hclosed, hfull, hrefused]
        at hfailure

/-- Two passes know the same of the group. -/
def FanoutPass.Alike (pass pass' : FanoutPass) : Prop :=
  pass.cancelled = pass'.cancelled ∧ pass.canonicalFailure = pass'.canonicalFailure

/-- What turns make of lanes that are the same but for one. -/
structure TurnAlike
    (turn : FanoutPass → LaneOutcome → ActiveRemoteStream → FanoutPass × ActiveRemoteStream) :
    Prop where
  same : ∀ {pass pass' : FanoutPass} (outcome : LaneOutcome) (stream : ActiveRemoteStream),
    pass.Alike pass' → (turn pass outcome stream).1.Alike (turn pass' outcome stream).1 ∧
      (turn pass outcome stream).2 = (turn pass' outcome stream).2
  own : ∀ (pass : FanoutPass) {outcome : LaneOutcome} {stream : ActiveRemoteStream},
    stream.descriptor.canonical = false → outcome.heard →
      (turn pass outcome stream).1.Alike
        { pass with cancelled := pass.cancelled || outcome.groupCancelled } ∧
      (turn pass outcome stream).2.descriptor = stream.descriptor

namespace FanoutPass

theorem laneFailed_alike {pass pass' : FanoutPass} (h : pass.Alike pass')
    (stream : ActiveRemoteStream) (failure : String) (collectorGone : Bool) :
    (pass.laneFailed stream failure collectorGone).1.Alike
        (pass'.laneFailed stream failure collectorGone).1 ∧
      (pass.laneFailed stream failure collectorGone).2 =
        (pass'.laneFailed stream failure collectorGone).2 := by
  have hfail : ∀ failure, (pass.fail failure).Alike (pass'.fail failure) := by
    intro failure
    exact ⟨h.1, congrArg (Option.or · (some failure)) h.2⟩
  unfold laneFailed
  split
  · exact ⟨hfail failure, rfl⟩
  · dsimp only
    split
    · exact ⟨h, rfl⟩
    · exact ⟨h, rfl⟩
    · exact ⟨hfail _, rfl⟩

/-- An auxiliary lane whose failure the collector is told of changes nothing for the group. -/
theorem laneFailed_own (pass : FanoutPass) {stream : ActiveRemoteStream}
    (hauxiliary : stream.descriptor.canonical = false) (failure : String) :
    (pass.laneFailed stream failure false).1.Alike pass ∧
      (pass.laneFailed stream failure false).2.descriptor = stream.descriptor := by
  unfold laneFailed ActiveRemoteStream.isolateAuxiliaryDiscontinuity
  rw [hauxiliary, if_neg Bool.false_ne_true]
  dsimp only
  cases stream.inputDiscontinuityReported with
  | true => exact ⟨⟨rfl, rfl⟩, rfl⟩
  | false => exact ⟨⟨rfl, rfl⟩, rfl⟩

theorem turnAlike_send (audioData : Block) :
    TurnAlike fun pass outcome stream => pass.send audioData outcome stream where
  same := by
    intro pass pass' outcome stream h
    unfold send
    dsimp only
    rw [h.1]
    have hpass : Alike { pass with cancelled := pass'.cancelled || outcome.groupCancelled }
        { pass' with cancelled := pass'.cancelled || outcome.groupCancelled } := ⟨rfl, h.2⟩
    split
    · exact ⟨hpass, rfl⟩
    · cases outcome.sendFailure with
      | none => exact ⟨hpass, rfl⟩
      | some failure => exact laneFailed_alike hpass _ failure _
  own := by
    intro pass outcome stream hauxiliary hheard
    unfold send
    dsimp only
    split
    · exact ⟨⟨rfl, rfl⟩, rfl⟩
    · cases hfailure : outcome.sendFailure with
      | none => exact ⟨⟨rfl, rfl⟩, rfl⟩
      | some failure =>
          dsimp only
          rw [hheard.told (.inl (by simp [hfailure]))]
          refine laneFailed_own _ ?_ failure
          exact hauxiliary

theorem turnAlike_control :
    TurnAlike fun pass outcome stream => pass.control outcome stream where
  same := by
    intro pass pass' outcome stream h
    unfold control
    dsimp only
    rw [h.1]
    have hpass : Alike { pass with cancelled := pass'.cancelled || outcome.groupCancelled }
        { pass' with cancelled := pass'.cancelled || outcome.groupCancelled } := ⟨rfl, h.2⟩
    split
    · exact ⟨hpass, rfl⟩
    · cases outcome.controlFailure with
      | none => exact ⟨hpass, rfl⟩
      | some failure => exact laneFailed_alike hpass _ failure _
  own := by
    intro pass outcome stream hauxiliary hheard
    unfold control
    dsimp only
    split
    · exact ⟨⟨rfl, rfl⟩, rfl⟩
    · cases hfailure : outcome.controlFailure with
      | none => exact ⟨⟨rfl, rfl⟩, rfl⟩
      | some failure =>
          dsimp only
          rw [hheard.told (.inr (by simp [hfailure]))]
          refine laneFailed_own _ ?_ failure
          exact hauxiliary

/-- **All turns** keep lanes that are the same but for one so. -/
theorem each_alike
    {turn : FanoutPass → LaneOutcome → ActiveRemoteStream → FanoutPass × ActiveRemoteStream}
    (hturn : TurnAlike turn) {lane : ℕ} {outcomes outcomes' : ℕ → LaneOutcome}
    (houtcomes : OutcomesAlike lane outcomes outcomes') {streams streams' : List ActiveRemoteStream}
    (hlength : streams.length = streams'.length) (offset : ℕ) {pass pass' : FanoutPass}
    (hpass : pass.Alike pass')
    (hothers : ∀ i, i + offset ≠ lane → streams[i]? = streams'[i]?)
    (hauxiliary : ∀ i, i + offset = lane → ∀ s ∈ streams[i]?, s.descriptor.canonical = false)
    (hauxiliary' : ∀ i, i + offset = lane → ∀ s ∈ streams'[i]?, s.descriptor.canonical = false) :
    (each turn outcomes offset pass streams).1.Alike (each turn outcomes' offset pass' streams').1 ∧
      (each turn outcomes offset pass streams).2.length =
        (each turn outcomes' offset pass' streams').2.length ∧
      (∀ i, i + offset ≠ lane → (each turn outcomes offset pass streams).2[i]? =
        (each turn outcomes' offset pass' streams').2[i]?) ∧
      (∀ i, i + offset = lane → ∀ s ∈ (each turn outcomes offset pass streams).2[i]?,
        s.descriptor.canonical = false) ∧
      ∀ i, i + offset = lane → ∀ s ∈ (each turn outcomes' offset pass' streams').2[i]?,
        s.descriptor.canonical = false := by
  induction streams generalizing streams' offset pass pass' with
  | nil =>
      obtain rfl := List.length_eq_zero_iff.1 hlength.symm
      exact ⟨hpass, rfl, fun _ _ => rfl, by simp [each], by simp [each]⟩
  | cons stream streams ih =>
      obtain ⟨stream', streams', rfl⟩ := List.exists_cons_of_length_eq_add_one hlength.symm
      have hshift : ∀ i, i + 1 + offset = i + (offset + 1) := fun i => by omega
      -- the turn of the first lane
      have hfirst : (turn pass (outcomes offset) stream).1.Alike
            (turn pass' (outcomes' offset) stream').1 ∧
          (offset ≠ lane → (turn pass (outcomes offset) stream).2 =
            (turn pass' (outcomes' offset) stream').2) ∧
          (offset = lane → (turn pass (outcomes offset) stream).2.descriptor.canonical = false ∧
            (turn pass' (outcomes' offset) stream').2.descriptor.canonical = false) := by
        by_cases hlane : offset = lane
        · subst hlane
          have hstream := hauxiliary 0 (Nat.zero_add _) stream rfl
          have hstream' := hauxiliary' 0 (Nat.zero_add _) stream' rfl
          obtain ⟨hown, hdescriptor⟩ := hturn.own pass hstream houtcomes.heard
          obtain ⟨hown', hdescriptor'⟩ := hturn.own pass' hstream' houtcomes.heard'
          refine ⟨⟨?_, ?_⟩, fun hne => absurd rfl hne, fun _ => ?_⟩
          · rw [hown.1, hown'.1]
            exact congrArg₂ or hpass.1 houtcomes.groupCancelled
          · rw [hown.2, hown'.2]
            exact hpass.2
          · rw [hdescriptor, hdescriptor']
            exact ⟨hstream, hstream'⟩
        · obtain rfl : stream = stream' :=
            Option.some.inj (hothers 0 (by rwa [Nat.zero_add]))
          rw [← houtcomes.others offset hlane]
          obtain ⟨halike, hsame⟩ := hturn.same (outcomes offset) stream hpass
          exact ⟨halike, fun _ => hsame, fun heq => absurd heq hlane⟩
      obtain ⟨halike, hlengths, hrest, hown, hown'⟩ := ih (Nat.succ.inj hlength)
        (offset + 1) hfirst.1 (fun i hi => hothers (i + 1) (hshift i ▸ hi))
        (fun i hi => hauxiliary (i + 1) (hshift i ▸ hi))
        fun i hi => hauxiliary' (i + 1) (hshift i ▸ hi)
      refine ⟨halike, congrArg (· + 1) hlengths, fun i hi => ?_, fun i hi s hs => ?_,
        fun i hi s hs => ?_⟩
      · cases i with
        | zero => exact congrArg some (hfirst.2.1 (Nat.zero_add offset ▸ hi))
        | succ i => exact hrest i (hshift i ▸ hi)
      · cases i with
        | zero =>
            obtain rfl := Option.some.inj hs
            exact (hfirst.2.2 (Nat.zero_add offset ▸ hi)).1
        | succ i => exact hown i (hshift i ▸ hi) s hs
      · cases i with
        | zero =>
            obtain rfl := Option.some.inj hs
            exact (hfirst.2.2 (Nat.zero_add offset ▸ hi)).2
        | succ i => exact hown' i (hshift i ▸ hi) s hs

end FanoutPass

/-! ### Groups -/

section Groups

variable {lane : ℕ} {remote remote' : ActiveRemoteCapture} {outcomes outcomes' : ℕ → LaneOutcome}

theorem GroupAlike.symm (h : GroupAlike lane remote remote') : GroupAlike lane remote' remote where
  streams := ⟨h.streams.length.symm, fun i hi => (h.streams.others i hi).symm,
    h.streams.auxiliary', h.streams.auxiliary⟩
  cancelled := h.cancelled.symm
  laneRestarts := fun i hi => (h.laneRestarts i hi).symm
  laneRestartedAt := fun i hi => (h.laneRestartedAt i hi).symm

theorem GroupAlike.cancel (h : GroupAlike lane remote remote') (cancelled : Bool) :
    GroupAlike lane { remote with cancelled := remote.cancelled || cancelled }
      { remote' with cancelled := remote'.cancelled || cancelled } :=
  { h with cancelled := congrArg (· || cancelled) h.cancelled }

/-- Lists that are the same at a place stay so, if the same is set anywhere. -/
theorem getElem?_set_eq {α : Type} {l l' : List α} {j : ℕ} (h : l[j]? = l'[j]?) (i : ℕ) (x : α) :
    (l.set i x)[j]? = (l'.set i x)[j]? := by
  by_cases heq : i = j
  · subst heq
    rw [List.getElem?_set_self', List.getElem?_set_self', h]
  · rw [List.getElem?_set_ne heq, List.getElem?_set_ne heq, h]

theorem GroupAlike.isEmpty (h : GroupAlike lane remote remote') :
    remote.streams.isEmpty = remote'.streams.isEmpty := by
  rw [Bool.eq_iff_iff, List.isEmpty_iff_length_eq_zero, List.isEmpty_iff_length_eq_zero,
    h.streams.length]

/-- One lane of both has another connection, the same. -/
theorem StreamsAlike.set {streams streams' : List ActiveRemoteStream}
    (h : StreamsAlike lane streams streams') {i : ℕ} (hi : i ≠ lane) (stream : ActiveRemoteStream) :
    StreamsAlike lane (streams.set i stream) (streams'.set i stream) where
  length := by simp [h.length]
  others := fun j hj => getElem?_set_eq (h.others j hj) i stream
  auxiliary := by
    rw [List.getElem?_set_ne hi]
    exact h.auxiliary
  auxiliary' := by
    rw [List.getElem?_set_ne hi]
    exact h.auxiliary'

/-- The auxiliary lane has another connection. -/
theorem StreamsAlike.setOwn {streams streams' : List ActiveRemoteStream}
    (h : StreamsAlike lane streams streams') {stream : ActiveRemoteStream}
    (hauxiliary : stream.descriptor.canonical = false) :
    StreamsAlike lane (streams.set lane stream) streams' where
  length := by simp [h.length]
  others := fun j hj => by rw [List.getElem?_set_ne (Ne.symm hj), h.others j hj]
  auxiliary := by
    intro s hs
    obtain ⟨-, rfl⟩ : lane < streams.length ∧ stream = s := by
      simpa [List.getElem?_set, Option.guard] using hs
    exact hauxiliary
  auxiliary' := h.auxiliary'

/-- Another lane is replaced in both or in none. -/
theorem GroupAlike.replaceOther (h : GroupAlike lane remote remote') {i : ℕ} (hi : i ≠ lane)
    (now : ℕ) (captured : Captured) :
    GroupAlike lane (remote.replaceAuxiliaryLane i now captured).1
      (remote'.replaceAuxiliaryLane i now captured).1 := by
  have hdue : ∀ stream,
      remote.replacementDue i now stream = remote'.replacementDue i now stream := by
    intro stream
    unfold ActiveRemoteCapture.replacementDue
    rw [h.cancelled, h.laneRestarts i hi, h.laneRestartedAt i hi]
  unfold ActiveRemoteCapture.replaceAuxiliaryLane
  rw [← h.streams.others i hi]
  cases remote.streams[i]? with
  | none => exact h
  | some stream =>
      dsimp only
      rw [← hdue stream]
      split
      · cases stream.descriptor.targetLanguage with
        | none => exact h
        | some targetLanguage =>
            exact {
              streams := h.streams.set hi _
              cancelled := h.cancelled
              laneRestarts := fun j hj => by simp [List.getElem?_modify, h.laneRestarts j hj]
              laneRestartedAt := fun j hj => getElem?_set_eq (h.laneRestartedAt j hj) i _ }
      · exact h

/-- The auxiliary lane may be replaced in one only. -/
theorem GroupAlike.replaceOwn (h : GroupAlike lane remote remote') (now : ℕ)
    (captured : Captured) :
    GroupAlike lane (remote.replaceAuxiliaryLane lane now captured).1 remote' := by
  unfold ActiveRemoteCapture.replaceAuxiliaryLane
  cases hstream : remote.streams[lane]? with
  | none => exact h
  | some stream =>
      dsimp only
      split
      · cases stream.descriptor.targetLanguage with
        | none => exact h
        | some targetLanguage =>
            exact {
              streams := h.streams.setOwn (h.streams.auxiliary stream hstream)
              cancelled := h.cancelled
              laneRestarts := fun j hj => by
                rw [← h.laneRestarts j hj]
                simp [Ne.symm hj]
              laneRestartedAt := fun j hj => by
                rw [← h.laneRestartedAt j hj]
                simp [List.getElem?_set_ne (Ne.symm hj)] }
      · exact h

/-- Each lane may be replaced. -/
theorem GroupAlike.replaceAuxiliaryLane (h : GroupAlike lane remote remote') (i now : ℕ)
    (captured : Captured) :
    GroupAlike lane (remote.replaceAuxiliaryLane i now captured).1
      (remote'.replaceAuxiliaryLane i now captured).1 := by
  by_cases hi : i = lane
  · subst hi
    exact ((h.replaceOwn now captured).symm.replaceOwn now captured).symm
  · exact h.replaceOther hi now captured

theorem OutcomesAlike.groupCancelled_eq (h : OutcomesAlike lane outcomes outcomes') (i : ℕ) :
    (outcomes i).groupCancelled = (outcomes' i).groupCancelled := by
  by_cases hi : i = lane
  · subst hi
    exact h.groupCancelled
  · rw [h.others i hi]

theorem OutcomesAlike.cancelledAtRestart_eq (h : OutcomesAlike lane outcomes outcomes') (i : ℕ) :
    (outcomes i).cancelledAtRestart = (outcomes' i).cancelledAtRestart := by
  by_cases hi : i = lane
  · subst hi
    exact h.cancelledAtRestart
  · rw [h.others i hi]

theorem GroupAlike.foldl {f f' : ActiveRemoteCapture × List String → ℕ →
      ActiveRemoteCapture × List String}
    (hf : ∀ index group group', GroupAlike lane group.1 group'.1 →
      GroupAlike lane (f group index).1 (f' group' index).1) (indices : List ℕ)
    {group group' : ActiveRemoteCapture × List String} (h : GroupAlike lane group.1 group'.1) :
    GroupAlike lane (indices.foldl f group).1 (indices.foldl f' group').1 := by
  induction indices generalizing group group' with
  | nil => exact h
  | cons index indices ih => exact ih (hf index group group' h)

theorem GroupAlike.replaceLanes (h : GroupAlike lane remote remote')
    (houtcomes : OutcomesAlike lane outcomes outcomes') (now : ℕ) (captured : Captured) :
    GroupAlike lane (remote.replaceLanes outcomes now captured).1
      (remote'.replaceLanes outcomes' now captured).1 := by
  unfold ActiveRemoteCapture.replaceLanes
  rw [← h.streams.length]
  refine GroupAlike.foldl (fun index group group' halike => ?_) _ h
  dsimp only
  rw [← houtcomes.cancelledAtRestart_eq index]
  exact (halike.cancel _).replaceAuxiliaryLane index now captured

/-- A turn of every lane, of groups that are the same but for one lane. -/
theorem GroupAlike.each (h : GroupAlike lane remote remote')
    (houtcomes : OutcomesAlike lane outcomes outcomes')
    {turn : FanoutPass → LaneOutcome → ActiveRemoteStream → FanoutPass × ActiveRemoteStream}
    (hturn : TurnAlike turn) :
    (FanoutPass.each turn outcomes 0 ⟨remote.cancelled, none, []⟩ remote.streams).1.Alike
        (FanoutPass.each turn outcomes' 0 ⟨remote'.cancelled, none, []⟩ remote'.streams).1 ∧
      StreamsAlike lane
        (FanoutPass.each turn outcomes 0 ⟨remote.cancelled, none, []⟩ remote.streams).2
        (FanoutPass.each turn outcomes' 0 ⟨remote'.cancelled, none, []⟩ remote'.streams).2 := by
  have hpass : FanoutPass.Alike ⟨remote.cancelled, none, []⟩ ⟨remote'.cancelled, none, []⟩ :=
    ⟨h.cancelled, rfl⟩
  obtain ⟨halike, hlength, hothers, hauxiliary, hauxiliary'⟩ := FanoutPass.each_alike hturn
    houtcomes h.streams.length 0 hpass h.streams.others
    (by rintro i rfl; exact h.streams.auxiliary) (by rintro i rfl; exact h.streams.auxiliary')
  exact ⟨halike, hlength, hothers, hauxiliary lane rfl, hauxiliary' lane rfl⟩

/-- **A block handed round** ends both groups or none, and keeps them the same but for one lane. -/
theorem GroupAlike.tryFanoutPcm (h : GroupAlike lane remote remote')
    (houtcomes : OutcomesAlike lane outcomes outcomes') (audioData : Block) (now : ℕ)
    (captured : Captured) :
    (remote.tryFanoutPcm audioData outcomes now captured).2.isOk =
        (remote'.tryFanoutPcm audioData outcomes' now captured).2.isOk ∧
      GroupAlike lane (remote.tryFanoutPcm audioData outcomes now captured).1
        (remote'.tryFanoutPcm audioData outcomes' now captured).1 := by
  obtain ⟨halike, hstreams⟩ := h.each houtcomes (FanoutPass.turnAlike_send audioData)
  unfold ActiveRemoteCapture.tryFanoutPcm
  rw [← h.isEmpty, ← h.cancelled]
  split
  · exact ⟨rfl, h⟩
  · dsimp only
    rw [← h.cancelled] at halike hstreams
    rw [← halike.2]
    have hgroup : GroupAlike lane
        { remote with
          streams := (FanoutPass.each (fun pass outcome stream =>
            pass.send audioData outcome stream) outcomes 0 ⟨remote.cancelled, none, []⟩
              remote.streams).2
          cancelled := (FanoutPass.each (fun pass outcome stream =>
            pass.send audioData outcome stream) outcomes 0 ⟨remote.cancelled, none, []⟩
              remote.streams).1.cancelled }
        { remote' with
          streams := (FanoutPass.each (fun pass outcome stream =>
            pass.send audioData outcome stream) outcomes' 0 ⟨remote.cancelled, none, []⟩
              remote'.streams).2
          cancelled := (FanoutPass.each (fun pass outcome stream =>
            pass.send audioData outcome stream) outcomes' 0 ⟨remote.cancelled, none, []⟩
              remote'.streams).1.cancelled } :=
      ⟨hstreams, halike.1, h.laneRestarts, h.laneRestartedAt⟩
    split
    · exact ⟨rfl, hgroup⟩
    · exact ⟨rfl, hgroup.replaceLanes houtcomes now captured⟩

theorem GroupAlike.tryFanoutControl (h : GroupAlike lane remote remote')
    (houtcomes : OutcomesAlike lane outcomes outcomes') :
    (remote.tryFanoutControl outcomes).2.isOk = (remote'.tryFanoutControl outcomes').2.isOk ∧
      GroupAlike lane (remote.tryFanoutControl outcomes).1
        (remote'.tryFanoutControl outcomes').1 := by
  obtain ⟨halike, hstreams⟩ := h.each houtcomes FanoutPass.turnAlike_control
  unfold ActiveRemoteCapture.tryFanoutControl
  rw [← h.isEmpty, ← h.cancelled]
  split
  · exact ⟨rfl, h⟩
  · dsimp only
    rw [← h.cancelled] at halike hstreams
    rw [← halike.2]
    split
    · exact ⟨rfl, hstreams, halike.1, h.laneRestarts, h.laneRestartedAt⟩
    · exact ⟨rfl, hstreams, halike.1, h.laneRestarts, h.laneRestartedAt⟩

/-- The auxiliary lane may be opened again in one only. -/
theorem GroupAlike.reopenOwn (h : GroupAlike lane remote remote') (now : ℕ) (captured : Captured)
    (ended collectorGone : Bool) :
    GroupAlike lane (remote.reopenLane lane now captured ended collectorGone) remote' := by
  unfold ActiveRemoteCapture.reopenLane
  cases hstream : remote.streams[lane]? with
  | none => exact h
  | some stream =>
      have hauxiliary := h.streams.auxiliary stream hstream
      dsimp only
      rw [hauxiliary, if_neg Bool.false_ne_true]
      have hstopped : (if !(stream.laneCancelled || remote.cancelled) && ended then
          (stream.isolateAuxiliaryDiscontinuity collectorGone).1
        else stream).descriptor.canonical = false := by
        split
        · unfold ActiveRemoteStream.isolateAuxiliaryDiscontinuity
          dsimp only
          split
          · exact hauxiliary
          · split <;> exact hauxiliary
        · exact hauxiliary
      revert hstopped
      generalize (if !(stream.laneCancelled || remote.cancelled) && ended then
        (stream.isolateAuxiliaryDiscontinuity collectorGone).1 else stream) = stopped
      intro hstopped
      have hset : GroupAlike lane { remote with streams := remote.streams.set lane stopped }
          remote' :=
        { h with streams := h.streams.setOwn hstopped }
      split
      · exact hset
      · refine GroupAlike.replaceOwn ?_ now captured
        exact { hset with
          laneRestarts := fun j hj => by
            rw [← h.laneRestarts j hj]
            simp [List.getElem?_set_ne (Ne.symm hj)]
          laneRestartedAt := fun j hj => by
            rw [← h.laneRestartedAt j hj]
            simp [List.getElem?_set_ne (Ne.symm hj)] }

/-- Another lane is opened again in both or in none. -/
theorem GroupAlike.reopenOther (h : GroupAlike lane remote remote') {i : ℕ} (hi : i ≠ lane)
    (now : ℕ) (captured : Captured) (ended collectorGone : Bool) :
    GroupAlike lane (remote.reopenLane i now captured ended collectorGone)
      (remote'.reopenLane i now captured ended collectorGone) := by
  obtain ⟨streams, cancelled, laneRestarts, laneRestartedAt, replaced⟩ := remote
  obtain ⟨streams', cancelled', laneRestarts', laneRestartedAt', replaced'⟩ := remote'
  obtain rfl : cancelled = cancelled' := h.cancelled
  unfold ActiveRemoteCapture.reopenLane
  dsimp only
  rw [← h.streams.others i hi]
  cases streams[i]? with
  | none => exact h
  | some stream =>
      dsimp only
      split
      · exact h
      · generalize (if !(stream.laneCancelled || cancelled) && ended then
          (stream.isolateAuxiliaryDiscontinuity collectorGone).1 else stream) = stopped
        have hset : GroupAlike lane
            ⟨streams.set i stopped, cancelled, laneRestarts, laneRestartedAt, replaced⟩
            ⟨streams'.set i stopped, cancelled, laneRestarts', laneRestartedAt', replaced'⟩ :=
          { h with streams := h.streams.set hi stopped }
        split
        · exact hset
        · refine GroupAlike.replaceOther ?_ hi now captured
          exact { hset with
            laneRestarts := fun j hj => getElem?_set_eq (h.laneRestarts j hj) i _
            laneRestartedAt := fun j hj => getElem?_set_eq (h.laneRestartedAt j hj) i _ }

theorem GroupAlike.reopenStoppedAuxiliaryLanesNow (h : GroupAlike lane remote remote')
    (houtcomes : OutcomesAlike lane outcomes outcomes') (now : ℕ) (captured : Captured) :
    GroupAlike lane (remote.reopenStoppedAuxiliaryLanesNow outcomes now captured)
      (remote'.reopenStoppedAuxiliaryLanesNow outcomes' now captured) := by
  unfold ActiveRemoteCapture.reopenStoppedAuxiliaryLanesNow
  rw [← h.streams.length]
  generalize List.range remote.streams.length = indices
  induction indices generalizing remote remote' with
  | nil => exact h
  | cons i indices ih =>
      refine ih ?_
      dsimp only
      rw [← houtcomes.groupCancelled_eq i]
      have hcancel := h.cancel (outcomes i).groupCancelled
      by_cases hi : i = lane
      · subst hi
        exact ((hcancel.reopenOwn now captured _ _).symm.reopenOwn now captured _ _).symm
      · rw [← houtcomes.others i hi]
        exact hcancel.reopenOther hi now captured _ _

end Groups

/-! ### Captures -/

section Captures

variable {lane : ℕ} {capture capture' : NotebookCapture}

theorem CaptureAlike.endGroup (h : CaptureAlike lane capture capture') :
    CaptureAlike lane capture.endGroup capture'.endGroup :=
  { h with remote := .none }

theorem CaptureAlike.terminate (h : CaptureAlike lane capture capture')
    (state : Capture.CaptureState) :
    CaptureAlike lane (capture.terminate state) (capture'.terminate state) :=
  { h.endGroup with state := rfl }

theorem CaptureAlike.startGroup (h : CaptureAlike lane capture capture') (started : Bool) :
    CaptureAlike lane (capture.startGroup started) (capture'.startGroup started) := by
  obtain ⟨state, enabled, plan, capturedFrames, remote, pushed, ended⟩ := capture
  obtain ⟨state', enabled', plan', capturedFrames', remote', pushed', ended'⟩ := capture'
  obtain ⟨rfl, rfl, rfl, rfl, rfl, hauxiliary, hremote⟩ := h
  unfold NotebookCapture.startGroup
  dsimp only
  split
  · have hstreams : ∀ s ∈ (plan.map fun descriptor =>
        ActiveRemoteStream.openAt descriptor 0 ⟨capturedFrames, pushed.length⟩)[lane]?,
        s.descriptor.canonical = false := by
      intro s hs
      rw [List.getElem?_map] at hs
      obtain ⟨descriptor, hdescriptor, rfl⟩ := Option.map_eq_some_iff.1 hs
      exact hauxiliary descriptor hdescriptor
    have hgroup : StreamsAlike lane
        (plan.map fun descriptor => .openAt descriptor 0 ⟨capturedFrames, pushed.length⟩)
        (plan.map fun descriptor => .openAt descriptor 0 ⟨capturedFrames, pushed.length⟩) :=
      ⟨rfl, fun _ _ => rfl, hstreams, hstreams⟩
    exact ⟨rfl, rfl, rfl, rfl, rfl, hauxiliary,
      .some ⟨hgroup, rfl, fun _ _ => rfl, fun _ _ => rfl⟩⟩
  · exact ⟨rfl, rfl, rfl, rfl, rfl, hauxiliary, hremote⟩

theorem CaptureAlike.restartRemoteCapture (h : CaptureAlike lane capture capture')
    (outcome : RestartOutcome) {lanes : ℕ → LaneOutcome}
    (hlanes : OutcomesAlike lane outcome.lanes lanes) :
    CaptureAlike lane (capture.restartRemoteCapture outcome)
      (capture'.restartRemoteCapture { outcome with lanes := lanes }) := by
  have hstart := h.startGroup outcome.started
  have hagain := h.endGroup.startGroup outcome.started
  obtain ⟨state, enabled, plan, capturedFrames, remote, pushed, ended⟩ := capture
  obtain ⟨state', enabled', plan', capturedFrames', remote', pushed', ended'⟩ := capture'
  obtain ⟨rfl, rfl, rfl, rfl, rfl, hauxiliary, hremote⟩ := h
  unfold NotebookCapture.restartRemoteCapture
  dsimp only
  split
  · exact ⟨rfl, rfl, rfl, rfl, rfl, hauxiliary, hremote⟩
  · rcases hremote with hgroup | -
    · dsimp only
      split
      · exact hagain
      · exact ⟨rfl, rfl, rfl, rfl, rfl, hauxiliary,
          .some (hgroup.reopenStoppedAuxiliaryLanesNow hlanes outcome.now _)⟩
    · exact hstart

/-- What is kept of groups that both end or both stand. -/
theorem CaptureAlike.keepGroup {α : Type} (h : CaptureAlike lane capture capture')
    {fanout fanout' : ActiveRemoteCapture × Except String α}
    (hok : fanout.2.isOk = fanout'.2.isOk) (hgroup : GroupAlike lane fanout.1 fanout'.1) :
    CaptureAlike lane (capture.keepGroup fanout) (capture'.keepGroup fanout') := by
  have hkept : CaptureAlike lane { capture with remote := some fanout.1 }
      { capture' with remote := some fanout'.1 } := { h with remote := .some hgroup }
  unfold NotebookCapture.keepGroup
  dsimp only
  rw [← hok]
  split
  · exact hkept
  · exact hkept.endGroup

theorem CaptureAlike.ite (h : CaptureAlike lane capture capture') {other other' : NotebookCapture}
    {condition condition' : Bool} (hcondition : condition = condition')
    (hother : CaptureAlike lane other other') :
    CaptureAlike lane (if condition then capture else other)
      (if condition' then capture' else other') := by
  subst hcondition
  split
  · exact h
  · exact hother

theorem CaptureAlike.push (h : CaptureAlike lane capture capture') (audioData : Block)
    (journaled : Bool) (now : ℕ) {lanes lanes' : ℕ → LaneOutcome} (healthPersisted : Bool)
    (hlanes : OutcomesAlike lane lanes lanes') :
    CaptureAlike lane (capture.push audioData journaled now lanes healthPersisted)
      (capture'.push audioData journaled now lanes' healthPersisted) := by
  have hover := h.terminate .interrupted
  obtain ⟨state, enabled, plan, capturedFrames, remote, pushed, ended⟩ := capture
  obtain ⟨state', enabled', plan', capturedFrames', remote', pushed', ended'⟩ := capture'
  obtain ⟨rfl, rfl, rfl, rfl, rfl, hauxiliary, hremote⟩ := h
  unfold NotebookCapture.push
  dsimp only
  split
  · exact ⟨rfl, rfl, rfl, rfl, rfl, hauxiliary, hremote⟩
  · split
    · exact hover
    · have hpushed : CaptureAlike lane
          ⟨state, enabled, plan, capturedFrames + frameCount audioData, remote,
            pushed ++ [audioData], ended⟩
          ⟨state, enabled, plan, capturedFrames + frameCount audioData, remote',
            pushed ++ [audioData], ended'⟩ := ⟨rfl, rfl, rfl, rfl, rfl, hauxiliary, hremote⟩
      rcases hremote with hgroup | -
      · obtain ⟨hok, hsent⟩ := hgroup.tryFanoutPcm hlanes audioData now
          ⟨capturedFrames + frameCount audioData, (pushed ++ [audioData]).length⟩
        have hkept := hpushed.keepGroup hok hsent
        exact (hkept.terminate .interrupted).ite (congrArg (! · && !healthPersisted) hok) hkept
      · exact hpushed

theorem CaptureAlike.pause (h : CaptureAlike lane capture capture') (paused : Bool)
    (outcome : PauseOutcome) {lanes restartLanes : ℕ → LaneOutcome}
    (hlanes : OutcomesAlike lane outcome.lanes lanes)
    (hrestart : OutcomesAlike lane outcome.restart.lanes restartLanes) :
    CaptureAlike lane (capture.pause paused outcome)
      (capture'.pause paused { outcome with
        lanes := lanes
        restart := { outcome.restart with lanes := restartLanes } }) := by
  obtain ⟨state, enabled, plan, capturedFrames, remote, pushed, ended⟩ := capture
  obtain ⟨state', enabled', plan', capturedFrames', remote', pushed', ended'⟩ := capture'
  obtain ⟨rfl, rfl, rfl, rfl, rfl, hauxiliary, hremote⟩ := h
  unfold NotebookCapture.pause
  dsimp only
  generalize (if paused then Capture.CaptureState.recording else .paused) = expected
  generalize (if paused then Capture.CaptureState.paused else .recording) = next
  split
  · exact ⟨rfl, rfl, rfl, rfl, rfl, hauxiliary, hremote⟩
  · have hnext : CaptureAlike lane ⟨next, enabled, plan, capturedFrames, remote, pushed, ended⟩
        ⟨next, enabled, plan, capturedFrames, remote', pushed, ended'⟩ :=
      ⟨rfl, rfl, rfl, rfl, rfl, hauxiliary, hremote⟩
    rcases hremote with hgroup | -
    · obtain ⟨hok, hsent⟩ := hgroup.tryFanoutControl hlanes
      have hkept := hnext.keepGroup hok hsent
      simp only [Option.map_some, Option.getD_some, Option.any_some]
      rw [← hok]
      split
      · split
        · exact { hkept with state := rfl }
        · exact hkept.terminate _
      · split
        · exact hkept
        · exact hkept.restartRemoteCapture outcome.restart hrestart
    · simp only [Option.map_none, Option.getD_none, Option.any_none, Bool.false_and,
        Bool.false_eq_true, if_false]
      split
      · exact hnext
      · exact hnext.restartRemoteCapture outcome.restart hrestart

/-- **Steps that are the same but for the channel of one lane** keep captures so. -/
theorem CaptureAlike.step (h : CaptureAlike lane capture capture') {s s' : CaptureStep}
    (hstep : StepAlike lane s s') : CaptureAlike lane (capture.step s) (capture'.step s') := by
  cases hstep with
  | push audioData journaled now healthPersisted hlanes => exact h.push _ _ _ _ hlanes
  | pause paused outcome hlanes hrestart => exact h.pause _ _ hlanes hrestart
  | restart outcome hlanes =>
      unfold NotebookCapture.step NotebookCapture.restart
      dsimp only
      rw [← h.state]
      split
      · exact h.restartRemoteCapture outcome hlanes
      · exact h
  | cancelGroup =>
      obtain ⟨state, enabled, plan, capturedFrames, remote, pushed, ended⟩ := capture
      obtain ⟨state', enabled', plan', capturedFrames', remote', pushed', ended'⟩ := capture'
      obtain ⟨rfl, rfl, rfl, rfl, rfl, hauxiliary, hremote⟩ := h
      rcases hremote with hgroup | -
      · exact ⟨rfl, rfl, rfl, rfl, rfl, hauxiliary,
          .some ⟨hgroup.streams, rfl, hgroup.laneRestarts, hgroup.laneRestartedAt⟩⟩
      · exact ⟨rfl, rfl, rfl, rfl, rfl, hauxiliary, .none⟩
  | stop => exact h.terminate _

/-- Both have a group or none. -/
theorem CaptureAlike.isSome_remote (h : CaptureAlike lane capture capture') :
    capture.remote.isSome = capture'.remote.isSome := by
  have hremote := h.remote
  revert hremote
  generalize capture.remote = remote
  generalize capture'.remote = remote'
  rintro (hgroup | -)
  · rfl
  · rfl

/-- Another lane has the same connection in both. -/
theorem CaptureAlike.streams_other (h : CaptureAlike lane capture capture') {other : ℕ}
    (hother : other ≠ lane) : (capture.remote.bind fun remote => remote.streams[other]?) =
      capture'.remote.bind fun remote => remote.streams[other]? := by
  have hremote := h.remote
  revert hremote
  generalize capture.remote = remote
  generalize capture'.remote = remote'
  rintro (hgroup | -)
  · exact hgroup.streams.others other hother
  · rfl

end Captures

theorem NotebookCapture.start_alike (remoteRealtimeEnabled started : Bool)
    {plan : List RemoteStreamLane} {lane : ℕ}
    (hauxiliary : ∀ descriptor ∈ plan[lane]?, descriptor.canonical = false) :
    CaptureAlike lane (start remoteRealtimeEnabled started plan)
      (start remoteRealtimeEnabled started plan) :=
  CaptureAlike.startGroup ⟨rfl, rfl, rfl, rfl, rfl, hauxiliary, .none⟩ _

/-- **Runs that differ in the channel of one auxiliary lane** go on alike. -/
theorem NotebookCapture.run_alike (remoteRealtimeEnabled started : Bool)
    {plan : List RemoteStreamLane} {lane : ℕ}
    (hauxiliary : ∀ descriptor ∈ plan[lane]?, descriptor.canonical = false)
    {steps steps' : List CaptureStep} (hsteps : List.Forall₂ (StepAlike lane) steps steps') :
    CaptureAlike lane (run remoteRealtimeEnabled started plan steps)
      (run remoteRealtimeEnabled started plan steps') := by
  unfold run
  have hstart := start_alike remoteRealtimeEnabled started hauxiliary
  revert hstart
  generalize start remoteRealtimeEnabled started plan = capture
  suffices ∀ capture', CaptureAlike lane capture capture' →
      CaptureAlike lane (steps.foldl step capture) (steps'.foldl step capture') from this capture
  induction hsteps generalizing capture with
  | nil => exact fun _ h => h
  | cons hstep _ ih => exact fun _ h => ih _ _ (h.step hstep)

end Recorder
end ZuTalk
