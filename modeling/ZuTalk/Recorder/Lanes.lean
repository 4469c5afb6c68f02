/-
# No hole in the audio of a lane

What a connection has been given of the pushed blocks (`Fed`, `Live`), that a block
or a control handed round keeps it so (`each_all` with one lemma for a turn), and with
the steps of the capture around it that every run does; which blocks these are
(`pushed_run`), and that no auxiliary lane takes one away from another lane
(`lanes_have_no_hole`).
-/

import ZuTalk.Recorder.Siblings

namespace ZuTalk
namespace Recorder

/-- **A connection was fed without a hole:** it was given some of the blocks from where
it was opened on, in order, and took each of them but perhaps the last. -/
structure Fed (pushed : List Block) (stream : ActiveRemoteStream) : Prop where
  opened : stream.openedAfter ≤ pushed.length
  origin : stream.captureOriginMs = captureMs (totalFrames (pushed.take stream.openedAfter))
  blocks : stream.attempts.map (·.1) <+: pushed.drop stream.openedAfter
  taken : ∀ attempt ∈ stream.attempts.dropLast, attempt.2 = none

/-- A connection took every block from where it was opened on. -/
structure Live (pushed : List Block) (stream : ActiveRemoteStream) : Prop where
  opened : stream.openedAfter ≤ pushed.length
  origin : stream.captureOriginMs = captureMs (totalFrames (pushed.take stream.openedAfter))
  blocks : stream.attempts.map (·.1) = pushed.drop stream.openedAfter
  taken : ∀ attempt ∈ stream.attempts, attempt.2 = none

section Connections

variable {pushed : List Block} {stream : ActiveRemoteStream}

theorem Live.fed (h : Live pushed stream) : Fed pushed stream where
  opened := h.opened
  origin := h.origin
  blocks := by rw [h.blocks]
  taken := fun attempt hattempt => h.taken attempt (List.dropLast_subset _ hattempt)

/-- Blocks that it is not given leave it as it was. -/
theorem Fed.append (h : Fed pushed stream) (audioData : Block) :
    Fed (pushed ++ [audioData]) stream where
  opened := by
    have hopened := h.opened
    rw [List.length_append]
    omega
  origin := by
    rw [List.take_append_of_le_length h.opened]
    exact h.origin
  blocks := by
    rw [List.drop_append_of_le_length h.opened]
    exact h.blocks.trans (List.prefix_append ..)
  taken := h.taken

/-- The next block, whether it takes it or not. -/
theorem Live.attempt (h : Live pushed stream) (audioData : Block) (failure : Option String) :
    Fed (pushed ++ [audioData])
      { stream with attempts := stream.attempts ++ [(audioData, failure)] } where
  opened := (h.fed.append audioData).opened
  origin := (h.fed.append audioData).origin
  blocks := by
    show List.map Prod.fst (stream.attempts ++ [(audioData, failure)]) <+: _
    rw [List.map_append, h.blocks, List.drop_append_of_le_length h.opened]
    exact List.prefix_rfl
  taken := by
    intro attempt hattempt
    rw [List.dropLast_concat] at hattempt
    exact h.taken attempt hattempt

/-- The next block, if it takes it. -/
theorem Live.accept (h : Live pushed stream) (audioData : Block) :
    Live (pushed ++ [audioData])
      { stream with attempts := stream.attempts ++ [(audioData, none)] } where
  opened := (h.fed.append audioData).opened
  origin := (h.fed.append audioData).origin
  blocks := by
    show List.map Prod.fst (stream.attempts ++ [(audioData, none)]) = _
    rw [List.map_append, h.blocks, List.drop_append_of_le_length h.opened]
    rfl
  taken := by
    intro attempt hattempt
    rcases List.mem_append.1 hattempt with hattempt | hattempt
    · exact h.taken attempt hattempt
    · rw [List.mem_singleton.1 hattempt]

/-- A connection that is opened now has all that came since. -/
theorem live_openAt (descriptor : RemoteStreamLane) (generation : ℕ) :
    Live pushed (.openAt descriptor generation ⟨totalFrames pushed, pushed.length⟩) where
  opened := Nat.le_refl _
  origin := by
    show captureMs (totalFrames pushed) = captureMs (totalFrames (pushed.take pushed.length))
    rw [List.take_length]
  blocks := by
    show [] = pushed.drop pushed.length
    rw [List.drop_length]
  taken := fun _ hattempt => by cases hattempt

/-- What holds of a connection of a group: the canonical one is not stopped, and one that
is not stopped while the group stands has everything. -/
structure Standing (pushed : List Block) (groupStands : Prop) (stream : ActiveRemoteStream) :
    Prop where
  fed : Fed pushed stream
  canonical : stream.descriptor.canonical = true → stream.laneCancelled = false
  live : groupStands → stream.laneCancelled = false → Live pushed stream

theorem Standing.weaken {p q : Prop} (h : Standing pushed p stream) (hpq : q → p) :
    Standing pushed q stream := ⟨h.fed, h.canonical, fun hq => h.live (hpq hq)⟩

theorem standing_openAt (descriptor : RemoteStreamLane) (generation : ℕ) (p : Prop) :
    Standing pushed p (.openAt descriptor generation ⟨totalFrames pushed, pushed.length⟩) :=
  ⟨(live_openAt descriptor generation).fed, fun _ => rfl, fun _ _ => live_openAt ..⟩

/-- A lane that is stopped. -/
theorem isolate_fst (stream : ActiveRemoteStream) (collectorGone : Bool) :
    (stream.isolateAuxiliaryDiscontinuity collectorGone).1 =
      { stream with laneCancelled := true, inputDiscontinuityReported := true } := by
  unfold ActiveRemoteStream.isolateAuxiliaryDiscontinuity
  split
  · rfl
  · split <;> rfl

theorem Standing.stop {p : Prop} (h : Fed pushed stream)
    (hcanonical : stream.descriptor.canonical = false) :
    Standing pushed p
      { stream with laneCancelled := true, inputDiscontinuityReported := true } where
  fed := ⟨h.opened, h.origin, h.blocks, h.taken⟩
  canonical := fun htrue => by
    rw [hcanonical] at htrue
    cases htrue
  live := fun _ hlive => by cases hlive

end Connections

/-! ### Handing round -/

namespace FanoutPass

/-- The group stands, as far as is known. -/
def Stands (pass : FanoutPass) : Prop := pass.cancelled = false ∧ pass.canonicalFailure = none

theorem not_stands_fail (pass : FanoutPass) (failure : String) : ¬ (pass.fail failure).Stands := by
  rintro ⟨-, hnone⟩
  unfold FanoutPass.fail at hnone
  cases hfailure : pass.canonicalFailure <;> simp [hfailure] at hnone

/-- Whatever one turn makes of each stream, and later turns do not undo, all turns make
of all. -/
theorem each_all
    (turn : FanoutPass → LaneOutcome → ActiveRemoteStream → FanoutPass × ActiveRemoteStream)
    (outcomes : ℕ → LaneOutcome) {P : ActiveRemoteStream → Prop}
    (Q : Prop → ActiveRemoteStream → Prop)
    (hturn : ∀ pass outcome stream, P stream →
      ((turn pass outcome stream).1.Stands → pass.Stands) ∧
        Q (turn pass outcome stream).1.Stands (turn pass outcome stream).2)
    (hweaken : ∀ p q stream, Q p stream → (q → p) → Q q stream) (laneIndex : ℕ)
    (pass : FanoutPass) (streams : List ActiveRemoteStream) (hstreams : ∀ s ∈ streams, P s) :
    ((each turn outcomes laneIndex pass streams).1.Stands → pass.Stands) ∧
      ∀ s ∈ (each turn outcomes laneIndex pass streams).2,
        Q (each turn outcomes laneIndex pass streams).1.Stands s := by
  induction streams generalizing laneIndex pass with
  | nil => exact ⟨id, fun s hs => by cases hs⟩
  | cons stream streams ih =>
      obtain ⟨hbefore, hfirst⟩ := hturn pass (outcomes laneIndex) stream
        (hstreams stream List.mem_cons_self)
      obtain ⟨hlater, hrest⟩ := ih (laneIndex + 1) (turn pass (outcomes laneIndex) stream).1
        fun s hs => hstreams s (List.mem_cons_of_mem stream hs)
      refine ⟨fun h => hbefore (hlater h), fun s hs => ?_⟩
      rcases List.mem_cons.1 hs with rfl | hs
      · exact hweaken _ _ _ hfirst hlater
      · exact hrest s hs

variable {pushed : List Block} {pass : FanoutPass} {stream : ActiveRemoteStream}

/-- A lane that failed leaves the group standing only if it was stopped for it. -/
theorem laneFailed_standing (hfed : Fed pushed stream) (hlane : stream.laneCancelled = false)
    (failure : String) (collectorGone : Bool) :
    ((pass.laneFailed stream failure collectorGone).1.Stands → pass.Stands) ∧
      Standing pushed (pass.laneFailed stream failure collectorGone).1.Stands
        (pass.laneFailed stream failure collectorGone).2 := by
  unfold FanoutPass.laneFailed
  cases hcanonical : stream.descriptor.canonical with
  | true =>
      have hfallen := not_stands_fail pass failure
      exact ⟨fun h => absurd h hfallen, hfed, fun _ => hlane, fun h => absurd h hfallen⟩
  | false =>
      have hstopped : ∀ p, Standing pushed p
          (stream.isolateAuxiliaryDiscontinuity collectorGone).1 := by
        intro p
        rw [isolate_fst]
        exact Standing.stop hfed hcanonical
      rw [if_neg Bool.false_ne_true]
      dsimp only
      split
      · exact ⟨fun h => h, hstopped _⟩
      · exact ⟨fun h => h, hstopped _⟩
      · exact ⟨fun h => absurd h (not_stands_fail pass _), hstopped _⟩

theorem stands_of_or {cancelled : Bool}
    (h : FanoutPass.Stands { pass with cancelled := pass.cancelled || cancelled }) : pass.Stands :=
  ⟨(Bool.or_eq_false_iff.1 h.1).1, h.2⟩

/-- **A turn with a block.** -/
theorem send_standing (audioData : Block) (outcome : LaneOutcome)
    (h : Standing pushed True stream) :
    ((pass.send audioData outcome stream).1.Stands → pass.Stands) ∧
      Standing (pushed ++ [audioData]) (pass.send audioData outcome stream).1.Stands
        (pass.send audioData outcome stream).2 := by
  unfold FanoutPass.send
  dsimp only
  by_cases hskip : (stream.laneCancelled || (pass.cancelled || outcome.groupCancelled)) = true
  · -- The lane is not looked at: it is stopped, or the group does not stand.
    rw [if_pos hskip]
    refine ⟨stands_of_or, h.fed.append audioData, h.canonical, fun hgroup hlane => ?_⟩
    rw [hlane, Bool.false_or] at hskip
    exact absurd (hskip.symm.trans hgroup.1) (by decide)
  · rw [if_neg hskip]
    have hlane : stream.laneCancelled = false :=
      (Bool.or_eq_false_iff.1 (Bool.eq_false_iff.2 hskip)).1
    have hlive := h.live trivial hlane
    cases hfailure : outcome.sendFailure with
    | none =>
        have haccept := hlive.accept audioData
        exact ⟨stands_of_or, haccept.fed, h.canonical, fun _ _ => haccept⟩
    | some failure =>
        obtain ⟨hbefore, hstanding⟩ := laneFailed_standing
          (hlive.attempt audioData (some failure)) hlane failure outcome.collectorGone
        exact ⟨fun hgroup => stands_of_or (hbefore hgroup), hstanding⟩

/-- A turn with a control. -/
theorem control_standing (outcome : LaneOutcome) (h : Standing pushed True stream) :
    ((pass.control outcome stream).1.Stands → pass.Stands) ∧
      Standing pushed (pass.control outcome stream).1.Stands (pass.control outcome stream).2 := by
  unfold FanoutPass.control
  dsimp only
  by_cases hskip : (stream.laneCancelled || (pass.cancelled || outcome.groupCancelled)) = true
  · rw [if_pos hskip]
    exact ⟨stands_of_or, h.weaken fun _ => trivial⟩
  · rw [if_neg hskip]
    have hlane : stream.laneCancelled = false :=
      (Bool.or_eq_false_iff.1 (Bool.eq_false_iff.2 hskip)).1
    cases outcome.controlFailure with
    | none => exact ⟨stands_of_or, h.weaken fun _ => trivial⟩
    | some failure =>
        obtain ⟨hbefore, hstanding⟩ := laneFailed_standing
          h.fed hlane failure outcome.collectorGone
        exact ⟨fun hgroup => stands_of_or (hbefore hgroup), hstanding⟩

end FanoutPass

/-! ### A group -/

/-- What holds of a group. -/
structure GroupSound (pushed : List Block) (remote : ActiveRemoteCapture) : Prop where
  replaced : ∀ s ∈ remote.replaced, Fed pushed s
  streams : ∀ s ∈ remote.streams, Standing pushed (remote.cancelled = false) s

section Groups

variable {pushed : List Block} {remote : ActiveRemoteCapture}

theorem GroupSound.fed (h : GroupSound pushed remote) :
    ∀ s ∈ remote.replaced ++ remote.streams, Fed pushed s := by
  intro s hs
  rcases List.mem_append.1 hs with hs | hs
  · exact h.replaced s hs
  · exact (h.streams s hs).fed

/-- The group may be cancelled at any time. -/
theorem GroupSound.cancel (h : GroupSound pushed remote) (cancelled : Bool) :
    GroupSound pushed { remote with cancelled := remote.cancelled || cancelled } where
  replaced := h.replaced
  streams := fun s hs => (h.streams s hs).weaken fun hstands => (Bool.or_eq_false_iff.1 hstands).1

/-- A lane may be replaced at any time, by a connection that is opened now. -/
theorem GroupSound.replaceAuxiliaryLane (h : GroupSound pushed remote) (laneIndex now : ℕ) :
    GroupSound pushed
      (remote.replaceAuxiliaryLane laneIndex now ⟨totalFrames pushed, pushed.length⟩).1 := by
  unfold ActiveRemoteCapture.replaceAuxiliaryLane
  cases hstream : remote.streams[laneIndex]? with
  | none => exact h
  | some stream =>
      dsimp only
      split
      · cases stream.descriptor.targetLanguage with
        | none => exact h
        | some targetLanguage =>
            constructor
            · intro s hs
              rcases List.mem_append.1 hs with hs | hs
              · exact h.replaced s hs
              · obtain rfl := List.mem_singleton.1 hs
                exact (h.streams s (List.mem_of_getElem? hstream)).fed
            · intro s hs
              rcases List.mem_or_eq_of_mem_set hs with hs | rfl
              · exact h.streams s hs
              · exact standing_openAt ..
      · exact h

theorem GroupSound.replaceLanes (h : GroupSound pushed remote) (outcomes : ℕ → LaneOutcome)
    (now : ℕ) :
    GroupSound pushed (remote.replaceLanes outcomes now ⟨totalFrames pushed, pushed.length⟩).1 := by
  unfold ActiveRemoteCapture.replaceLanes
  refine List.foldlRecOn (motive := fun replaced : ActiveRemoteCapture × List String =>
    GroupSound pushed replaced.1) _ _ h fun replaced hreplaced laneIndex _ => ?_
  exact (hreplaced.cancel _).replaceAuxiliaryLane laneIndex now

/-- **A block is handed round:** every connection is fed, and the group is sound unless it
has to end. -/
theorem GroupSound.tryFanoutPcm (h : GroupSound pushed remote) (audioData : Block)
    (outcomes : ℕ → LaneOutcome) (now : ℕ) (captured : Captured)
    (hcaptured : captured =
      ⟨totalFrames (pushed ++ [audioData]), (pushed ++ [audioData]).length⟩) :
    (∀ s ∈ (remote.tryFanoutPcm audioData outcomes now captured).1.replaced ++
        (remote.tryFanoutPcm audioData outcomes now captured).1.streams,
      Fed (pushed ++ [audioData]) s) ∧
    ((remote.tryFanoutPcm audioData outcomes now captured).2.isOk = true →
      GroupSound (pushed ++ [audioData])
        (remote.tryFanoutPcm audioData outcomes now captured).1) := by
  unfold ActiveRemoteCapture.tryFanoutPcm
  split
  · exact ⟨fun s hs => (h.fed s hs).append audioData, fun hok => by cases hok⟩
  · rename_i hopen
    have hcancelled : remote.cancelled = false :=
      (Bool.or_eq_false_iff.1 (Bool.eq_false_iff.2 hopen)).2
    obtain ⟨-, hsent⟩ := FanoutPass.each_all
      (fun pass outcome stream => pass.send audioData outcome stream) outcomes
      (fun stands => Standing (pushed ++ [audioData]) stands)
      (fun pass outcome stream hstream => FanoutPass.send_standing audioData outcome hstream)
      (fun _ _ _ hstanding hweaker => hstanding.weaken hweaker) 0
      ⟨remote.cancelled, none, []⟩ remote.streams
      fun s hs => (h.streams s hs).weaken fun _ => hcancelled
    dsimp only
    split
    · refine ⟨fun s hs => ?_, fun hok => by cases hok⟩
      rcases List.mem_append.1 hs with hs | hs
      · exact (h.replaced s hs).append audioData
      · exact (hsent s hs).fed
    · rename_i hnone
      have hgroup : GroupSound (pushed ++ [audioData]) ((ActiveRemoteCapture.replaceLanes
          { remote with
            streams := (FanoutPass.each (fun pass outcome stream =>
              pass.send audioData outcome stream) outcomes 0 ⟨remote.cancelled, none, []⟩
              remote.streams).2
            cancelled := (FanoutPass.each (fun pass outcome stream =>
              pass.send audioData outcome stream) outcomes 0 ⟨remote.cancelled, none, []⟩
              remote.streams).1.cancelled } outcomes now captured).1) := by
        rw [hcaptured]
        refine GroupSound.replaceLanes ?_ outcomes now
        refine ⟨fun s hs => (h.replaced s hs).append audioData, fun s hs => ?_⟩
        exact (hsent s hs).weaken fun hstands => ⟨hstands, hnone⟩
      exact ⟨hgroup.fed, fun _ => hgroup⟩

/-- A control is handed round. -/
theorem GroupSound.tryFanoutControl (h : GroupSound pushed remote)
    (outcomes : ℕ → LaneOutcome) :
    (∀ s ∈ (remote.tryFanoutControl outcomes).1.replaced ++
        (remote.tryFanoutControl outcomes).1.streams, Fed pushed s) ∧
    ((remote.tryFanoutControl outcomes).2.isOk = true →
      GroupSound pushed (remote.tryFanoutControl outcomes).1) := by
  unfold ActiveRemoteCapture.tryFanoutControl
  split
  · exact ⟨h.fed, fun hok => by cases hok⟩
  · rename_i hopen
    have hcancelled : remote.cancelled = false :=
      (Bool.or_eq_false_iff.1 (Bool.eq_false_iff.2 hopen)).2
    obtain ⟨-, hsent⟩ := FanoutPass.each_all
      (fun pass outcome stream => pass.control outcome stream) outcomes
      (fun stands => Standing pushed stands)
      (fun pass outcome stream hstream => FanoutPass.control_standing outcome hstream)
      (fun _ _ _ hstanding hweaker => hstanding.weaken hweaker) 0
      ⟨remote.cancelled, none, []⟩ remote.streams
      fun s hs => (h.streams s hs).weaken fun _ => hcancelled
    have hfed : ∀ s ∈ remote.replaced ++ (FanoutPass.each (fun pass outcome stream =>
        pass.control outcome stream) outcomes 0 ⟨remote.cancelled, none, []⟩ remote.streams).2,
        Fed pushed s := by
      intro s hs
      rcases List.mem_append.1 hs with hs | hs
      · exact h.replaced s hs
      · exact (hsent s hs).fed
    dsimp only
    split
    · exact ⟨hfed, fun hok => by cases hok⟩
    · rename_i hnone
      refine ⟨hfed, fun _ => ⟨h.replaced, fun s hs => ?_⟩⟩
      exact (hsent s hs).weaken fun hstands => ⟨hstands, hnone⟩

/-- A lane that is stopped is opened again. -/
theorem GroupSound.reopenLane (h : GroupSound pushed remote) (laneIndex now : ℕ)
    (ended collectorGone : Bool) :
    GroupSound pushed (remote.reopenLane laneIndex now ⟨totalFrames pushed, pushed.length⟩
      ended collectorGone) := by
  unfold ActiveRemoteCapture.reopenLane
  cases hstream : remote.streams[laneIndex]? with
  | none => exact h
  | some stream =>
      dsimp only
      cases hcanonical : stream.descriptor.canonical with
      | true => exact h
      | false =>
          rw [if_neg Bool.false_ne_true]
          have hstanding := h.streams stream (List.mem_of_getElem? hstream)
          have hset : ∀ stopped, Standing pushed (remote.cancelled = false) stopped →
              GroupSound pushed
                { remote with streams := remote.streams.set laneIndex stopped } := by
            intro stopped hstopped
            refine ⟨h.replaced, fun s hs => ?_⟩
            rcases List.mem_or_eq_of_mem_set hs with hs | rfl
            · exact h.streams s hs
            · exact hstopped
          have hstopped : Standing pushed (remote.cancelled = false)
              (if !(stream.laneCancelled || remote.cancelled) && ended then
                (stream.isolateAuxiliaryDiscontinuity collectorGone).1
              else stream) := by
            split
            · rw [isolate_fst]
              exact Standing.stop hstanding.fed hcanonical
            · exact hstanding
          revert hstopped
          generalize (if !(stream.laneCancelled || remote.cancelled) && ended then
            (stream.isolateAuxiliaryDiscontinuity collectorGone).1 else stream) = stopped
          intro hstopped
          have hgroup := hset stopped hstopped
          split
          · exact hgroup
          · have hreset : GroupSound pushed
                { remote with
                  streams := remote.streams.set laneIndex stopped
                  laneRestarts := remote.laneRestarts.set laneIndex 0
                  laneRestartedAt := remote.laneRestartedAt.set laneIndex none } :=
              ⟨hgroup.replaced, hgroup.streams⟩
            exact hreset.replaceAuxiliaryLane laneIndex now

/-- Stopped lanes are opened again on request. -/
theorem GroupSound.reopenStoppedAuxiliaryLanesNow (h : GroupSound pushed remote)
    (outcomes : ℕ → LaneOutcome) (now : ℕ) :
    GroupSound pushed (remote.reopenStoppedAuxiliaryLanesNow outcomes now
      ⟨totalFrames pushed, pushed.length⟩) := by
  unfold ActiveRemoteCapture.reopenStoppedAuxiliaryLanesNow
  refine List.foldlRecOn (motive := fun remote : ActiveRemoteCapture => GroupSound pushed remote)
    _ _ h fun remote hremote laneIndex _ => ?_
  exact (hremote.cancel _).reopenLane laneIndex now _ _

end Groups

/-! ### A capture -/

/-- What holds of a capture. -/
structure NotebookCapture.Sound (capture : NotebookCapture) : Prop where
  frames : capture.capturedFrames = totalFrames capture.pushed
  ended : ∀ s ∈ capture.ended, Fed capture.pushed s
  group : ∀ remote ∈ capture.remote, GroupSound capture.pushed remote

namespace NotebookCapture

variable {capture : NotebookCapture}

theorem Sound.captured (h : capture.Sound) :
    capture.captured = ⟨totalFrames capture.pushed, capture.pushed.length⟩ := by
  unfold NotebookCapture.captured
  rw [h.frames]

theorem Sound.fed (h : capture.Sound) : ∀ s ∈ capture.connections, Fed capture.pushed s := by
  intro s hs
  rcases List.mem_append.1 hs with hs | hs
  · exact h.ended s hs
  · unfold NotebookCapture.ofGroup at hs
    cases hremote : capture.remote with
    | none =>
        rw [hremote] at hs
        cases hs
    | some remote =>
        rw [hremote] at hs
        exact (h.group remote hremote).fed s hs

theorem Sound.endGroup (h : capture.Sound) : capture.endGroup.Sound where
  frames := h.frames
  ended := h.fed
  group := fun _ hremote => by cases hremote

theorem Sound.terminate (h : capture.Sound) (state : Capture.CaptureState) :
    (capture.terminate state).Sound := ⟨h.endGroup.frames, h.endGroup.ended, h.endGroup.group⟩

theorem Sound.startGroup (h : capture.Sound) (started : Bool) :
    (capture.startGroup started).Sound := by
  unfold NotebookCapture.startGroup
  dsimp only
  split
  · refine ⟨h.frames, h.ended, fun remote hremote => ?_⟩
    obtain rfl := Option.some.inj hremote
    refine ⟨fun s hs => (by cases hs), fun s hs => ?_⟩
    obtain ⟨descriptor, -, rfl⟩ := List.mem_map.1 hs
    rw [h.captured]
    exact standing_openAt ..
  · exact h

/-- What is kept of a group after its fan-out. -/
theorem keepGroup_sound {α : Type} {fanout : ActiveRemoteCapture × Except String α}
    (hframes : capture.capturedFrames = totalFrames capture.pushed)
    (hended : ∀ s ∈ capture.ended, Fed capture.pushed s)
    (hfed : ∀ s ∈ fanout.1.replaced ++ fanout.1.streams, Fed capture.pushed s)
    (hgroup : fanout.2.isOk = true → GroupSound capture.pushed fanout.1) :
    (capture.keepGroup fanout).Sound := by
  unfold NotebookCapture.keepGroup
  dsimp only
  split
  · rename_i hok
    refine ⟨hframes, hended, fun remote hremote => ?_⟩
    obtain rfl := Option.some.inj hremote
    exact hgroup hok
  · refine ⟨hframes, fun s hs => ?_, fun _ hremote => by cases hremote⟩
    rcases List.mem_append.1 hs with hs | hs
    · exact hended s hs
    · exact hfed s hs

theorem Sound.restartRemoteCapture (h : capture.Sound) (outcome : RestartOutcome) :
    (capture.restartRemoteCapture outcome).Sound := by
  unfold NotebookCapture.restartRemoteCapture
  split
  · exact h
  · cases hremote : capture.remote with
    | none => exact h.startGroup _
    | some remote =>
        dsimp only
        split
        · exact h.endGroup.startGroup _
        · refine ⟨h.frames, h.ended, fun remote' hremote' => ?_⟩
          obtain rfl := Option.some.inj hremote'
          rw [h.captured]
          exact (h.group remote hremote).reopenStoppedAuxiliaryLanesNow _ _

theorem Sound.push (h : capture.Sound) (audioData : Block) (journaled : Bool) (now : ℕ)
    (lanes : ℕ → LaneOutcome) (healthPersisted : Bool) :
    (capture.push audioData journaled now lanes healthPersisted).Sound := by
  unfold NotebookCapture.push
  split
  · exact h
  · split
    · exact h.terminate _
    · have hframes : capture.capturedFrames + frameCount audioData =
          totalFrames (capture.pushed ++ [audioData]) := by
        unfold totalFrames
        rw [List.map_append, List.sum_append, h.frames]
        rfl
      have hended : ∀ s ∈ capture.ended, Fed (capture.pushed ++ [audioData]) s :=
        fun s hs => (h.ended s hs).append audioData
      dsimp only
      cases hremote : capture.remote with
      | none =>
          refine ⟨hframes, hended, fun remote hnone => ?_⟩
          cases hnone
      | some remote =>
          have hkept : NotebookCapture.Sound (NotebookCapture.keepGroup
              { capture with
                pushed := capture.pushed ++ [audioData]
                capturedFrames := capture.capturedFrames + frameCount audioData }
              (remote.tryFanoutPcm audioData lanes now
                ⟨capture.capturedFrames + frameCount audioData,
                  (capture.pushed ++ [audioData]).length⟩)) := by
            obtain ⟨hfed, hgroup⟩ := (h.group remote hremote).tryFanoutPcm audioData lanes now
              ⟨capture.capturedFrames + frameCount audioData,
                (capture.pushed ++ [audioData]).length⟩ (by rw [hframes])
            exact keepGroup_sound hframes hended hfed hgroup
          dsimp only
          rw [hremote] at hkept
          split
          · exact hkept.terminate _
          · exact hkept

theorem Sound.pause (h : capture.Sound) (paused : Bool) (outcome : PauseOutcome) :
    (capture.pause paused outcome).Sound := by
  unfold NotebookCapture.pause
  dsimp only
  generalize (if paused then Capture.CaptureState.recording else .paused) = expected
  generalize (if paused then Capture.CaptureState.paused else .recording) = next
  split
  · exact h
  · have hkept : ∀ state, NotebookCapture.Sound
        (((capture.remote.map fun remote => remote.tryFanoutControl outcome.lanes).map
          fun fanout => NotebookCapture.keepGroup { capture with state := state } fanout).getD
            { capture with state := state }) := by
      intro state
      cases hremote : capture.remote with
      | none => exact ⟨h.frames, h.ended, fun _ hnone => by cases hnone⟩
      | some remote =>
          obtain ⟨hfed, hgroup⟩ := (h.group remote hremote).tryFanoutControl outcome.lanes
          exact keepGroup_sound h.frames h.ended hfed hgroup
    have hsound := hkept next
    split
    · split
      · exact ⟨hsound.frames, hsound.ended, hsound.group⟩
      · exact hsound.terminate _
    · split
      · exact hsound
      · exact hsound.restartRemoteCapture _

/-- A step. -/
theorem Sound.step (h : capture.Sound) (s : CaptureStep) : (capture.step s).Sound := by
  cases s with
  | push audioData journaled now lanes healthPersisted => exact h.push ..
  | pause paused outcome => exact h.pause ..
  | restart outcome =>
      unfold NotebookCapture.step NotebookCapture.restart
      dsimp only
      split
      · exact h.restartRemoteCapture _
      · exact h
  | cancelGroup =>
      refine ⟨h.frames, h.ended, fun remote hremote => ?_⟩
      obtain ⟨remote, hsome, rfl⟩ := Option.map_eq_some_iff.1 hremote
      have hcancel := (h.group remote hsome).cancel true
      rw [Bool.or_true] at hcancel
      exact hcancel
  | stop => exact h.terminate _

theorem sound_start (remoteRealtimeEnabled started : Bool) (plan : List RemoteStreamLane) :
    (start remoteRealtimeEnabled started plan).Sound := by
  refine Sound.startGroup ⟨rfl, fun s hs => ?_, fun remote hremote => ?_⟩ _
  · cases hs
  · cases hremote

theorem sound_run (remoteRealtimeEnabled started : Bool) (plan : List RemoteStreamLane)
    (steps : List CaptureStep) : (run remoteRealtimeEnabled started plan steps).Sound := by
  unfold run
  exact List.foldlRecOn (motive := NotebookCapture.Sound) steps step
    (sound_start remoteRealtimeEnabled started plan) fun capture h s _ => h.step s

end NotebookCapture

/-! ### What is pushed -/

/-- The block that a step adds: it was pushed while the capture records, can be taken, and was
journaled. -/
def CaptureStep.block (capture : NotebookCapture) : CaptureStep → Option Block
  | .push audioData journaled _ _ _ =>
      if capture.state = .recording ∧ acceptsPcm audioData = true ∧ journaled = true then
        some audioData
      else none
  | _ => none

/-- The blocks that steps add, from a capture on. -/
def CaptureStep.blocks (capture : NotebookCapture) : List CaptureStep → List Block
  | [] => []
  | s :: steps => (s.block capture).toList ++ CaptureStep.blocks (capture.step s) steps

namespace NotebookCapture

variable {capture : NotebookCapture}

@[simp] theorem pushed_startGroup (started : Bool) :
    (capture.startGroup started).pushed = capture.pushed := by
  unfold startGroup
  dsimp only
  split <;> rfl

@[simp] theorem pushed_restartRemoteCapture (outcome : RestartOutcome) :
    (capture.restartRemoteCapture outcome).pushed = capture.pushed := by
  unfold restartRemoteCapture
  split
  · rfl
  · split
    · exact pushed_startGroup _
    · split
      · exact pushed_startGroup _
      · rfl

@[simp] theorem pushed_keepGroup {α : Type} (fanout : ActiveRemoteCapture × Except String α) :
    (capture.keepGroup fanout).pushed = capture.pushed := by
  unfold keepGroup
  dsimp only
  split <;> rfl

theorem pushed_push (audioData : Block) (journaled : Bool) (now : ℕ) (lanes : ℕ → LaneOutcome)
    (healthPersisted : Bool) :
    (capture.push audioData journaled now lanes healthPersisted).pushed = capture.pushed ++
      (CaptureStep.block capture (.push audioData journaled now lanes healthPersisted)).toList := by
  unfold push CaptureStep.block
  dsimp only
  by_cases hstate : capture.state = .recording
  · rw [if_neg (not_not.2 hstate)]
    cases htaken : acceptsPcm audioData && journaled with
    | false =>
        have hnot : ¬ (capture.state = .recording ∧ acceptsPcm audioData = true ∧
            journaled = true) := by
          rintro ⟨-, haccepts, hjournaled⟩
          simp [haccepts, hjournaled] at htaken
        rw [if_pos (by simp), if_neg hnot, Option.toList_none, List.append_nil]
        rfl
    | true =>
        have htaken' := Bool.and_eq_true_iff.1 htaken
        rw [if_neg (by simp), if_pos ⟨hstate, htaken'.1, htaken'.2⟩]
        split
        · rfl
        · split
          · exact pushed_keepGroup _
          · exact pushed_keepGroup _
  · rw [if_pos hstate, if_neg fun hall => hstate hall.1, Option.toList_none, List.append_nil]

theorem pushed_pause (paused : Bool) (outcome : PauseOutcome) :
    (capture.pause paused outcome).pushed = capture.pushed := by
  unfold pause
  dsimp only
  generalize (if paused then Capture.CaptureState.recording else .paused) = expected
  generalize (if paused then Capture.CaptureState.paused else .recording) = next
  split
  · rfl
  · have hkept : ∀ state, (((capture.remote.map fun remote =>
        remote.tryFanoutControl outcome.lanes).map fun fanout =>
          NotebookCapture.keepGroup { capture with state := state } fanout).getD
            { capture with state := state }).pushed = capture.pushed := by
      intro state
      cases capture.remote with
      | none => rfl
      | some remote => exact pushed_keepGroup _
    split
    · split
      · exact hkept _
      · exact hkept _
    · split
      · exact hkept _
      · exact (pushed_restartRemoteCapture _).trans (hkept _)

/-- **What a step adds** to the pushed blocks. -/
theorem pushed_step (s : CaptureStep) :
    (capture.step s).pushed = capture.pushed ++ (s.block capture).toList := by
  cases s with
  | push audioData journaled now lanes healthPersisted => exact pushed_push ..
  | pause paused outcome =>
      exact (pushed_pause paused outcome).trans (List.append_nil _).symm
  | restart outcome =>
      refine Eq.trans ?_ (List.append_nil _).symm
      unfold step restart
      dsimp only
      split
      · exact pushed_restartRemoteCapture _
      · rfl
  | cancelGroup => exact (List.append_nil _).symm
  | stop => exact (List.append_nil _).symm

theorem pushed_foldl (steps : List CaptureStep) :
    (steps.foldl step capture).pushed = capture.pushed ++ CaptureStep.blocks capture steps := by
  induction steps generalizing capture with
  | nil => exact (List.append_nil _).symm
  | cons s steps ih =>
      rw [List.foldl_cons, ih, pushed_step, List.append_assoc]
      rfl

/-- **The pushed blocks of a run** are those its steps add. -/
theorem pushed_run (remoteRealtimeEnabled started : Bool) (plan : List RemoteStreamLane)
    (steps : List CaptureStep) : (run remoteRealtimeEnabled started plan steps).pushed =
      CaptureStep.blocks (start remoteRealtimeEnabled started plan) steps := by
  unfold run
  rw [pushed_foldl]
  unfold start
  rw [pushed_startGroup]
  rfl

end NotebookCapture

/-- **No hole inside the audio of a lane.**  In every run the pushed blocks are those that were
taken and journaled; each connection was given a contiguous run of them, from where its capture
origin says on, and nothing after a block it could not take; a canonical one of a group that
stands took every block since the group was opened, as did any other lane that was not stopped;
and in a run in which the channel of one auxiliary lane does otherwise, the same blocks are
pushed, the group stands or ends as it does, and every other lane is given the same. -/
theorem lanes_have_no_hole (remoteRealtimeEnabled started : Bool) (plan : List RemoteStreamLane)
    (steps : List CaptureStep) :
    (NotebookCapture.run remoteRealtimeEnabled started plan steps).pushed =
      CaptureStep.blocks (NotebookCapture.start remoteRealtimeEnabled started plan) steps ∧
    (∀ s ∈ (NotebookCapture.run remoteRealtimeEnabled started plan steps).connections,
      Fed (NotebookCapture.run remoteRealtimeEnabled started plan steps).pushed s) ∧
    (∀ remote ∈ (NotebookCapture.run remoteRealtimeEnabled started plan steps).remote,
      remote.cancelled = false → ∀ s ∈ remote.streams,
        s.descriptor.canonical = true ∨ s.laneCancelled = false →
          Live (NotebookCapture.run remoteRealtimeEnabled started plan steps).pushed s) ∧
    (∀ (lane : ℕ) (steps' : List CaptureStep),
      (∀ descriptor ∈ plan[lane]?, descriptor.canonical = false) →
      List.Forall₂ (StepAlike lane) steps steps' →
        (NotebookCapture.run remoteRealtimeEnabled started plan steps').pushed =
          (NotebookCapture.run remoteRealtimeEnabled started plan steps).pushed ∧
        (NotebookCapture.run remoteRealtimeEnabled started plan steps').remote.isSome =
          (NotebookCapture.run remoteRealtimeEnabled started plan steps).remote.isSome ∧
        ∀ other ≠ lane,
          ((NotebookCapture.run remoteRealtimeEnabled started plan steps').remote.bind
            fun remote => remote.streams[other]?) =
          (NotebookCapture.run remoteRealtimeEnabled started plan steps).remote.bind
            fun remote => remote.streams[other]?) := by
  have hsound := NotebookCapture.sound_run remoteRealtimeEnabled started plan steps
  refine ⟨NotebookCapture.pushed_run .., hsound.fed, fun remote hremote hstands s hs hlane => ?_,
    fun lane steps' hauxiliary hsteps => ?_⟩
  · have hstanding := (hsound.group remote hremote).streams s hs
    rcases hlane with hcanonical | hlane
    · exact hstanding.live hstands (hstanding.canonical hcanonical)
    · exact hstanding.live hstands hlane
  · have halike := NotebookCapture.run_alike remoteRealtimeEnabled started hauxiliary hsteps
    refine ⟨halike.pushed.symm, halike.isSome_remote.symm, fun other hother => ?_⟩
    exact (halike.streams_other hother).symm

/-- A canonical lane and an English one. -/
def examplePlan : List RemoteStreamLane := [⟨none, true⟩, ⟨some "en", false⟩]

/-- The channel of the English lane is closed. -/
def exampleClosed (i : ℕ) : LaneOutcome :=
  if i = 1 then { LaneOutcome.accepting with closed := true } else .accepting

/-- Three blocks, where the English lane meets `lanes` at the second. -/
def exampleSteps (lanes : ℕ → LaneOutcome) : List CaptureStep :=
  [.push [1, 0] true 0 (fun _ => .accepting) true, .push [2, 0] true 1 lanes true,
    .push [3, 0] true 2 (fun _ => .accepting) true]

/-- The canonical lane is given three blocks whether the English one stays open or not, which is
replaced if not and then given the third. -/
theorem lanes_have_no_hole_closed :
    (((NotebookCapture.run true true examplePlan (exampleSteps exampleClosed)).remote.bind
        fun remote => remote.streams[0]?) =
      (NotebookCapture.run true true examplePlan
        (exampleSteps fun _ => .accepting)).remote.bind fun remote => remote.streams[0]?) ∧
    (((NotebookCapture.run true true examplePlan (exampleSteps exampleClosed)).remote.bind
      fun remote => remote.streams[1]?).map fun s => (s.generation, s.attempts)) =
        some (1, [([3, 0], none)]) := by
  have hsame : OutcomesAlike 1 (fun _ => .accepting) fun _ => .accepting :=
    ⟨fun _ _ => rfl, rfl, rfl, nofun, nofun⟩
  have hclosed : OutcomesAlike 1 (fun _ => .accepting) exampleClosed :=
    ⟨fun i hi => (if_neg hi).symm, rfl, rfl, nofun, nofun⟩
  obtain ⟨-, -, -, hlanes⟩ :=
    lanes_have_no_hole true true examplePlan (exampleSteps fun _ => .accepting)
  obtain ⟨-, -, hothers⟩ := hlanes 1 (exampleSteps exampleClosed) (by simp [examplePlan])
    (.cons (.push _ _ _ _ hsame) (.cons (.push _ _ _ _ hclosed) (.cons (.push _ _ _ _ hsame) .nil)))
  exact ⟨hothers 0 (by decide), by decide⟩

end Recorder
end ZuTalk
