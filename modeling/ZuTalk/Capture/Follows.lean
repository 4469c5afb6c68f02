/-
# The client follows the core

What the client shows when no repair is pending are the rows and cues of the core at the
revision it applied last, in whatever order deltas, snapshots and reads come
(`RepairingClient.follows_core`).  A delta that is put on a state that has some of its changes in
brings it to its own revision all the same, and so do the deltas a repair kept.

Two events do not go through the repair.  A snapshot that comes late takes the client back
to its revision, and a delta that ends the session ends the repair with it.
-/

import ZuTalk.Capture.Coalesce
import ZuTalk.Capture.Repair
import ZuTalk.Library.History

namespace ZuTalk
namespace Capture

open Edits Machine

/-- The core through the revisions of a session: its rows and its cues. -/
structure CoreRun where
  rows : History NotebookCaptureUtterance ℕ (·.revision)
  translationCues : History TranslationCue CueKey (·.revision)

namespace CoreRun

variable {run : CoreRun} {event pending next : NotebookCaptureEvent} {revision : ℕ}

/-- A snapshot contains every change up to a revision. -/
def Contains (run : CoreRun) (revision : ℕ) (event : NotebookCaptureEvent) : Prop :=
  (∀ sequence, (event.rowEdit sequence).put = run.rows.state revision sequence) ∧
    ∀ key, (event.cueEdit key).put = run.translationCues.state revision key

/-- A delta describes the changes of the revisions it stands for. -/
structure Describes (run : CoreRun) (event : NotebookCaptureEvent) : Prop where
  positive : 0 < event.coversFrom
  ordered : event.coversFrom ≤ event.eventRevision
  rows : ∀ sequence,
    event.rowEdit sequence = run.rows.across event.coversFrom event.eventRevision sequence
  translationCues : ∀ key,
    event.cueEdit key = run.translationCues.across event.coversFrom event.eventRevision key

/-- An event tells what the core did. -/
def Tells (run : CoreRun) (event : NotebookCaptureEvent) : Prop :=
  if event.isFullSnapshot then run.Contains event.eventRevision event else run.Describes event

end CoreRun

/-! ### What deltas put on a checkpoint leave -/

section Replay

variable {run : CoreRun} {snapshot : NotebookCaptureEvent} {deltas : List NotebookCaptureEvent}
  {revision target : ℕ}

/-- The deltas follow one another from a revision. -/
abbrev FollowsOn (revision : ℕ) (deltas : List NotebookCaptureEvent) : Prop :=
  History.Chain NotebookCaptureEvent.coversFrom (·.eventRevision) revision deltas

/-- Deltas that go on to the newest of them leave no revision out. -/
theorem followsOn_of_continuousThrough
    (hsorted : deltas.Pairwise (·.eventRevision < ·.eventRevision))
    (hafter : ∀ delta ∈ deltas, revision < delta.eventRevision)
    (htarget : ∀ delta ∈ deltas, delta.eventRevision ≤ target)
    (h : target ≤ continuousThrough revision deltas) :
    FollowsOn revision deltas ∧
      continuousThrough revision deltas = History.reach (·.eventRevision) revision deltas := by
  induction deltas generalizing revision with
  | nil => exact ⟨trivial, rfl⟩
  | cons delta deltas ih =>
      obtain ⟨hnewer, hrest⟩ := List.pairwise_cons.1 hsorted
      have hdelta := hafter delta List.mem_cons_self
      unfold continuousThrough at h ⊢
      by_cases hjoins : delta.coversFrom ≤ revision + 1 ∧ revision + 1 ≤ delta.eventRevision
      · rw [if_pos hjoins] at h ⊢
        obtain ⟨hchain, hreach⟩ := ih hrest hnewer
          (fun other hother => htarget other (List.mem_cons_of_mem delta hother)) h
        rw [History.reach_cons]
        exact ⟨⟨hjoins.1, Nat.le_of_succ_le hjoins.2, hchain⟩, hreach⟩
      · -- a gap before a delta would leave the target out of reach
        rw [if_neg hjoins] at h
        have hle := htarget delta List.mem_cons_self
        omega

/-- Deltas only go on. -/
theorem le_continuousThrough (revision : ℕ) (deltas : List NotebookCaptureEvent) :
    revision ≤ continuousThrough revision deltas := by
  induction deltas generalizing revision with
  | nil => exact le_rfl
  | cons delta deltas ih =>
      unfold continuousThrough
      split
      · rename_i hjoins
        exact (Nat.le_of_succ_le hjoins.2).trans (ih delta.eventRevision)
      · exact le_rfl

/-- The rows of a delta put on rows. -/
theorem merge_removeUtterances {delta : NotebookCaptureEvent}
    (hdelta : delta.isFullSnapshot = false) (rows : ℕ → Option NotebookCaptureUtterance)
    (sequence : ℕ) :
    CaptureClient.merge (CaptureClient.removeUtterances rows delta.removedSequences)
        delta.utterances sequence =
      (delta.rowEdit sequence).act (·.revision) (rows sequence) := by
  rw [CaptureClient.merge_apply]
  unfold NotebookCaptureEvent.rowEdit Edit.act CaptureClient.removeUtterances
  rw [hdelta, Bool.false_or]

/-- **The rows a repair leaves**, when the deltas follow one another. -/
theorem repairedUtterances_eq (hsnapshot : run.Contains revision snapshot)
    (hdeltas : ∀ delta ∈ deltas, delta.isFullSnapshot = false ∧ run.Describes delta)
    (hchain : FollowsOn revision deltas) :
    RepairingClient.repairedUtterances snapshot deltas =
      run.rows.state (History.reach (·.eventRevision) revision deltas) := by
  have hstart : CaptureClient.merge (fun _ => none) snapshot.utterances =
      run.rows.state revision := funext fun sequence => hsnapshot.1 sequence
  unfold RepairingClient.repairedUtterances
  rw [hstart]
  exact run.rows.foldl_chain
    (fun rows delta hdelta => merge_removeUtterances (hdeltas delta hdelta).1 rows)
    (fun delta hdelta => ⟨(hdeltas delta hdelta).2.positive, (hdeltas delta hdelta).2.rows⟩) hchain

theorem reconcileRest_translationCues (c : CaptureClient) (event : NotebookCaptureEvent) :
    (RepairingClient.reconcileRest c event).translationCues =
      fun key => (event.cueEdit key).act (·.revision) (c.translationCues key) := by
  rw [← CaptureClient.reconcileTranslationCues_eq]
  unfold RepairingClient.reconcileRest CaptureClient.reconcileLaneHealth
  split
  · rfl
  · split <;> rfl

theorem foldl_reconcileRest_translationCues (c : CaptureClient)
    (deltas : List NotebookCaptureEvent) :
    (deltas.foldl RepairingClient.reconcileRest c).translationCues =
      deltas.foldl
        (fun cues delta => fun key => (delta.cueEdit key).act (·.revision) (cues key))
        c.translationCues := by
  induction deltas generalizing c with
  | nil => rfl
  | cons delta deltas ih =>
      rw [List.foldl_cons, ih, reconcileRest_translationCues, List.foldl_cons]

/-- **The cues a repair leaves**, when the deltas follow one another. -/
theorem repairedCues_eq (c : CaptureClient) (hfull : snapshot.isFullSnapshot = true)
    (hsnapshot : run.Contains revision snapshot)
    (hdeltas : ∀ delta ∈ deltas, delta.isFullSnapshot = false ∧ run.Describes delta)
    (hchain : FollowsOn revision deltas) :
    (deltas.foldl RepairingClient.reconcileRest
        (RepairingClient.reconcileRest c snapshot)).translationCues =
      run.translationCues.state (History.reach (·.eventRevision) revision deltas) := by
  have hstart : (RepairingClient.reconcileRest c snapshot).translationCues =
      run.translationCues.state revision := by
    rw [reconcileRest_translationCues]
    funext key
    have hclears : (snapshot.cueEdit key).clears = true := by
      simp [NotebookCaptureEvent.cueEdit, hfull]
    rw [Edit.act_of_clears hclears, hsnapshot.2]
  rw [foldl_reconcileRest_translationCues, hstart]
  exact run.translationCues.foldl_chain (fun _ _ _ _ => rfl)
    (fun delta hdelta =>
      ⟨(hdeltas delta hdelta).2.positive, (hdeltas delta hdelta).2.translationCues⟩) hchain

end Replay

/-! ### Every step follows -/

namespace RepairingClient

variable {run : CoreRun} {c c' : RepairingClient} {event snapshot : NotebookCaptureEvent}

/-- What is shown is the core at a revision. -/
def ShowsAt (run : CoreRun) (c : RepairingClient) (revision : ℕ) : Prop :=
  c.client.rows = run.rows.state revision ∧
    c.client.translationCues = run.translationCues.state revision

/-- What the client has heard is what the core did. -/
def Told (run : CoreRun) (c : RepairingClient) : RepairAct → Prop
  | .apply event => run.Tells event
  | .arrived id snapshot => snapshot.isFullSnapshot = true → ∀ read ∈ c.reads, read.1 = id →
      run.Contains (checkpointRevision read.2 snapshot) snapshot
  | .read | .failed _ => True

/-- No snapshot comes late, and no delta ends the session while a repair is pending or
begins. -/
def Fit (c : RepairingClient) : RepairAct → Prop
  | .apply event =>
      if event.isFullSnapshot then
        ∀ last ∈ c.client.lastAppliedEventRevision, last ≤ event.eventRevision
      else
        c.callbackSession = true → event.status.captureState.isActive = false →
          ¬ c.Stale event → c.utteranceGapRepair = none ∧ c.client.hasGap event = false
  | .read | .arrived _ _ | .failed _ => True

/-- **A step follows the core.**  With no repair pending the client shows the core at the
revision applied last; that revision never goes back; and a repair ends only where the core is
shown at its target or later. -/
structure Follows (run : CoreRun) (c c' : RepairingClient) : Prop where
  shown : c'.utteranceGapRepair = none →
    ∀ last ∈ c'.client.lastAppliedEventRevision, c'.ShowsAt run last
  grows : ∀ last ∈ c.client.lastAppliedEventRevision,
    ∃ last' ∈ c'.client.lastAppliedEventRevision, last ≤ last'
  covered : ∀ repair ∈ c.utteranceGapRepair,
    (∀ repair' ∈ c'.utteranceGapRepair, repair'.id ≠ repair.id) →
      ∃ last ∈ c'.client.lastAppliedEventRevision,
        repair.targetEventRevision ≤ last ∧ c'.ShowsAt run last

/-- The deltas a repair keeps. -/
structure Buffered (run : CoreRun) (repair : UtteranceGapRepair) : Prop where
  sorted : Ordered.Sorted repair.bufferedDeltas
  delta : ∀ entry ∈ repair.bufferedDeltas,
    entry.2.isFullSnapshot = false ∧ run.Describes entry.2
  keyed : ∀ entry ∈ repair.bufferedDeltas, entry.2.eventRevision = entry.1
  aimed : ∀ entry ∈ repair.bufferedDeltas, entry.1 ≤ repair.targetEventRevision

/-- The invariant of a client and its repair. -/
structure Inv (run : CoreRun) (c : RepairingClient) : Prop where
  shown : c.utteranceGapRepair = none →
    ∀ last ∈ c.client.lastAppliedEventRevision, c.ShowsAt run last
  aimed : ∀ repair ∈ c.utteranceGapRepair,
    c.client.lastAppliedEventRevision = some repair.targetEventRevision
  buffered : ∀ repair ∈ c.utteranceGapRepair, Buffered run repair

theorem Buffered.observe {repair : UtteranceGapRepair} (h : Buffered run repair)
    (hdelta : event.isFullSnapshot = false) (hdescribes : run.Describes event) :
    Buffered run (repair.observe event) ∧
      (repair.observe event).targetEventRevision =
        max repair.targetEventRevision event.eventRevision ∧
      (repair.observe event).id = repair.id := by
  have hpos : event.eventRevision ≠ 0 := by
    have hpositive := hdescribes.positive
    have hordered := hdescribes.ordered
    omega
  have hobserve : (event.isFullSnapshot || decide (event.eventRevision = 0)) = false := by
    simp [hdelta, hpos]
  have hbuffer : (repair.observe event).bufferedDeltas =
      (Ordered.set event.eventRevision event repair.bufferedDeltas).drop
        ((Ordered.set event.eventRevision event repair.bufferedDeltas).length -
          maximumBufferedDeltaCount) := by
    simp only [UtteranceGapRepair.observe, hobserve, Bool.false_eq_true, if_false]
  have htarget : (repair.observe event).targetEventRevision =
      max repair.targetEventRevision event.eventRevision := by
    simp only [UtteranceGapRepair.observe, hobserve, Bool.false_eq_true, if_false]
  have hid : (repair.observe event).id = repair.id := by
    simp only [UtteranceGapRepair.observe, hobserve, Bool.false_eq_true, if_false]
  refine ⟨⟨?_, fun entry hentry => ?_, fun entry hentry => ?_, fun entry hentry => ?_⟩,
    htarget, hid⟩
  · rw [hbuffer]
    exact List.Pairwise.drop h.sorted.set
  all_goals
    rw [hbuffer] at hentry
    rcases Ordered.mem_set (List.mem_of_mem_drop hentry) with rfl | hmem
  · exact ⟨hdelta, hdescribes⟩
  · exact h.delta entry hmem
  · rfl
  · exact h.keyed entry hmem
  · exact htarget ▸ le_max_right ..
  · exact htarget ▸ (h.aimed entry hmem).trans (le_max_left ..)

/-- The deltas put on a checkpoint, oldest first. -/
theorem Buffered.replayDeltas {repair : UtteranceGapRepair} (h : Buffered run repair)
    (checkpoint : ℕ) :
    (repair.replayDeltas checkpoint).Pairwise (·.eventRevision < ·.eventRevision) ∧
      ∀ delta ∈ repair.replayDeltas checkpoint,
        checkpoint < delta.eventRevision ∧ delta.eventRevision ≤ repair.targetEventRevision ∧
          delta.isFullSnapshot = false ∧ run.Describes delta := by
  constructor
  · refine List.Pairwise.filter _ (List.pairwise_map.2 ?_)
    refine h.sorted.imp_of_mem fun {first second} hfirst hsecond hlt => ?_
    rw [h.keyed first hfirst, h.keyed second hsecond]
    exact hlt
  · intro delta hdelta
    obtain ⟨hmem, hafter⟩ := List.mem_filter.1 hdelta
    obtain ⟨entry, hentry, rfl⟩ := List.mem_map.1 hmem
    exact ⟨of_decide_eq_true hafter, h.keyed entry hentry ▸ h.aimed entry hentry,
      h.delta entry hentry⟩

/-! ### An event -/

/-- Rows, cues and revision of the client after a snapshot. -/
theorem client_apply_snapshot (client : CaptureClient) (hfull : event.isFullSnapshot = true)
    (hcontains : run.Contains event.eventRevision event) :
    (client.apply event).rows = run.rows.state event.eventRevision ∧
      (client.apply event).translationCues = run.translationCues.state event.eventRevision ∧
      (client.apply event).lastAppliedEventRevision = some event.eventRevision := by
  have hrows : ∀ sequence, (event.rowEdit sequence).clears = true := by
    simp [NotebookCaptureEvent.rowEdit, hfull]
  have hcues : ∀ key, (event.cueEdit key).clears = true := by
    simp [NotebookCaptureEvent.cueEdit, hfull]
  rw [CaptureClient.apply_eq, CaptureClient.reconcileUtterances_eq, hfull]
  simp only [Bool.not_true, Bool.false_and, Bool.false_eq_true, if_false, Bool.true_eq_false,
    false_and]
  refine ⟨funext fun sequence => ?_, funext fun key => ?_, trivial⟩
  · rw [Edit.act_of_clears (hrows sequence), hcontains.1]
  · rw [Edit.act_of_clears (hcues key), hcontains.2]

/-- A delta that was applied already changes no row, and no cue of the core at its revision. -/
theorem client_apply_again {client : CaptureClient} (hdelta : event.isFullSnapshot = false)
    (hlast : client.lastAppliedEventRevision = some event.eventRevision)
    (hdescribes : run.Describes event) :
    (client.apply event).rows = client.rows ∧
      (client.translationCues = run.translationCues.state event.eventRevision →
        (client.apply event).translationCues = client.translationCues) ∧
      (client.apply event).lastAppliedEventRevision = client.lastAppliedEventRevision := by
  have hordered := hdescribes.ordered
  have hsame : client.reconcileUtterances event = client := by
    rw [CaptureClient.reconcileUtterances_eq]
    exact if_pos ⟨hdelta, hlast⟩
  have hfresh : client.lastAppliedEventRevision.any (event.eventRevision < ·) = false := by
    simp [hlast]
  rw [CaptureClient.apply_eq, hsame, hfresh]
  simp only [Bool.and_false, Bool.false_eq_true, if_false, true_and, and_true]
  intro hcues
  rw [hcues]
  funext key
  rw [hdescribes.translationCues,
    run.translationCues.act_across hdescribes.positive (by omega) le_rfl]

/-- A delta that leaves nothing out brings the core's rows and cues to its revision. -/
theorem client_apply_delta {client : CaptureClient} (hbefore : client.Before event)
    {last : ℕ} (hlast : client.lastAppliedEventRevision = some last)
    (hgap : event.coversFrom ≤ last + 1) (hdescribes : run.Describes event)
    (hrows : client.rows = run.rows.state last)
    (hcues : client.translationCues = run.translationCues.state last) :
    (client.apply event).rows = run.rows.state event.eventRevision ∧
      (client.apply event).translationCues =
        run.translationCues.state event.eventRevision := by
  have hle : last ≤ event.eventRevision := (hbefore last hlast).le
  constructor
  · funext sequence
    rw [hbefore.rows_apply, hrows, hdescribes.rows,
      run.rows.act_across hdescribes.positive hgap hle]
  · funext key
    rw [hbefore.translationCues_apply, hcues, hdescribes.translationCues,
      run.translationCues.act_across hdescribes.positive hgap hle]

/-- **An event that may end the session** ends no repair. -/
theorem apply_of_fit (hstale : ¬ c.Stale event) (hfit : c.Fit (.apply event)) :
    (c.apply event).utteranceGapRepair = (c.reconcileRepair event).utteranceGapRepair ∧
      (c.apply event).client.rows = (c.client.apply event).rows ∧
      (c.apply event).client.translationCues = (c.client.apply event).translationCues ∧
      (c.apply event).client.lastAppliedEventRevision =
        (c.client.apply event).lastAppliedEventRevision := by
  have hcallback : (c.reconcileRepair event).callbackSession = c.callbackSession := by
    unfold reconcileRepair
    split
    · rfl
    · split
      · rfl
      · split
        · rfl
        · split <;> rfl
  unfold apply
  rw [if_neg hstale]
  dsimp only
  split
  · exact ⟨rfl, rfl, rfl, rfl⟩
  · rename_i hended
    unfold enterLocalTerminal
    split
    · rename_i hsession
      refine ⟨?_, rfl, rfl, rfl⟩
      change none = _
      unfold reconcileRepair
      cases hfull : event.isFullSnapshot with
      | true => rfl
      | false =>
          have hnone := by
            simpa only [Fit, hfull, Bool.false_eq_true, if_false] using hfit
          obtain ⟨hrepair, hgap⟩ :=
            hnone (hcallback ▸ hsession) (Bool.not_eq_true _ ▸ hended) hstale
          simp only [Bool.false_eq_true, if_false, hrepair, hgap]
          split <;> exact hrepair.symm
    · exact ⟨rfl, rfl, rfl, rfl⟩

/-- Where the repair goes on, nothing it must cover is due. -/
theorem Follows.of_kept (h : Inv run c') {repair repair' : UtteranceGapRepair}
    (hrepair : c.utteranceGapRepair = some repair)
    (hrepair' : c'.utteranceGapRepair = some repair') (hid : repair'.id = repair.id)
    (hgrows : ∀ last ∈ c.client.lastAppliedEventRevision,
      ∃ last' ∈ c'.client.lastAppliedEventRevision, last ≤ last') : Follows run c c' where
  shown := h.shown
  grows := hgrows
  covered other hother hgone := by
    obtain rfl := Option.some.inj (hrepair.symm.trans hother)
    exact absurd hid (hgone repair' hrepair')

/-- Where the core is shown at a revision no lower than any before, everything is covered. -/
theorem Follows.of_shows (h : Inv run c) {revision : ℕ}
    (hlast : c'.client.lastAppliedEventRevision = some revision)
    (hgrows : ∀ last ∈ c.client.lastAppliedEventRevision, last ≤ revision)
    (hshows : c'.ShowsAt run revision) : Follows run c c' where
  shown _ _ hlast' := Option.some.inj (hlast.symm.trans hlast') ▸ hshows
  grows last hmem := ⟨revision, hlast, hgrows last hmem⟩
  covered repair hrepair _ :=
    ⟨revision, hlast, hgrows _ (h.aimed repair hrepair), hshows⟩

theorem Inv.of_shows {revision : ℕ} (hnone : c.utteranceGapRepair = none)
    (hlast : c.client.lastAppliedEventRevision = some revision)
    (hshows : c.ShowsAt run revision) : Inv run c where
  shown _ _ hlast' := Option.some.inj (hlast.symm.trans hlast') ▸ hshows
  aimed repair hrepair := by
    rw [hnone] at hrepair
    cases hrepair
  buffered repair hrepair := by
    rw [hnone] at hrepair
    cases hrepair

theorem Inv.of_pending {repair : UtteranceGapRepair}
    (hrepair : c.utteranceGapRepair = some repair)
    (haimed : c.client.lastAppliedEventRevision = some repair.targetEventRevision)
    (hbuffered : Buffered run repair) : Inv run c where
  shown hnone := by
    rw [hrepair] at hnone
    cases hnone
  aimed other hother := Option.some.inj (hrepair.symm.trans hother) ▸ haimed
  buffered other hother := Option.some.inj (hrepair.symm.trans hother) ▸ hbuffered

/-- A snapshot handed to `apply`. -/
theorem Inv.apply_snapshot (h : Inv run c) (hfull : event.isFullSnapshot = true)
    (hcontains : run.Contains event.eventRevision event) (hfit : c.Fit (.apply event)) :
    Inv run (c.apply event) ∧ Follows run c (c.apply event) := by
  have hstale : ¬ c.Stale event := by simp [Stale, hfull]
  obtain ⟨hrepair, hrows, hcues, hlast⟩ := apply_of_fit hstale hfit
  obtain ⟨hrows', hcues', hlast'⟩ := client_apply_snapshot c.client hfull hcontains
  have hnone : (c.reconcileRepair event).utteranceGapRepair = none := by
    unfold reconcileRepair
    rw [if_pos hfull]
  have hshows : (c.apply event).ShowsAt run event.eventRevision :=
    ⟨hrows.trans hrows', hcues.trans hcues'⟩
  have hlate : ∀ last ∈ c.client.lastAppliedEventRevision, last ≤ event.eventRevision := by
    simpa only [Fit, hfull, if_true] using hfit
  exact ⟨.of_shows (hrepair.trans hnone) (hlast.trans hlast') hshows,
    .of_shows h (hlast.trans hlast') hlate hshows⟩

/-- A delta of the revision applied last. -/
theorem Inv.apply_again (h : Inv run c) (hdelta : event.isFullSnapshot = false)
    (hagain : c.client.lastAppliedEventRevision = some event.eventRevision)
    (hdescribes : run.Describes event) (hfit : c.Fit (.apply event)) :
    Inv run (c.apply event) ∧ Follows run c (c.apply event) := by
  have hstale : ¬ c.Stale event := by simp [Stale, hagain]
  obtain ⟨hrepair, hrows, hcues, hlast⟩ := apply_of_fit hstale hfit
  obtain ⟨hrows', hcues', hlast'⟩ := client_apply_again hdelta hagain hdescribes
  have hsame : c.reconcileRepair event = c := by
    unfold reconcileRepair
    rw [if_neg (by simp [hdelta]), if_pos hagain]
  rw [hsame] at hrepair
  have hlast := (hlast.trans hlast').trans hagain
  cases hpending : c.utteranceGapRepair with
  | none =>
      obtain ⟨hshown, hshown'⟩ := h.shown hpending event.eventRevision hagain
      have hshows : (c.apply event).ShowsAt run event.eventRevision :=
        ⟨(hrows.trans hrows').trans hshown, (hcues.trans (hcues' hshown')).trans hshown'⟩
      refine ⟨.of_shows (hrepair.trans hpending) hlast hshows, .of_shows h hlast ?_ hshows⟩
      exact fun _ hmem => (Option.some.inj (hmem.symm.trans hagain)).le
  | some repair =>
      have haimed := hagain.symm.trans (h.aimed repair hpending)
      have hinv : Inv run (c.apply event) := .of_pending (hrepair.trans hpending)
        (hlast.trans haimed) (h.buffered repair hpending)
      refine ⟨hinv, .of_kept hinv hpending (hrepair.trans hpending) rfl fun last hmem => ?_⟩
      exact ⟨last, hlast.trans (hagain.symm.trans hmem), le_rfl⟩

/-- A delta after all the client has seen. -/
theorem Inv.apply_delta (h : Inv run c) (hdelta : event.isFullSnapshot = false)
    (hbefore : c.client.Before event) (hdescribes : run.Describes event)
    (hfit : c.Fit (.apply event)) :
    Inv run (c.apply event) ∧ Follows run c (c.apply event) := by
  have hstale : ¬ c.Stale event := by
    intro hstale
    obtain ⟨last, hmem, hlt⟩ :=
      (Option.any_eq_true _ _).1 (Bool.and_eq_true_iff.1 hstale).2
    exact Nat.lt_asymm (hbefore last hmem) (of_decide_eq_true hlt)
  have hnew : c.client.lastAppliedEventRevision ≠ some event.eventRevision := fun hagain =>
    lt_irrefl _ (hbefore event.eventRevision hagain)
  obtain ⟨hrepair, hrows, hcues, hlast⟩ := apply_of_fit hstale hfit
  have hlast := hlast.trans hbefore.lastAppliedEventRevision_apply
  unfold reconcileRepair at hrepair
  rw [if_neg (by simp [hdelta]), if_neg hnew] at hrepair
  have hgrows : ∀ last ∈ c.client.lastAppliedEventRevision, last ≤ event.eventRevision :=
    fun last hmem => (hbefore last hmem).le
  cases hpending : c.utteranceGapRepair with
  | some repair =>
      rw [hpending] at hrepair
      obtain ⟨hbuffered, htarget, hid⟩ :=
        (h.buffered repair hpending).observe hdelta hdescribes
      have hnewest : repair.targetEventRevision < event.eventRevision :=
        hbefore _ (h.aimed repair hpending)
      have hinv : Inv run (c.apply event) := by
        refine .of_pending hrepair ?_ hbuffered
        rw [hlast, htarget, max_eq_right hnewest.le]
      exact ⟨hinv, .of_kept hinv hpending hrepair hid fun last hmem =>
        ⟨event.eventRevision, hlast, hgrows last hmem⟩⟩
  | none =>
      rw [hpending] at hrepair
      dsimp only at hrepair
      by_cases hgap : c.client.hasGap event = true
      · -- a repair begins, and the delta is the first it keeps
        rw [if_pos hgap] at hrepair
        have hempty : Buffered run
            { id := c.repairs
              generation := c.acceptedCallbackGeneration
              targetEventRevision := event.eventRevision
              bufferedDeltas := [] } :=
          ⟨.nil, fun _ hentry => absurd hentry List.not_mem_nil,
            fun _ hentry => absurd hentry List.not_mem_nil,
            fun _ hentry => absurd hentry List.not_mem_nil⟩
        obtain ⟨hbuffered, htarget, -⟩ := hempty.observe hdelta hdescribes
        have hinv : Inv run (c.apply event) := by
          refine .of_pending hrepair ?_ hbuffered
          rw [hlast]
          exact congrArg some (htarget.trans (max_self _)).symm
        refine ⟨hinv, hinv.shown, fun last hmem => ⟨_, hlast, hgrows last hmem⟩, ?_⟩
        intro repair hother
        rw [hpending] at hother
        cases hother
      · -- nothing is left out
        rw [if_neg hgap, hpending] at hrepair
        have hgap' : c.client.lastAppliedEventRevision.all (· + 1 < event.coversFrom) = false :=
          Bool.not_eq_true _ ▸ hgap
        cases hseen : c.client.lastAppliedEventRevision with
        | none => simp [hseen] at hgap'
        | some last =>
            obtain ⟨hshown, hshown'⟩ := h.shown hpending last hseen
            have hcovers : event.coversFrom ≤ last + 1 := by simpa [hseen] using hgap'
            obtain ⟨hrows', hcues'⟩ :=
              client_apply_delta hbefore hseen hcovers hdescribes hshown hshown'
            have hshows : (c.apply event).ShowsAt run event.eventRevision :=
              ⟨hrows.trans hrows', hcues.trans hcues'⟩
            exact ⟨.of_shows hrepair hlast hshows, .of_shows h hlast hgrows hshows⟩

/-- **Every event handed to `apply`** follows the core. -/
theorem Inv.apply (h : Inv run c) (htells : run.Tells event) (hfit : c.Fit (.apply event)) :
    Inv run (c.apply event) ∧ Follows run c (c.apply event) := by
  unfold CoreRun.Tells at htells
  cases hfull : event.isFullSnapshot with
  | true =>
      rw [if_pos hfull] at htells
      exact h.apply_snapshot hfull htells hfit
  | false =>
      rw [if_neg (by simp [hfull])] at htells
      by_cases hstale : c.Stale event
      · have hsame : c.apply event = c := if_pos hstale
        rw [hsame]
        refine ⟨h, h.shown, fun last hmem => ⟨last, hmem, le_rfl⟩, fun repair hrepair hgone => ?_⟩
        exact absurd rfl (hgone repair hrepair)
      · by_cases hagain : c.client.lastAppliedEventRevision = some event.eventRevision
        · exact h.apply_again hfull hagain htells hfit
        · refine h.apply_delta hfull (fun last hmem => ?_) htells hfit
          have hle : ¬ event.eventRevision < last := fun hlt =>
            hstale (by simp [Stale, hfull, Option.any_eq_true]; exact ⟨last, hmem, hlt⟩)
          have hne : last ≠ event.eventRevision := fun heq => hagain (heq ▸ hmem)
          omega

/-! ### A read that comes back -/

/-- **A read that comes back** brings the client to the core, or leaves the repair pending. -/
theorem Inv.arrive (h : Inv run c) {id requested : ℕ}
    (hcontains : snapshot.isFullSnapshot = true →
      run.Contains (checkpointRevision requested snapshot) snapshot) :
    Inv run (c.arrive id requested snapshot) ∧ Follows run c (c.arrive id requested snapshot) := by
  have hstay : Inv run c ∧ Follows run c c :=
    ⟨h, h.shown, fun last hmem => ⟨last, hmem, le_rfl⟩,
      fun repair hrepair hgone => absurd rfl (hgone repair hrepair)⟩
  unfold RepairingClient.arrive
  cases hcurrent : c.currentUtteranceGapRepair id with
  | none => exact hstay
  | some repair =>
      cases hfull : snapshot.isFullSnapshot with
      | false => exact hstay
      | true =>
          have hrepair : c.utteranceGapRepair = some repair := (Option.mem_filter_iff.1 hcurrent).1
          have hbuffered := h.buffered repair hrepair
          have haimed := h.aimed repair hrepair
          replace hcontains := hcontains hfull
          generalize checkpointRevision requested snapshot = checkpoint at hcontains
          obtain ⟨hsorted, hreplay⟩ := hbuffered.replayDeltas checkpoint
          have hreach : ((repair.replayDeltas checkpoint).getLast?.map
              (·.eventRevision)).getD checkpoint =
                History.reach (·.eventRevision) checkpoint (repair.replayDeltas checkpoint) := rfl
          simp only [Bool.not_true, Bool.false_eq_true, if_false, haimed, Option.getD_some, hreach]
          by_cases hcovered : repair.targetEventRevision ≤
              continuousThrough checkpoint (repair.replayDeltas checkpoint)
          · -- the deltas follow on from the checkpoint to the target
            obtain ⟨hchain, hthrough⟩ := followsOn_of_continuousThrough hsorted
              (fun delta hdelta => (hreplay delta hdelta).1)
              (fun delta hdelta => (hreplay delta hdelta).2.1) hcovered
            have hdeltas : ∀ delta ∈ repair.replayDeltas checkpoint,
                delta.isFullSnapshot = false ∧ run.Describes delta :=
              fun delta hdelta => (hreplay delta hdelta).2.2
            have hrows := repairedUtterances_eq hcontains hdeltas hchain
            have hcues := repairedCues_eq c.client hfull hcontains hdeltas hchain
            have htarget : repair.targetEventRevision ≤ History.reach (·.eventRevision)
                checkpoint (repair.replayDeltas checkpoint) := hthrough ▸ hcovered
            have hlast : max repair.targetEventRevision (max checkpoint
                (History.reach (·.eventRevision) checkpoint (repair.replayDeltas checkpoint))) =
                  History.reach (·.eventRevision) checkpoint (repair.replayDeltas checkpoint) := by
              rw [max_eq_right hchain.le_reach, max_eq_right htarget]
            rw [hlast, decide_eq_true hcovered]
            have hgrows : ∀ last ∈ c.client.lastAppliedEventRevision, last ≤
                History.reach (·.eventRevision) checkpoint (repair.replayDeltas checkpoint) :=
              fun last hmem => (Option.some.inj (hmem.symm.trans haimed)) ▸ htarget
            exact ⟨.of_shows rfl rfl ⟨hrows, hcues⟩, .of_shows h rfl hgrows ⟨hrows, hcues⟩⟩
          · -- a gap is left, and the repair goes on
            have hcheckpoint : checkpoint ≤ repair.targetEventRevision :=
              (le_continuousThrough _ _).trans (not_le.1 hcovered).le
            have hreached : History.reach (·.eventRevision) checkpoint
                (repair.replayDeltas checkpoint) ≤ repair.targetEventRevision :=
              History.reach_le hcheckpoint fun delta hdelta => (hreplay delta hdelta).2.1
            rw [max_eq_left (max_le hcheckpoint hreached), decide_eq_false hcovered]
            have hinv : Inv run { c with
                client :=
                  { (repair.replayDeltas checkpoint).foldl reconcileRest
                      (reconcileRest c.client snapshot) with
                    rows := repairedUtterances snapshot (repair.replayDeltas checkpoint)
                    lastAppliedEventRevision := some repair.targetEventRevision
                    repairing := !false }
                utteranceGapRepair := some { repair with
                  bufferedDeltas := repair.bufferedDeltas.filter (checkpoint < ·.1) } } := by
              refine .of_pending rfl rfl ⟨hbuffered.sorted.filter _, fun entry hentry => ?_,
                fun entry hentry => ?_, fun entry hentry => ?_⟩
              · exact hbuffered.delta entry (List.mem_of_mem_filter hentry)
              · exact hbuffered.keyed entry (List.mem_of_mem_filter hentry)
              · exact hbuffered.aimed entry (List.mem_of_mem_filter hentry)
            refine ⟨hinv, .of_kept hinv hrepair rfl rfl fun last hmem => ?_⟩
            exact ⟨repair.targetEventRevision, rfl,
              (Option.some.inj (hmem.symm.trans haimed)).le⟩

/-- **Every step** of a client follows the core. -/
theorem Inv.step {act : RepairAct} (h : Inv run c) (htold : Told run c act) (hfit : c.Fit act)
    (hstep : c.step act = some c') : Inv run c' ∧ Follows run c c' := by
  have hstay : ∀ reads, Inv run { c with reads := reads } ∧
      Follows run c { c with reads := reads } := fun reads =>
    ⟨⟨h.shown, h.aimed, h.buffered⟩, h.shown, fun last hmem => ⟨last, hmem, le_rfl⟩,
      fun repair hrepair hgone => absurd rfl (hgone repair hrepair)⟩
  cases act with
  | apply event =>
      obtain rfl := Option.some.inj hstep
      exact h.apply htold hfit
  | read =>
      obtain ⟨repair, -, hread⟩ := Option.bind_eq_some_iff.1 hstep
      split at hread
      · obtain rfl := Option.some.inj hread
        exact hstay _
      · cases hread
  | failed id =>
      obtain ⟨read, -, rfl⟩ := Option.map_eq_some_iff.1 hstep
      exact hstay _
  | arrived id snapshot =>
      obtain ⟨read, hread, rfl⟩ := Option.map_eq_some_iff.1 hstep
      have hid : read.1 = id := by simpa using List.find?_some hread
      have harrive : Inv run (c.arrive id read.2 snapshot) ∧
          Follows run c (c.arrive id read.2 snapshot) :=
        h.arrive fun hfull => htold hfull read (List.mem_of_find?_eq_some hread) hid
      obtain ⟨hinv, hfollows⟩ := harrive
      exact ⟨⟨hinv.shown, hinv.aimed, hinv.buffered⟩, hfollows.shown, hfollows.grows,
        hfollows.covered⟩

theorem inv_start (status : CaptureStatus) (generation : Option ℕ) (callbackSession : Bool) :
    Inv run (start status generation callbackSession) where
  shown _ last hlast := by cases hlast
  aimed repair hrepair := by cases hrepair
  buffered repair hrepair := by cases hrepair

theorem Inv.along {acts : List RepairAct} (h : Inv run c)
    (htold : Along RepairingClient.step (Told run) c acts)
    (hfit : Along RepairingClient.step Fit c acts) :
    Along RepairingClient.step (fun c act => ∀ c', c.step act = some c' → Follows run c c')
      c acts := by
  induction acts generalizing c with
  | nil => trivial
  | cons act acts ih =>
      refine ⟨fun c' hstep => (h.step htold.1 hfit.1 hstep).2, fun c' hstep => ?_⟩
      exact ih (h.step htold.1 hfit.1 hstep).1 (htold.2 c' hstep) (hfit.2 c' hstep)

/-- **The client follows the core** in every run in which no snapshot comes late and no delta ends
the session with a repair pending: each step does, and the last state shows the core at the
revision applied last unless a repair is pending. -/
theorem follows_core (run : CoreRun) (status : CaptureStatus) (generation : Option ℕ)
    (callbackSession : Bool) {acts : List RepairAct}
    (htold : Along step (Told run) (start status generation callbackSession) acts)
    (hfit : Along step Fit (start status generation callbackSession) acts) :
    Along step (fun c act => ∀ c', c.step act = some c' → Follows run c c')
        (start status generation callbackSession) acts ∧
      ∀ c', Machine.run step (start status generation callbackSession) acts = some c' →
        c'.utteranceGapRepair = none →
          ∀ last ∈ c'.client.lastAppliedEventRevision, c'.ShowsAt run last := by
  have hinv : Inv run (start status generation callbackSession) := inv_start ..
  refine ⟨hinv.along htold hfit, fun c' hrun => ?_⟩
  have hlast : Inv run c' := Along.invariant
    (fun _ _ _ h hboth hstep => (h.step hboth.1 hboth.2 hstep).1) (htold.and hfit) hinv hrun
  exact hlast.shown

end RepairingClient

/-! ### A core that adds a row with each revision -/

/-- The delta of a revision: one more row. -/
def rowDelta (revision : ℕ) : NotebookCaptureEvent := .plain revision false [.plain revision 1] []

/-- The snapshot of a revision: a row for each so far. -/
def rowSnapshot (revision : ℕ) : NotebookCaptureEvent :=
  .plain revision true ((List.range' 1 revision).map (.plain · 1)) []

/-- The core whose revisions are the deltas. -/
def rowCore : CoreRun where
  rows := .ofEdits fun revision => (rowDelta revision).rowEdit
  translationCues := .ofEdits fun revision => (rowDelta revision).cueEdit

theorem rowCore_describes {revision : ℕ} (h : 0 < revision) :
    rowCore.Describes (rowDelta revision) :=
  ⟨h, le_rfl, fun sequence => (rowCore.rows.across_self revision sequence).symm,
    fun key => (rowCore.translationCues.across_self revision key).symm⟩

theorem rowCore_contains (revision : ℕ) : rowCore.Contains revision (rowSnapshot revision) := by
  induction revision with
  | zero => exact ⟨fun _ => rfl, fun _ => rfl⟩
  | succ revision ih =>
      constructor
      · intro sequence
        have hstep : rowCore.rows.state (revision + 1) sequence =
            newer (·.revision) (rowCore.rows.state revision sequence)
              (best (·.revision) (·.sequence) [.plain (revision + 1) 1] sequence) := rfl
        have hput : ((rowSnapshot (revision + 1)).rowEdit sequence).put =
            newer (·.revision) ((rowSnapshot revision).rowEdit sequence).put
              (best (·.revision) (·.sequence) [.plain (revision + 1) 1] sequence) := by
          have hrows : (rowSnapshot (revision + 1)).utterances =
              (rowSnapshot revision).utterances ++ [.plain (revision + 1) 1] := by
            simp [rowSnapshot, NotebookCaptureEvent.plain, List.range'_concat, Nat.add_comm]
          unfold NotebookCaptureEvent.rowEdit
          rw [hrows, best_append]
        rw [hput, hstep, ih.1]
      · intro key
        have hstep : rowCore.translationCues.state (revision + 1) key =
            ((rowDelta (revision + 1)).cueEdit key).act (·.revision)
              (rowCore.translationCues.state revision key) := rfl
        have hkeep : (rowDelta (revision + 1)).cueEdit key = Edit.keep := rfl
        rw [hstep, hkeep, Edit.keep_act, ← ih.2]
        rfl

theorem rowCore_tells_delta {revision : ℕ} (h : 0 < revision) :
    rowCore.Tells (rowDelta revision) := rowCore_describes h

theorem rowCore_tells_snapshot (revision : ℕ) : rowCore.Tells (rowSnapshot revision) :=
  rowCore_contains revision

/-- The delta of a revision with which the session is interrupted. -/
def endingDelta (revision : ℕ) : NotebookCaptureEvent :=
  { rowDelta revision with status := { CaptureStatus.running with captureState := .interrupted } }

theorem rowCore_tells_ending {revision : ℕ} (h : 0 < revision) :
    rowCore.Tells (endingDelta revision) :=
  have hdelta := rowCore_describes h
  ⟨hdelta.positive, hdelta.ordered, hdelta.rows, hdelta.translationCues⟩

/-- A gap, a read of it that fails and one that comes back after more deltas. -/
def repairOnce : List RepairAct :=
  [.apply (rowSnapshot 1), .apply (rowDelta 3), .read, .failed 0, .read, .apply (rowDelta 4),
    .apply (rowDelta 2), .arrived 0 (rowSnapshot 3)]

namespace RepairingClient

instance (c : RepairingClient) : DecidablePred c.Fit
  | .apply event => by
      unfold Fit
      infer_instance
  | .read | .failed _ | .arrived _ _ => isTrue trivial

theorem follows_once : ∃ c', Machine.run step (start .running (some 1) true) repairOnce = some c' ∧
    c'.utteranceGapRepair.isNone ∧ c'.ShowsAt rowCore 4 := by
  have htold : Along step (Told rowCore) (start .running (some 1) true) repairOnce := by
    refine Along.of_forall fun act hact c => ?_
    simp only [repairOnce, List.mem_cons, List.not_mem_nil, or_false] at hact
    rcases hact with rfl | rfl | rfl | rfl | rfl | rfl | rfl | rfl
    · exact rowCore_tells_snapshot 1
    · exact rowCore_tells_delta (by decide)
    · trivial
    · trivial
    · trivial
    · exact rowCore_tells_delta (by decide)
    · exact rowCore_tells_delta (by decide)
    · exact fun _ _ _ _ => rowCore_contains 3
  have hfit : Along step Fit (start .running (some 1) true) repairOnce := by decide +kernel
  refine ⟨_, rfl, rfl, ?_⟩
  exact (follows_core rowCore .running (some 1) true htold hfit).2 _ rfl rfl 4 rfl

/-- A snapshot comes after a delta it does not have, with the repair of a gap pending. -/
def lateSnapshots : List RepairAct :=
  [.apply (rowSnapshot 1), .apply (rowDelta 3), .apply (rowSnapshot 2)]

/-- A delta leaves a revision out and ends the session. -/
def endingGap : List RepairAct := [.apply (rowSnapshot 1), .apply (endingDelta 3)]

theorem told_lateSnapshots :
    Along step (Told rowCore) (start .running (some 1) true) lateSnapshots := by
  refine Along.of_forall fun act hact c => ?_
  simp only [lateSnapshots, List.mem_cons, List.not_mem_nil, or_false] at hact
  rcases hact with rfl | rfl | rfl
  · exact rowCore_tells_snapshot 1
  · exact rowCore_tells_delta (by decide)
  · exact rowCore_tells_snapshot 2

theorem told_endingGap :
    Along step (Told rowCore) (start .running (some 1) true) endingGap := by
  refine Along.of_forall fun act hact c => ?_
  simp only [endingGap, List.mem_cons, List.not_mem_nil, or_false] at hact
  rcases hact with rfl | rfl
  · exact rowCore_tells_snapshot 1
  · exact rowCore_tells_ending (by decide)

/-- **A late snapshot takes the client back and ends its repair short of its target, and a delta
that ends the session leaves the rows of its gap out for good.** -/
theorem late_and_ending_do_not_follow :
    (Along step (Told rowCore) (start .running (some 1) true) lateSnapshots ∧
      ¬ Along step (fun c act => ∀ c', c.step act = some c' → Follows rowCore c c')
        (start .running (some 1) true) lateSnapshots) ∧
    (Along step (Told rowCore) (start .running (some 1) true) endingGap ∧
      ¬ Along step (fun c act => ∀ c', c.step act = some c' → Follows rowCore c c')
        (start .running (some 1) true) endingGap) := by
  refine ⟨⟨told_lateSnapshots, fun halong => ?_⟩, told_endingGap, fun halong => ?_⟩
  · have hlate := ((halong.2 _ rfl).2 _ rfl).1 _ rfl
    obtain ⟨last, hlast, hle⟩ := hlate.grows 3 rfl
    obtain rfl := Option.some.inj hlast
    exact absurd hle (by decide)
  · have hended := (halong.2 _ rfl).1 _ rfl
    have hrow := congrFun (hended.shown rfl 3 rfl).1 2
    revert hrow
    decide +kernel

end RepairingClient

end Capture
end ZuTalk
