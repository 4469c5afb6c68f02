/-
# The clock a finalize moves

A provider hears the audio of a connection in order.  When it reaches a finalize it adds time
of its own to its clock, and answers with `<fin>` or does not.  `note_finalize_answered` has
to say from the answer's position alone which finalize it answers, and so how much was added.

`Connection` runs the two sides together.  `finalizes_paired_and_exact`: where unanswered
finalizes are well before the next answered one and the time added in between is short, every
answer is paired with its own finalize, and a position heard since is projected onto exactly the
audio heard.
-/

import ZuTalk.Library.Machine
import ZuTalk.Stream.Trimming
import Mathlib.Data.List.DropRight

namespace ZuTalk
namespace Stream

open StreamRecoveryState Machine

/-- The finalize `note_finalize_answered` takes an answer for. -/
def StreamRecoveryState.answeredMark (r : StreamRecoveryState) (providerTotalMs : ℕ) : Option ℕ :=
  (dropUnanswered (providerTotalMs - r.leadAt providerTotalMs) r.finalizeMarks).head?

/-- A finalize the provider has reached: where it stood in the audio, the time the provider
added for it, whether it was answered, and the mark the answer was paired with. -/
structure Finalize where
  markMs : ℕ
  addedMs : ℕ
  answered : Bool
  pairedMs : Option ℕ
  deriving DecidableEq, Repr

/-- The time added for finalizes. -/
def addedIn (finalizes : List Finalize) : ℕ := (finalizes.map Finalize.addedMs).sum

/-- The finalizes since the last answered one. -/
def waiting (finalizes : List Finalize) : List Finalize := finalizes.rtakeWhile fun f => !f.answered

/-- The finalizes up to the last answered one. -/
def settled (finalizes : List Finalize) : List Finalize := finalizes.rdropWhile fun f => !f.answered

/-- A connection: the recovery state, and the provider that hears its audio.  `pending` are the
finalizes sent that the provider has not reached. -/
structure Connection where
  recovery : StreamRecoveryState
  pending : List ℕ
  heardMs : ℕ
  reached : List Finalize
  deriving DecidableEq, Repr

/-- What happens on a connection. -/
inductive ConnectionEvent
  | send (pcm : Pcm)
  | finalize
  | acknowledge (providerTotalMs : ℕ)
  | hear (ms : ℕ)
  | reach (addedMs : ℕ) (answered : Bool)
  deriving DecidableEq, Repr

namespace Connection

/-- A connection just opened. -/
def opened (r : StreamRecoveryState) : Connection := ⟨r.beginProviderClock, [], 0, []⟩

/-- The audio the connection was given. -/
def sentMs (c : Connection) : ℕ := c.recovery.nextAudioMs - c.recovery.connectionOriginMs

/-- The position the provider reports: what it heard, and what it added. -/
def totalMs (c : Connection) : ℕ := c.heardMs + addedIn c.reached

/-- Where the finalizes of the connection stand in its audio. -/
def marks (c : Connection) : List ℕ := c.reached.map Finalize.markMs ++ c.pending

/-- One step.  A finalize is sent after more audio than the one before; the provider hears only
what was sent, up to the next finalize, and handles an answered one before it hears more.  An
answer takes effect when the stream handles it. -/
def step (c : Connection) : ConnectionEvent → Option Connection
  | .send pcm => some { c with recovery := c.recovery.recordSent pcm }
  | .finalize =>
      if ∀ mark ∈ c.marks, mark < c.sentMs then
        some { c with recovery := c.recovery.noteFinalizeSent, pending := c.pending ++ [c.sentMs] }
      else none
  | .acknowledge providerTotalMs =>
      some { c with recovery := c.recovery.acknowledge providerTotalMs }
  | .hear ms =>
      if c.heardMs + ms ≤ c.sentMs ∧ ∀ mark ∈ c.pending.head?, c.heardMs + ms ≤ mark then
        some { c with heardMs := c.heardMs + ms }
      else none
  | .reach addedMs answered =>
      match c.pending with
      | [] => none
      | mark :: pending =>
          if c.heardMs = mark then
            if answered then
              some { c with
                recovery := c.recovery.noteFinalizeAnswered (c.totalMs + addedMs),
                pending := pending,
                reached := c.reached ++
                  [⟨mark, addedMs, true, c.recovery.answeredMark (c.totalMs + addedMs)⟩] }
            else
              some { c with
                pending := pending,
                reached := c.reached ++ [⟨mark, addedMs, false, none⟩] }
          else none

end Connection

/-- At every finalize reached, the time added since the last answered one is at most a step; an
answered one is more than a step after those left unanswered before it. -/
def Spaced (finalizes : List Finalize) : Prop :=
  ∀ i, (hi : i < finalizes.length) →
    addedIn (waiting (finalizes.take i)) + finalizes[i].addedMs ≤ finalizeAnswerStepMs ∧
      (finalizes[i].answered → ∀ unanswered ∈ waiting (finalizes.take i),
        unanswered.markMs + finalizeAnswerStepMs < finalizes[i].markMs)

instance (finalizes : List Finalize) : Decidable (Spaced finalizes) :=
  inferInstanceAs (Decidable (∀ i, (hi : i < finalizes.length) → _ ∧ (_ → _)))

/-! ### Finalizes in a list -/

variable {finalizes : List Finalize} {f : Finalize}

theorem settled_append_waiting (finalizes : List Finalize) :
    settled finalizes ++ waiting finalizes = finalizes := List.rdropWhile_append_rtakeWhile

theorem addedIn_append (a b : List Finalize) : addedIn (a ++ b) = addedIn a + addedIn b := by
  unfold addedIn
  rw [List.map_append, List.sum_append]

theorem addedIn_eq (finalizes : List Finalize) :
    addedIn finalizes = addedIn (settled finalizes) + addedIn (waiting finalizes) := by
  rw [← addedIn_append, settled_append_waiting]

theorem waiting_snoc_answered (h : f.answered) : waiting (finalizes ++ [f]) = [] :=
  List.rtakeWhile_concat_neg _ _ _ (by simp [h])

theorem settled_snoc_answered (h : f.answered) : settled (finalizes ++ [f]) = finalizes ++ [f] :=
  List.rdropWhile_concat_neg _ _ _ (by simp [h])

theorem waiting_snoc_unanswered (h : f.answered = false) :
    waiting (finalizes ++ [f]) = waiting finalizes ++ [f] :=
  List.rtakeWhile_concat_pos _ _ _ (by simp [h])

theorem settled_snoc_unanswered (h : f.answered = false) :
    settled (finalizes ++ [f]) = settled finalizes :=
  List.rdropWhile_concat_pos _ _ _ (by simp [h])

/-- What holds of all finalizes reached held before the last was. -/
theorem Spaced.init (h : Spaced (finalizes ++ [f])) : Spaced finalizes := by
  intro i hi
  have hlt : i < (finalizes ++ [f]).length := by
    rw [List.length_append]
    omega
  have hspaced := h i hlt
  rwa [List.getElem_append_left hi, List.take_append_of_le_length (Nat.le_of_lt hi)] at hspaced

/-- What it says of the last. -/
theorem Spaced.last (h : Spaced (finalizes ++ [f])) :
    addedIn (waiting finalizes) + f.addedMs ≤ finalizeAnswerStepMs ∧
      (f.answered → ∀ unanswered ∈ waiting finalizes,
        unanswered.markMs + finalizeAnswerStepMs < f.markMs) := by
  have hspaced := h finalizes.length (by simp)
  rwa [List.getElem_concat_length rfl, List.take_append_of_le_length (Nat.le_refl _),
    List.take_length] at hspaced

/-! ### What an answer is paired with -/

/-- Finalizes well before the one answered are dropped; it stays, when the position heard is
close behind it. -/
theorem dropUnanswered_eq {heardMs mark : ℕ} {older rest : List ℕ}
    (hold : ∀ m ∈ older, m + finalizeAnswerStepMs < mark) (hheard : mark ≤ heardMs)
    (hclose : heardMs ≤ mark + finalizeAnswerStepMs) :
    dropUnanswered heardMs (older ++ mark :: rest) = mark :: rest := by
  induction older with
  | nil =>
      rcases rest with _ | ⟨second, rest⟩
      · rfl
      · rw [List.nil_append, dropUnanswered, if_neg]
        omega
  | cons first older ih =>
      have hfirst := hold first List.mem_cons_self
      have hrest := ih fun m hm => hold m (List.mem_cons_of_mem _ hm)
      rcases older with _ | ⟨second, older⟩
      · rw [List.singleton_append, dropUnanswered, if_pos ⟨by omega, hheard⟩]
        exact hrest
      · have hsecond := hold second (by simp)
        rw [List.cons_append, List.cons_append, dropUnanswered, if_pos ⟨by omega, by omega⟩]
        exact hrest

/-- The newest correction applies from its position on. -/
theorem leadAt_snoc {r : StreamRecoveryState} {lead : List (ℕ × ℕ)} {fromMs leadMs ms : ℕ}
    (hlead : r.providerLead = lead ++ [(fromMs, leadMs)]) (h : fromMs ≤ ms) :
    r.leadAt ms = leadMs := by
  unfold leadAt
  rw [hlead, List.reverse_append, List.reverse_singleton, List.singleton_append,
    List.find?_cons_of_pos (by simpa using h)]

/-- `note_finalize_answered`, when the finalize it takes is known. -/
theorem noteFinalizeAnswered_of_drop {r : StreamRecoveryState} {totalMs mark : ℕ}
    {marks : List ℕ}
    (hdrop : dropUnanswered (totalMs - r.leadAt totalMs) r.finalizeMarks = mark :: marks) :
    r.noteFinalizeAnswered totalMs =
      if totalMs - mark > r.leadAt totalMs then
        { r with finalizeMarks := marks,
                 providerLead := r.providerLead ++ [(totalMs, totalMs - mark)] }
      else { r with finalizeMarks := marks } := by
  unfold StreamRecoveryState.noteFinalizeAnswered
  simp only [hdrop]

/-- A block sent leaves the provider's clock. -/
theorem recordSent_clock (r : StreamRecoveryState) (pcm : Pcm) :
    ∃ frames, r.recordSent pcm =
      { r with nextAudioMs := satAdd r.nextAudioMs (durationMs pcm.length),
               sentFrames := frames } := by
  unfold StreamRecoveryState.recordSent dropUnreplayableFrames
  dsimp only
  split
  · exact ⟨_, rfl⟩
  · exact ⟨_, rfl⟩

/-! ### The two sides together -/

/-- The stream has not got ahead of the provider: the marks it still expects are those the
provider left unanswered since the last answer and those it has not reached, and from the last
answer on it corrects by all the provider had added. -/
structure Exact (c : Connection) : Prop where
  expects : c.recovery.finalizeMarks = (waiting c.reached).map Finalize.markMs ++ c.pending
  behind : ∀ f ∈ c.reached, f.markMs ≤ c.heardMs
  heard : c.heardMs ≤ c.sentMs
  origin : c.recovery.connectionOriginMs ≤ c.recovery.nextAudioMs
  bounded : c.recovery.nextAudioMs ≤ u64Max
  lead : ∀ ms, (∀ f ∈ (settled c.reached).getLast?, f.markMs + addedIn (settled c.reached) ≤ ms) →
    c.recovery.leadAt ms = addedIn (settled c.reached)
  paired : ∀ f ∈ c.reached, f.answered → f.pairedMs = some f.markMs

namespace Exact

variable {c : Connection}

/-- The recovery state moved on, with the clock where it was. -/
theorem congr (h : Exact c) {r : StreamRecoveryState}
    (hmarks : r.finalizeMarks = c.recovery.finalizeMarks)
    (hlead : r.providerLead = c.recovery.providerLead)
    (horigin : r.connectionOriginMs = c.recovery.connectionOriginMs)
    (hnext : c.recovery.nextAudioMs ≤ r.nextAudioMs) (hbound : r.nextAudioMs ≤ u64Max) :
    Exact { c with recovery := r } where
  expects := hmarks.trans h.expects
  behind := h.behind
  heard := by
    have hheard := h.heard
    unfold Connection.sentMs at hheard ⊢
    dsimp only
    omega
  origin := by
    have horigins := h.origin
    dsimp only
    omega
  bounded := hbound
  lead ms hms := by
    unfold leadAt
    rw [hlead]
    exact h.lead ms hms
  paired := h.paired

/-- A finalize is sent. -/
theorem finalize (h : Exact c) :
    Exact { c with recovery := c.recovery.noteFinalizeSent,
                   pending := c.pending ++ [c.sentMs] } where
  expects := by
    change c.recovery.finalizeMarks ++ [c.sentMs] = _
    rw [h.expects, List.append_assoc]
  behind := h.behind
  heard := h.heard
  origin := h.origin
  bounded := h.bounded
  lead := h.lead
  paired := h.paired

/-- More audio is heard. -/
theorem hear (h : Exact c) {ms : ℕ} (hsent : c.heardMs + ms ≤ c.sentMs) :
    Exact { c with heardMs := c.heardMs + ms } where
  expects := h.expects
  behind f hf := (h.behind f hf).trans (Nat.le_add_right _ _)
  heard := hsent
  origin := h.origin
  bounded := h.bounded
  lead := h.lead
  paired := h.paired

/-- The correction in force at the provider's position. -/
theorem leadAt_total (h : Exact c) (addedMs : ℕ) :
    c.recovery.leadAt (c.totalMs + addedMs) = addedIn (settled c.reached) := by
  refine h.lead _ fun f hf => ?_
  have hmem : f ∈ c.reached := by
    rw [← settled_append_waiting c.reached]
    exact List.mem_append_left _ (List.mem_of_getLast? hf)
  have hbehind := h.behind f hmem
  have hadded := addedIn_eq c.reached
  unfold Connection.totalMs
  omega

/-- A finalize is reached and left unanswered. -/
theorem reachUnanswered (h : Exact c) {pending : List ℕ}
    (hpending : c.pending = c.heardMs :: pending) (addedMs : ℕ) :
    Exact { c with pending := pending,
                   reached := c.reached ++ [⟨c.heardMs, addedMs, false, none⟩] } where
  expects := by
    dsimp only
    rw [h.expects, hpending, waiting_snoc_unanswered rfl, List.map_append, List.append_assoc]
    rfl
  behind f hf := by
    rcases List.mem_append.1 hf with hf | hf
    · exact h.behind f hf
    · rw [List.mem_singleton.1 hf]
  heard := h.heard
  origin := h.origin
  bounded := h.bounded
  lead := by
    dsimp only
    rw [settled_snoc_unanswered rfl]
    exact h.lead
  paired f hf hanswered := by
    rcases List.mem_append.1 hf with hf | hf
    · exact h.paired f hf hanswered
    · rw [List.mem_singleton.1 hf] at hanswered
      exact absurd hanswered Bool.false_ne_true

/-- A finalize is reached and answered: it is the one the answer is taken for. -/
theorem dropUnanswered_total (h : Exact c) {pending : List ℕ}
    (hpending : c.pending = c.heardMs :: pending) {addedMs : ℕ}
    (hadded : addedIn (waiting c.reached) + addedMs ≤ finalizeAnswerStepMs)
    (hbefore : ∀ f ∈ waiting c.reached, f.markMs + finalizeAnswerStepMs < c.heardMs) :
    dropUnanswered (c.totalMs + addedMs - c.recovery.leadAt (c.totalMs + addedMs))
      c.recovery.finalizeMarks = c.heardMs :: pending := by
  have hsum := addedIn_eq c.reached
  rw [h.leadAt_total, h.expects, hpending]
  unfold Connection.totalMs
  refine dropUnanswered_eq (fun m hm => ?_) (by omega) (by omega)
  obtain ⟨f, hf, rfl⟩ := List.mem_map.1 hm
  exact hbefore f hf

/-- A finalize is reached and answered: from its answer on, the correction is all that was
added. -/
theorem reachAnswered (h : Exact c) {pending : List ℕ}
    (hpending : c.pending = c.heardMs :: pending) {addedMs : ℕ}
    (hadded : addedIn (waiting c.reached) + addedMs ≤ finalizeAnswerStepMs)
    (hbefore : ∀ f ∈ waiting c.reached, f.markMs + finalizeAnswerStepMs < c.heardMs) :
    Exact { c with
      recovery := c.recovery.noteFinalizeAnswered (c.totalMs + addedMs),
      pending := pending,
      reached := c.reached ++
        [⟨c.heardMs, addedMs, true, c.recovery.answeredMark (c.totalMs + addedMs)⟩] } := by
  have hdrop := h.dropUnanswered_total hpending hadded hbefore
  have hlead := h.leadAt_total addedMs
  have hsum := addedIn_eq c.reached
  have hall : addedIn (c.reached ++
      [⟨c.heardMs, addedMs, true, c.recovery.answeredMark (c.totalMs + addedMs)⟩]) =
      c.totalMs + addedMs - c.heardMs := by
    rw [addedIn_append]
    unfold Connection.totalMs
    change addedIn c.reached + addedMs = _
    omega
  obtain ⟨marks, lead, hclock⟩ := noteFinalizeAnswered_clock c.recovery (c.totalMs + addedMs)
  have hanswered := noteFinalizeAnswered_of_drop hdrop
  refine ⟨?_, fun f hf => ?_, ?_, ?_, ?_, fun ms hms => ?_, fun f hf hisAnswered => ?_⟩
  · dsimp only
    rw [waiting_snoc_answered rfl, hanswered]
    split <;> rfl
  · rcases List.mem_append.1 hf with hf | hf
    · exact h.behind f hf
    · rw [List.mem_singleton.1 hf]
  · unfold Connection.sentMs
    dsimp only
    rw [hclock]
    exact h.heard
  · dsimp only
    rw [hclock]
    exact h.origin
  · dsimp only
    rw [hclock]
    exact h.bounded
  · dsimp only at hms ⊢
    rw [settled_snoc_answered rfl] at hms ⊢
    have hfrom : c.totalMs + addedMs ≤ ms := by
      have hlast := hms _ (List.getLast?_concat ..)
      rw [hall] at hlast
      dsimp only at hlast
      unfold Connection.totalMs at hlast ⊢
      omega
    rw [hall, hanswered]
    split
    · exact leadAt_snoc rfl hfrom
    · -- nothing was added since the last answer, so its correction stays
      rename_i hnone
      have hsame : c.recovery.leadAt ms = addedIn (settled c.reached) := by
        refine h.lead ms fun f hf => ?_
        have hmem : f ∈ c.reached := by
          rw [← settled_append_waiting c.reached]
          exact List.mem_append_left _ (List.mem_of_getLast? hf)
        have hbehind := h.behind f hmem
        unfold Connection.totalMs at hfrom
        omega
      change c.recovery.leadAt ms = _
      rw [hsame]
      rw [hlead] at hnone
      unfold Connection.totalMs at hnone ⊢
      omega
  · rcases List.mem_append.1 hf with hf | hf
    · exact h.paired f hf hisAnswered
    · rw [List.mem_singleton.1 hf]
      unfold StreamRecoveryState.answeredMark
      rw [hdrop]
      rfl

/-- One step, when the finalizes it leaves behind are spaced. -/
theorem step (h : Exact c) {event : ConnectionEvent} {c' : Connection}
    (hstep : c.step event = some c') (hspaced : Spaced c'.reached) : Exact c' := by
  cases event with
  | send pcm =>
      obtain rfl := Option.some.inj hstep
      obtain ⟨frames, hsent⟩ := recordSent_clock c.recovery pcm
      rw [hsent]
      exact h.congr rfl rfl rfl (le_satAdd h.bounded) (satAdd_le _ _)
  | finalize =>
      dsimp only [Connection.step] at hstep
      split at hstep
      · obtain rfl := Option.some.inj hstep
        exact h.finalize
      · exact absurd hstep (by simp)
  | acknowledge providerTotalMs =>
      obtain rfl := Option.some.inj hstep
      exact h.congr rfl rfl rfl le_rfl h.bounded
  | hear ms =>
      dsimp only [Connection.step] at hstep
      split at hstep
      · rename_i hheard
        obtain rfl := Option.some.inj hstep
        exact h.hear hheard.1
      · exact absurd hstep (by simp)
  | reach addedMs answered =>
      dsimp only [Connection.step] at hstep
      split at hstep
      · exact absurd hstep (by simp)
      · rename_i mark pending hpending
        split at hstep
        · rename_i hmark
          subst hmark
          rcases answered with _ | _
          · obtain rfl := Option.some.inj hstep
            exact h.reachUnanswered hpending addedMs
          · obtain rfl := Option.some.inj hstep
            obtain ⟨hadded, hbefore⟩ := hspaced.last
            exact h.reachAnswered hpending hadded (hbefore rfl)
        · exact absurd hstep (by simp)

end Exact

/-- A step leaves the finalizes reached, or adds one. -/
theorem Connection.spaced_of_step {c c' : Connection} {event : ConnectionEvent}
    (hstep : c.step event = some c') (hspaced : Spaced c'.reached) : Spaced c.reached := by
  have hreached : c'.reached = c.reached ∨ ∃ f, c'.reached = c.reached ++ [f] := by
    unfold Connection.step at hstep
    grind
  rcases hreached with hreached | ⟨f, hreached⟩
  · rwa [hreached] at hspaced
  · rw [hreached] at hspaced
    exact hspaced.init

/-- Neither the origin of a connection nor the acknowledged point is past the end of the
timeline, and that is a position it can count. -/
structure Anchored (r : StreamRecoveryState) : Prop where
  origin : r.connectionOriginMs ≤ r.nextAudioMs
  acknowledged : r.acknowledgedMs ≤ r.nextAudioMs
  bounded : r.nextAudioMs ≤ u64Max

/-- Every operation keeps a lane anchored. -/
theorem Anchored.perform {r : StreamRecoveryState} (h : Anchored r) (op : RecoveryOp) :
    Anchored (r.perform op) := by
  have horigin := h.origin
  have hacknowledged := h.acknowledged
  cases op with
  | recordSent pcm =>
      obtain ⟨frames, hsent⟩ := recordSent_clock r pcm
      have hperform : r.perform (.recordSent pcm) = _ := hsent
      have hgrows := le_satAdd (b := durationMs pcm.length) h.bounded
      rw [hperform]
      exact ⟨horigin.trans hgrows, hacknowledged.trans hgrows, satAdd_le _ _⟩
  | noteDiscarded pcmLen =>
      have hgrows := le_satAdd (b := durationMs pcmLen) h.bounded
      exact ⟨horigin.trans hgrows, hacknowledged.trans hgrows, satAdd_le _ _⟩
  | acknowledge providerTotalMs =>
      exact ⟨horigin, max_le hacknowledged (min_le_right _ _), h.bounded⟩
  | noteFinalizeSent => exact ⟨horigin, hacknowledged, h.bounded⟩
  | noteFinalizeAnswered providerTotalMs =>
      obtain ⟨marks, lead, hclock⟩ := noteFinalizeAnswered_clock r providerTotalMs
      have hperform : r.perform (.noteFinalizeAnswered providerTotalMs) = _ := hclock
      rw [hperform]
      exact ⟨horigin, hacknowledged, h.bounded⟩
  | prepareReplay outage =>
      change Anchored (r.prepareReplay outage).1
      by_cases hlong : continuityWindow < outage
      · rw [prepareReplay_of_lt hlong]
        exact ⟨le_rfl, le_rfl, h.bounded⟩
      · rw [prepareReplay_of_le (not_lt.1 hlong)]
        exact ⟨(Nat.sub_le _ _).trans hacknowledged, hacknowledged, h.bounded⟩
  | reAnchorToLiveEdge => exact ⟨le_rfl, le_rfl, h.bounded⟩

/-- A lane is anchored after any operations. -/
theorem anchored_after {captureOriginMs : ℕ} (horigin : captureOriginMs ≤ u64Max)
    (ops : List RecoveryOp) : Anchored (after captureOriginMs ops) := by
  induction ops using List.reverseRecOn with
  | nil => exact ⟨le_rfl, le_rfl, horigin⟩
  | append_singleton ops op ih =>
      unfold after
      rw [List.foldl_append]
      exact ih.perform op

/-- **The finalize clock correction is exact.**  On any connection of a lane, in any run whose
unanswered finalizes are more than a step before the next answered one and whose time added
since an answer never exceeds a step: every answer is paired with its own finalize, and a
position the provider reaches after the last answer, before it adds more, is projected onto the
origin and exactly the audio heard. -/
theorem finalizes_paired_and_exact (captureOriginMs : ℕ) (horigin : captureOriginMs ≤ u64Max)
    (ops : List RecoveryOp) (events : List ConnectionEvent) (c : Connection)
    (hrun : run Connection.step (.opened (after captureOriginMs ops)) events = some c)
    (hspaced : Spaced c.reached) :
    (∀ f ∈ c.reached, f.answered → f.pairedMs = some f.markMs) ∧
      ∀ heardMs ≤ c.heardMs, (∀ f ∈ (settled c.reached).getLast?, f.markMs ≤ heardMs) →
        c.recovery.captureMs (heardMs + addedIn (settled c.reached)) =
          c.recovery.connectionOriginMs + heardMs := by
  have hanchored := anchored_after horigin ops
  have hexact : Spaced c.reached → Exact c := by
    refine run_induction (P := fun _ c => Spaced c.reached → Exact c) (fun _ => ?_) ?_ hrun
    · exact ⟨rfl, fun _ hf => absurd hf List.not_mem_nil, Nat.zero_le _, hanchored.origin,
        hanchored.bounded, fun _ _ => rfl, fun _ hf => absurd hf List.not_mem_nil⟩
    · intro _ c event c' _ ih hstep hspaced
      exact (ih (c.spaced_of_step hstep hspaced)).step hstep hspaced
  have h := hexact hspaced
  refine ⟨h.paired, fun heardMs hle hafter => ?_⟩
  have hlead : c.recovery.leadAt (heardMs + addedIn (settled c.reached)) =
      addedIn (settled c.reached) := by
    refine h.lead _ fun f hf => ?_
    have hmark := hafter f hf
    omega
  have hheard := h.heard
  have horigins := h.origin
  have hbounded := h.bounded
  unfold Connection.sentMs at hheard
  unfold StreamRecoveryState.captureMs
  rw [hlead, Nat.add_sub_cancel, satAdd_of_le]
  omega

/-- A connection with one finalize answered and one not. -/
def twoFinalizes : List ConnectionEvent :=
  [.send (List.replicate 32 0), .finalize, .hear 1, .reach 100 true, .send (List.replicate 64 0),
    .finalize, .hear 2, .reach 50 false]

/-- After the answer, position 103 is the third millisecond. -/
theorem twoFinalizes_exact :
    ∃ c, run Connection.step (.opened (after 0 [])) twoFinalizes = some c ∧
      (∀ f ∈ c.reached, f.answered → f.pairedMs = some f.markMs) ∧
      c.recovery.captureMs (3 + addedIn (settled c.reached)) =
        c.recovery.connectionOriginMs + 3 := by
  obtain ⟨c, hrun, hspaced, hheard, hlast⟩ :
      ∃ c, run Connection.step (.opened (after 0 [])) twoFinalizes = some c ∧ Spaced c.reached ∧
        3 ≤ c.heardMs ∧ ∀ f ∈ (settled c.reached).getLast?, f.markMs ≤ 3 := by
    have hsome : (run Connection.step (.opened (after 0 [])) twoFinalizes).any (fun c =>
        decide (Spaced c.reached) && decide (3 ≤ c.heardMs) &&
          (settled c.reached).getLast?.all fun f => f.markMs ≤ 3) = true := by decide +kernel
    obtain ⟨c, hrun, hc⟩ := (Option.any_eq_true _ _).1 hsome
    rw [Bool.and_eq_true_iff, Bool.and_eq_true_iff] at hc
    refine ⟨c, hrun, of_decide_eq_true hc.1.1, of_decide_eq_true hc.1.2, fun f hf => ?_⟩
    have hall := hc.2
    rw [Option.mem_def.1 hf] at hall
    exact of_decide_eq_true hall
  obtain ⟨hpaired, hexact⟩ :=
    finalizes_paired_and_exact 0 (Nat.zero_le _) [] twoFinalizes c hrun hspaced
  exact ⟨c, hrun, hpaired, hexact 3 hheard hlast⟩

end Stream
end ZuTalk
