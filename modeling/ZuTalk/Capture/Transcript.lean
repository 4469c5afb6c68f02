/-
# The assembler conserves the transcript

`transcriptConserved_iff`, for every sequence of calls to the assembler: the
committed source text of all rows is, in row order, the text of the final
source tokens in arrival order; a closing connection keeps every tail exactly
once; a row that was reported complete keeps its text; and a provider boundary
freezes rows with exactly their committed text if and only if no row with
committed text has a tail of its own identity.

Such a tail is frozen into its row although the connection is still live and
sends its words again, which then open the next row.
-/

import ZuTalk.Capture.Commits
import Mathlib.Data.List.Nodup

namespace ZuTalk
namespace Capture

open ZuTalk.Stream (SttStreamToken SttStreamTranslationStatus)
open RealtimeUtteranceAssembler

/-- The source words a row holds: its committed ones, and the tail when its
identity is the row's own. -/
def RealtimeSegmentRevision.heldSource (s : RealtimeSegmentRevision) : String :=
  if s.pendingSourceMatchesCommittedIdentity then s.source.committed ++ s.source.pending
  else s.source.committed

/-- The source text a row is reported with. -/
def RealtimeSegmentRevision.publishedSource (s : RealtimeSegmentRevision) : String :=
  if isPublishableText s.sourceText then s.sourceText else ""

theorem sourceText_eq (s : RealtimeSegmentRevision) :
    s.sourceText = normalizeProviderText s.heldSource := by
  unfold RealtimeSegmentRevision.sourceText LaneRevision.text RealtimeSegmentRevision.heldSource
  rfl

theorem heldSource_of_no_tail {s : RealtimeSegmentRevision} (h : s.source.pending = "") :
    s.heldSource = s.source.committed := by
  unfold RealtimeSegmentRevision.heldSource
  rw [h, String.append_empty, ite_self]

/-- A frozen row is reported with the same text as long as its committed text
is the same. -/
theorem Frozen.publishedSource_eq {s s' : RealtimeSegmentRevision} (h : s.Frozen) (h' : s'.Frozen)
    (hcommitted : s'.source.committed = s.source.committed) :
    s'.publishedSource = s.publishedSource := by
  unfold RealtimeSegmentRevision.publishedSource
  rw [sourceText_eq, sourceText_eq, heldSource_of_no_tail h.2, heldSource_of_no_tail h'.2,
    hcommitted]

/-! ### Calls -/

/-- A call to the assembler. -/
inductive Call
  | applyTokens (tokens : List SttStreamToken)
  | finalize (boundary : FinalizeBoundary)
  | takeDirtyUpdates
  | advance
  | recordPersisted (id : String) (revision : ℕ)
  | recordTranslationPersisted (id : String) (language : Option String)
  | relinquishInlineTranslationLane (id language : String)
  | recordPartialRemoved (id : String)
  | retireSourceSegment (id : String)
  deriving DecidableEq, Repr

/-- What the assembler has been given and has given back. -/
structure Transcript where
  assembler : RealtimeUtteranceAssembler
  /-- The rows it let go of. -/
  retired : List RealtimeSegmentRevision
  /-- The text of the final source tokens. -/
  received : List Char
  reported : List AssembledRealtimeUtterance
  deriving DecidableEq, Repr

namespace Transcript

/-- All rows, in order. -/
def rows (t : Transcript) : List RealtimeSegmentRevision := t.retired ++ t.assembler.segments

/-- The transcript of a new assembler. -/
def start (assembler : RealtimeUtteranceAssembler) : Transcript := ⟨assembler, [], [], []⟩

/-- The transcript after a call that reports updates. -/
def report (t : Transcript)
    (result : RealtimeUtteranceAssembler × List AssembledRealtimeUtterance) : Transcript :=
  { t with assembler := result.1, reported := t.reported ++ result.2 }

variable (isAlphabetic : Char → Bool)

/-- The transcript after a call. -/
def call (t : Transcript) : Call → Transcript
  | .applyTokens tokens =>
      { t.report (t.assembler.applyTokens isAlphabetic tokens) with
        received := t.received ++ finalSourceChars tokens }
  | .finalize boundary => t.report (t.assembler.finalize boundary)
  | .takeDirtyUpdates => t.report t.assembler.takeDirtyUpdates
  | .advance => { t with assembler := t.assembler.advance, retired := t.rows }
  | .recordPersisted id revision =>
      { t with assembler := t.assembler.recordPersisted id revision }
  | .recordTranslationPersisted id language =>
      { t with assembler := t.assembler.recordTranslationPersisted id language }
  | .relinquishInlineTranslationLane id language =>
      { t with assembler := t.assembler.relinquishInlineTranslationLane id language }
  | .recordPartialRemoved id => { t with assembler := t.assembler.recordPartialRemoved id }
  | .retireSourceSegment id => { t with assembler := t.assembler.retireSourceSegment id }

/-- The transcript after calls, one after the other. -/
def after (t : Transcript) (calls : List Call) : Transcript := calls.foldl (call isAlphabetic) t

end Transcript

/-! ### The law -/

/-- An update says that its row is complete. -/
def AssembledRealtimeUtterance.Settles (u : AssembledRealtimeUtterance) : Prop :=
  u.utterance.completion = .complete

/-- **What is to be conserved.** -/
structure TranscriptConserved (t : Transcript) : Prop where
  /-- Nothing committed is lost, doubled or moved. -/
  committed : committedChars t.rows = t.received
  /-- A provider boundary freezes rows with exactly their committed text. -/
  boundary : ∀ s ∈ (t.assembler.finalize .providerBoundary).1.segments,
    s.heldSource = s.source.committed
  /-- A closing connection keeps every word once: a row keeps what it holds, and
  a tail that is not its row's becomes a row. -/
  closing : (t.assembler.finalize .connectionClosing).1.segments.map (·.heldSource) =
    t.assembler.segments.map (·.heldSource) ++
      (t.assembler.segments.filter hasDetachedTail).map (·.source.pending)
  /-- Every row that holds source words is complete at either boundary. -/
  frozen : ∀ boundary, ∀ s ∈ (t.assembler.finalize boundary).1.segments,
    s.heldSource ≠ "" → s.complete = true
  /-- No two rows have the same number. -/
  numbered : t.rows.Pairwise (·.sequence < ·.sequence)
  /-- A row that was reported complete has the text it was reported with. -/
  settled : ∀ u ∈ t.reported, u.Settles →
    ∃ s ∈ t.rows, s.sequence = u.utterance.sequence ∧ s.publishedSource = u.utterance.sourceText
  /-- Nor is it ever reported with another one. -/
  reports : t.reported.Pairwise fun u v =>
    u.Settles → v.utterance.sequence = u.utterance.sequence →
      v.utterance.sourceText = u.utterance.sourceText

/-! ### Rows that were reported -/

/-- What the rows keep: their numbers grow, and a row that was reported complete
is frozen with the text it was reported with. -/
structure Kept (retired : List RealtimeSegmentRevision)
    (reported : List AssembledRealtimeUtterance) (a : RealtimeUtteranceAssembler) : Prop where
  numbered : (retired ++ a.segments).Pairwise (·.sequence < ·.sequence)
  below : ∀ s ∈ retired ++ a.segments, s.sequence < a.nextSequence
  settled : ∀ u ∈ reported, u.Settles → ∃ s ∈ retired ++ a.segments, s.Frozen ∧
    s.sequence = u.utterance.sequence ∧ s.publishedSource = u.utterance.sourceText

section Kept

variable {retired : List RealtimeSegmentRevision} {reported : List AssembledRealtimeUtterance}
  {a a' : RealtimeUtteranceAssembler}

theorem Kept.move (h : Kept retired reported a) (hmove : RowMove a a') :
    Kept retired reported a' := by
  cases hmove with
  | edit rows next =>
      have hrows : List.Forall₂ Keeps (retired ++ a.segments) (retired ++ a'.segments) :=
        List.rel_append (List.forall₂_same.2 fun s _ => Keeps.refl s) rows
      refine ⟨?_, ?_, fun u hu hsettles => ?_⟩
      · have hnumbers := Rows.forall₂_map_eq (fun _ _ hk => Keeps.sequence hk) hrows
        have hnumbered := h.numbered
        rw [← List.pairwise_map (R := (· < ·))] at hnumbered ⊢
        rwa [hnumbers]
      · rw [next]
        exact Rows.forall₂_all (fun _ _ hk hs => hk.sequence.trans_lt hs) hrows h.below
      · obtain ⟨s, hs, hfrozen, hsequence, htext⟩ := h.settled u hu hsettles
        obtain ⟨s', hs', hk⟩ := Rows.forall₂_exists hrows hs
        obtain ⟨hfrozen', hcommitted⟩ := hk.frozen hfrozen
        exact ⟨s', hs', hfrozen', hk.sequence.trans hsequence,
          (Frozen.publishedSource_eq hfrozen hfrozen' hcommitted).trans htext⟩
  | create s rows number next =>
      have hrows : retired ++ a'.segments = (retired ++ a.segments) ++ [s] := by
        rw [rows, List.append_assoc]
      refine ⟨?_, ?_, fun u hu hsettles => ?_⟩
      · rw [hrows, List.pairwise_append]
        refine ⟨h.numbered, List.pairwise_singleton .., fun r hr r' hr' => ?_⟩
        rw [List.mem_singleton.1 hr', number]
        exact h.below r hr
      · rw [hrows, next]
        intro r hr
        rcases List.mem_append.1 hr with hr | hr
        · exact (h.below r hr).trans (Nat.lt_succ_self _)
        · rw [List.mem_singleton.1 hr, number]
          exact Nat.lt_succ_self _
      · obtain ⟨r, hr, hr'⟩ := h.settled u hu hsettles
        rw [hrows]
        exact ⟨r, List.mem_append_left _ hr, hr'⟩

/-- **No change to the rows touches what was reported.** -/
theorem Kept.moves (h : Kept retired reported a) (hmoves : RowMoves a a') :
    Kept retired reported a' := by
  induction hmoves with
  | refl => exact h
  | tail _ hmove ih => exact ih.move hmove

/-- Rows with the same number are the same. -/
theorem Kept.eq_of_sequence (h : Kept retired reported a) {s r : RealtimeSegmentRevision}
    (hs : s ∈ retired ++ a.segments) (hr : r ∈ retired ++ a.segments)
    (hsequence : s.sequence = r.sequence) : s = r := by
  have hnodup : ((retired ++ a.segments).map (·.sequence)).Nodup := by
    rw [List.Nodup, List.pairwise_map]
    exact h.numbered.imp fun hlt => ne_of_lt hlt
  exact List.inj_on_of_nodup_map hnodup hs hr hsequence

/-- The marks of a row are not part of its text. -/
theorem publishedSource_unmarked (s : RealtimeSegmentRevision) (sourceDirty translationDirty : Bool) :
    RealtimeSegmentRevision.publishedSource { s with
      sourceDirty := sourceDirty
      translationDirty := translationDirty } = s.publishedSource := by
  unfold RealtimeSegmentRevision.publishedSource
  rw [sourceText_eq, sourceText_eq]
  rfl

theorem assembleSegment_sourceText (p : AssemblerProfile) (s : RealtimeSegmentRevision)
    (sourceDirty translationDirty : Bool) :
    (assembleSegment p s sourceDirty translationDirty).utterance.sourceText =
      s.publishedSource := by
  unfold assembleSegment RealtimeSegmentRevision.publishedSource
  rfl

theorem assembleSegment_settles {p : AssemblerProfile} {s : RealtimeSegmentRevision}
    {sourceDirty translationDirty : Bool}
    (h : (assembleSegment p s sourceDirty translationDirty).Settles) : s.Frozen := by
  unfold AssembledRealtimeUtterance.Settles assembleSegment at h
  dsimp only at h
  split at h
  · rename_i hfrozen
    simp only [Bool.and_eq_true, decide_eq_true_eq] at hfrozen
    exact ⟨hfrozen.1.1, hfrozen.2⟩
  · cases h

/-- What an update tells about its row. -/
theorem report_eq {p : AssemblerProfile} {s : RealtimeSegmentRevision}
    {u : AssembledRealtimeUtterance} (h : RealtimeUtteranceAssembler.report p s = some u) :
    u.utterance.sequence = s.sequence ∧ u.utterance.sourceText = s.publishedSource ∧
      (u.Settles → s.Frozen) := by
  unfold RealtimeUtteranceAssembler.report at h
  split at h
  · cases h
  · split at h
    · cases h
    · split at h
      · cases h
      · obtain rfl := Option.some.inj h
        exact ⟨rfl, by rw [assembleSegment_sourceText, publishedSource_unmarked],
          fun hsettles => assembleSegment_settles hsettles⟩

end Kept

/-! ### The run -/

/-- **The invariant of a transcript.** -/
structure Transcript.Inv (t : Transcript) : Prop where
  ordered : Ordered t.assembler
  committed : committedChars t.rows = t.received
  kept : Kept t.retired t.reported t.assembler
  reports : t.reported.Pairwise fun u v =>
    u.Settles → v.utterance.sequence = u.utterance.sequence →
      v.utterance.sourceText = u.utterance.sourceText

namespace Transcript

variable {t : Transcript}

/-- A step of the assembler. -/
theorem Inv.commits (h : t.Inv) {chars : List Char} {a : RealtimeUtteranceAssembler}
    (hcommits : Commits chars t.assembler a) :
    Inv { t with assembler := a, received := t.received ++ chars } := by
  obtain ⟨hordered, hchars, hmoves⟩ := hcommits h.ordered
  refine ⟨hordered, ?_, h.kept.moves hmoves, h.reports⟩
  have hcommitted := h.committed
  unfold rows at hcommitted ⊢
  rw [committedChars_append] at hcommitted ⊢
  rw [hchars, ← List.append_assoc, hcommitted]

/-- A step that commits nothing. -/
theorem Inv.quiet (h : t.Inv) {a : RealtimeUtteranceAssembler}
    (hcommits : Commits [] t.assembler a) : Inv { t with assembler := a } := by
  have hinv := h.commits hcommits
  rwa [List.append_nil] at hinv

/-- The updates of the dirty rows. -/
theorem Inv.report (h : t.Inv) : (t.report t.assembler.takeDirtyUpdates).Inv := by
  have hupdate : ∀ u ∈ t.assembler.segments.filterMap
      (RealtimeUtteranceAssembler.report t.assembler.profile),
      ∃ s ∈ t.retired ++ t.assembler.segments, s.sequence = u.utterance.sequence ∧
        s.publishedSource = u.utterance.sourceText ∧ (u.Settles → s.Frozen) := by
    intro u hu
    obtain ⟨s, hs, hreport⟩ := List.mem_filterMap.1 hu
    obtain ⟨hsequence, htext, hfrozen⟩ := report_eq hreport
    exact ⟨s, List.mem_append_right _ hs, hsequence.symm, htext.symm, hfrozen⟩
  have hinv : Inv { t with reported := t.reported ++ t.assembler.takeDirtyUpdates.2 } := by
    refine ⟨h.ordered, h.committed, ⟨h.kept.numbered, h.kept.below, fun u hu hsettles => ?_⟩, ?_⟩
    · rcases List.mem_append.1 hu with hu | hu
      · exact h.kept.settled u hu hsettles
      · obtain ⟨s, hs, hsequence, htext, hfrozen⟩ := hupdate u hu
        exact ⟨s, hs, hfrozen hsettles, hsequence, htext⟩
    · refine List.pairwise_append.2 ⟨h.reports, ?_, fun u hu v hv hsettles hsequence => ?_⟩
      · -- two updates of one batch are of different rows
        refine List.pairwise_filterMap.2 ?_
        refine (List.pairwise_append.1 h.kept.numbered).2.1.imp fun {s r} hlt u hu v hv _ heq => ?_
        rw [(report_eq hu).1, (report_eq hv).1] at heq
        exact absurd heq (ne_of_gt hlt)
      · -- the row of an earlier update is frozen
        obtain ⟨s, hs, -, hnumber, htext⟩ := h.kept.settled u hu hsettles
        obtain ⟨r, hr, hnumber', htext', -⟩ := hupdate v hv
        obtain rfl : r = s :=
          h.kept.eq_of_sequence hr hs ((hnumber'.trans hsequence).trans hnumber.symm)
        exact htext'.symm.trans htext
  exact hinv.quiet (takeDirtyUpdates_commits t.assembler)

theorem Inv.start {a : RealtimeUtteranceAssembler} (h : a.segments = [])
    (hlatest : a.latestOriginalSegment = none) : (start a).Inv := by
  have hrows : (Transcript.start a).rows = [] := h
  refine ⟨⟨?_, ?_⟩, ?_, ⟨?_, ?_, fun u hu => ?_⟩, .nil⟩
  · change Cursor a.segments a.latestOriginalSegment
    rw [h, hlatest]
    exact fun s hs => by cases hs
  · change ∀ s ∈ a.segments, s.RunInside
    rw [h]
    exact fun s hs => by cases hs
  · rw [hrows]
    rfl
  · change (Transcript.start a).rows.Pairwise _
    rw [hrows]
    exact .nil
  · change ∀ s ∈ (Transcript.start a).rows, _
    rw [hrows]
    exact fun s hs => by cases hs
  · cases hu

/-- `advance` only moves the rows. -/
theorem Inv.advance (h : t.Inv) :
    Inv { t with assembler := t.assembler.advance, retired := t.rows } := by
  have hrows : t.rows ++ t.assembler.advance.segments = t.rows := List.append_nil _
  refine ⟨⟨fun s hs => (List.not_mem_nil hs).elim, fun s hs => (List.not_mem_nil hs).elim⟩, ?_,
    ⟨?_, ?_, ?_⟩, h.reports⟩
  · exact (congrArg committedChars hrows).trans h.committed
  · rw [hrows]
    exact h.kept.numbered
  · rw [hrows]
    exact h.kept.below
  · rw [hrows]
    exact h.kept.settled

/-- **Every call keeps the invariant.** -/
theorem Inv.call (isAlphabetic : Char → Bool) (h : t.Inv) (c : Call) :
    (t.call isAlphabetic c).Inv := by
  cases c with
  | applyTokens tokens =>
      exact (h.commits (applyResponse_commits isAlphabetic t.assembler tokens)).report
  | finalize boundary => exact (h.quiet (close_commits t.assembler boundary)).report
  | takeDirtyUpdates => exact h.report
  | advance => exact h.advance
  | recordPersisted id _ | recordTranslationPersisted id _ | recordPartialRemoved id =>
      exact h.quiet (modifyById_commits _ _ fun _ => ⟨rfl, rfl, rfl, fun h => h, fun h => h⟩)
  | relinquishInlineTranslationLane id language =>
      refine h.quiet (modifyById_commits _ _ fun s => ?_)
      split
      · exact ⟨rfl, rfl, rfl, fun h => h, fun h => h⟩
      · exact .refl s
  | retireSourceSegment id => exact h.quiet (retireSourceSegment_commits _ _)

theorem Inv.after (isAlphabetic : Char → Bool) (h : t.Inv) (calls : List Call) :
    (t.after isAlphabetic calls).Inv := by
  unfold Transcript.after
  induction calls generalizing t with
  | nil => exact h
  | cons c calls ih => exact ih (h.call isAlphabetic c)

end Transcript

/-! ### The boundaries -/

section Boundaries

variable {a : RealtimeUtteranceAssembler}

theorem heldSource_completeSegment (s : RealtimeSegmentRevision) :
    (completeSegment s).heldSource = s.heldSource := by
  unfold completeSegment
  split <;> rfl

/-- A row holds what it held without a tail that is not its own. -/
theorem heldSource_detachTail (s : RealtimeSegmentRevision) :
    (detachTail s).heldSource = s.heldSource := by
  unfold detachTail
  split
  · rename_i hdetached
    have hforeign : s.pendingSourceMatchesCommittedIdentity = false := by
      simp only [hasDetachedTail, Bool.and_eq_true, Bool.not_eq_true'] at hdetached
      exact hdetached.2
    rw [heldSource_of_no_tail rfl, RealtimeSegmentRevision.heldSource, hforeign]
    rfl
  · rfl

/-- A detached tail becomes a row that holds exactly its words. -/
theorem heldSource_tailRow (s : RealtimeSegmentRevision) (sessionId : String) (sequence : ℕ) :
    (tailRow s (.new sessionId sequence)).heldSource = s.source.pending := by
  have hown : (tailRow s (.new sessionId sequence)).pendingSourceMatchesCommittedIdentity =
    true := rfl
  rw [RealtimeSegmentRevision.heldSource, hown]
  exact String.empty_append

theorem keepTails_heldSource (tails : List RealtimeSegmentRevision)
    (a : RealtimeUtteranceAssembler) :
    (tails.foldl keepTail a).segments.map (·.heldSource) =
      a.segments.map (·.heldSource) ++ tails.map (·.source.pending) := by
  induction tails generalizing a with
  | nil => simp
  | cons tail tails ih =>
      rw [List.foldl_cons, ih, keepTail_segments, List.map_append, List.map_singleton,
        heldSource_tailRow, List.map_cons, List.append_assoc, List.singleton_append]

/-- What a row holds after `discard_speculation_past_the_boundary` is its
committed text exactly if it has no tail of its own after committed text. -/
theorem heldSource_discardSpeculation_iff (s : RealtimeSegmentRevision) :
    (discardSpeculation s).heldSource = s.source.committed ↔
      (s.source.committed ≠ "" → s.source.pending ≠ "" →
        s.pendingSourceMatchesCommittedIdentity = false) := by
  unfold discardSpeculation
  by_cases hcommitted : s.source.committed = ""
  · by_cases hpending : s.source.pending = ""
    · simp [hpending, heldSource_of_no_tail hpending]
    · simp only [hcommitted, ne_eq, not_true_eq_false, hpending, false_implies, iff_true]
      rw [heldSource_of_no_tail rfl]
      exact hcommitted
  · rw [if_pos (by simp [hcommitted])]
    unfold RealtimeSegmentRevision.heldSource
    cases s.pendingSourceMatchesCommittedIdentity with
    | false => simp
    | true => simp [hcommitted]

theorem finalize_segments (a : RealtimeUtteranceAssembler) (boundary : FinalizeBoundary) :
    (a.finalize boundary).1.segments.map (·.heldSource) =
      (a.close boundary).segments.map (·.heldSource) := by
  unfold finalize takeDirtyUpdates
  rw [List.map_map]
  rfl

/-- **A closing connection keeps every word once.** -/
theorem finalize_connectionClosing (a : RealtimeUtteranceAssembler) :
    (a.finalize .connectionClosing).1.segments.map (·.heldSource) =
      a.segments.map (·.heldSource) ++
        (a.segments.filter hasDetachedTail).map (·.source.pending) := by
  have hcomplete : ∀ l : List RealtimeSegmentRevision,
      (l.map completeSegment).map (·.heldSource) = l.map (·.heldSource) := fun l => by
    rw [List.map_map]
    exact List.map_congr_left fun s _ => heldSource_completeSegment s
  have hdetach : (a.segments.map detachTail).map (·.heldSource) =
      a.segments.map (·.heldSource) := by
    rw [List.map_map]
    exact List.map_congr_left fun s _ => heldSource_detachTail s
  rw [finalize_segments, ← hdetach]
  exact (hcomplete _).trans (keepTails_heldSource _ _)

/-- **A provider boundary** freezes rows with exactly their committed text if and
only if no row with committed text has a tail of its own. -/
theorem finalize_providerBoundary_iff (a : RealtimeUtteranceAssembler) :
    (∀ s ∈ (a.finalize .providerBoundary).1.segments, s.heldSource = s.source.committed) ↔
      ∀ s ∈ a.segments, s.source.committed ≠ "" → s.source.pending ≠ "" →
        s.pendingSourceMatchesCommittedIdentity = false := by
  have hsegments : (a.finalize .providerBoundary).1.segments = a.segments.map fun s =>
      { completeSegment (detachTail (discardSpeculation s)) with
        sourceDirty := false
        translationDirty := false } := by
    unfold finalize takeDirtyUpdates close
    simp only [if_true, List.map_map]
    rfl
  rw [hsegments, List.forall_mem_map]
  refine forall₂_congr fun s _ => ?_
  rw [← heldSource_discardSpeculation_iff s, ← heldSource_detachTail (discardSpeculation s),
    ← heldSource_completeSegment (detachTail (discardSpeculation s)),
    ← (((Quiet.discardSpeculation s).trans (Quiet.detachTail _)).trans
      (Quiet.completeSegment _)).committed]
  rfl

/-- Whatever holds source words is complete after `finalize`. -/
theorem finalize_frozen (a : RealtimeUtteranceAssembler) (boundary : FinalizeBoundary) :
    ∀ s ∈ (a.finalize boundary).1.segments, s.heldSource ≠ "" → s.complete = true := by
  have hcomplete : ∀ s, (completeSegment s).heldSource ≠ "" →
      (completeSegment s).complete = true := by
    intro s hs
    rw [heldSource_completeSegment] at hs
    have hfull : s.isEmpty = false := by
      refine Bool.eq_false_iff.2 fun hempty => hs ?_
      simp only [RealtimeSegmentRevision.isEmpty, LaneRevision.isEmpty, Bool.and_eq_true,
        decide_eq_true_eq] at hempty
      rw [heldSource_of_no_tail hempty.1.2, hempty.1.1]
    unfold completeSegment
    rw [hfull]
    cases hc : s.complete with
    | false => rfl
    | true => exact hc
  intro s hs hheld
  obtain ⟨r, hr, rfl⟩ := List.mem_map.1 hs
  obtain ⟨q, -, rfl⟩ := List.mem_map.1 hr
  exact hcomplete q hheld

end Boundaries

/-- **The assembler conserves the transcript, for every sequence of calls, but for
the tails of a row's own identity that a provider boundary freezes into it.** -/
theorem transcriptConserved_iff (isAlphabetic : Char → Bool) (sessionId : String)
    (selectedLanguages : List String) (captureMode : CaptureMode)
    (commonCaptionLanguage : Option String) (nextSequence : ℕ) (calls : List Call) :
    TranscriptConserved ((Transcript.start (.new sessionId selectedLanguages captureMode
      commonCaptionLanguage nextSequence)).after isAlphabetic calls) ↔
      ∀ s ∈ ((Transcript.start (.new sessionId selectedLanguages captureMode
        commonCaptionLanguage nextSequence)).after isAlphabetic calls).assembler.segments,
        s.source.committed ≠ "" → s.source.pending ≠ "" →
          s.pendingSourceMatchesCommittedIdentity = false := by
  have hinv : ((Transcript.start (.new sessionId selectedLanguages captureMode
      commonCaptionLanguage nextSequence)).after isAlphabetic calls).Inv :=
    (Transcript.Inv.start rfl rfl).after isAlphabetic calls
  generalize (Transcript.start (.new sessionId selectedLanguages captureMode
    commonCaptionLanguage nextSequence)).after isAlphabetic calls = t at hinv ⊢
  rw [← finalize_providerBoundary_iff]
  refine ⟨fun h => h.boundary, fun hboundary => ?_⟩
  refine ⟨hinv.committed, hboundary, finalize_connectionClosing t.assembler,
    finalize_frozen t.assembler, hinv.kept.numbered, fun u hu hsettles => ?_, hinv.reports⟩
  obtain ⟨s, hs, -, hsequence, htext⟩ := hinv.kept.settled u hu hsettles
  exact ⟨s, hs, hsequence, htext⟩

/-- A word the provider still speculates about is frozen into the row of the words
before it, and its final opens the next row with it again. -/
theorem transcript_not_conserved :
    let token (text : String) (isFinal : Bool) : SttStreamToken :=
      ⟨text, none, none, isFinal, .original, some "en", none, some "1"⟩
    let t := Transcript.start (.new "s" ["en", "th"] .twoWay none 1)
    let heard := [Call.applyTokens [token "Good" true, token " morning" false]]
    ¬ TranscriptConserved (t.after Char.isAlpha heard) ∧
      (t.after Char.isAlpha (heard ++ [.finalize .providerBoundary, .advance,
        .applyTokens [token " morning" true]])).rows.map (·.heldSource) =
          ["Good morning", " morning"] := by
  refine ⟨fun h => ?_, by decide +kernel⟩
  have hboundary := h.boundary
  revert hboundary
  decide +kernel

end Capture
end ZuTalk
