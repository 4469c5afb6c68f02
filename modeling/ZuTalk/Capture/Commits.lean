/-
# What a call to the assembler commits

`Commits chars a a'`: the call that takes the assembler from `a` to `a'` commits
the characters `chars`, after everything committed before.  A response commits
the text of its final source tokens, every other call nothing.

`Ordered` is the invariant behind it: the open row is the one final tokens go
to, and nothing after it has been committed.  `Quiet` is what every other step
does to a row, and `RowMoves` what any step does to the rows as a whole: a row
keeps its number, and a complete row without a tail its text.
-/

import ZuTalk.Capture.Assembler
import ZuTalk.Library.Rows
import Mathlib.Logic.Relation

namespace ZuTalk
namespace Capture

open ZuTalk.Stream (SttStreamToken SttStreamTranslationStatus)
open RealtimeUtteranceAssembler

/-- The committed source text of a row, as characters. -/
def RealtimeSegmentRevision.committedChars (s : RealtimeSegmentRevision) : List Char :=
  s.source.committed.toList

/-- The committed source text of rows, one after the other. -/
def committedChars (rows : List RealtimeSegmentRevision) : List Char :=
  rows.flatMap (·.committedChars)

@[simp] theorem committedChars_append (l l' : List RealtimeSegmentRevision) :
    committedChars (l ++ l') = committedChars l ++ committedChars l' := List.flatMap_append

@[simp] theorem committedChars_cons (s : RealtimeSegmentRevision)
    (l : List RealtimeSegmentRevision) :
    committedChars (s :: l) = s.committedChars ++ committedChars l := rfl

@[simp] theorem committedChars_nil : committedChars [] = [] := rfl

/-- Nothing more is written to the source of this row. -/
def RealtimeSegmentRevision.Frozen (s : RealtimeSegmentRevision) : Prop :=
  s.complete = true ∧ s.source.pending = ""

/-- The embedded run of a row begins at a character of its committed text. -/
def RealtimeSegmentRevision.RunInside (s : RealtimeSegmentRevision) : Prop :=
  ∀ run ∈ s.embeddedRun, ∃ head tail,
    s.committedChars = head ++ tail ∧ run.byteOffset = Text.byteLen head

/-! ### Steps that leave the committed text alone -/

/-- A step that commits nothing: it may complete a row and forget its tail, but
does not reopen it or give a row without a tail one. -/
structure Quiet (s s' : RealtimeSegmentRevision) : Prop where
  sequence : s'.sequence = s.sequence
  committed : s'.source.committed = s.source.committed
  embeddedRun : s'.embeddedRun = s.embeddedRun
  complete : s.complete = true → s'.complete = true
  pending : s.source.pending = "" → s'.source.pending = ""

namespace Quiet

theorem refl (s : RealtimeSegmentRevision) : Quiet s s := ⟨rfl, rfl, rfl, id, id⟩

theorem trans {s s' s'' : RealtimeSegmentRevision} (h : Quiet s s') (h' : Quiet s' s'') :
    Quiet s s'' where
  sequence := h'.sequence.trans h.sequence
  committed := h'.committed.trans h.committed
  embeddedRun := h'.embeddedRun.trans h.embeddedRun
  complete := h'.complete ∘ h.complete
  pending := h'.pending ∘ h.pending

theorem beginResponseRevision (s : RealtimeSegmentRevision) : Quiet s s.beginResponseRevision :=
  ⟨rfl, rfl, rfl, id, fun _ => rfl⟩

theorem discardSpeculation (s : RealtimeSegmentRevision) :
    Quiet s (RealtimeUtteranceAssembler.discardSpeculation s) := by
  unfold RealtimeUtteranceAssembler.discardSpeculation
  split
  · exact refl s
  · exact ⟨rfl, rfl, rfl, id, fun _ => rfl⟩

theorem detachTail (s : RealtimeSegmentRevision) :
    Quiet s (RealtimeUtteranceAssembler.detachTail s) := by
  unfold RealtimeUtteranceAssembler.detachTail
  split
  · exact ⟨rfl, rfl, rfl, id, fun _ => rfl⟩
  · exact refl s

theorem completeSegment (s : RealtimeSegmentRevision) :
    Quiet s (RealtimeUtteranceAssembler.completeSegment s) := by
  unfold RealtimeUtteranceAssembler.completeSegment
  split
  · exact ⟨rfl, rfl, rfl, fun _ => rfl, id⟩
  · exact refl s

theorem pushTranslation (token : SttStreamToken) (sourceLanguage speaker : Option String)
    (s : RealtimeSegmentRevision) :
    Quiet s (RealtimeUtteranceAssembler.pushTranslation token sourceLanguage speaker s) := by
  unfold RealtimeUtteranceAssembler.pushTranslation
  cases sourceLanguage <;> cases speaker <;> cases token.isFinal <;>
    exact ⟨rfl, rfl, rfl, id, id⟩

end Quiet

/-! ### The open row -/

/-- Where final source tokens go: the rows before the cursor are complete, the
ones after it are complete and have nothing committed. -/
def Cursor (rows : List RealtimeSegmentRevision) : Option ℕ → Prop
  | none => ∀ s ∈ rows, s.complete = true
  | some i => ∃ pre row post, rows = pre ++ row :: post ∧ pre.length = i ∧
      (∀ s ∈ pre, s.complete = true) ∧ ∀ s ∈ post, s.complete = true ∧ s.source.committed = ""

/-- The row at `i` is open, and a final token pushed there comes last. -/
def OpenAt (rows : List RealtimeSegmentRevision) (i : ℕ) : Prop :=
  ∃ pre row post, rows = pre ++ row :: post ∧ pre.length = i ∧ (∀ s ∈ pre, s.complete = true) ∧
    row.complete = false ∧ ∀ s ∈ post, s.complete = true ∧ s.source.committed = ""

/-- **The invariant of the rows.** -/
structure Ordered (a : RealtimeUtteranceAssembler) : Prop where
  cursor : Cursor a.segments a.latestOriginalSegment
  runs : ∀ s ∈ a.segments, s.RunInside

theorem Quiet.committedChars_eq {l l' : List RealtimeSegmentRevision}
    (h : List.Forall₂ Quiet l l') : committedChars l' = committedChars l := by
  unfold committedChars
  rw [List.flatMap_def, List.flatMap_def]
  refine congrArg List.flatten (Rows.forall₂_map_eq (fun s s' hq => ?_) h)
  rw [RealtimeSegmentRevision.committedChars, hq.committed]
  rfl

theorem Quiet.runInside {s s' : RealtimeSegmentRevision} (h : Quiet s s') (hs : s.RunInside) :
    s'.RunInside := by
  intro run hrun
  rw [h.embeddedRun] at hrun
  obtain ⟨head, tail, heq, hoffset⟩ := hs run hrun
  exact ⟨head, tail, by rw [RealtimeSegmentRevision.committedChars, h.committed]; exact heq, hoffset⟩

/-- Quiet steps do not move the cursor. -/
theorem Cursor.quiet {l l' : List RealtimeSegmentRevision} {cursor : Option ℕ}
    (h : Cursor l cursor) (hq : List.Forall₂ Quiet l l') : Cursor l' cursor := by
  cases cursor with
  | none => exact Rows.forall₂_all (fun _ _ hq => hq.complete) hq h
  | some i =>
      obtain ⟨pre, row, post, rfl, hlen, hpre, hpost⟩ := h
      obtain ⟨pre', rest', hqpre, hqrest, rfl⟩ := Rows.forall₂_append_left hq
      obtain ⟨row', post', -, hqpost, rfl⟩ := List.forall₂_cons_left_iff.1 hqrest
      refine ⟨pre', row', post', rfl, hqpre.length_eq.symm.trans hlen,
        Rows.forall₂_all (fun _ _ hq => hq.complete) hqpre hpre, ?_⟩
      exact Rows.forall₂_all (fun _ _ hq hs => ⟨hq.complete hs.1, hq.committed.trans hs.2⟩)
        hqpost hpost

/-- **Quiet steps keep the rows ordered.** -/
theorem Ordered.quiet {a a' : RealtimeUtteranceAssembler} (h : Ordered a)
    (hq : List.Forall₂ Quiet a.segments a'.segments)
    (hcursor : a'.latestOriginalSegment = a.latestOriginalSegment) : Ordered a' where
  cursor := hcursor ▸ h.cursor.quiet hq
  runs := Rows.forall₂_all (fun _ _ hq => hq.runInside) hq h.runs

/-! ### Rows are numbered and never rewritten -/

/-- A step keeps the number of a row, and a frozen row as it is. -/
structure Keeps (s s' : RealtimeSegmentRevision) : Prop where
  sequence : s'.sequence = s.sequence
  frozen : s.Frozen → s'.Frozen ∧ s'.source.committed = s.source.committed

theorem Keeps.refl (s : RealtimeSegmentRevision) : Keeps s s := ⟨rfl, fun h => ⟨h, rfl⟩⟩

theorem Quiet.keeps {s s' : RealtimeSegmentRevision} (h : Quiet s s') : Keeps s s' :=
  ⟨h.sequence, fun hs => ⟨⟨h.complete hs.1, h.pending hs.2⟩, h.committed⟩⟩

/-- An open row may change. -/
theorem Keeps.of_open {s s' : RealtimeSegmentRevision} (hs : s.complete = false)
    (h : s'.sequence = s.sequence) : Keeps s s' :=
  ⟨h, fun hf => absurd (hf.1.symm.trans hs) (by decide)⟩

/-- One change to the rows of an assembler: rows are edited, or the next one is
created. -/
inductive RowMove (a a' : RealtimeUtteranceAssembler) : Prop
  | edit (rows : List.Forall₂ Keeps a.segments a'.segments)
      (next : a'.nextSequence = a.nextSequence)
  | create (s : RealtimeSegmentRevision) (rows : a'.segments = a.segments ++ [s])
      (number : s.sequence = a.nextSequence) (next : a'.nextSequence = a.nextSequence + 1)

/-- Any number of changes. -/
abbrev RowMoves : RealtimeUtteranceAssembler → RealtimeUtteranceAssembler → Prop :=
  Relation.ReflTransGen RowMove

theorem RowMoves.edit {a a' : RealtimeUtteranceAssembler}
    (rows : List.Forall₂ Keeps a.segments a'.segments)
    (next : a'.nextSequence = a.nextSequence) : RowMoves a a' := .single (.edit rows next)

theorem RowMoves.quiet {a a' : RealtimeUtteranceAssembler}
    (rows : List.Forall₂ Quiet a.segments a'.segments)
    (next : a'.nextSequence = a.nextSequence) : RowMoves a a' :=
  .edit (rows.imp fun _ _ h => h.keeps) next

/-! ### A source token -/

section Source

variable (isAlphabetic : Char → Bool) {a : RealtimeUtteranceAssembler}

/-- What placing a source token leaves: the row it goes to is open, and nothing
was committed, dropped or reordered. -/
structure Placed (a a' : RealtimeUtteranceAssembler) (i : ℕ) : Prop where
  openAt : OpenAt a'.segments i
  runs : ∀ s ∈ a'.segments, s.RunInside
  committed : committedChars a'.segments = committedChars a.segments
  moves : RowMoves a a'

theorem segment_at {pre post : List RealtimeSegmentRevision} {row : RealtimeSegmentRevision}
    (h : a.segments = pre ++ row :: post) : a.segment pre.length = row := by
  unfold RealtimeUtteranceAssembler.segment
  rw [h]
  exact Rows.getD_at ..

/-- When the latest row is not open, every row is complete. -/
theorem Ordered.all_complete (h : Ordered a)
    (hnone : (a.latestOriginalSegment.filter fun i => !(a.segment i).complete) = none) :
    ∀ s ∈ a.segments, s.complete = true := by
  have hcursor := h.cursor
  cases hlatest : a.latestOriginalSegment with
  | none =>
      rw [hlatest] at hcursor
      exact hcursor
  | some i =>
      rw [hlatest] at hcursor hnone
      obtain ⟨pre, row, post, heq, rfl, hpre, hpost⟩ := hcursor
      have hrow : row.complete = true := by simpa [segment_at heq] using hnone
      rw [heq]
      intro s hs
      rcases List.mem_append.1 hs with hs | hs
      · exact hpre s hs
      · rcases List.mem_cons.1 hs with rfl | hs
        · exact hrow
        · exact (hpost s hs).1

/-- When the latest row is open, final tokens pushed there come last. -/
theorem Ordered.openAt (h : Ordered a) {i : ℕ}
    (hsome : (a.latestOriginalSegment.filter fun i => !(a.segment i).complete) = some i) :
    OpenAt a.segments i := by
  obtain ⟨hlatest, hopen⟩ := Option.filter_eq_some_iff.1 hsome
  have hcursor := h.cursor
  rw [hlatest] at hcursor
  obtain ⟨pre, row, post, heq, rfl, hpre, hpost⟩ := hcursor
  rw [segment_at heq] at hopen
  exact ⟨pre, row, post, heq, rfl, hpre, by simpa using hopen, hpost⟩

/-- A new row after complete ones is open. -/
theorem openAt_new {rows : List RealtimeSegmentRevision} {s : RealtimeSegmentRevision}
    (h : ∀ r ∈ rows, r.complete = true) (hs : s.complete = false) :
    OpenAt (rows ++ [s]) rows.length :=
  ⟨rows, s, [], rfl, rfl, h, hs, fun _ hr => by cases hr⟩

theorem runInside_of_no_run {s : RealtimeSegmentRevision} (h : s.embeddedRun = none) :
    s.RunInside := fun run hrun => by rw [h] at hrun; cases hrun

theorem new_committedChars (sessionId : String) (sequence : ℕ) :
    (RealtimeSegmentRevision.new sessionId sequence).committedChars = [] := rfl

/-- With every row complete, the token opens the next one. -/
theorem reopenSegment_placed (h : ∀ s ∈ a.segments, s.complete = true)
    (hruns : ∀ s ∈ a.segments, s.RunInside) (speaker : Option String) :
    Placed a (a.reopenSegment speaker).1 (a.reopenSegment speaker).2 := by
  have hcreate : a.reopenSegment speaker = (a.createSegment, a.segments.length) := by
    have hnone : a.segments.reverse.findIdx? (fun s => !s.complete && !s.hasSourceText &&
        s.matchingProviderSpeaker = speaker) = none := by
      rw [List.findIdx?_eq_none_iff]
      intro s hs
      rw [h s (List.mem_reverse.1 hs)]
      rfl
    unfold reopenSegment
    dsimp only
    split
    · rename_i back hback
      split at hback
      · rw [hnone] at hback
        cases hback
      · cases hback
    · rfl
  rw [hcreate]
  refine ⟨openAt_new h rfl, ?_, ?_, .single (.create _ rfl rfl rfl)⟩
  · intro s hs
    rcases List.mem_append.1 hs with hs | hs
    · exact hruns s hs
    · rw [List.mem_singleton.1 hs]
      exact runInside_of_no_run rfl
  · simp [createSegment, new_committedChars]

/-- An open row is edited, and what it has committed stays. -/
theorem Placed.modify {i : ℕ} (h : OpenAt a.segments i) (hruns : ∀ s ∈ a.segments, s.RunInside)
    {f : RealtimeSegmentRevision → RealtimeSegmentRevision}
    (hsequence : ∀ s, (f s).sequence = s.sequence) (hcomplete : ∀ s, (f s).complete = s.complete)
    (hcommitted : ∀ s, (f s).source = s.source)
    (hrun : ∀ s, s.RunInside → (f s).RunInside) : Placed a (a.modifySegment i f) i := by
  obtain ⟨pre, row, post, heq, rfl, hpre, hopen, hpost⟩ := h
  have hmodify : (a.modifySegment pre.length f).segments = pre ++ f row :: post := by
    unfold modifySegment
    rw [heq]
    exact Rows.modify_at ..
  refine ⟨?_, ?_, ?_, ?_⟩
  · rw [hmodify]
    exact ⟨pre, f row, post, rfl, rfl, hpre, (hcomplete row).trans hopen, hpost⟩
  · rw [hmodify]
    rw [heq] at hruns
    intro s hs
    rcases List.mem_append.1 hs with hs | hs
    · exact hruns s (List.mem_append_left _ hs)
    · rcases List.mem_cons.1 hs with rfl | hs
      · exact hrun row (hruns row (by simp))
      · exact hruns s (List.mem_append_right _ (List.mem_cons_of_mem _ hs))
  · rw [hmodify, heq]
    simp [RealtimeSegmentRevision.committedChars, hcommitted]
  · refine .edit ?_ rfl
    rw [hmodify, heq]
    exact Rows.forall₂_at Keeps.refl (.of_open hopen (hsequence row)) pre post

theorem RunInside.join {s : RealtimeSegmentRevision} (h : s.RunInside) (token : SttStreamToken) :
    (joinEmbeddedRun token s).RunInside := by
  intro run hrun
  unfold joinEmbeddedRun at hrun
  dsimp only at hrun
  split at hrun
  · obtain rfl := Option.some.inj hrun
    exact ⟨s.committedChars, [], (List.append_nil _).symm, rfl⟩
  · exact h run hrun

/-- The text of a cut committed text, put together again. -/
theorem splitCommitted_append (text : String) (byteOffset : ℕ) :
    (splitCommitted text byteOffset).1.toList ++ (splitCommitted text byteOffset).2.toList =
      text.toList := by
  unfold splitCommitted
  split
  · rename_i head tail h
    simpa using (Text.splitOff_eq h).symm
  · simp

/-- **The cut of an embedded run never panics:** its offset is at a character of
the committed text. -/
theorem RunInside.splitOff_isSome {s : RealtimeSegmentRevision} (h : s.RunInside)
    {run : EmbeddedRun} (hrun : run ∈ s.embeddedRun) :
    (Text.splitOff s.source.committed.toList run.byteOffset).isSome = true := by
  obtain ⟨head, tail, heq, hoffset⟩ := h run hrun
  have heq' : s.source.committed.toList = head ++ tail := heq
  rw [heq', hoffset, Text.splitOff_append]
  rfl

/-- Cutting off the embedded run loses nothing. -/
theorem takeEmbeddedRun_committed (s : RealtimeSegmentRevision) :
    (takeEmbeddedRun s).1.committedChars ++
      ((takeEmbeddedRun s).2.elim [] fun carried => carried.1.toList) = s.committedChars := by
  unfold takeEmbeddedRun
  cases s.embeddedRun with
  | none => exact List.append_nil _
  | some run => exact splitCommitted_append _ _

theorem takeEmbeddedRun_sequence (s : RealtimeSegmentRevision) :
    (takeEmbeddedRun s).1.sequence = s.sequence := by
  unfold takeEmbeddedRun
  cases s.embeddedRun <;> rfl

theorem RunInside.take {s : RealtimeSegmentRevision} (h : s.RunInside) :
    (takeEmbeddedRun s).1.RunInside := by
  unfold takeEmbeddedRun
  cases hrun : s.embeddedRun with
  | none => exact h
  | some run => exact runInside_of_no_run rfl

/-- Changing the row that was created last. -/
theorem modifyLast_segments {rows : List RealtimeSegmentRevision} {s : RealtimeSegmentRevision}
    (h : a.segments = rows ++ [s]) (f : RealtimeSegmentRevision → RealtimeSegmentRevision) :
    (a.modifySegment (a.segments.length - 1) f).segments = rows ++ [f s] := by
  unfold modifySegment
  dsimp only
  rw [h, List.length_append, List.length_singleton, Nat.add_sub_cancel, Rows.modify_at]

/-- A new turn closes the row and opens the next, and the carried words move from
one to the other. -/
theorem startTurn_segments {pre post : List RealtimeSegmentRevision}
    {row : RealtimeSegmentRevision} (heq : a.segments = pre ++ row :: post) (hrun : row.RunInside)
    (carries : Bool) (language speaker : Option String) :
    ∃ closed opened : RealtimeSegmentRevision,
      (a.startTurn pre.length carries language speaker).segments =
        (pre ++ closed :: post) ++ [opened] ∧
      (a.startTurn pre.length carries language speaker).nextSequence = a.nextSequence + 1 ∧
      closed.complete = true ∧ closed.sequence = row.sequence ∧ closed.RunInside ∧
      opened.complete = false ∧ opened.sequence = a.nextSequence ∧ opened.RunInside ∧
      closed.committedChars ++ opened.committedChars = row.committedChars := by
  have hmodify : ∀ closed : RealtimeSegmentRevision,
      ((a.modifySegment pre.length fun _ => closed).createSegment).segments =
        (pre ++ closed :: post) ++ [.new a.profile.sessionId a.nextSequence] := by
    intro closed
    unfold createSegment modifySegment
    dsimp only
    rw [heq, Rows.modify_at]
  unfold startTurn
  rw [segment_at heq]
  dsimp only
  cases carries with
  | false =>
      refine ⟨closeSegment row, _, hmodify _, rfl, rfl, rfl, hrun, rfl, rfl,
        runInside_of_no_run rfl, ?_⟩
      rw [new_committedChars]
      exact List.append_nil _
  | true =>
      have hcommitted := takeEmbeddedRun_committed row
      cases hcarried : (takeEmbeddedRun row).2 with
      | none =>
          rw [hcarried] at hcommitted
          exact ⟨closeSegment (takeEmbeddedRun row).1, _, hmodify _, rfl, rfl,
            takeEmbeddedRun_sequence row, RunInside.take hrun, rfl, rfl, runInside_of_no_run rfl, hcommitted⟩
      | some carried =>
          rw [hcarried] at hcommitted
          refine ⟨closeSegment (takeEmbeddedRun row).1,
            openWithWords language speaker carried.1 carried.2
              (.new a.profile.sessionId a.nextSequence), ?_, rfl, rfl,
            takeEmbeddedRun_sequence row, RunInside.take hrun, rfl, rfl, runInside_of_no_run rfl, hcommitted⟩
          exact modifyLast_segments (hmodify (closeSegment (takeEmbeddedRun row).1)) _

/-- With the row at `i` open, a new turn opens the next. -/
theorem startTurn_placed {i : ℕ} (h : OpenAt a.segments i) (hruns : ∀ s ∈ a.segments, s.RunInside)
    (carries : Bool) (language speaker : Option String) :
    Placed a (a.startTurn i carries language speaker) a.segments.length := by
  obtain ⟨pre, row, post, heq, rfl, hpre, hopen, hpost⟩ := h
  have hrow : row ∈ a.segments := by simp [heq]
  obtain ⟨closed, opened, hsegments, hnext, hcomplete, hsequence, hclosedRun, hopened, hnumber,
    hopenedRun, hcommitted⟩ := startTurn_segments heq (hruns row hrow) carries language speaker
  have hlength : a.segments.length = (pre ++ closed :: post).length := by simp [heq]
  have hpostEmpty : committedChars post = [] := by
    rw [committedChars, List.flatMap_eq_nil_iff]
    intro s hs
    rw [RealtimeSegmentRevision.committedChars, (hpost s hs).2]
    rfl
  refine ⟨?_, ?_, ?_, ?_⟩
  · rw [hsegments, hlength]
    refine openAt_new (fun s hs => ?_) hopened
    rcases List.mem_append.1 hs with hs | hs
    · exact hpre s hs
    · rcases List.mem_cons.1 hs with rfl | hs
      · exact hcomplete
      · exact (hpost s hs).1
  · rw [hsegments]
    rw [heq] at hruns
    intro s hs
    simp only [List.mem_append, List.mem_cons, List.not_mem_nil, or_false] at hs
    rcases hs with (hs | rfl | hs) | rfl
    · exact hruns s (by simp [hs])
    · exact hclosedRun
    · exact hruns s (by simp [hs])
    · exact hopenedRun
  · rw [hsegments, heq]
    simp only [committedChars_append, committedChars_cons, committedChars_nil, hpostEmpty,
      List.append_nil, List.append_assoc]
    rw [← hcommitted]
  · -- the row is closed, then the next one created
    have hclose : RowMoves a { a with segments := pre ++ closed :: post } := by
      refine .edit ?_ rfl
      rw [heq]
      exact Rows.forall₂_at Keeps.refl (.of_open hopen hsequence) pre post
    exact hclose.tail (.create opened hsegments hnumber hnext)

/-- **Where a source token goes:** to an open row after which nothing is
committed. -/
theorem sourceSegmentForToken_placed (h : Ordered a) (token : SttStreamToken)
    (language speaker : Option String) :
    Placed a (a.sourceSegmentForToken isAlphabetic token language speaker).1
      (a.sourceSegmentForToken isAlphabetic token language speaker).2.1 := by
  unfold sourceSegmentForToken
  split
  · rename_i hnone
    exact reopenSegment_placed (h.all_complete hnone) h.runs speaker
  · rename_i current hcurrent
    have hopen := h.openAt hcurrent
    have hsame : Placed a a current := ⟨hopen, h.runs, rfl, .refl⟩
    dsimp only
    split
    · exact hsame
    · split
      · exact hsame
      · split
        · exact startTurn_placed hopen h.runs _ _ _
        · split
          · exact .modify hopen h.runs (fun _ => rfl) (fun _ => rfl) (fun _ => rfl)
              fun s hs => RunInside.join hs token
          · split
            · exact .modify hopen h.runs (fun _ => rfl) (fun _ => rfl) (fun _ => rfl)
                fun s _ => runInside_of_no_run rfl
            · exact hsame

/-- What a source token commits. -/
def finalChars (token : SttStreamToken) : List Char :=
  if token.isFinal then token.text.toList else []

theorem push_committed (l : LaneRevision) (token : SttStreamToken) (language : Option String) :
    (l.push token language).committed.toList = l.committed.toList ++ finalChars token := by
  unfold LaneRevision.push finalChars
  cases token.isFinal with
  | true => simp
  | false =>
      simp only [Bool.false_eq_true, if_false, List.append_nil]
      split
      · rfl
      · rfl
      · split <;> rfl

theorem pushSource_eq (token : SttStreamToken) (language speaker : Option String)
    (s : RealtimeSegmentRevision) :
    (pushSource token language speaker s).source = s.source.push token language ∧
      (pushSource token language speaker s).sequence = s.sequence ∧
      (pushSource token language speaker s).complete = s.complete ∧
      (pushSource token language speaker s).embeddedRun = s.embeddedRun := by
  have htimes : ∀ r, (noteTimes token r).source = r.source ∧
      (noteTimes token r).sequence = r.sequence ∧ (noteTimes token r).complete = r.complete ∧
      (noteTimes token r).embeddedRun = r.embeddedRun := by
    intro r
    unfold noteTimes
    split <;> exact ⟨rfl, rfl, rfl, rfl⟩
  have hspeaker : ∀ r, (noteSpeaker token.isFinal speaker r).source = r.source ∧
      (noteSpeaker token.isFinal speaker r).sequence = r.sequence ∧
      (noteSpeaker token.isFinal speaker r).complete = r.complete ∧
      (noteSpeaker token.isFinal speaker r).embeddedRun = r.embeddedRun := by
    intro r
    unfold noteSpeaker
    split
    · exact ⟨rfl, rfl, rfl, rfl⟩
    · split
      · exact ⟨rfl, rfl, rfl, rfl⟩
      · split
        · exact ⟨rfl, rfl, rfl, rfl⟩
        · split <;> exact ⟨rfl, rfl, rfl, rfl⟩
  have hdrop : ∀ r, (dropSameLanguageTranslation token.isFinal r).source = r.source ∧
      (dropSameLanguageTranslation token.isFinal r).sequence = r.sequence ∧
      (dropSameLanguageTranslation token.isFinal r).complete = r.complete ∧
      (dropSameLanguageTranslation token.isFinal r).embeddedRun = r.embeddedRun := by
    intro r
    unfold dropSameLanguageTranslation
    split <;> exact ⟨rfl, rfl, rfl, rfl⟩
  unfold pushSource
  simp only [htimes, hspeaker, hdrop, and_self]

/-- A step keeps the rows ordered and commits exactly these characters. -/
def Commits (chars : List Char) (a a' : RealtimeUtteranceAssembler) : Prop :=
  Ordered a → Ordered a' ∧ committedChars a'.segments = committedChars a.segments ++ chars ∧
    RowMoves a a'

/-- **A source token** commits exactly its text, if it is final. -/
theorem applyOriginalToken_commits (token : SttStreamToken) :
    Commits (finalChars token) a (a.applyOriginalToken isAlphabetic token) := by
  intro h
  have hplaced := sourceSegmentForToken_placed isAlphabetic h token
    (a.tokenLanguage isAlphabetic token) (normalizedProviderSpeaker token.speaker)
  unfold applyOriginalToken
  dsimp only
  generalize a.sourceSegmentForToken isAlphabetic token (a.tokenLanguage isAlphabetic token)
    (normalizedProviderSpeaker token.speaker) = placed at hplaced ⊢
  obtain ⟨⟨pre, row, post, heq, hlen, hpre, hopen, hpost⟩, hruns, hcommitted, hmoves⟩ := hplaced
  generalize (if placed.2.2 = true then (placed.1.segment placed.2.1).stableSourceLanguage
    else a.tokenLanguage isAlphabetic token) = language
  generalize normalizedProviderSpeaker token.speaker = speaker
  obtain ⟨hsource, hsequence, hcomplete, hrun⟩ := pushSource_eq token language speaker row
  have hmodify : (placed.1.modifySegment placed.2.1 (pushSource token language speaker)).segments =
      pre ++ pushSource token language speaker row :: post := by
    unfold modifySegment
    rw [heq, ← hlen, Rows.modify_at]
  have hpushed : (pushSource token language speaker row).committedChars =
      row.committedChars ++ finalChars token := by
    rw [RealtimeSegmentRevision.committedChars, hsource, push_committed]
    rfl
  have hpostEmpty : committedChars post = [] := by
    rw [committedChars, List.flatMap_eq_nil_iff]
    intro s hs
    rw [RealtimeSegmentRevision.committedChars, (hpost s hs).2]
    rfl
  refine ⟨⟨?_, ?_⟩, ?_, hmoves.trans ?_⟩
  · exact ⟨pre, _, post, hmodify, hlen, hpre, hpost⟩
  · change ∀ s ∈ (placed.1.modifySegment _ _).segments, s.RunInside
    rw [hmodify]
    rw [heq] at hruns
    intro s hs
    rcases List.mem_append.1 hs with hs | hs
    · exact hruns s (List.mem_append_left _ hs)
    · rcases List.mem_cons.1 hs with rfl | hs
      · intro run hmem
        rw [hrun] at hmem
        obtain ⟨head, tail, hsplit, hoffset⟩ := hruns row (by simp) run hmem
        exact ⟨head, tail ++ finalChars token,
          by rw [hpushed, hsplit, List.append_assoc], hoffset⟩
      · exact hruns s (List.mem_append_right _ (List.mem_cons_of_mem _ hs))
  · rw [hmodify, ← hcommitted, heq]
    simp [hpostEmpty, hpushed]
  · refine RowMoves.edit ?_ rfl
    change List.Forall₂ Keeps _ (placed.1.modifySegment _ _).segments
    rw [hmodify, heq]
    exact Rows.forall₂_at Keeps.refl (.of_open hopen hsequence) pre post

end Source

/-! ### Every other step -/

theorem Commits.trans {chars chars' : List Char} {a a' a'' : RealtimeUtteranceAssembler}
    (h : Commits chars a a') (h' : Commits chars' a' a'') : Commits (chars ++ chars') a a'' := by
  intro ha
  obtain ⟨ha', hchars, hmoves⟩ := h ha
  obtain ⟨ha'', hchars', hmoves'⟩ := h' ha'
  exact ⟨ha'', by rw [hchars', hchars, List.append_assoc], hmoves.trans hmoves'⟩

/-- Quiet steps commit nothing. -/
theorem Commits.quiet {a a' : RealtimeUtteranceAssembler}
    (hq : List.Forall₂ Quiet a.segments a'.segments)
    (hcursor : a'.latestOriginalSegment = a.latestOriginalSegment)
    (next : a'.nextSequence = a.nextSequence) : Commits [] a a' := fun ha =>
  ⟨ha.quiet hq hcursor, by rw [List.append_nil, Quiet.committedChars_eq hq], .quiet hq next⟩

theorem Commits.map {a : RealtimeUtteranceAssembler}
    {f : RealtimeSegmentRevision → RealtimeSegmentRevision} (hf : ∀ s, Quiet s (f s)) :
    Commits [] a { a with segments := a.segments.map f } :=
  .quiet (Rows.forall₂_map hf _) rfl rfl

/-- Steps one after the other, each for one element of a list. -/
theorem Commits.foldl {α : Type*} {f : RealtimeUtteranceAssembler → α → RealtimeUtteranceAssembler}
    {chars : α → List Char} (hf : ∀ a x, Commits (chars x) a (f a x)) (l : List α)
    (a : RealtimeUtteranceAssembler) : Commits (l.flatMap chars) a (l.foldl f a) := by
  induction l generalizing a with
  | nil => exact fun ha => ⟨ha, (List.append_nil _).symm, .refl⟩
  | cons x l ih => exact (hf a x).trans (ih (f a x))

/-- Steps that commit nothing, one after the other. -/
theorem Commits.foldl_nil {α : Type*}
    {f : RealtimeUtteranceAssembler → α → RealtimeUtteranceAssembler}
    (hf : ∀ a x, Commits [] a (f a x)) (l : List α) (a : RealtimeUtteranceAssembler) :
    Commits [] a (l.foldl f a) := by
  have h := Commits.foldl hf l a
  rwa [List.flatMap_eq_nil_iff.2 fun _ _ => rfl] at h

theorem applyTranslationToken_commits (a : RealtimeUtteranceAssembler) (token : SttStreamToken) :
    Commits [] a (a.applyTranslationToken token) := by
  unfold applyTranslationToken
  dsimp only
  split
  · exact .quiet (List.forall₂_same.2 fun s _ => Quiet.refl s) rfl rfl
  · exact .quiet (Rows.forall₂_modify Quiet.refl (Quiet.pushTranslation _ _ _) _ _) rfl rfl

/-- The source tokens of a response. -/
def sourceTokens (tokens : List SttStreamToken) : List SttStreamToken :=
  tokens.filter fun token => token.translationStatus = .original ||
    token.translationStatus = .none

/-- The text of the final source tokens of a response. -/
def finalSourceChars (tokens : List SttStreamToken) : List Char :=
  (sourceTokens tokens).flatMap finalChars

theorem takeDirtyUpdates_commits (a : RealtimeUtteranceAssembler) :
    Commits [] a a.takeDirtyUpdates.1 :=
  .map fun _ => ⟨rfl, rfl, rfl, id, id⟩

/-- **A response** commits the text of its final source tokens, in order. -/
theorem applyResponse_commits (isAlphabetic : Char → Bool) (a : RealtimeUtteranceAssembler)
    (tokens : List SttStreamToken) :
    Commits (finalSourceChars tokens) a (a.applyResponse isAlphabetic tokens) := by
  have h := (Commits.map (a := a) Quiet.beginResponseRevision).trans
    ((Commits.foldl (fun a token => applyOriginalToken_commits isAlphabetic token)
      (sourceTokens tokens) _).trans
        (Commits.foldl_nil applyTranslationToken_commits
          (tokens.filter fun token => token.translationStatus = .translation) _))
  rw [List.append_nil] at h
  exact h

theorem keepTail_segments (a : RealtimeUtteranceAssembler) (tail : RealtimeSegmentRevision) :
    (a.keepTail tail).segments =
      a.segments ++ [tailRow tail (.new a.profile.sessionId a.nextSequence)] := by
  unfold keepTail modifySegment createSegment
  dsimp only
  exact Rows.modify_at ..

theorem keepTail_commits (a : RealtimeUtteranceAssembler) (tail : RealtimeSegmentRevision) :
    Commits [] a (a.keepTail tail) := by
  intro h
  have hsegments := keepTail_segments a tail
  have hcursor := h.cursor
  refine ⟨⟨?_, ?_⟩, ?_, .single (.create _ hsegments rfl rfl)⟩
  · rw [hsegments]
    change Cursor _ a.latestOriginalSegment
    cases hlatest : a.latestOriginalSegment with
    | none =>
        rw [hlatest] at hcursor
        intro s hs
        rcases List.mem_append.1 hs with hs | hs
        · exact hcursor s hs
        · rw [List.mem_singleton.1 hs]
          rfl
    | some i =>
        rw [hlatest] at hcursor
        obtain ⟨pre, row, post, heq, hlen, hpre, hpost⟩ := hcursor
        refine ⟨pre, row, post ++ [tailRow tail (.new a.profile.sessionId a.nextSequence)],
          by rw [heq]; simp, hlen, hpre, fun s hs => ?_⟩
        rcases List.mem_append.1 hs with hs | hs
        · exact hpost s hs
        · rw [List.mem_singleton.1 hs]
          exact ⟨rfl, rfl⟩
  · rw [hsegments]
    intro s hs
    rcases List.mem_append.1 hs with hs | hs
    · exact h.runs s hs
    · rw [List.mem_singleton.1 hs]
      exact runInside_of_no_run rfl
  · rw [hsegments, committedChars_append]
    rfl

theorem close_commits (a : RealtimeUtteranceAssembler) (boundary : FinalizeBoundary) :
    Commits [] a (a.close boundary) := by
  cases boundary with
  | providerBoundary =>
      exact (Commits.map Quiet.discardSpeculation).trans
        ((Commits.map Quiet.detachTail).trans (Commits.map Quiet.completeSegment))
  | connectionClosing =>
      exact (Commits.map (a := a) Quiet.detachTail).trans
        ((Commits.foldl_nil keepTail_commits (a.segments.filter hasDetachedTail) _).trans
          (Commits.map Quiet.completeSegment))

theorem modifyById_commits (a : RealtimeUtteranceAssembler) (id : String)
    {f : RealtimeSegmentRevision → RealtimeSegmentRevision} (hf : ∀ s, Quiet s (f s)) :
    Commits [] a (a.modifyById id f) := by
  unfold modifyById
  split
  · exact .quiet (Rows.forall₂_modify Quiet.refl hf _ _) rfl rfl
  · exact .quiet (List.forall₂_same.2 fun s _ => Quiet.refl s) rfl rfl

/-- When the open row is closed, every row is complete. -/
theorem Cursor.closed {rows : List RealtimeSegmentRevision} {i : ℕ} (h : Cursor rows (some i))
    (hclosed : (rows.getD i default).complete = true) : Cursor rows none := by
  obtain ⟨pre, row, post, rfl, rfl, hpre, hpost⟩ := h
  rw [Rows.getD_at] at hclosed
  intro s hs
  rcases List.mem_append.1 hs with hs | hs
  · exact hpre s hs
  · rcases List.mem_cons.1 hs with rfl | hs
    · exact hclosed
    · exact (hpost s hs).1

theorem retireSourceSegment_commits (a : RealtimeUtteranceAssembler) (id : String) :
    Commits [] a (a.retireSourceSegment id) := by
  unfold retireSourceSegment
  split
  · exact .quiet (List.forall₂_same.2 fun s _ => Quiet.refl s) rfl rfl
  · rename_i index hindex
    intro h
    have hq := Rows.forall₂_modify Quiet.refl (f := fun s => { s with
      revision := none
      persistedTranslationLanguage := none
      complete := true
      sourceDirty := false
      translationDirty := false }) (fun s => ⟨rfl, rfl, rfl, fun _ => rfl, fun h => h⟩) a.segments index
    have hbound : index < a.segments.length := (List.findIdx?_eq_some_iff_getElem.1 hindex).1
    refine ⟨⟨?_, Rows.forall₂_all (fun _ _ hq => hq.runInside) hq h.runs⟩,
      by rw [List.append_nil]; exact Quiet.committedChars_eq hq, .quiet hq rfl⟩
    have hcursor := h.cursor.quiet hq
    change Cursor (a.segments.modify index _) (a.latestOriginalSegment.filter (· ≠ index))
    cases hlatest : a.latestOriginalSegment with
    | none =>
        rw [hlatest] at hcursor
        exact hcursor
    | some i =>
        rw [hlatest] at hcursor
        by_cases hi : i = index
        · rw [Option.filter_some_neg (by simpa using hi)]
          refine hcursor.closed ?_
          rw [hi]
          simp [List.getD_eq_getElem?_getD, hbound]
        · rw [Option.filter_some_pos (by simpa using hi)]
          exact hcursor

end Capture
end ZuTalk
