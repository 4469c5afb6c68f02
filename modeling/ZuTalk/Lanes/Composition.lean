/-
# The text of a lane

A lane that several facts are bound to says what they say, one after the other.  Composition loses
no word and makes none up: without its blanks the text is the segments without theirs.  So a
segment that comes after those a Final lane was composed of is never refused.
-/

import ZuTalk.Lanes.Goes

namespace ZuTalk
namespace Lanes

open Capture (UtteranceCompletion)
open Inbox (UtteranceVariantRole)

/-! ### Blanks -/

/-- The characters that are not blanks. -/
def inked (cs : List Char) : List Char := cs.filter fun c => !Text.isWhitespace c

theorem inked_append (as bs : List Char) : inked (as ++ bs) = inked as ++ inked bs :=
  List.filter_append as bs

theorem inked_dropWhile (cs : List Char) : inked (cs.dropWhile Text.isWhitespace) = inked cs := by
  induction cs with
  | nil => rfl
  | cons c cs ih =>
      unfold inked at ih ⊢
      cases hc : Text.isWhitespace c with
      | true =>
          rw [List.dropWhile_cons_of_pos hc, List.filter_cons_of_neg (by simp [hc])]
          exact ih
      | false => rw [List.dropWhile_cons_of_neg (by simp [hc])]

theorem inked_trimEnd (cs : List Char) : inked (Text.trimEnd cs) = inked cs := by
  unfold Text.trimEnd
  have hreverse : ∀ ds : List Char, inked ds.reverse = (inked ds).reverse := fun ds =>
    List.filter_reverse
  rw [hreverse, inked_dropWhile, hreverse, List.reverse_reverse]

/-- What is left of a text is blank exactly if the text is. -/
theorem trimEnd_eq_nil {cs : List Char} : Text.trimEnd cs = [] ↔ inked cs = [] := by
  constructor
  · intro h
    rw [← inked_trimEnd, h]
    rfl
  · intro h
    unfold Text.trimEnd
    rw [List.reverse_eq_nil_iff, List.dropWhile_eq_nil_iff]
    intro c hc
    have hblank := List.filter_eq_nil_iff.1 h c (List.mem_reverse.1 hc)
    simpa using hblank

/-! ### Segments -/

theorem inked_joinSegment (text : List Char) (segment : String) :
    inked (joinSegment text segment) = inked text ++ withoutWhitespace segment := by
  have hsegment : inked (Text.trimEnd segment.toList) = withoutWhitespace segment := inked_trimEnd _
  have hblank : inked [' '] = [] := by decide
  unfold joinSegment
  dsimp only
  split
  · rename_i hempty
    rw [List.isEmpty_iff.1 hempty] at hsegment
    rw [← hsegment]
    exact (List.append_nil _).symm
  · split
    · rw [List.append_cons, inked_append, inked_append, hblank, List.append_nil, hsegment]
    · rw [inked_append, hsegment]

/-- The characters of several segments, without the blanks. -/
theorem inked_foldl_joinSegment (segments : List (String × UtteranceCompletion)) :
    ∀ text : List Char,
      inked (segments.foldl (fun text segment => joinSegment text segment.1) text) =
        inked text ++ segments.flatMap fun segment => withoutWhitespace segment.1 := by
  induction segments with
  | nil => exact fun text => (List.append_nil _).symm
  | cons segment rest ih =>
      intro text
      rw [List.foldl_cons, ih, inked_joinSegment, List.flatMap_cons, List.append_assoc]

/-- A segment with a word in it leaves a text with a word in it. -/
theorem foldl_joinSegment_eq_nil (segments : List (String × UtteranceCompletion)) :
    segments.foldl (fun text segment => joinSegment text segment.1) [] = [] ↔
      ∀ segment ∈ segments, withoutWhitespace segment.1 = [] := by
  constructor
  · intro h
    have hinked := inked_foldl_joinSegment segments []
    rw [h] at hinked
    exact List.flatMap_eq_nil_iff.1 hinked.symm
  · induction segments with
    | nil => exact fun _ => rfl
    | cons segment rest ih =>
        intro h
        obtain ⟨hsegment, hrest⟩ := List.forall_mem_cons.1 h
        have hempty : joinSegment [] segment.1 = [] := by
          unfold joinSegment
          rw [trimEnd_eq_nil.2 hsegment]
          rfl
        rw [List.foldl_cons, hempty]
        exact ih hrest

/-- The text of a lane, and its completion, where there is one. -/
theorem composed_eq_some {segments : List (String × UtteranceCompletion)} {text : String}
    {completion : UtteranceCompletion} (h : composed segments = some (text, completion)) :
    withoutWhitespace text = (segments.flatMap fun segment => withoutWhitespace segment.1) ∧
      (completion = .complete ↔ ∀ segment ∈ segments, segment.2 = .complete) := by
  unfold composed at h
  dsimp only at h
  split at h
  · cases h
  · obtain ⟨rfl, rfl⟩ := Prod.mk.inj (Option.some.inj h)
    refine ⟨?_, ?_⟩
    · have hinked := inked_foldl_joinSegment segments []
      unfold withoutWhitespace
      rw [String.toList_ofList]
      exact hinked
    · split
      · rename_i hall
        exact iff_of_true rfl (by simpa using hall)
      · rename_i hsome
        exact iff_of_false (by simp) (by simpa using hsome)

theorem composed_eq_none {segments : List (String × UtteranceCompletion)}
    (h : composed segments = none) :
    ∀ segment ∈ segments, withoutWhitespace segment.1 = [] := by
  unfold composed at h
  dsimp only at h
  split at h
  · rename_i hempty
    exact (foldl_joinSegment_eq_nil segments).1 (List.isEmpty_iff.1 hempty)
  · cases h

/-- **Composition keeps every word.**  The text of a lane says what its segments say, in their
order; it is Final where all of them are; and there is none where they say nothing. -/
theorem composition_keeps_every_word (segments : List (String × UtteranceCompletion)) :
    (composed segments).elim (∀ segment ∈ segments, withoutWhitespace segment.1 = [])
      fun lane =>
        withoutWhitespace lane.1 = (segments.flatMap fun segment => withoutWhitespace segment.1) ∧
          (lane.2 = .complete ↔ ∀ segment ∈ segments, segment.2 = .complete) := by
  cases h : composed segments with
  | some lane => exact composed_eq_some h
  | none => exact composed_eq_none h

/-! ### A Final lane and a segment more -/

theorem preservesSettledLane_of_append {settled incoming : String} {more : List Char}
    (h : withoutWhitespace incoming = withoutWhitespace settled ++ more) :
    preservesSettledLane settled incoming = true := by
  unfold preservesSettledLane
  split
  · rfl
  · rw [h]
    dsimp only
    rw [Text.byteLen_append]
    refine Bool.and_eq_true_iff.2 ⟨decide_eq_true (Nat.le_add_right _ _), ?_⟩
    exact List.isPrefixOf_iff_prefix.2 (List.prefix_append _ _)

/-- **Later segments are taken.**  A Final lane that says what its segments say, and more segments
that come after them: the lane is written where all of them are Final and say more, and kept where
not.  It is never refused. -/
theorem later_segments_are_taken {segments more : List (String × UtteranceCompletion)}
    {text grown : String} {completion : UtteranceCompletion} {v : Variant}
    (h : composed segments = some (text, .complete))
    (hmore : composed (segments ++ more) = some (grown, completion)) (hv : IsFinal v text) :
    Extends text grown ∧
      laneDecision (some v) (.ready grown completion) .composeAuxiliarySegments =
        if completion = .complete ∧ grown ≠ text then .write else .keep := by
  have htext := composed_eq_some h
  have hgrown := composed_eq_some hmore
  have happend : withoutWhitespace grown = withoutWhitespace text ++
      more.flatMap fun segment => withoutWhitespace segment.1 := by
    rw [hgrown.1, htext.1, List.flatMap_append]
  refine ⟨⟨_, happend.symm⟩, ?_⟩
  have hfinal := hv.isFinalTranslation
  have hpreserves := preservesSettledLane_of_append happend
  unfold laneDecision
  dsimp only
  rw [hv.role, hv.payload, hfinal]
  cases completion with
  | complete =>
      have hextends : extendsFinalLane v (.ready grown .complete) .composeAuxiliarySegments =
          true := by
        simp [extendsFinalLane, TranslationLaneWrite.mayExtend, Payload.isSettled, hv.payload,
          Payload.text, hpreserves]
      by_cases hsame : grown = text
      · simp [hsame]
      · have hother : text ≠ grown := fun heq => hsame heq.symm
        simp [hsame, hother, hextends]
  | partially =>
      have hextends : extendsFinalLane v (.ready grown .partially) .composeAuxiliarySegments =
          false := by
        simp [extendsFinalLane, Payload.isSettled]
      simp [hextends, Payload.isSettled]

theorem later_segments_are_taken_bonjour :
    laneDecision (some ⟨und, .translation, .ready "bonjour" .complete, 0, 0⟩)
      (.ready "bonjour le monde" .complete) .composeAuxiliarySegments = .write := by
  have h : composed [("bonjour", .complete)] = some ("bonjour", .complete) := by decide +kernel
  have hmore : composed ([("bonjour", .complete)] ++ [("le monde", .complete)]) =
      some ("bonjour le monde", .complete) := by decide +kernel
  have hfinal : IsFinal ⟨und, .translation, .ready "bonjour" .complete, 0, 0⟩ "bonjour" :=
    ⟨rfl, rfl⟩
  obtain ⟨-, hdecision⟩ := later_segments_are_taken h hmore hfinal
  exact hdecision.trans (if_pos ⟨rfl, by decide⟩)

end Lanes
end ZuTalk
