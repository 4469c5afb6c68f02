/-
# The lines of a note and their ids

`track_lines` of `crates/vt-store/src/replay_migration.rs`: what stands before and after the part
that changed keeps its ids.  A number of ids is drawn in the course of a replay; `uuid` says what
each of them is.
-/

import Mathlib.Data.List.Nodup
import Mathlib.Tactic.Common

namespace ZuTalk
namespace Replay

/-- `Line`. -/
structure Line where
  id : String
  text : String
  deriving DecidableEq, Repr

/-- `text.split('\n')`. -/
def splitLines (text : String) : List String := (text.toList.splitOn '\n').map String.ofList

/-- `lines.join("\n")`. -/
def joinLines (lines : List String) : String := "\n".intercalate lines

/-- How many of the first lines have the texts. -/
def commonLength : List Line → List String → ℕ
  | line :: lines, text :: texts => if line.text = text then commonLength lines texts + 1 else 0
  | _, _ => 0

/-- The lines `track_lines` has between those before and those after the change. -/
def middleLines (uuid : ℕ → String) (drawn : ℕ) (middleOld : List Line) (middleNew : List String) :
    List Line × ℕ :=
  if middleOld.length = middleNew.length then
    (List.zipWith (fun line text => ⟨line.id, text⟩) middleOld middleNew, drawn)
  else (middleNew.mapIdx fun offset text => ⟨uuid (drawn + offset), text⟩, drawn + middleNew.length)

/-- `track_lines`: the lines, and how many ids are drawn now. -/
def trackLines (uuid : ℕ → String) (drawn : ℕ) (previous : List Line) (text : String) :
    List Line × ℕ :=
  let newTexts := splitLines text
  let before := commonLength previous newTexts
  let after := commonLength (previous.drop before).reverse (newTexts.drop before).reverse
  let middle := middleLines uuid drawn
    ((previous.take (previous.length - after)).drop before)
    ((newTexts.take (newTexts.length - after)).drop before)
  (previous.take before ++ middle.1 ++ previous.drop (previous.length - after), middle.2)

/-! ### Texts and lines -/

/-- **A text is its lines.** -/
@[simp] theorem joinLines_splitLines (text : String) : joinLines (splitLines text) = text := by
  refine String.toList_injective ?_
  rw [joinLines, splitLines, String.toList_intercalate, List.map_map]
  have hid : String.toList ∘ String.ofList = id := funext fun _ => String.toList_ofList
  rw [hid, List.map_id]
  exact List.intercalate_splitOn '\n'

/-! ### What two texts have in common -/

section Common

variable {lines : List Line} {texts : List String}

theorem commonLength_le_left : commonLength lines texts ≤ lines.length := by
  induction lines generalizing texts with
  | nil => exact Nat.zero_le _
  | cons line lines ih =>
      cases texts with
      | nil => exact Nat.zero_le _
      | cons text texts =>
          rw [commonLength]
          split
          · exact Nat.succ_le_succ ih
          · exact Nat.zero_le _

/-- The first lines have the texts. -/
theorem take_commonLength :
    (lines.take (commonLength lines texts)).map (·.text) =
      texts.take (commonLength lines texts) := by
  induction lines generalizing texts with
  | nil => cases texts <;> rfl
  | cons line lines ih =>
      cases texts with
      | nil => rfl
      | cons text texts =>
          rw [commonLength]
          split
          · rename_i h
            rw [List.take_succ_cons, List.take_succ_cons, List.map_cons, ih, h]
          · rfl

theorem commonLength_le_right : commonLength lines texts ≤ texts.length := by
  have hlength := congrArg List.length (@take_commonLength lines texts)
  rw [List.length_map, List.length_take_of_le commonLength_le_left, List.length_take] at hlength
  exact hlength ▸ Nat.min_le_right _ _

end Common

/-! ### What changes -/

section Tracking

variable {uuid : ℕ → String} {drawn : ℕ}

@[simp] theorem middleLines_text (old : List Line) (new : List String) :
    (middleLines uuid drawn old new).1.map (·.text) = new := by
  unfold middleLines
  split
  · rename_i h
    exact List.ext_getElem (by simp [h]) fun i _ _ => by simp
  · exact List.ext_getElem (by simp) fun i _ _ => by simp

/-- An edit in place keeps the ids. -/
theorem middleLines_id {old : List Line} {new : List String} (h : old.length = new.length) :
    middleLines uuid drawn old new = ((middleLines uuid drawn old new).1, drawn) ∧
      (middleLines uuid drawn old new).1.map (·.id) = old.map (·.id) := by
  unfold middleLines
  rw [if_pos h]
  exact ⟨rfl, List.ext_getElem (by simp [h]) fun i _ _ => by simp⟩

/-- Any other change draws new ones. -/
theorem middleLines_drawn {old : List Line} {new : List String} (h : old.length ≠ new.length) :
    (middleLines uuid drawn old new).2 = drawn + new.length ∧
      (middleLines uuid drawn old new).1.map (·.id) =
        (List.range' drawn new.length).map uuid := by
  unfold middleLines
  rw [if_neg h]
  exact ⟨rfl, List.ext_getElem (by simp) fun i _ _ => by simp⟩

/-- How a text changes: what stands before the change and after it, and what is replaced by
what. -/
structure Tracked (uuid : ℕ → String) (drawn : ℕ) (previous : List Line) (text : String) where
  front : List Line
  old : List Line
  back : List Line
  new : List String
  previous_eq : previous = front ++ old ++ back
  texts_eq : splitLines text = front.map (·.text) ++ new ++ back.map (·.text)
  front_length : front.length = commonLength previous (splitLines text)
  back_length : back.length = commonLength (old ++ back).reverse
    (new ++ back.map (·.text)).reverse
  lines_eq : trackLines uuid drawn previous text =
    (front ++ (middleLines uuid drawn old new).1 ++ back, (middleLines uuid drawn old new).2)

/-- The three parts of a list. -/
theorem take_drop_drop {α : Type*} (l : List α) {before after : ℕ}
    (h : before + after ≤ l.length) :
    l = l.take before ++ (l.take (l.length - after)).drop before ++ l.drop (l.length - after) := by
  have htake : l.take before = (l.take (l.length - after)).take before := by
    rw [List.take_take, Nat.min_eq_left (by omega)]
  rw [htake, List.take_append_drop, List.take_append_drop]

/-- **How the lines are tracked.** -/
def tracked (uuid : ℕ → String) (drawn : ℕ) (previous : List Line) (text : String) :
    Tracked uuid drawn previous text :=
  let texts := splitLines text
  let before := commonLength previous texts
  let after := commonLength (previous.drop before).reverse (texts.drop before).reverse
  have hbefore : before ≤ previous.length := commonLength_le_left
  have hbefore' : before ≤ texts.length := commonLength_le_right
  have hafter : before + after ≤ previous.length := by
    have hle : after ≤ (previous.drop before).reverse.length := commonLength_le_left
    rw [List.length_reverse, List.length_drop] at hle
    omega
  have hafter' : before + after ≤ texts.length := by
    have hle : after ≤ (texts.drop before).reverse.length := commonLength_le_right
    rw [List.length_reverse, List.length_drop] at hle
    omega
  have hback : (previous.drop (previous.length - after)).map (·.text) =
      texts.drop (texts.length - after) := by
    have htake : ((previous.drop before).reverse.take after).map (·.text) =
        (texts.drop before).reverse.take after := take_commonLength
    rw [List.take_reverse, List.take_reverse, List.map_reverse, List.reverse_inj,
      List.drop_drop, List.drop_drop, List.length_drop, List.length_drop] at htake
    have hleft : before + (previous.length - before - after) = previous.length - after := by omega
    have hright : before + (texts.length - before - after) = texts.length - after := by omega
    rwa [hleft, hright] at htake
  have hdrop : ∀ {α : Type} (l : List α), before + after ≤ l.length →
      (l.take (l.length - after)).drop before ++ l.drop (l.length - after) = l.drop before := by
    intro α l hl
    conv_rhs => rw [take_drop_drop l hl, List.append_assoc]
    rw [List.drop_append_of_le_length (by rw [List.length_take]; omega)]
    simp
  { front := previous.take before
    old := (previous.take (previous.length - after)).drop before
    back := previous.drop (previous.length - after)
    new := (texts.take (texts.length - after)).drop before
    previous_eq := take_drop_drop previous hafter
    texts_eq := by
      rw [hback, take_commonLength]
      exact take_drop_drop texts hafter'
    front_length := List.length_take_of_le hbefore
    back_length := by
      rw [hback, hdrop previous hafter, hdrop texts hafter', List.length_drop]
      exact Nat.sub_sub_self (by omega)
    lines_eq := rfl }

/-- The lines have the text. -/
theorem trackLines_text (uuid : ℕ → String) (drawn : ℕ) (previous : List Line) (text : String) :
    (trackLines uuid drawn previous text).1.map (·.text) = splitLines text := by
  have h := tracked uuid drawn previous text
  rw [h.lines_eq, h.texts_eq, List.map_append, List.map_append, middleLines_text]

end Tracking

/-! ### Ids -/

/-- The lines have ids of their own, each of which was drawn. -/
structure Drawn (uuid : ℕ → String) (drawn : ℕ) (lines : List Line) : Prop where
  distinct : (lines.map (·.id)).Nodup
  drawn : ∀ id ∈ lines.map (·.id), ∃ n < drawn, id = uuid n

/-- The ids that two lists of lines have in common are in the same order in both. -/
def SameOrder (previous next : List Line) : Prop :=
  (previous.map (·.id)).filter (· ∈ next.map (·.id)) =
    (next.map (·.id)).filter (· ∈ previous.map (·.id))

section Ids

variable {uuid : ℕ → String} {drawn : ℕ} {previous : List Line}

theorem filter_mem_append {α : Type*} [DecidableEq α] {front old new back : List α}
    (hdistinct : (front ++ old ++ back).Nodup) (hnew : ∀ a ∈ new, a ∉ front ++ old ++ back) :
    (front ++ old ++ back).filter (· ∈ front ++ new ++ back) = front ++ back ∧
      (front ++ new ++ back).filter (· ∈ front ++ old ++ back) = front ++ back := by
  obtain ⟨hfront, hback, hdisjoint⟩ := List.nodup_append.1 hdistinct
  have hold : ∀ a ∈ old, a ∉ front ++ new ++ back := by
    intro a ha hmem
    rcases List.mem_append.1 hmem with hmem | hmem
    · rcases List.mem_append.1 hmem with hmem | hmem
      · exact (List.nodup_append.1 hfront).2.2 a hmem a ha rfl
      · exact hnew a hmem (List.mem_append_left _ (List.mem_append_right _ ha))
    · exact hdisjoint a (List.mem_append_right _ ha) a hmem rfl
  constructor
  · rw [List.filter_append, List.filter_append,
      List.filter_eq_self.2 fun a ha => by simp [ha],
      List.filter_eq_nil_iff.2 fun a ha => by simpa using hold a ha,
      List.filter_eq_self.2 fun a ha => by simp [ha], List.append_nil]
  · rw [List.filter_append, List.filter_append,
      List.filter_eq_self.2 fun a ha => by simp [ha],
      List.filter_eq_nil_iff.2 fun a ha => by simpa using hnew a ha,
      List.filter_eq_self.2 fun a ha => by simp [ha], List.append_nil]

/-- **Tracking keeps the ids distinct**, and those that stay in order. -/
theorem Drawn.trackLines (h : Drawn uuid drawn previous) (huuid : Function.Injective uuid)
    (text : String) :
    Drawn uuid (Replay.trackLines uuid drawn previous text).2
        (Replay.trackLines uuid drawn previous text).1 ∧
      SameOrder previous (Replay.trackLines uuid drawn previous text).1 := by
  have ht := tracked uuid drawn previous text
  have hprevious := congrArg (List.map (·.id)) ht.previous_eq
  rw [List.map_append, List.map_append] at hprevious
  rw [ht.lines_eq]
  by_cases hlength : ht.old.length = ht.new.length
  · obtain ⟨hdrawn, hids⟩ := @middleLines_id uuid drawn _ _ hlength
    have hlines : (ht.front ++ (middleLines uuid drawn ht.old ht.new).1 ++ ht.back).map (·.id) =
        previous.map (·.id) := by
      rw [List.map_append, List.map_append, hids, hprevious]
    refine ⟨⟨hlines ▸ h.distinct, ?_⟩, ?_⟩
    · rw [hlines, hdrawn]
      exact h.drawn
    · rw [SameOrder, hlines]
  · obtain ⟨hdrawn, hids⟩ := @middleLines_drawn uuid drawn _ _ hlength
    have hlines : (ht.front ++ (middleLines uuid drawn ht.old ht.new).1 ++ ht.back).map (·.id) =
        ht.front.map (·.id) ++ (List.range' drawn ht.new.length).map uuid ++
          ht.back.map (·.id) := by
      rw [List.map_append, List.map_append, hids]
    have hdistinct := hprevious ▸ h.distinct
    have hfresh : ∀ id ∈ (List.range' drawn ht.new.length).map uuid,
        id ∉ ht.front.map (·.id) ++ ht.old.map (·.id) ++ ht.back.map (·.id) := by
      intro id hid hmem
      obtain ⟨n, hn, rfl⟩ := List.mem_map.1 hid
      obtain ⟨m, hm, heq⟩ := h.drawn _ (hprevious ▸ hmem)
      have hle := (List.mem_range'_1.1 hn).1
      have := huuid heq
      omega
    refine ⟨⟨?_, ?_⟩, ?_⟩
    · rw [hlines]
      have hkept : (ht.front.map (·.id) ++ ht.back.map (·.id)).Nodup := by
        refine List.Nodup.sublist ?_ hdistinct
        rw [List.append_assoc]
        exact (List.sublist_append_right _ _).append_left _
      refine List.nodup_append.2 ⟨List.nodup_append.2 ⟨(List.nodup_append.1 hkept).1,
        List.Nodup.map huuid List.nodup_range', ?_⟩, (List.nodup_append.1 hkept).2.1, ?_⟩
      · rintro a ha b hb rfl
        exact hfresh a hb (List.mem_append_left _ (List.mem_append_left _ ha))
      · rintro a ha b hb rfl
        rcases List.mem_append.1 ha with ha | ha
        · exact (List.nodup_append.1 hkept).2.2 a ha a hb rfl
        · exact hfresh a ha (List.mem_append_right _ hb)
    · rw [hlines, hdrawn]
      intro id hid
      rcases List.mem_append.1 hid with hid | hid
      · rcases List.mem_append.1 hid with hid | hid
        · obtain ⟨n, hn, heq⟩ := h.drawn id (hprevious ▸ List.mem_append_left _
            (List.mem_append_left _ hid))
          exact ⟨n, by omega, heq⟩
        · obtain ⟨n, hn, rfl⟩ := List.mem_map.1 hid
          exact ⟨n, (List.mem_range'_1.1 hn).2, rfl⟩
      · obtain ⟨n, hn, heq⟩ := h.drawn id (hprevious ▸ List.mem_append_right _ hid)
        exact ⟨n, by omega, heq⟩
    · obtain ⟨hleft, hright⟩ := filter_mem_append hdistinct hfresh
      rw [SameOrder, hlines, hprevious, hleft, hright]

end Ids

end Replay
end ZuTalk
