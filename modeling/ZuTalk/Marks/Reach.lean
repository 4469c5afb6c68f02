/-
# How far back a mark reaches

`resolve_mark_start` of `crates/vt-store/src/session_marks.rs`: the scan over the rows in
reach of a mark, from the last one back to the first pause.

The scan holds each row against the one before it in the order of starts.  It finds the last
row that begins a pause after that neighbour (`walkBack_isGreatest`), and a pause that all
rows leave is one of these; so it stops late where a row that began earlier and is still
spoken hides behind a short one (`reachesTooShort`), or where the row that carries the speech
on ended before the reach.  It is right exactly where every pause it can see is one that all
rows leave, or one of those follows (`resolveMarkStart_iff`).
-/

import Mathlib.Data.List.Sort
import ZuTalk.Library.Stretches

namespace ZuTalk
namespace Marks

open Stretches

/-- `MarkAnchor`: a row of the transcript, reduced to its times. -/
structure MarkAnchor where
  startMs : ℕ
  endMs : ℕ
  deriving DecidableEq, Repr

/-- `MarkLookback`: how far back a mark reaches at most, and how long a silence begins a
passage. -/
structure MarkLookback where
  maxMs : ℕ
  pauseMs : ℕ
  deriving DecidableEq, Repr

/-- `MarkLookback::default`. -/
def MarkLookback.default : MarkLookback := ⟨30000, 1200⟩

/-- The order of the sort key, start and then end. -/
def MarkAnchor.le (a b : MarkAnchor) : Prop :=
  a.startMs < b.startMs ∨ a.startMs = b.startMs ∧ a.endMs ≤ b.endMs

instance : DecidableRel MarkAnchor.le := fun a b => by
  unfold MarkAnchor.le
  infer_instance

/-- How far back a mark reaches at most. -/
def floorMs (atMs : ℕ) (lookback : MarkLookback) : ℕ := atMs - lookback.maxMs

/-- The rows that overlap the reach, sorted. -/
def window (anchors : List MarkAnchor) (atMs : ℕ) (lookback : MarkLookback) : List MarkAnchor :=
  (anchors.filter fun a => a.startMs ≤ atMs && floorMs atMs lookback ≤ a.endMs).insertionSort
    MarkAnchor.le

/-- The scan over neighbouring pairs from the back, `current` being the row reached and
`earlier` those before it, the nearest first. -/
def walkBack (pauseMs : ℕ) (current : MarkAnchor) : List MarkAnchor → ℕ
  | [] => current.startMs
  | previous :: earlier =>
      if pauseMs ≤ current.startMs - previous.endMs then current.startMs
      else walkBack pauseMs previous earlier

/-- `resolve_mark_start`. -/
def resolveMarkStart (anchors : List MarkAnchor) (atMs : ℕ) (lookback : MarkLookback) : ℕ :=
  match (window anchors atMs lookback).reverse with
  | [] => floorMs atMs lookback
  | last :: earlier => max (walkBack lookback.pauseMs last earlier) (floorMs atMs lookback)

/-- Where a mark starts: where the stretch of speech that leads up to it does, but not before
the floor. -/
def IsMarkStart (anchors : List MarkAnchor) (atMs : ℕ) (lookback : MarkLookback) (m : ℕ) : Prop :=
  (∃ s, IsLeast {s | Leads MarkAnchor.startMs MarkAnchor.endMs anchors lookback.pauseMs atMs s} s ∧
    m = max s (floorMs atMs lookback)) ∨
  (∀ a ∈ anchors, atMs < a.startMs) ∧ m = floorMs atMs lookback

/-- The rows in the order of the sort, `t` being the start of one that begins a pause after the
row before it, or that comes first. -/
def StartsApart (rows : List MarkAnchor) (pauseMs t : ℕ) : Prop :=
  ∃ before current after, rows = before ++ current :: after ∧ current.startMs = t ∧
    ∀ previous ∈ before.getLast?, pauseMs ≤ current.startMs - previous.endMs

/-- Every row above the floor that starts apart from the row before it starts a pause after all
rows begun earlier, or a later row up to the mark does. -/
def PausesAreReal (anchors : List MarkAnchor) (atMs : ℕ) (lookback : MarkLookback) : Prop :=
  ∀ t, floorMs atMs lookback < t →
    StartsApart (window anchors atMs lookback) lookback.pauseMs t →
      ∃ u ∈ pauses MarkAnchor.startMs MarkAnchor.endMs anchors lookback.pauseMs atMs, t ≤ u

variable {anchors : List MarkAnchor} {atMs : ℕ} {lookback : MarkLookback} {pauseMs : ℕ}

/-! ### The order of the rows -/

instance : Std.Total MarkAnchor.le := ⟨fun a b => by
  unfold MarkAnchor.le
  omega⟩

instance : IsTrans MarkAnchor MarkAnchor.le := ⟨fun a b c hab hbc => by
  unfold MarkAnchor.le at *
  omega⟩

theorem mem_window {a : MarkAnchor} : a ∈ window anchors atMs lookback ↔
    a ∈ anchors ∧ a.startMs ≤ atMs ∧ floorMs atMs lookback ≤ a.endMs := by
  simp [window]

/-- The rows of the window from the last one back: the starts come down. -/
theorem window_reverse_pairwise :
    (window anchors atMs lookback).reverse.Pairwise fun a b => b.startMs ≤ a.startMs := by
  rw [List.pairwise_reverse]
  refine (List.pairwise_insertionSort MarkAnchor.le _).imp fun h => ?_
  unfold MarkAnchor.le at h
  omega

/-! ### The scan -/

/-- The same of the rows from the last one back. -/
def StartsApartBack (rows : List MarkAnchor) (pauseMs t : ℕ) : Prop :=
  ∃ after current before, rows = after ++ current :: before ∧ current.startMs = t ∧
    ∀ previous ∈ before.head?, pauseMs ≤ current.startMs - previous.endMs

theorem startsApart_iff {rows : List MarkAnchor} {t : ℕ} :
    StartsApart rows pauseMs t ↔ StartsApartBack rows.reverse pauseMs t := by
  constructor
  · rintro ⟨before, current, after, rfl, hstart, hapart⟩
    refine ⟨after.reverse, current, before.reverse, by simp, hstart, ?_⟩
    rwa [List.head?_reverse]
  · rintro ⟨after, current, before, hrows, hstart, hapart⟩
    refine ⟨before.reverse, current, after.reverse, ?_, hstart, ?_⟩
    · rw [← List.reverse_reverse rows, hrows]
      simp
    · rwa [List.getLast?_reverse]

/-- **The scan stops at the last row that starts apart.** -/
theorem walkBack_isGreatest {current : MarkAnchor} {earlier : List MarkAnchor}
    (h : (current :: earlier).Pairwise fun a b => b.startMs ≤ a.startMs) :
    IsGreatest {t | StartsApartBack (current :: earlier) pauseMs t}
      (walkBack pauseMs current earlier) := by
  induction earlier generalizing current with
  | nil =>
      refine ⟨⟨[], current, [], rfl, rfl, by simp⟩, ?_⟩
      rintro t ⟨after, row, before, hrows, rfl, -⟩
      have hrow : row ∈ [current] := hrows ▸ by simp
      rw [List.mem_singleton.1 hrow, walkBack]
  | cons previous earlier ih =>
      obtain ⟨hcurrent, hearlier⟩ := List.pairwise_cons.1 h
      rw [walkBack]
      split
      · next hgap =>
          refine ⟨⟨[], current, previous :: earlier, rfl, rfl, by simpa using hgap⟩, ?_⟩
          rintro t ⟨after, row, before, hrows, rfl, -⟩
          have hrow : row ∈ current :: previous :: earlier := hrows ▸ by simp
          rcases List.mem_cons.1 hrow with rfl | hrow
          · exact le_rfl
          · exact hcurrent row hrow
      · next hgap =>
          obtain ⟨⟨after, row, before, hrows, hstart, hapart⟩, hgreatest⟩ := ih hearlier
          refine ⟨⟨current :: after, row, before, by rw [hrows]; rfl, hstart, hapart⟩, ?_⟩
          rintro t ⟨after, row, before, hrows, rfl, hapart⟩
          cases after with
          | nil =>
              obtain ⟨rfl, rfl⟩ := List.cons_eq_cons.1 hrows
              exact absurd (hapart previous rfl) hgap
          | cons other after =>
              exact hgreatest ⟨after, row, before, (List.cons_eq_cons.1 hrows).2, rfl, hapart⟩

/-- Where nothing is in reach the mark starts at the floor; else at the last row that starts
apart, but not before the floor. -/
theorem resolveMarkStart_cases (anchors : List MarkAnchor) (atMs : ℕ) (lookback : MarkLookback) :
    (window anchors atMs lookback = [] ∧
      resolveMarkStart anchors atMs lookback = floorMs atMs lookback) ∨
    ∃ s, IsGreatest {t | StartsApart (window anchors atMs lookback) lookback.pauseMs t} s ∧
      resolveMarkStart anchors atMs lookback = max s (floorMs atMs lookback) := by
  unfold resolveMarkStart
  cases hrows : (window anchors atMs lookback).reverse with
  | nil => exact Or.inl ⟨List.reverse_eq_nil_iff.1 hrows, rfl⟩
  | cons last earlier =>
      refine Or.inr ⟨_, ?_, rfl⟩
      have hpairwise := @window_reverse_pairwise anchors atMs lookback
      simp only [startsApart_iff, hrows] at hpairwise ⊢
      exact walkBack_isGreatest hpairwise

/-! ### Pauses the scan can see -/

/-- A row of the window is the first of those that start when it does, with all before it begun
earlier. -/
theorem exists_first_of_start {rows : List MarkAnchor}
    (h : rows.Pairwise fun a b => a.startMs ≤ b.startMs) {t : ℕ} (ht : ∃ a ∈ rows, a.startMs = t) :
    ∃ before current after, rows = before ++ current :: after ∧ current.startMs = t ∧
      ∀ a ∈ before, a.startMs < t := by
  induction rows with
  | nil => exact absurd ht (by simp)
  | cons row rows ih =>
      obtain ⟨hrow, hrows⟩ := List.pairwise_cons.1 h
      by_cases heq : row.startMs = t
      · exact ⟨[], row, rows, rfl, heq, by simp⟩
      · obtain ⟨a, ha, hat⟩ := ht
        have hmem : a ∈ rows := (List.mem_cons.1 ha).resolve_left fun h => heq (h ▸ hat)
        obtain ⟨before, current, after, hsplit, hstart, hbefore⟩ := ih hrows ⟨a, hmem, hat⟩
        refine ⟨row :: before, current, after, by rw [hsplit]; rfl, hstart, ?_⟩
        exact List.forall_mem_cons.2 ⟨lt_of_le_of_ne (hat ▸ hrow a hmem) heq, hbefore⟩

/-- **A pause all rows leave**, above the floor, is one between neighbours. -/
theorem startsApart_of_pauses (h : ∀ a ∈ anchors, a.startMs ≤ a.endMs) {t : ℕ}
    (hfloor : floorMs atMs lookback < t)
    (ht : t ∈ pauses MarkAnchor.startMs MarkAnchor.endMs anchors lookback.pauseMs atMs) :
    StartsApart (window anchors atMs lookback) lookback.pauseMs t := by
  obtain ⟨⟨row, hrow, rfl⟩, hat, hpauses⟩ := ht
  have hends := h row hrow
  have hsorted : (window anchors atMs lookback).Pairwise fun a b => a.startMs ≤ b.startMs :=
    List.pairwise_reverse.1 window_reverse_pairwise
  obtain ⟨before, current, after, hrows, hstart, hbefore⟩ := exists_first_of_start hsorted
    ⟨row, mem_window.2 ⟨hrow, hat, by omega⟩, rfl⟩
  refine ⟨before, current, after, hrows, hstart, fun previous hprevious => ?_⟩
  have hmem := List.mem_of_mem_getLast? hprevious
  have hanchor : previous ∈ anchors := (mem_window.1 (hrows ▸ List.mem_append_left _ hmem)).1
  have := hpauses previous hanchor (hbefore previous hmem)
  omega

/-! ### Where the mark starts -/

/-- Where the mark starts, by the last pause up to it. -/
theorem isMarkStart_iff_pauses (h : ∀ a ∈ anchors, a.startMs ≤ a.endMs) {m : ℕ} :
    IsMarkStart anchors atMs lookback m ↔
      (∃ s, IsGreatest
          (pauses MarkAnchor.startMs MarkAnchor.endMs anchors lookback.pauseMs atMs) s ∧
        m = max s (floorMs atMs lookback)) ∨
      (∀ a ∈ anchors, atMs < a.startMs) ∧ m = floorMs atMs lookback := by
  refine or_congr_left' fun hnone => exists_congr fun s => and_congr_left fun hm => ?_
  refine ⟨fun hs => ?_, isLeast_leads h⟩
  obtain ⟨row, hrow, hstart⟩ := hs.1.row
  obtain ⟨t, ht⟩ := @exists_isGreatest_pauses _ MarkAnchor.startMs MarkAnchor.endMs anchors
    lookback.pauseMs atMs ⟨row, hrow, hstart.trans_le hs.1.before⟩
  rwa [hs.unique (isLeast_leads h ht)]

theorem isMarkStart_iff (h : ∀ a ∈ anchors, a.startMs ≤ a.endMs) {s m : ℕ}
    (hs : IsGreatest (pauses MarkAnchor.startMs MarkAnchor.endMs anchors lookback.pauseMs atMs) s) :
    IsMarkStart anchors atMs lookback m ↔ m = max s (floorMs atMs lookback) := by
  rw [isMarkStart_iff_pauses h]
  constructor
  · rintro (⟨s', hs', rfl⟩ | ⟨hnone, -⟩)
    · rw [hs'.unique hs]
    · obtain ⟨⟨row, hrow, rfl⟩, hat, -⟩ := hs.1
      exact absurd hat (not_le.2 (hnone row hrow))
  · rintro rfl
    exact Or.inl ⟨s, hs, rfl⟩

/-- A row inside another row changes nothing about where the mark should start. -/
theorem isMarkStart_inside (h : ∀ a ∈ anchors, a.startMs ≤ a.endMs) {inner outer : MarkAnchor}
    {more : List MarkAnchor} (hmore : more.Perm (inner :: anchors))
    (hinner : inner.startMs ≤ inner.endMs) (houter : outer ∈ anchors)
    (hfrom : outer.startMs ≤ inner.startMs) (hto : inner.endMs ≤ outer.endMs) {m : ℕ} :
    IsMarkStart more atMs lookback m ↔ IsMarkStart anchors atMs lookback m := by
  have hends : ∀ a ∈ more, a.startMs ≤ a.endMs := fun a ha =>
    (List.forall_mem_cons.2 ⟨hinner, h⟩ : ∀ a ∈ inner :: anchors, _) a (hmore.mem_iff.1 ha)
  have hlater : (∀ a ∈ more, atMs < a.startMs) ↔ ∀ a ∈ anchors, atMs < a.startMs := by
    simp only [hmore.mem_iff, List.forall_mem_cons]
    exact ⟨And.right, fun hall => ⟨(hall outer houter).trans_le hfrom, hall⟩⟩
  rw [isMarkStart_iff_pauses hends, isMarkStart_iff_pauses h, hlater, pauses_perm hmore,
    pauses_cons_inside hinner houter hfrom hto]

/-- There is one place where the mark should start. -/
theorem IsMarkStart.unique (h : ∀ a ∈ anchors, a.startMs ≤ a.endMs) {m m' : ℕ}
    (hm : IsMarkStart anchors atMs lookback m) (hm' : IsMarkStart anchors atMs lookback m') :
    m = m' := by
  rcases (isMarkStart_iff_pauses h).1 hm with ⟨s, hs, rfl⟩ | ⟨hnone, rfl⟩
  · exact ((isMarkStart_iff h hs).1 hm').symm
  · rcases hm' with ⟨s, hs, -⟩ | ⟨-, rfl⟩
    · obtain ⟨row, hrow, hstart⟩ := hs.1.row
      exact absurd (hnone row hrow) (not_lt.2 (hstart.trans_le hs.1.before))
    · rfl

/-- **The scan is right** exactly when the pauses it sees are real, or real ones follow. -/
theorem isMarkStart_resolveMarkStart (h : ∀ a ∈ anchors, a.startMs ≤ a.endMs) :
    IsMarkStart anchors atMs lookback (resolveMarkStart anchors atMs lookback) ↔
      PausesAreReal anchors atMs lookback := by
  by_cases hbehind : ∃ a ∈ anchors, a.startMs ≤ atMs
  · obtain ⟨s, hs⟩ := @exists_isGreatest_pauses _ MarkAnchor.startMs MarkAnchor.endMs anchors
      lookback.pauseMs atMs hbehind
    rw [isMarkStart_iff h hs]
    have hseen : floorMs atMs lookback < s →
        StartsApart (window anchors atMs lookback) lookback.pauseMs s := fun hfloor =>
      startsApart_of_pauses h hfloor hs.1
    rcases resolveMarkStart_cases anchors atMs lookback with ⟨hnone, hvalue⟩ | ⟨c, hc, hvalue⟩
    · rw [hvalue]
      refine iff_of_true (le_antisymm (le_max_right _ _) (max_le ?_ le_rfl)) ?_
      · by_contra hlt
        obtain ⟨before, current, after, hrows, -⟩ := hseen (not_le.1 hlt)
        rw [hnone] at hrows
        simp at hrows
      · rintro t - ⟨before, current, after, hrows, -⟩
        rw [hnone] at hrows
        simp at hrows
    · rw [hvalue]
      constructor
      · intro heq t hfloor ht
        have htc := hc.2 ht
        have : c = s := by omega
        exact ⟨s, hs.1, by omega⟩
      · intro hreal
        have hsc : floorMs atMs lookback < s → s ≤ c := fun hfloor => hc.2 (hseen hfloor)
        by_cases hfloor : floorMs atMs lookback < c
        · obtain ⟨u, hu, hcu⟩ := hreal c hfloor hc.1
          have := hs.2 hu
          omega
        · omega
  · have hnone : window anchors atMs lookback = [] := List.eq_nil_iff_forall_not_mem.2
      fun a ha => hbehind ⟨a, (mem_window.1 ha).1, (mem_window.1 ha).2.1⟩
    have hvalue : resolveMarkStart anchors atMs lookback = floorMs atMs lookback := by
      unfold resolveMarkStart
      rw [hnone]
      rfl
    rw [hvalue]
    refine iff_of_true (Or.inr ⟨fun a ha => not_le.1 fun hle => hbehind ⟨a, ha, hle⟩, rfl⟩) ?_
    rintro t - ⟨before, current, after, hrows, -⟩
    rw [hnone] at hrows
    simp at hrows

/-- **A mark starts where the speech did**, and a row inside another changes nothing, exactly
when the pauses between neighbours are real ones. -/
theorem resolveMarkStart_iff (anchors : List MarkAnchor) (atMs : ℕ) (lookback : MarkLookback)
    (h : ∀ a ∈ anchors, a.startMs ≤ a.endMs) :
    (IsMarkStart anchors atMs lookback (resolveMarkStart anchors atMs lookback) ↔
      PausesAreReal anchors atMs lookback) ∧
    ∀ inner outer more, more.Perm (inner :: anchors) → outer ∈ anchors →
      outer.startMs ≤ inner.startMs → inner.startMs ≤ inner.endMs → inner.endMs ≤ outer.endMs →
      (IsMarkStart anchors atMs lookback (resolveMarkStart anchors atMs lookback) ∧
          resolveMarkStart more atMs lookback = resolveMarkStart anchors atMs lookback ↔
        PausesAreReal anchors atMs lookback ∧ PausesAreReal more atMs lookback) := by
  refine ⟨isMarkStart_resolveMarkStart h, ?_⟩
  intro inner outer more hmore houter hfrom hinner hto
  have hends : ∀ a ∈ more, a.startMs ≤ a.endMs := fun a ha =>
    (List.forall_mem_cons.2 ⟨hinner, h⟩ : ∀ a ∈ inner :: anchors, _) a (hmore.mem_iff.1 ha)
  have hsame : ∀ m, IsMarkStart more atMs lookback m ↔ IsMarkStart anchors atMs lookback m :=
    fun m => isMarkStart_inside h hmore hinner houter hfrom hto
  rw [← isMarkStart_resolveMarkStart h, ← isMarkStart_resolveMarkStart hends]
  refine and_congr_right fun hright => ⟨fun heq => ?_, fun hmoreRight => ?_⟩
  · rw [heq]
    exact (hsame _).2 hright
  · exact ((hsame _).1 hmoreRight).unique h hright

/-- A row, a silence, and the row the mark falls into. -/
def afterSilence : List MarkAnchor := [⟨0, 1000⟩, ⟨5000, 6000⟩]

theorem resolveMarkStart_afterSilence :
    IsMarkStart afterSilence 6000 .default (resolveMarkStart afterSilence 6000 .default) := by
  refine ((resolveMarkStart_iff afterSilence 6000 .default (by decide)).1).2 ?_
  rintro t - ⟨before, current, after, hrows, rfl, -⟩
  have hcurrent : current ∈ window afterSilence 6000 .default := hrows ▸ by simp
  have hlast : ∀ a ∈ window afterSilence 6000 .default, a.startMs ≤ 5000 := by decide
  refine ⟨5000, ⟨⟨⟨5000, 6000⟩, by decide, rfl⟩, by decide, ?_⟩, hlast current hcurrent⟩
  unfold PausesBefore
  decide

/-- A long row with a short one in the middle of it: the mark starts with the long row.  A second
short row before the first, inside the long one as well, and the mark starts at the first,
though there is no silence behind it. -/
theorem reachesTooShort :
    resolveMarkStart [⟨0, 10000⟩, ⟨5000, 6000⟩] 6000 .default = 0 ∧
    resolveMarkStart [⟨1000, 2000⟩, ⟨0, 10000⟩, ⟨5000, 6000⟩] 6000 .default = 5000 ∧
    ¬ IsMarkStart [⟨1000, 2000⟩, ⟨0, 10000⟩, ⟨5000, 6000⟩] 6000 .default 5000 := by
  have hvalue : resolveMarkStart [⟨1000, 2000⟩, ⟨0, 10000⟩, ⟨5000, 6000⟩] 6000 .default = 5000 := by
    decide
  refine ⟨by decide, hvalue, fun hmark => ?_⟩
  have hreal := (isMarkStart_resolveMarkStart (by decide)).1 (hvalue.symm ▸ hmark)
  obtain ⟨u, ⟨-, hat, hpauses⟩, hle⟩ := hreal 5000 (by decide)
    ⟨[⟨0, 10000⟩, ⟨1000, 2000⟩], ⟨5000, 6000⟩, [], by decide, rfl, by decide⟩
  have hlong := (hpauses ⟨0, 10000⟩ (by decide) (Nat.lt_of_lt_of_le (by decide) hle)).1
  exact absurd (hlong.trans_le hat) (by decide)

end Marks
end ZuTalk
