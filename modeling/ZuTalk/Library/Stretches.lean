/-
# Stretches of intervals

Intervals of natural numbers, in any order, that may overlap, nest and touch.  A period that
no interval covers breaks them when it is long enough; the stretch that leads up to a moment
reaches back as far as no such period lies in between (`Leads`).

Where the stretch starts can be said of one interval's start at a time: it is the greatest
start, at or before the moment, that everything begun earlier had left behind by the length
of a pause (`isLeast_leads`).
-/

import Mathlib.Order.Lattice.Nat

namespace Stretches

variable {ι : Type*} (start finish : ι → ℕ)

/-- No interval covers any of the period from `a` to `b`. -/
def Uncovered (rows : List ι) (a b : ℕ) : Prop := ∀ row ∈ rows, finish row ≤ a ∨ b ≤ start row

/-- `s` is the start of an interval from which the intervals lead up to the moment `upTo`: before
the start of any interval up to that moment, no period of `pause` or more is left uncovered. -/
structure Leads (rows : List ι) (pause upTo s : ℕ) : Prop where
  row : ∃ row ∈ rows, start row = s
  before : s ≤ upTo
  unbroken : ∀ row ∈ rows, start row ≤ upTo → ∀ a b, s ≤ a → a < b → a + pause ≤ b →
    b ≤ start row → ¬ Uncovered start finish rows a b

/-- Every interval begun before `t` had ended before `t`, by `pause` or more. -/
def PausesBefore (rows : List ι) (pause t : ℕ) : Prop :=
  ∀ row ∈ rows, start row < t → finish row < t ∧ finish row + pause ≤ t

/-- The starts, up to a moment, that a pause comes before. -/
def pauses (rows : List ι) (pause upTo : ℕ) : Set ℕ :=
  {t | (∃ row ∈ rows, start row = t) ∧ t ≤ upTo ∧ PausesBefore start finish rows pause t}

variable {start finish} {rows : List ι} {pause upTo : ℕ}

/-- Of the starts of intervals from `b` on there is a least one. -/
theorem exists_least_start {b : ℕ} (h : ∃ row ∈ rows, b ≤ start row) :
    ∃ row ∈ rows, b ≤ start row ∧ ∀ other ∈ rows, b ≤ start other → start row ≤ start other := by
  obtain ⟨row, hrow, hb⟩ := h
  obtain ⟨t, ⟨⟨least, hleast, rfl⟩, hbt⟩, hmin⟩ :=
    WellFounded.has_min (r := ((· < ·) : ℕ → ℕ → Prop)) wellFounded_lt
      {t | (∃ row ∈ rows, start row = t) ∧ b ≤ t} ⟨start row, ⟨row, hrow, rfl⟩, hb⟩
  exact ⟨least, hleast, hbt, fun other hother hle => not_lt.1 (hmin _ ⟨⟨other, hother, rfl⟩, hle⟩)⟩

/-- Where an interval starts by a moment there is a first start, and nothing comes before it. -/
theorem pauses_nonempty (h : ∃ row ∈ rows, start row ≤ upTo) :
    (pauses start finish rows pause upTo).Nonempty := by
  obtain ⟨row, hrow, hle⟩ := h
  obtain ⟨first, hfirst, -, hmin⟩ :=
    @exists_least_start _ start rows 0 ⟨row, hrow, Nat.zero_le _⟩
  refine ⟨start first, ⟨first, hfirst, rfl⟩, (hmin row hrow (Nat.zero_le _)).trans hle,
    fun other hother hlt => ?_⟩
  exact absurd hlt (not_lt.2 (hmin other hother (Nat.zero_le _)))

/-- There is a last start that a pause comes before. -/
theorem exists_isGreatest_pauses (h : ∃ row ∈ rows, start row ≤ upTo) :
    ∃ t, IsGreatest (pauses start finish rows pause upTo) t := by
  have hbound : BddAbove (pauses start finish rows pause upTo) := ⟨upTo, fun _ ht => ht.2.1⟩
  exact ⟨_, Nat.sSup_mem (pauses_nonempty h) hbound, fun _ ht => le_csSup hbound ht⟩

/-- A stretch does not reach back over a pause. -/
theorem Leads.le_of_pauses (h : ∀ row ∈ rows, start row ≤ finish row) {s t : ℕ}
    (hs : Leads start finish rows pause upTo s) (ht : t ∈ pauses start finish rows pause upTo) :
    t ≤ s := by
  obtain ⟨⟨row, hrow, rfl⟩, hupTo, hpauses⟩ := ht
  obtain ⟨first, hfirst, hstart⟩ := hs.row
  by_contra hlt
  -- the period of a pause right before the start, at least one long
  have hleft := hpauses first hfirst (by omega)
  have hends := h first hfirst
  refine hs.unbroken row hrow hupTo (start row - max pause 1) (start row) (by omega) (by omega)
    (by omega) le_rfl fun other hother => ?_
  rcases lt_or_ge (start other) (start row) with hbefore | hafter
  · have := hpauses other hother hbefore
    exact Or.inl (by omega)
  · exact Or.inr hafter

/-- From the last pause on nothing breaks the stretch. -/
theorem leads_of_isGreatest {t : ℕ} (ht : IsGreatest (pauses start finish rows pause upTo) t) :
    Leads start finish rows pause upTo t := by
  obtain ⟨⟨hrow, hupTo, -⟩, hgreatest⟩ := ht
  refine ⟨hrow, hupTo, fun row hmem hle a b hta hab hpause hb huncovered => ?_⟩
  -- the first start after the uncovered period would be a later pause
  obtain ⟨next, hnext, hbn, hmin⟩ := exists_least_start ⟨row, hmem, hb⟩
  have hpauses : PausesBefore start finish rows pause (start next) := fun other hother hlt => by
    rcases huncovered other hother with hended | hafter
    · omega
    · exact absurd hlt (not_lt.2 (hmin other hother hafter))
  have hlast := hgreatest ⟨⟨next, hnext, rfl⟩, (hmin row hmem hb).trans hle, hpauses⟩
  omega

/-- **The start of the stretch** is the last start, at or before the moment, that a pause comes
before. -/
theorem isLeast_leads (h : ∀ row ∈ rows, start row ≤ finish row) {t : ℕ}
    (ht : IsGreatest (pauses start finish rows pause upTo) t) :
    IsLeast {s | Leads start finish rows pause upTo s} t :=
  ⟨leads_of_isGreatest ht, fun _ hs => hs.le_of_pauses h ht.1⟩

/-- An interval inside another one adds no pause and takes none away. -/
theorem pauses_cons_inside {inner outer : ι} (hinner : start inner ≤ finish inner)
    (houter : outer ∈ rows) (hfrom : start outer ≤ start inner)
    (hto : finish inner ≤ finish outer) :
    pauses start finish (inner :: rows) pause upTo = pauses start finish rows pause upTo := by
  have hbefore : ∀ t, PausesBefore start finish (inner :: rows) pause t ↔
      PausesBefore start finish rows pause t := fun t => by
    refine List.forall_mem_cons.trans ⟨And.right, fun hrows => ⟨fun hlt => ?_, hrows⟩⟩
    have := hrows outer houter (by omega)
    omega
  ext t
  constructor
  · rintro ⟨⟨row, hrow, rfl⟩, hupTo, hpauses⟩
    rw [hbefore] at hpauses
    rcases List.mem_cons.1 hrow with rfl | hrow
    · rcases hfrom.lt_or_eq with hlt | heq
      · have := hpauses outer houter hlt
        omega
      · exact ⟨⟨outer, houter, heq⟩, hupTo, hpauses⟩
    · exact ⟨⟨row, hrow, rfl⟩, hupTo, hpauses⟩
  · rintro ⟨⟨row, hrow, rfl⟩, hupTo, hpauses⟩
    exact ⟨⟨row, List.mem_cons_of_mem _ hrow, rfl⟩, hupTo, (hbefore _).2 hpauses⟩

/-- Which pauses there are does not depend on the order of the intervals. -/
theorem pauses_perm {rows' : List ι} (h : rows.Perm rows') :
    pauses start finish rows pause upTo = pauses start finish rows' pause upTo := by
  unfold pauses PausesBefore
  simp only [h.mem_iff]

end Stretches
