/-
# Tables of rows

A table is a list of rows with distinct keys.  `update` is `UPDATE ... SET ... WHERE`,
`delete` is `DELETE FROM ... WHERE`, `insert` is `INSERT` with `ON CONFLICT DO NOTHING`.

`select` is `SELECT ... WHERE ... ORDER BY`: rows that one query selects from what another
did are selected by one query (`filter_select`).

`total` sums an amount up over the rows: a row that is changed changes the total by the
difference (`total_update`).

`Related R` says how every row that two tables have in common went from one to the
other; each of the three keeps keys distinct (`Distinct`) and relates tables as far as
it does its rows.
-/

import Mathlib.Algebra.BigOperators.Group.List.Lemmas
import Mathlib.Algebra.Order.BigOperators.Group.List
import Mathlib.Algebra.Ring.Int.Defs
import Mathlib.Data.Int.Notation
import Mathlib.Data.List.Nodup
import Mathlib.Data.List.Sort

namespace Table

variable {ρ κ : Type*} {key : ρ → κ} {rows : List ρ}

/-- `UPDATE ... SET ... WHERE`. -/
def update (selects : ρ → Bool) (set : ρ → ρ) (rows : List ρ) : List ρ :=
  rows.map fun row => if selects row then set row else row

/-- `DELETE FROM ... WHERE`. -/
def delete (selects : ρ → Bool) (rows : List ρ) : List ρ := rows.filter fun row => !selects row

variable (key) in
/-- `INSERT ... ON CONFLICT DO NOTHING`. -/
def insert [DecidableEq κ] (row : ρ) (rows : List ρ) : List ρ :=
  if (rows.map key).contains (key row) then rows else rows ++ [row]

variable (key) in
/-- No two rows have one key. -/
def Distinct (rows : List ρ) : Prop := (rows.map key).Nodup

variable (key) in
/-- Rows with one key are related. -/
def Related (R : ρ → ρ → Prop) (rows rows' : List ρ) : Prop :=
  ∀ row ∈ rows, ∀ row' ∈ rows', key row' = key row → R row row'

/-- The row of a key. -/
theorem eq_of_key_eq (h : Distinct key rows) {row row' : ρ} (hrow : row ∈ rows)
    (hrow' : row' ∈ rows) (hkey : key row = key row') : row = row' :=
  List.inj_on_of_nodup_map h hrow hrow' hkey

section Update

variable {selects : ρ → Bool} {set : ρ → ρ}

/-- Every row of the new table is an old one, set or not. -/
theorem mem_update {row' : ρ} (h : row' ∈ update selects set rows) :
    ∃ row ∈ rows, (selects row = true ∧ row' = set row) ∨ (selects row = false ∧ row' = row) := by
  obtain ⟨row, hrow, rfl⟩ := List.mem_map.1 h
  refine ⟨row, hrow, ?_⟩
  cases hselects : selects row with
  | true => exact .inl ⟨rfl, if_pos rfl⟩
  | false => exact .inr ⟨rfl, if_neg Bool.false_ne_true⟩

/-- Every row of the old table is in the new one, set or not. -/
theorem mem_update_of_mem {row : ρ} (h : row ∈ rows) :
    (if selects row then set row else row) ∈ update selects set rows := List.mem_map_of_mem h

/-- Two updates of the same rows are one. -/
theorem update_update {set' : ρ → ρ} (h : ∀ row, selects (set row) = selects row) :
    update selects set' (update selects set rows) =
      update selects (fun row => set' (set row)) rows := by
  unfold update
  rw [List.map_map]
  refine List.map_congr_left fun row _ => ?_
  cases hselects : selects row with
  | true => simp [hselects, h]
  | false => simp [hselects]

theorem update_congr {set' : ρ → ρ} (h : ∀ row ∈ rows, selects row = true → set row = set' row) :
    update selects set rows = update selects set' rows := by
  refine List.map_congr_left fun row hrow => ?_
  cases hselects : selects row with
  | true => simpa using h row hrow hselects
  | false => simp

/-- The row of a key, after an update that leaves the keys alone. -/
theorem find?_update [DecidableEq κ] (hkey : ∀ row, key (set row) = key row) (value : κ) :
    (update selects set rows).find? (key · = value) =
      (rows.find? (key · = value)).map fun row => if selects row then set row else row := by
  unfold update
  rw [List.find?_map]
  congr 1
  refine congrFun (congrArg List.find? (funext fun row => ?_)) rows
  show decide (key (if selects row then set row else row) = value) = decide (key row = value)
  split
  · rw [hkey]
  · rfl

theorem forall_update {P : ρ → Prop} (h : ∀ row ∈ rows, P row)
    (hset : ∀ row ∈ rows, selects row = true → P row → P (set row)) :
    ∀ row ∈ update selects set rows, P row := by
  intro row' hrow'
  obtain ⟨row, hrow, ⟨hselects, rfl⟩ | ⟨-, rfl⟩⟩ := mem_update hrow'
  · exact hset row hrow hselects (h row hrow)
  · exact h row' hrow

theorem map_key_update (hkey : ∀ row, key (set row) = key row) :
    (update selects set rows).map key = rows.map key := by
  unfold update
  rw [List.map_map]
  refine List.map_congr_left fun row _ => ?_
  show key (if selects row then set row else row) = key row
  split
  · exact hkey row
  · rfl

theorem Distinct.update (h : Distinct key rows) (hkey : ∀ row, key (set row) = key row) :
    Distinct key (update selects set rows) := by
  unfold Distinct
  rw [map_key_update hkey]
  exact h

/-- A key that is there stays there. -/
theorem exists_key_update (hkey : ∀ row, key (set row) = key row) {value : κ}
    (h : ∃ row ∈ rows, key row = value) : ∃ row ∈ update selects set rows, key row = value := by
  obtain ⟨row, hrow, rfl⟩ := h
  have hkeys : key row ∈ (update selects set rows).map key :=
    (map_key_update hkey).symm ▸ List.mem_map_of_mem hrow
  exact List.mem_map.1 hkeys

/-- An update that takes a property from a row that has it. -/
theorem countP_update_lt {p : ρ → Bool} (hset : ∀ row, selects row = true → p (set row) = false)
    {row : ρ} (hrow : row ∈ rows) (hselects : selects row = true) (hp : p row = true) :
    (update selects set rows).countP p < rows.countP p := by
  have hle : ∀ rows : List ρ, (update selects set rows).countP p ≤ rows.countP p := by
    intro rows
    unfold update
    rw [List.countP_map]
    refine List.countP_mono_left fun other _ hother => ?_
    cases hselected : selects other with
    | true => simp [hselected, hset other hselected] at hother
    | false => simpa [hselected] using hother
  induction rows with
  | nil => cases hrow
  | cons other rows ih =>
      have hcons : update selects set (other :: rows) =
          (if selects other then set other else other) :: update selects set rows := rfl
      rw [hcons, List.countP_cons, List.countP_cons]
      rcases List.mem_cons.1 hrow with rfl | hmem
      · have hrest := hle rows
        rw [hselects, if_pos rfl, hset row hselects, hp]
        simpa using Nat.lt_succ_of_le hrest
      · have hrest := ih hmem
        have hhead : (if p (if selects other then set other else other) = true then 1 else 0) ≤
            if p other = true then 1 else 0 := by
          cases hselected : selects other with
          | true => simp [hset other hselected]
          | false => simp
        omega

/-- Tables row by row. -/
theorem Related.of_forall₂ {R : ρ → ρ → Prop} {rows' : List ρ} (h : Distinct key rows)
    (hrows : List.Forall₂ (fun row row' => key row' = key row ∧ R row row') rows rows') :
    Related key R rows rows' := by
  intro row hrow row' hrow' heq
  obtain ⟨origin, horigin, hkey, hR⟩ : ∃ origin ∈ rows, key row' = key origin ∧ R origin row' := by
    clear h hrow heq
    induction hrows with
    | nil => cases hrow'
    | cons hhead _ ih =>
        rcases List.mem_cons.1 hrow' with rfl | hmem
        · exact ⟨_, List.mem_cons_self, hhead⟩
        · obtain ⟨origin, horigin, hrest⟩ := ih hmem
          exact ⟨origin, List.mem_cons_of_mem _ horigin, hrest⟩
  obtain rfl := eq_of_key_eq h horigin hrow (hkey.symm.trans heq)
  exact hR

theorem forall₂_update {R : ρ → ρ → Prop} (hrefl : ∀ row, R row row)
    (hset : ∀ row ∈ rows, selects row = true → R row (set row)) :
    List.Forall₂ R rows (update selects set rows) := by
  induction rows with
  | nil => exact .nil
  | cons row rows ih =>
      refine .cons ?_ (ih fun other hother => hset other (List.mem_cons_of_mem row hother))
      cases hselects : selects row with
      | true => simpa [hselects] using hset row List.mem_cons_self hselects
      | false => simpa [hselects] using hrefl row

end Update

section Total

variable {selects : ρ → Bool} {set : ρ → ρ} {amount : ρ → ℤ}

/-- The sum of an amount over the rows. -/
def total (amount : ρ → ℤ) (rows : List ρ) : ℤ := (rows.map amount).sum

theorem total_cons (row : ρ) : total amount (row :: rows) = amount row + total amount rows := by
  unfold total
  rw [List.map_cons, List.sum_cons]

theorem total_concat (row : ρ) :
    total amount (rows ++ [row]) = total amount rows + amount row := by
  simp [total]

theorem total_nonneg (h : ∀ row ∈ rows, 0 ≤ amount row) : 0 ≤ total amount rows := by
  refine List.sum_nonneg fun value hvalue => ?_
  obtain ⟨row, hrow, rfl⟩ := List.mem_map.1 hvalue
  exact h row hrow

/-- The sum over some of the rows. -/
theorem sum_filter_eq_total (selects : ρ → Bool) (amount : ρ → ℤ) (rows : List ρ) :
    ((rows.filter selects).map amount).sum =
      total (fun row => if selects row then amount row else 0) rows := by
  induction rows with
  | nil => rfl
  | cons row rows ih =>
      rw [total_cons, ← ih, List.filter_cons]
      cases hselects : selects row with
      | true => simp
      | false => simp

theorem total_congr {amount' : ρ → ℤ} (h : ∀ row ∈ rows, amount row = amount' row) :
    total amount rows = total amount' rows := by
  unfold total
  rw [List.map_congr_left h]

/-- An update that leaves the amounts alone. -/
theorem total_update_of_same
    (h : ∀ row ∈ rows, selects row = true → amount (set row) = amount row) :
    total amount (update selects set rows) = total amount rows := by
  unfold total update
  rw [List.map_map]
  congr 1
  refine List.map_congr_left fun row hrow => ?_
  show amount (if selects row then set row else row) = amount row
  cases hselects : selects row with
  | true => exact h row hrow hselects
  | false => rfl

/-- An update that raises no amount. -/
theorem total_update_le
    (h : ∀ row ∈ rows, selects row = true → amount (set row) ≤ amount row) :
    total amount (update selects set rows) ≤ total amount rows := by
  unfold total update
  rw [List.map_map]
  refine List.sum_le_sum fun row hrow => ?_
  show amount (if selects row then set row else row) ≤ amount row
  split
  · rename_i hselected
    exact h row hrow hselected
  · exact le_refl _

/-- **A row that is changed** changes the total by the difference. -/
theorem total_update (h : Distinct key rows) {row : ρ} (hrow : row ∈ rows)
    (hselects : ∀ other ∈ rows, selects other = true ↔ key other = key row) :
    total amount (update selects set rows) =
      total amount rows + (amount (set row) - amount row) := by
  induction rows with
  | nil => cases hrow
  | cons first rest ih =>
      obtain ⟨hfirst, hrest⟩ := List.nodup_cons.1 h
      have hcons : update selects set (first :: rest) =
          (if selects first then set first else first) :: update selects set rest := rfl
      rw [hcons, total_cons, total_cons]
      rcases List.mem_cons.1 hrow with rfl | hmem
      · have hsame : total amount (update selects set rest) = total amount rest := by
          refine total_update_of_same fun other hother hselected => ?_
          have hkey := (hselects other (List.mem_cons_of_mem _ hother)).1 hselected
          exact absurd (hkey ▸ List.mem_map_of_mem hother) hfirst
        rw [if_pos ((hselects row List.mem_cons_self).2 rfl), hsame]
        omega
      · have hnot : selects first = false := by
          refine Bool.eq_false_iff.2 fun hselected => hfirst ?_
          rw [(hselects first List.mem_cons_self).1 hselected]
          exact List.mem_map_of_mem hmem
        rw [hnot, if_neg Bool.false_ne_true, ih hrest hmem fun other hother =>
          hselects other (List.mem_cons_of_mem _ hother)]
        omega

end Total

section Delete

variable {selects : ρ → Bool}

theorem mem_of_mem_delete {row : ρ} (h : row ∈ delete selects rows) : row ∈ rows :=
  (List.mem_filter.1 h).1

theorem Distinct.delete (h : Distinct key rows) : Distinct key (delete selects rows) :=
  List.Nodup.sublist (List.Sublist.map key List.filter_sublist) h

/-- A deletion of the rows that were set leaves what it would have left. -/
theorem delete_update {set : ρ → ρ} {gone : ρ → Bool} (hset : ∀ row, gone (set row) = gone row)
    (h : ∀ row ∈ rows, selects row = true → gone row = true) :
    delete gone (update selects set rows) = delete gone rows := by
  induction rows with
  | nil => rfl
  | cons row rest ih =>
      obtain ⟨hrow, hrest⟩ := List.forall_mem_cons.1 h
      have ih := ih hrest
      unfold delete update at ih ⊢
      rw [List.map_cons, List.filter_cons, List.filter_cons, ih]
      split
      · rename_i hselects
        rw [hset, hrow hselects]
        rfl
      · rfl

theorem related_delete {R : ρ → ρ → Prop} (h : Distinct key rows) (hrefl : ∀ row, R row row) :
    Related key R rows (delete selects rows) := by
  intro row hrow row' hrow' heq
  obtain rfl := eq_of_key_eq h (mem_of_mem_delete hrow') hrow heq
  exact hrefl row'

end Delete

section Insert

variable [DecidableEq κ] {row : ρ}

theorem mem_insert {row' : ρ} (h : row' ∈ insert key row rows) : row' ∈ rows ∨ row' = row := by
  unfold insert at h
  split at h
  · exact .inl h
  · rcases List.mem_append.1 h with h | h
    · exact .inl h
    · exact .inr (List.mem_singleton.1 h)

omit [DecidableEq κ] in
/-- A row of a new key. -/
theorem Distinct.concat (h : Distinct key rows) (hnew : key row ∉ rows.map key) :
    Distinct key (rows ++ [row]) := by
  unfold Distinct
  rw [List.map_append]
  exact List.nodup_append.2 ⟨h, List.nodup_singleton _, fun a ha b hb heq => by
    rw [List.mem_singleton.1 hb] at heq
    exact hnew (heq ▸ ha)⟩

theorem Distinct.insert (h : Distinct key rows) : Distinct key (insert key row rows) := by
  unfold Table.insert
  split
  · exact h
  · rename_i hnew
    exact h.concat fun hmem => hnew (List.contains_iff_mem.2 hmem)

theorem related_insert {R : ρ → ρ → Prop} (h : Distinct key rows) (hrefl : ∀ row, R row row) :
    Related key R rows (insert key row rows) := by
  intro old hold row' hrow' heq
  rcases mem_insert hrow' with hmem | rfl
  · obtain rfl := eq_of_key_eq h hmem hold heq
    exact hrefl row'
  · unfold insert at hrow'
    split at hrow'
    · obtain rfl := eq_of_key_eq h hrow' hold heq
      exact hrefl row'
    · rename_i hnew
      refine absurd (List.contains_iff_mem.2 ?_) hnew
      rw [heq]
      exact List.mem_map_of_mem hold

end Insert

section Select

variable {selects : ρ → Bool} {before : ρ → ρ → Bool}

/-- `SELECT ... WHERE ... ORDER BY`. -/
def select (selects : ρ → Bool) (before : ρ → ρ → Bool) (rows : List ρ) : List ρ :=
  (rows.filter selects).mergeSort before

@[simp] theorem mem_select {row : ρ} :
    row ∈ select selects before rows ↔ row ∈ rows ∧ selects row = true := by
  unfold select
  rw [List.mem_mergeSort, List.mem_filter]

variable [LinearOrder κ] {sortKey : ρ → κ}

/-- What a query returns is in order. -/
theorem pairwise_select (selects : ρ → Bool) (sortKey : ρ → κ) (rows : List ρ) :
    (select selects (fun a b => sortKey a ≤ sortKey b) rows).Pairwise
      fun a b => sortKey a ≤ sortKey b := by
  have hsorted : (select selects (fun a b => sortKey a ≤ sortKey b) rows).Pairwise
      fun a b => decide (sortKey a ≤ sortKey b) = true :=
    List.pairwise_mergeSort
      (fun a b c hab hbc =>
        decide_eq_true ((of_decide_eq_true hab).trans (of_decide_eq_true hbc)))
      (fun a b => by
        rw [Bool.or_eq_true, decide_eq_true_eq, decide_eq_true_eq]
        exact le_total _ _) _
  exact hsorted.imp of_decide_eq_true

/-- Filtering what a query returns is one query, where no two rows have one key to order by. -/
theorem filter_select {q : ρ → Bool} (h : ((rows.filter selects).map sortKey).Nodup) :
    (select selects (fun a b => sortKey a ≤ sortKey b) rows).filter q =
      select (fun row => selects row && q row) (fun a b => sortKey a ≤ sortKey b) rows := by
  have hperm : ((select selects (fun a b => sortKey a ≤ sortKey b) rows).filter q).Perm
      (select (fun row => selects row && q row) (fun a b => sortKey a ≤ sortKey b) rows) := by
    unfold select
    refine ((List.mergeSort_perm _ _).filter q).trans ?_
    rw [List.filter_filter]
    simp only [Bool.and_comm (q _)]
    exact (List.mergeSort_perm _ _).symm
  refine hperm.eq_of_pairwise (fun a b ha hb hab hba => ?_)
    ((pairwise_select selects sortKey rows).filter q) (pairwise_select _ sortKey rows)
  have ha : a ∈ rows.filter selects := List.mem_mergeSort.1 (List.mem_filter.1 ha).1
  have hb := mem_select.1 hb
  have hb : b ∈ rows.filter selects :=
    List.mem_filter.2 ⟨hb.1, (Bool.and_eq_true_iff.1 hb.2).1⟩
  exact List.inj_on_of_nodup_map h ha hb (le_antisymm hab hba)

/-- **In a table in order**, a row is among the first `k` if fewer than `k` come before it. -/
theorem mem_take_iff {closer : ρ → ρ → Bool}
    (hasymm : ∀ a b, closer a b = true → closer b a = false) {rows : List ρ}
    (hsorted : rows.Pairwise fun a b => closer a b = true) {row : ρ} {k : ℕ} :
    row ∈ rows.take k ↔ row ∈ rows ∧ rows.countP (closer · row) < k := by
  induction rows generalizing k with
  | nil => simp
  | cons first rest ih =>
      obtain ⟨hfirst, hrest⟩ := List.pairwise_cons.1 hsorted
      rcases k with _ | k
      · simp
      rw [List.take_succ_cons, List.mem_cons, List.mem_cons, ih hrest, List.countP_cons]
      have hself : ∀ a, closer a a = false := fun a => by
        cases haa : closer a a with
        | false => rfl
        | true => exact absurd (hasymm a a haa) (by rw [haa]; exact Bool.noConfusion)
      by_cases hrow : row ∈ rest
      · have hbefore := hfirst row hrow
        have hne : row ≠ first := fun heq => by
          rw [heq, hself] at hbefore
          cases hbefore
        simp only [hrow, hne, false_or, true_and, hbefore, if_true]
        omega
      · refine ⟨?_, fun h => ?_⟩
        · rintro (rfl | ⟨hmem, -⟩)
          · have hnone : rest.countP (closer · row) = 0 :=
              List.countP_eq_zero.2 fun other hother => by
                rw [hasymm row other (hfirst other hother)]
                exact Bool.false_ne_true
            refine ⟨.inl rfl, ?_⟩
            rw [hnone, hself]
            simp
          · exact absurd hmem hrow
        · exact .inl (h.1.resolve_right hrow)

/-- **`ORDER BY ... LIMIT`**: a query with a limit returns the rows before which fewer come. -/
theorem mem_take_select {closer : ρ → ρ → Bool} {rows : List ρ} {row : ρ} {k : ℕ}
    (hclosed : ∀ a b, closer a b = true ↔ before b a = false)
    (htrans : ∀ a b c, before a b = true → before b c = true → before a c = true)
    (htotal : ∀ a b, (before a b || before b a) = true)
    (hnodup : (rows.filter selects).Nodup)
    (hkeys : ∀ a ∈ rows, ∀ b ∈ rows, selects a = true → selects b = true → a ≠ b →
      before a b = true → closer a b = true) :
    row ∈ (select selects before rows).take k ↔ row ∈ rows ∧ selects row = true ∧
      rows.countP (fun other => selects other && closer other row) < k := by
  have hperm : (select selects before rows).Perm (rows.filter selects) := List.mergeSort_perm _ _
  have hsorted : (select selects before rows).Pairwise fun a b => closer a b = true := by
    refine ((List.pairwise_mergeSort htrans htotal (rows.filter selects)).and
      (hperm.nodup_iff.2 hnodup)).imp_of_mem fun ha hb h => ?_
    obtain ⟨ha, hsa⟩ := mem_select.1 ha
    obtain ⟨hb, hsb⟩ := mem_select.1 hb
    exact hkeys _ ha _ hb hsa hsb h.2 h.1
  have hasymm : ∀ a b, closer a b = true → closer b a = false := fun a b hab => by
    rw [← Bool.not_eq_true, hclosed]
    have hba := (hclosed a b).1 hab
    have htot := htotal a b
    rw [hba, Bool.or_false] at htot
    rw [htot]
    exact Bool.noConfusion
  rw [mem_take_iff hasymm hsorted, mem_select, hperm.countP_eq, List.countP_filter, and_assoc]
  simp only [Bool.and_comm]

end Select

section Find

variable [DecidableEq κ] {selects : ρ → Bool}

/-- A row is found by its key. -/
theorem Distinct.find?_eq_some (h : Distinct key rows) {row : ρ} (hrow : row ∈ rows) :
    rows.find? (key · = key row) = some row := by
  cases hfind : rows.find? (key · = key row) with
  | none => simpa using List.find?_eq_none.1 hfind row hrow
  | some other =>
      have hkey : key other = key row := by simpa using List.find?_some hfind
      rw [eq_of_key_eq h (List.mem_of_find?_eq_some hfind) hrow hkey]

omit [DecidableEq κ] in
/-- The first row of its kind is still the first after a deletion that spares it. -/
theorem find?_delete_eq_some {p : ρ → Bool} {row : ρ} (h : rows.find? p = some row)
    (hspared : selects row = false) : (delete selects rows).find? p = some row := by
  induction rows with
  | nil => cases h
  | cons r rest ih =>
      unfold delete at ih ⊢
      cases hp : p r with
      | true =>
          rw [List.find?_cons_of_pos hp] at h
          obtain rfl := Option.some.inj h
          rw [List.filter_cons_of_pos (by simp [hspared]), List.find?_cons_of_pos hp]
      | false =>
          rw [List.find?_cons_of_neg (by simp [hp])] at h
          cases hr : selects r with
          | true =>
              rw [List.filter_cons_of_neg (by simp [hr])]
              exact ih h
          | false =>
              rw [List.filter_cons_of_pos (by simp [hr]), List.find?_cons_of_neg (by simp [hp])]
              exact ih h

end Find

end Table
