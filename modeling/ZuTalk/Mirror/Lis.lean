/-
# Longest increasing subsequence

`crates/vt-mirror/src/lis.rs`: patience sorting.  `tails` holds, for each length, where the
increasing chain of that length ends whose last value is the smallest, and `predecessor` the
element before each on its chain.

`longestIncreasingSubsequence_spec` says that what is returned is increasing, as indices and as
values, and that no increasing subsequence is longer.  Both rest on what one element keeps of the
table (`Scanned.step`).
-/

import Mathlib.Data.List.GetD
import ZuTalk.Library.Bisect

namespace ZuTalk
namespace Mirror

variable {α : Type*}

section Definitions

variable [LT α] [DecidableLT α] [Inhabited α]

/-- The binary search of `longest_increasing_subsequence`: the first length in
`[low, high)` whose chain does not end below `x`, or `high`. -/
def lisSearch (sequence : List α) (tails : List ℕ) (x : α) (low high : ℕ) : ℕ :=
  if low < high then
    let mid := (low + high) / 2
    if sequence.getD (tails.getD mid 0) default < x then lisSearch sequence tails x (mid + 1) high
    else lisSearch sequence tails x low mid
  else low
termination_by high - low

/-- `tails` and `predecessor`. -/
structure LisState where
  tails : List ℕ
  predecessor : List (Option ℕ)
  deriving DecidableEq, Repr

/-- One element of the sequence. -/
def lisStep (sequence : List α) (st : LisState) (i : ℕ) : LisState :=
  let low := lisSearch sequence st.tails (sequence.getD i default) 0 st.tails.length
  { tails := if st.tails.length ≤ low then st.tails ++ [i] else st.tails.set low i
    predecessor := st.predecessor ++ [if 0 < low then st.tails[low - 1]? else none] }

/-- The chain of `length` elements that ends at `k`, from its end. -/
def lisChain (predecessor : List (Option ℕ)) : ℕ → ℕ → List ℕ
  | 0, _ => []
  | slot + 1, k => k :: lisChain predecessor slot ((predecessor.getD k none).getD 0)

/-- `longest_increasing_subsequence`: the indices of its elements. -/
def longestIncreasingSubsequence (sequence : List α) : List ℕ :=
  let st := (List.range sequence.length).foldl (lisStep sequence) ⟨[], []⟩
  match st.tails.getLast? with
  | none => []
  | some k => (lisChain st.predecessor st.tails.length k).reverse

end Definitions

/-- What stands at a place where one entry was put between others. -/
theorem getElem?_between {β : Type*} (below above : List β) (entry : β) (n : ℕ) :
    (below ++ entry :: above)[n]? =
      if n < below.length then below[n]?
      else if n = below.length then some entry
      else above[n - below.length - 1]? := by
  split
  next hlt => rw [List.getElem?_append_left hlt]
  next hge =>
    rw [List.getElem?_append_right (Nat.not_lt.1 hge)]
    split
    next heq => simp [heq]
    next hne =>
      obtain ⟨m, hm⟩ : ∃ m, n - below.length = m + 1 := ⟨n - below.length - 1, by omega⟩
      rw [hm, List.getElem?_cons_succ, Nat.add_sub_cancel]

/-- A subsequence of a list and one more element is one of the list, or ends with that element. -/
theorem sublist_concat {values list : List α} {x y : α}
    (h : (values ++ [x]).Sublist (list ++ [y])) :
    (values ++ [x]).Sublist list ∨ x = y ∧ values.Sublist list := by
  have hreverse : (x :: values.reverse).Sublist (y :: list.reverse) := by
    simpa using List.reverse_sublist.2 h
  rcases List.cons_sublist_cons'.1 hreverse with hold | ⟨heq, hvalues⟩
  · left
    simpa using List.reverse_sublist.2 hold
  · exact .inr ⟨heq, List.reverse_sublist.1 hvalues⟩

section Spec

variable [LinearOrder α] [Inhabited α] {sequence : List α} {tails : List ℕ}
  {predecessor : List (Option ℕ)} {i : ℕ}

/-- The value at an index. -/
abbrev lisValue (sequence : List α) (i : ℕ) : α := sequence.getD i default

theorem lisSearch_eq_search (x : α) (low high : ℕ) :
    lisSearch sequence tails x low high =
      Bisect.search (fun mid => lisValue sequence (tails.getD mid 0) < x) low high := by
  fun_induction
    Bisect.search (fun mid => decide (lisValue sequence (tails.getD mid 0) < x)) low high with
  | case1 low high hlt hmid ih =>
      rw [lisSearch, if_pos hlt, ← ih]
      exact if_pos (of_decide_eq_true hmid)
  | case2 low high hlt hmid ih =>
      rw [lisSearch, if_pos hlt, ← ih]
      exact if_neg fun hvalue => hmid (decide_eq_true hvalue)
  | case3 low high hlt => rw [lisSearch, if_neg hlt]

/-- The search splits the table at the first chain that does not end below `x`. -/
theorem lisSearch_append {below above : List ℕ} {x : α}
    (hbelow : ∀ k ∈ below, lisValue sequence k < x)
    (habove : ∀ k ∈ above, x ≤ lisValue sequence k) :
    lisSearch sequence (below ++ above) x 0 (below ++ above).length = below.length := by
  rw [lisSearch_eq_search]
  refine Bisect.search_eq (fun mid hmid => ?_) (fun mid hmid hlt => ?_) (Nat.zero_le _) (by simp)
  · rw [List.getD_append _ _ _ _ hmid, List.getD_eq_getElem _ _ hmid]
    exact decide_eq_true (hbelow _ (List.getElem_mem hmid))
  · rw [List.length_append] at hlt
    have hmid' : mid - below.length < above.length := by omega
    rw [List.getD_append_right _ _ _ _ hmid, List.getD_eq_getElem _ _ hmid']
    exact decide_eq_false (not_lt.2 (habove _ (List.getElem_mem hmid')))

/-- A chain of `length + 1` elements that ends at `k` goes down the predecessors, with smaller
values. -/
def Chained (sequence : List α) (predecessor : List (Option ℕ)) : ℕ → ℕ → Prop
  | 0, _ => True
  | length + 1, k => ∃ before, predecessor[k]? = some (some before) ∧ before < k ∧
      lisValue sequence before < lisValue sequence k ∧ Chained sequence predecessor length before

/-- Chains stay when more predecessors are known. -/
theorem Chained.append {length k : ℕ} (h : Chained sequence predecessor length k)
    (more : List (Option ℕ)) : Chained sequence (predecessor ++ more) length k := by
  induction length generalizing k with
  | zero => trivial
  | succ length ih =>
      obtain ⟨before, hbefore, hlt, hvalue, hrest⟩ := h
      refine ⟨before, ?_, hlt, hvalue, ih hrest⟩
      rw [List.getElem?_append_left (List.getElem?_eq_some_iff.1 hbefore).1, hbefore]

/-- What is read off a chain goes down, as indices and as values. -/
theorem Chained.pairwise {length k : ℕ} (h : Chained sequence predecessor length k) :
    (∀ j ∈ lisChain predecessor (length + 1) k, j ≤ k ∧ lisValue sequence j ≤ lisValue sequence k) ∧
      (lisChain predecessor (length + 1) k).Pairwise fun a b =>
        b < a ∧ lisValue sequence b < lisValue sequence a := by
  induction length generalizing k with
  | zero => simp [lisChain]
  | succ length ih =>
      obtain ⟨before, hbefore, hlt, hvalue, hrest⟩ := h
      obtain ⟨hle, hpairwise⟩ := ih hrest
      have hnext : (predecessor.getD k none).getD 0 = before := by
        rw [List.getD_eq_getElem?_getD, hbefore]
        rfl
      have hsmaller : ∀ j ∈ lisChain predecessor (length + 1) before,
          j < k ∧ lisValue sequence j < lisValue sequence k := fun j hj =>
        ⟨(hle j hj).1.trans_lt hlt, (hle j hj).2.trans_lt hvalue⟩
      rw [lisChain, hnext]
      refine ⟨List.forall_mem_cons.2 ⟨⟨le_rfl, le_rfl⟩, fun j hj => ?_⟩,
        List.pairwise_cons.2 ⟨hsmaller, hpairwise⟩⟩
      exact ⟨(hsmaller j hj).1.le, (hsmaller j hj).2.le⟩

theorem length_lisChain (length k : ℕ) : (lisChain predecessor length k).length = length := by
  induction length generalizing k with
  | zero => rfl
  | succ length ih => rw [lisChain, List.length_cons, ih]

/-- The table after the first `i` elements: its chains are chains, their last values go up, and
each increasing subsequence of these elements ends no lower than the chain of its length. -/
structure Scanned (sequence : List α) (i : ℕ) (st : LisState) : Prop where
  length_predecessor : st.predecessor.length = i
  lt : ∀ k ∈ st.tails, k < i
  chained : ∀ length k, st.tails[length]? = some k → Chained sequence st.predecessor length k
  pairwise : st.tails.Pairwise fun a b => lisValue sequence a < lisValue sequence b
  best : ∀ values x, (values ++ [x]).Sublist (sequence.take i) → (values ++ [x]).Pairwise (· < ·) →
    ∃ k, st.tails[values.length]? = some k ∧ lisValue sequence k ≤ x

/-- What one element makes of the table: it ends the chain one longer than the longest that ends
below it. -/
theorem exists_lisStep {st : LisState}
    (h : st.tails.Pairwise fun a b => lisValue sequence a < lisValue sequence b) (i : ℕ) :
    ∃ below above, st.tails = below ++ above ∧
      (∀ k ∈ below, lisValue sequence k < lisValue sequence i) ∧
      (∀ k ∈ above, lisValue sequence i ≤ lisValue sequence k) ∧
      lisStep sequence st i =
        ⟨below ++ i :: above.tail, st.predecessor ++ [below.getLast?]⟩ := by
  obtain ⟨below, above, heq, hbelow, habove⟩ :=
    Bisect.exists_append (h.imp le_of_lt) (lisValue sequence i)
  refine ⟨below, above, heq, hbelow, habove, ?_⟩
  unfold lisStep
  rw [heq, lisSearch_append hbelow habove]
  dsimp only
  congr 1
  · cases above with
    | nil => simp
    | cons first rest =>
        rw [if_neg (by simp), List.set_append_right _ _ (Nat.le_refl _), Nat.sub_self]
        rfl
  · congr 2
    split
    next hpos => rw [List.getElem?_append_left (by omega), List.getLast?_eq_getElem?]
    next hzero => simp [List.eq_nil_of_length_eq_zero (Nat.eq_zero_of_not_pos hzero)]

/-- **One element keeps the table right.** -/
theorem Scanned.step {st : LisState} (h : Scanned sequence i st) (hi : i < sequence.length) :
    Scanned sequence (i + 1) (lisStep sequence st i) := by
  obtain ⟨below, above, heq, hbelow, habove, hstep⟩ := exists_lisStep h.pairwise i
  obtain ⟨hfirst, hsecond, hbetween⟩ := List.pairwise_append.1 (heq ▸ h.pairwise)
  have hlt : ∀ k ∈ below ++ above, k < i := heq ▸ h.lt
  -- apart from the place of the new entry the table is as it was
  have hsame : ∀ n, n ≠ below.length → (below ++ i :: above.tail)[n]? = st.tails[n]? := by
    intro n hn
    rw [getElem?_between, heq]
    split
    next hlt => rw [List.getElem?_append_left hlt]
    next hge =>
      rw [List.getElem?_append_right (Nat.not_lt.1 hge), List.getElem?_tail]
      congr 1
      omega
  have hhere : (below ++ i :: above.tail)[below.length]? = some i := by simp
  rw [hstep]
  refine ⟨by simp [h.length_predecessor], fun k hk => ?_, fun length k hk => ?_, ?_,
    fun values x hsub hincreasing => ?_⟩
  · have hcases : k ∈ below ++ above ∨ k = i := by
      rcases List.mem_append.1 hk with hmem | hmem
      · exact .inl (List.mem_append_left _ hmem)
      · rcases List.mem_cons.1 hmem with rfl | hmem
        · exact .inr rfl
        · exact .inl (List.mem_append_right _ (List.mem_of_mem_tail hmem))
    rcases hcases with hmem | rfl
    · exact (hlt k hmem).trans (Nat.lt_succ_self i)
    · exact Nat.lt_succ_self k
  · by_cases hlength : length = below.length
    · subst hlength
      obtain rfl := Option.some.inj (hhere.symm.trans hk)
      rcases List.eq_nil_or_concat below with rfl | ⟨before, last, rfl⟩
      · trivial
      · rw [List.concat_eq_append] at *
        rw [List.length_append, List.length_singleton]
        have hlast : last ∈ before ++ [last] := by simp
        have hget : st.tails[before.length]? = some last := by simp [heq]
        refine ⟨last, ?_, hlt last (List.mem_append_left _ hlast), hbelow last hlast,
          (h.chained _ _ hget).append _⟩
        rw [List.getElem?_append_right h.length_predecessor.le, h.length_predecessor]
        simp
    · rw [hsame length hlength] at hk
      exact (h.chained length k hk).append _
  · refine List.pairwise_append.2 ⟨hfirst, List.pairwise_cons.2 ⟨?_, hsecond.tail⟩, ?_⟩
    · cases above with
      | nil => simp
      | cons first rest =>
          exact fun k hk => (habove first List.mem_cons_self).trans_lt
            ((List.pairwise_cons.1 hsecond).1 k hk)
    · intro a ha b hb
      rcases List.mem_cons.1 hb with rfl | hb
      · exact hbelow a ha
      · exact hbetween a ha b (List.mem_of_mem_tail hb)
  · have htake : sequence.take (i + 1) = sequence.take i ++ [lisValue sequence i] := by
      rw [List.take_succ_eq_append_getElem hi, lisValue, List.getD_eq_getElem _ _ hi]
    rw [htake] at hsub
    rcases sublist_concat hsub with hold | ⟨rfl, hvalues⟩
    · -- of the elements before: its chain ends where it did, or now here, and lower
      obtain ⟨k, hk, hle⟩ := h.best values x hold hincreasing
      by_cases hlength : values.length = below.length
      · have hmem : k ∈ above := by
          rw [heq, hlength, List.getElem?_append_right (Nat.le_refl _)] at hk
          exact List.mem_of_getElem? hk
        exact ⟨i, hlength ▸ hhere, (habove k hmem).trans hle⟩
      · exact ⟨k, (hsame _ hlength).trans hk, hle⟩
    · -- it ends here: the chain one shorter ends below this element
      have hle : values.length ≤ below.length := by
        rcases List.eq_nil_or_concat values with rfl | ⟨others, last, rfl⟩
        · exact Nat.zero_le _
        · rw [List.concat_eq_append] at hvalues hincreasing ⊢
          obtain ⟨hothers, -, hlt⟩ := List.pairwise_append.1 hincreasing
          have hlast : last < lisValue sequence i := hlt last (by simp) _ (by simp)
          obtain ⟨k, hk, hvalue⟩ := h.best others last hvalues hothers
          by_contra hnot
          rw [List.length_append, List.length_singleton] at hnot
          rw [heq, List.getElem?_append_right (by omega)] at hk
          exact absurd ((habove k (List.mem_of_getElem? hk)).trans hvalue) (not_le.2 hlast)
      rcases Nat.lt_or_eq_of_le hle with hshorter | hsame'
      · have hget : (below ++ i :: above.tail)[values.length]? = some below[values.length] := by
          rw [List.getElem?_append_left hshorter, List.getElem?_eq_getElem hshorter]
        exact ⟨_, hget, (hbelow _ (List.getElem_mem hshorter)).le⟩
      · exact ⟨i, hsame' ▸ hhere, le_rfl⟩

theorem scanned_range {n : ℕ} (hn : n ≤ sequence.length) :
    Scanned sequence n ((List.range n).foldl (lisStep sequence) ⟨[], []⟩) := by
  induction n with
  | zero => exact ⟨rfl, by simp, by simp, List.Pairwise.nil, by simp⟩
  | succ n ih =>
      rw [List.range_succ, List.foldl_append]
      exact (ih (by omega)).step (by omega)

/-- **The subsequence found is increasing**, as indices of the sequence and as values, **and no
increasing subsequence is longer.** -/
theorem longestIncreasingSubsequence_spec (sequence : List α) :
    (longestIncreasingSubsequence sequence).Pairwise (· < ·) ∧
      (∀ i ∈ longestIncreasingSubsequence sequence, i < sequence.length) ∧
      ((longestIncreasingSubsequence sequence).map fun i => sequence.getD i default).Pairwise
        (· < ·) ∧
      ∀ values : List α, values.Sublist sequence → values.Pairwise (· < ·) →
        values.length ≤ (longestIncreasingSubsequence sequence).length := by
  have hscanned : Scanned sequence sequence.length _ := scanned_range (Nat.le_refl _)
  unfold longestIncreasingSubsequence
  dsimp only
  generalize (List.range sequence.length).foldl (lisStep sequence) ⟨[], []⟩ = st at hscanned
  have hbest : ∀ values : List α, values.Sublist sequence → values.Pairwise (· < ·) →
      values.length ≤ st.tails.length := by
    intro values hsub hincreasing
    rcases List.eq_nil_or_concat values with rfl | ⟨others, last, rfl⟩
    · exact Nat.zero_le _
    · rw [List.concat_eq_append] at hsub hincreasing ⊢
      obtain ⟨k, hk, -⟩ := hscanned.best others last (by rwa [List.take_length]) hincreasing
      rw [List.length_append, List.length_singleton]
      exact (List.getElem?_eq_some_iff.1 hk).1
  cases hlast : st.tails.getLast? with
  | none =>
      rw [List.getLast?_eq_none_iff.1 hlast] at hbest
      exact ⟨List.Pairwise.nil, by simp, List.Pairwise.nil, hbest⟩
  | some k =>
      have hpos : 0 < st.tails.length :=
        List.length_pos_of_mem (List.mem_of_getLast? hlast)
      rw [List.getLast?_eq_getElem?] at hlast
      obtain ⟨hle, hpairwise⟩ := (hscanned.chained _ k hlast).pairwise
      rw [Nat.sub_add_cancel hpos] at hle hpairwise
      dsimp only
      rw [List.length_reverse, length_lisChain, List.map_reverse, List.pairwise_reverse,
        List.pairwise_reverse, List.pairwise_map]
      refine ⟨hpairwise.imp And.left, fun j hj => ?_, hpairwise.imp And.right, hbest⟩
      exact (hle j (List.mem_reverse.1 hj)).1.trans_lt
        (hscanned.lt k (List.mem_of_getElem? hlast))

end Spec

end Mirror
end ZuTalk
