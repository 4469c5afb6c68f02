/-
# Reading to the end

A reader gives out bytes into a buffer of any size, no bytes at the end, and may fail.  What it
gives out over any sequence of reads (`reads`, `readToEnd`) follows from what one read does
(`Delivers`): it gives out some of what is left, and when nothing is left it ends or fails.
-/

import Mathlib.Data.List.Basic

namespace Reading

variable {σ β ε : Type*}

/-- The results of reads into buffers of these sizes. -/
def reads (read : σ → ℕ → Except ε (List β) × σ) : σ → List ℕ → List (Except ε (List β))
  | _, [] => []
  | s, size :: sizes => (read s size).1 :: reads read (read s size).2 sizes

/-- What is read up to the end or the first failure, if the buffers last so long. -/
def readToEnd (read : σ → ℕ → Except ε (List β) × σ) : σ → List ℕ → Option (Except ε (List β))
  | _, [] => none
  | s, size :: sizes =>
      match read s size with
      | (.error e, _) => some (.error e)
      | (.ok [], _) => some (.ok [])
      | (.ok out, s) => (readToEnd read s sizes).map fun result => (out ++ ·) <$> result

/-- How reading ends, after these bytes. -/
def ended (ending : Option ε) (data : List β) : Except ε (List β) :=
  match ending with
  | some e => .error e
  | none => .ok data

/-- Of a reader that `Holds` some bytes, each read gives out some of them, and one that holds none
is at its end. -/
structure Delivers (read : σ → ℕ → Except ε (List β) × σ) (Holds : σ → List β → Prop)
    (ending : Option ε) : Prop where
  gives : ∀ s data size, Holds s data → data ≠ [] → 0 < size →
    ∃ out rest s', read s size = (.ok out, s') ∧ out ≠ [] ∧ data = out ++ rest ∧ Holds s' rest
  ends : ∀ s size, Holds s [] → 0 < size → (read s size).1 = ended ending []
  stays : ending = none → ∀ s size, Holds s [] → 0 < size → Holds (read s size).2 []

variable {read : σ → ℕ → Except ε (List β) × σ} {Holds : σ → List β → Prop} {ending : Option ε}

theorem readToEnd_cons_of_ok {s s' : σ} {size : ℕ} {sizes : List ℕ} {out : List β}
    (hread : read s size = (.ok out, s')) (hout : out ≠ []) :
    readToEnd read s (size :: sizes) =
      (readToEnd read s' sizes).map fun result => (out ++ ·) <$> result := by
  rw [readToEnd, hread]
  cases out with
  | nil => exact absurd rfl hout
  | cons => rfl

/-- **Reading to the end** gives all bytes, or the failure they end with. -/
theorem Delivers.readToEnd_eq (h : Delivers read Holds ending) {s : σ} {data : List β}
    {sizes : List ℕ} (hs : Holds s data) (hsizes : ∀ size ∈ sizes, 0 < size)
    (hlength : data.length < sizes.length) :
    readToEnd read s sizes = some (ended ending data) := by
  induction sizes generalizing s data with
  | nil => cases hlength
  | cons size sizes ih =>
      obtain ⟨hsize, hrest⟩ := List.forall_mem_cons.1 hsizes
      by_cases hdata : data = []
      · subst hdata
        have hend := h.ends s size hs hsize
        rw [readToEnd]
        cases hread : read s size with
        | mk result s' =>
            rw [hread] at hend
            obtain rfl : result = ended ending [] := hend
            cases ending <;> rfl
      · obtain ⟨out, rest, s', hread, hout, rfl, hs'⟩ := h.gives s data size hs hdata hsize
        have hpos := List.length_pos_iff.2 hout
        simp only [List.length_append, List.length_cons] at hlength
        rw [readToEnd_cons_of_ok hread hout, ih hs' hrest (by omega)]
        cases ending <;> rfl

/-- **Whatever is read, is read in order**, and a read gives out nothing exactly when all has been
given out. -/
theorem Delivers.reads_eq (h : Delivers read Holds none) {s : σ} {data : List β}
    {sizes : List ℕ} (hs : Holds s data) (hsizes : ∀ size ∈ sizes, 0 < size) :
    ∃ outs, reads read s sizes = outs.map .ok ∧ outs.flatten <+: data ∧
      (∀ before out after, outs = before ++ out :: after →
        (out = [] ↔ before.flatten = data)) ∧
      (data.length ≤ sizes.length → outs.flatten = data) := by
  induction sizes generalizing s data with
  | nil =>
      refine ⟨[], rfl, List.nil_prefix, by simp, fun hlength => ?_⟩
      exact (List.eq_nil_of_length_eq_zero (Nat.le_zero.1 hlength)).symm
  | cons size sizes ih =>
      obtain ⟨hsize, hrest⟩ := List.forall_mem_cons.1 hsizes
      by_cases hdata : data = []
      · subst hdata
        obtain ⟨outs, houts, hprefix, hends, -⟩ := ih (h.stays rfl s size hs hsize) hrest
        have hnil : outs.flatten = [] := List.prefix_nil.1 hprefix
        refine ⟨[] :: outs, ?_, by simpa using hnil, ?_, fun _ => by simpa using hnil⟩
        · rw [reads, h.ends s size hs hsize, houts]
          rfl
        · intro before out after heq
          cases before with
          | nil => simp [(List.cons.inj heq).1]
          | cons first before =>
              obtain ⟨rfl, heq'⟩ := List.cons.inj heq
              exact (hends before out after heq').trans (by simp)
      · obtain ⟨out, rest, s', hread, hout, rfl, hs'⟩ := h.gives s data size hs hdata hsize
        obtain ⟨outs, houts, hprefix, hends, hall⟩ := ih hs' hrest
        have hpos := List.length_pos_iff.2 hout
        refine ⟨out :: outs, ?_, ?_, ?_, fun hlength => ?_⟩
        · rw [reads, hread, houts]
          rfl
        · rw [List.flatten_cons]
          exact (List.prefix_append_right_inj out).2 hprefix
        · intro before other after heq
          cases before with
          | nil =>
              obtain ⟨rfl, -⟩ := List.cons.inj heq
              exact iff_of_false hout fun hnil => hdata hnil.symm
          | cons first before =>
              obtain ⟨rfl, heq'⟩ := List.cons.inj heq
              rw [List.flatten_cons, List.append_right_inj]
              exact hends before other after heq'
        · simp only [List.length_append, List.length_cons] at hlength
          rw [List.flatten_cons, hall (by omega)]

end Reading
