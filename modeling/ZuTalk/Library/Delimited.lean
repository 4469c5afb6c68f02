/-
# Text in lines and cells

Lines that each end with a line feed are told apart again by splitting at it
(`splitOn_unlines`); so are paragraphs with an empty line between them (`splitOn_paragraphs`).
Read the other way, `blocks` are the runs of lines between empty ones: a block is read back where
it has no empty line (`blocks_append`), and no block that is read has one (`not_mem_of_mem_blocks`).
Cells that may have any character are written with the delimiter inside them escaped, and so is
the escape: `pieces` reads both, and gives back what was written (`pieces_escaped_append`).
-/

import Mathlib.Data.List.Basic

namespace Delimited

/-- Lines, each with the line feed that ends it. -/
def unlines (lines : List (List Char)) : List Char := lines.flatMap (· ++ ['\n'])

@[simp] theorem unlines_nil : unlines [] = [] := rfl

@[simp] theorem unlines_cons (line : List Char) (lines : List (List Char)) :
    unlines (line :: lines) = line ++ '\n' :: unlines lines := by
  simp [unlines]

theorem unlines_append (lines lines' : List (List Char)) :
    unlines (lines ++ lines') = unlines lines ++ unlines lines' := List.flatMap_append

theorem unlines_eq (lines : List (List Char)) :
    unlines lines = ['\n'].intercalate (lines ++ [[]]) := by
  induction lines with
  | nil => rfl
  | cons line lines ih =>
      rw [unlines_cons, ih]
      cases lines <;> simp [List.intercalate, List.intersperse]

/-- **Lines are read back** by splitting at line feeds. -/
theorem splitOn_unlines {lines : List (List Char)} (h : ∀ line ∈ lines, '\n' ∉ line) :
    (unlines lines).splitOn '\n' = lines ++ [[]] := by
  rw [unlines_eq, List.splitOn_intercalate]
  · intro line hline
    rcases List.mem_append.1 hline with hline | hline
    · exact h line hline
    · rw [List.mem_singleton.1 hline]
      exact List.not_mem_nil
  · simp

theorem intercalate_append {separator : List Char} {lines lines' : List (List Char)}
    (h : lines ≠ []) (h' : lines' ≠ []) :
    separator.intercalate (lines ++ lines') =
      separator.intercalate lines ++ separator ++ separator.intercalate lines' := by
  induction lines with
  | nil => exact absurd rfl h
  | cons line lines ih =>
      cases lines with
      | nil =>
          obtain ⟨next, rest, rfl⟩ := List.exists_cons_of_ne_nil h'
          simp
      | cons next lines =>
          have hrest := ih (List.cons_ne_nil _ _)
          rw [List.cons_append] at hrest
          rw [List.cons_append, List.cons_append, List.intercalate_cons_cons, hrest,
            List.intercalate_cons_cons]
          simp

theorem not_mem_intercalate {c : Char} {separator : List Char} {lines : List (List Char)}
    (hseparator : c ∉ separator) (h : ∀ line ∈ lines, c ∉ line) :
    c ∉ separator.intercalate lines := by
  induction lines with
  | nil => simp
  | cons line lines ih =>
      obtain ⟨hline, hrest⟩ := List.forall_mem_cons.1 h
      cases lines with
      | nil => simpa using hline
      | cons next lines =>
          rw [List.intercalate_cons_cons]
          simp [hline, hseparator, ih hrest]

/-- Paragraphs with an empty line between them are lines. -/
theorem intercalate_paragraphs {paragraphs : List (List (List Char))}
    (h : ∀ lines ∈ paragraphs, lines ≠ []) :
    ['\n', '\n'].intercalate (paragraphs.map ['\n'].intercalate) =
      ['\n'].intercalate ([[]].intercalate paragraphs) := by
  induction paragraphs with
  | nil => rfl
  | cons lines paragraphs ih =>
      obtain ⟨hlines, hrest⟩ := List.forall_mem_cons.1 h
      cases paragraphs with
      | nil => simp
      | cons next paragraphs =>
          have hnext : [[]].intercalate (next :: paragraphs) ≠ [] := by
            cases paragraphs <;> simp [hrest]
          rw [List.map_cons, List.map_cons, List.intercalate_cons_cons, ← List.map_cons,
            ih hrest, List.intercalate_cons_cons, intercalate_append (by simp) hnext,
            intercalate_append hlines (by simp)]
          simp

/-- **Paragraphs are read back** by splitting at line feeds, an empty line between them. -/
theorem splitOn_paragraphs {paragraphs : List (List (List Char))}
    (hne : ∀ lines ∈ paragraphs, lines ≠ [])
    (hlines : ∀ lines ∈ paragraphs, ∀ line ∈ lines, '\n' ∉ line) (h : paragraphs ≠ []) :
    (['\n', '\n'].intercalate (paragraphs.map ['\n'].intercalate)).splitOn '\n' =
      [[]].intercalate paragraphs := by
  rw [intercalate_paragraphs hne, List.splitOn_intercalate]
  · intro line hline
    induction paragraphs with
    | nil => exact absurd rfl h
    | cons lines paragraphs ih =>
        obtain ⟨-, hneRest⟩ := List.forall_mem_cons.1 hne
        obtain ⟨hfirst, hrest⟩ := List.forall_mem_cons.1 hlines
        cases paragraphs with
        | nil => exact hfirst line (by simpa using hline)
        | cons next paragraphs =>
            rw [List.intercalate_cons_cons, List.mem_append, List.mem_append] at hline
            rcases hline with (hline | hline) | hline
            · exact hfirst line hline
            · rw [List.mem_singleton.1 hline]
              exact List.not_mem_nil
            · exact ih hneRest hrest (List.cons_ne_nil _ _) hline
  · obtain ⟨lines, paragraphs, rfl⟩ := List.exists_cons_of_ne_nil h
    cases paragraphs <;> simp [hne]

/-! ### Blocks of lines -/

/-- The blocks of lines between empty lines. -/
def blocks (lines : List (List Char)) : List (List (List Char)) :=
  (lines.splitOn []).filter (· ≠ [])

@[simp] theorem blocks_nil : blocks [] = [] := by
  simp [blocks]

/-- An empty line in front is no block. -/
theorem blocks_cons_nil (lines : List (List Char)) : blocks ([] :: lines) = blocks lines := by
  unfold blocks
  rw [List.splitOn_cons_eq_if_modifyHead, if_pos (beq_self_eq_true _), List.filter_cons_of_neg]
  simp

/-- **A block is read back** up to the empty line after it. -/
theorem blocks_append {block : List (List Char)} (hne : block ≠ []) (hblock : [] ∉ block)
    (lines : List (List Char)) : blocks (block ++ [] :: lines) = block :: blocks lines := by
  unfold blocks
  rw [List.splitOn_append_cons_self_of_not_mem hblock, List.filter_cons_of_pos (by simpa using hne)]

/-- What is between two delimiters does not have one. -/
theorem not_mem_of_mem_splitOn {α : Type*} [BEq α] [LawfulBEq α] {a : α} {items piece : List α}
    (h : piece ∈ items.splitOn a) : a ∉ piece := by
  induction items generalizing piece with
  | nil =>
      rw [List.splitOn_nil, List.mem_singleton] at h
      exact h ▸ List.not_mem_nil
  | cons item items ih =>
      rw [List.splitOn_cons_eq_if_modifyHead] at h
      split at h
      · rcases List.mem_cons.1 h with rfl | h
        · exact List.not_mem_nil
        · exact ih h
      · next hitem =>
          obtain ⟨first, rest, hsplit⟩ :=
            List.exists_cons_of_ne_nil (List.splitOn_ne_nil a items)
          rw [hsplit, List.modifyHead_cons] at h
          rcases List.mem_cons.1 h with rfl | h
          · have hfirst := ih (hsplit ▸ List.mem_cons_self)
            simpa [hfirst] using fun ha => hitem (by simp [ha])
          · exact ih (hsplit ▸ List.mem_cons_of_mem _ h)

/-- No block that is read has an empty line. -/
theorem not_mem_of_mem_blocks {lines block : List (List Char)} (h : block ∈ blocks lines) :
    [] ∉ block :=
  not_mem_of_mem_splitOn (List.mem_filter.1 h).1

/-- The lines of a block are lines of the text. -/
theorem mem_of_mem_blocks {lines block : List (List Char)} (h : block ∈ blocks lines)
    {line : List Char} (hline : line ∈ block) : line ∈ lines := by
  have hlines : [[]].intercalate (lines.splitOn []) = lines := List.intercalate_splitOn []
  rw [← hlines]
  have hsplit := (List.mem_filter.1 h).1
  generalize lines.splitOn [] = pieces at hsplit ⊢
  induction pieces with
  | nil => exact absurd hsplit List.not_mem_nil
  | cons piece pieces ih =>
      cases pieces with
      | nil =>
          rw [List.mem_singleton] at hsplit
          simpa [hsplit] using hline
      | cons next pieces =>
          rw [List.intercalate_cons_cons]
          rcases List.mem_cons.1 hsplit with rfl | hsplit
          · simp [hline]
          · simp [ih hsplit]

/-- Text without empty lines: it is empty, or none of its lines is. -/
def Plain (text : List Char) : Prop := text = [] ∨ [] ∉ text.splitOn '\n'

instance (text : List Char) : Decidable (Plain text) := inferInstanceAs (Decidable (_ ∨ _))

/-- The lines of a text; an empty text has none. -/
def linesOf (text : List Char) : List (List Char) := if text = [] then [] else text.splitOn '\n'

/-- Lines of a block, put together, are text without empty lines. -/
theorem plain_intercalate {lines : List (List Char)} (hempty : [] ∉ lines)
    (h : ∀ line ∈ lines, '\n' ∉ line) : Plain (['\n'].intercalate lines) := by
  rcases eq_or_ne lines [] with rfl | hne
  · exact Or.inl rfl
  · right
    rwa [List.splitOn_intercalate '\n' h hne]

theorem intercalate_linesOf (text : List Char) : ['\n'].intercalate (linesOf text) = text := by
  unfold linesOf
  split
  · next h => rw [h]; rfl
  · exact List.intercalate_splitOn '\n'

theorem unlines_splitOn (text : List Char) : unlines (text.splitOn '\n') = text ++ ['\n'] := by
  rw [unlines_eq, intercalate_append (List.splitOn_ne_nil _ _) (List.cons_ne_nil _ _),
    List.intercalate_splitOn]
  simp

/-- **Text without empty lines is read back** in a block, after the lines in front of it. -/
theorem blocks_head_append {head : List (List Char)} (hne : head ≠ []) (hhead : [] ∉ head)
    {text : List Char} (htext : Plain text) (lines : List (List Char)) :
    blocks (head ++ text.splitOn '\n' ++ [] :: lines) = (head ++ linesOf text) :: blocks lines := by
  rcases eq_or_ne text [] with rfl | htextne
  · rw [List.splitOn_nil, List.append_assoc, List.singleton_append, blocks_append hne hhead,
      blocks_cons_nil, linesOf, if_pos rfl, List.append_nil]
  · rw [linesOf, if_neg htextne, blocks_append (by simp [hne])]
    rw [List.mem_append, not_or]
    exact ⟨hhead, htext.resolve_left htextne⟩

/-! ### Texts below their heads -/

/-- Texts, each below the lines of its head, and an empty line after it. -/
def entries (items : List (List (List Char) × List Char)) : List Char :=
  items.flatMap fun (head, text) => unlines head ++ text ++ ['\n', '\n']

/-- The lines of the texts and their heads. -/
def entryLines (items : List (List (List Char) × List Char)) : List (List Char) :=
  items.flatMap fun (head, text) => head ++ text.splitOn '\n' ++ [[]]

/-- A head: lines that are not empty, and at least one. -/
structure IsHead (head : List (List Char)) : Prop where
  ne_nil : head ≠ []
  filled : [] ∉ head
  lines : ∀ line ∈ head, '\n' ∉ line

theorem entries_eq (items : List (List (List Char) × List Char)) :
    entries items = unlines (entryLines items) := by
  induction items with
  | nil => rfl
  | cons item items ih =>
      unfold entries entryLines at ih ⊢
      rw [List.flatMap_cons, List.flatMap_cons, ih, unlines_append, unlines_append, unlines_append,
        unlines_splitOn]
      simp

theorem newline_not_mem_entryLines {items : List (List (List Char) × List Char)}
    (h : ∀ item ∈ items, IsHead item.1) : ∀ line ∈ entryLines items, '\n' ∉ line := by
  intro line hline
  obtain ⟨item, hitem, hline⟩ := List.mem_flatMap.1 hline
  rcases List.mem_append.1 hline with hline | hline
  · rcases List.mem_append.1 hline with hline | hline
    · exact (h item hitem).lines line hline
    · exact not_mem_of_mem_splitOn hline
  · rw [List.mem_singleton.1 hline]
    exact List.not_mem_nil

/-- **Texts without empty lines are read back**, each in a block with its head. -/
theorem blocks_entryLines {items : List (List (List Char) × List Char)}
    (hhead : ∀ item ∈ items, IsHead item.1) (htext : ∀ item ∈ items, Plain item.2) :
    blocks (entryLines items ++ [[]]) = items.map fun (head, text) => head ++ linesOf text := by
  induction items with
  | nil => exact (blocks_cons_nil []).trans blocks_nil
  | cons item items ih =>
      obtain ⟨hfirst, hheads⟩ := List.forall_mem_cons.1 hhead
      obtain ⟨hplain, htexts⟩ := List.forall_mem_cons.1 htext
      have hlines : entryLines (item :: items) ++ [[]] =
          item.1 ++ item.2.splitOn '\n' ++ [] :: (entryLines items ++ [[]]) := by
        simp [entryLines]
      rw [hlines, blocks_head_append hfirst.ne_nil hfirst.filled hplain, ih hheads htexts]
      rfl

/-! ### Escaped cells -/

variable (delimiter escape : Char)

/-- Text with the delimiter and the escape escaped. -/
def escaped (text : List Char) : List Char :=
  text.flatMap fun c => if c = escape ∨ c = delimiter then [escape, c] else [c]

/-- A character in front of the first piece. -/
def prepend (c : Char) : List (List Char) → List (List Char)
  | [] => [[c]]
  | piece :: pieces => (c :: piece) :: pieces

/-- The pieces of a text between the delimiters that are not escaped, what is escaped read. -/
def pieces : List Char → List (List Char)
  | [] => [[]]
  | c :: rest =>
      if c = escape then
        match rest with
        | [] => [[c]]
        | d :: rest' => prepend d (pieces rest')
      else if c = delimiter then [] :: pieces rest
      else prepend c (pieces rest)

variable {delimiter escape} {c : Char} {text rest : List Char}

theorem pieces_delimiter (h : delimiter ≠ escape) :
    pieces delimiter escape (delimiter :: rest) = [] :: pieces delimiter escape rest := by
  rw [pieces.eq_def]
  simp [h]

theorem pieces_cons (hescape : c ≠ escape) (hdelimiter : c ≠ delimiter) :
    pieces delimiter escape (c :: rest) = prepend c (pieces delimiter escape rest) := by
  rw [pieces.eq_def]
  simp [hescape, hdelimiter]

theorem pieces_escape (c : Char) :
    pieces delimiter escape (escape :: c :: rest) =
      prepend c (pieces delimiter escape rest) := by
  rw [pieces.eq_def]
  simp

/-- **What is written escaped is read back** in front of the first piece. -/
theorem pieces_escaped_append (text rest : List Char) :
    pieces delimiter escape (escaped delimiter escape text ++ rest) =
      text.foldr prepend (pieces delimiter escape rest) := by
  induction text with
  | nil => rfl
  | cons c text ih =>
      unfold escaped at ih ⊢
      rw [List.flatMap_cons, List.append_assoc, List.foldr_cons, ← ih]
      by_cases hc : c = escape ∨ c = delimiter
      · rw [if_pos hc]
        exact pieces_escape c
      · rw [if_neg hc]
        rw [not_or] at hc
        exact pieces_cons hc.1 hc.2

theorem foldr_prepend (text piece : List Char) (pieces : List (List Char)) :
    text.foldr prepend (piece :: pieces) = (text ++ piece) :: pieces := by
  induction text with
  | nil => rfl
  | cons c text ih =>
      rw [List.foldr_cons, ih]
      rfl

end Delimited
