/-
# Text in comma-separated form

A sheet is written line by line: the cells of a row with commas between them, then a line
break, which the last row may do without.  A cell is plain, free of quotes, commas and line
breaks, or it is in quotes, the quotes inside it doubled.  Behind a closing quote there should
be nothing; what a lenient reader may find there is kept with the cell (`Cell.quoted`).

A text has at most one sheet (`Sheet.text_injective`).  One that has none stops at a quote
where none belongs (`Stray`) or in the middle of a quoted cell (`Unterminated`); one of the
three always holds (`sheet_or_stray_or_unterminated`).
-/

import Mathlib.Data.List.Basic

namespace Csv

/-- What ends a line. -/
inductive Break
  | lf
  | cr
  | crlf
  deriving DecidableEq, Repr

def Break.text : Break → List Char
  | .lf => ['\n']
  | .cr => ['\r']
  | .crlf => ['\r', '\n']

/-- Whether a character may stand in a plain cell. -/
def isPlain (c : Char) : Bool := c ≠ '"' && c ≠ ',' && c ≠ '\n' && c ≠ '\r'

/-- Characters with the quotes among them doubled. -/
def escape : List Char → List Char
  | [] => []
  | c :: cs => if c = '"' then '"' :: '"' :: escape cs else c :: escape cs

/-- A cell as it is written: plain, or in quotes with what stands behind the closing quote. -/
inductive Cell
  | plain (chars : List Char)
  | quoted (chars after : List Char)
  deriving DecidableEq, Repr

namespace Cell

def text : Cell → List Char
  | plain chars => chars
  | quoted chars after => '"' :: (escape chars ++ '"' :: after)

/-- What the cell holds, with what stands behind a closing quote. -/
def value : Cell → List Char
  | plain chars => chars
  | quoted chars after => chars ++ after

/-- What is not in quotes is plain. -/
def Valid : Cell → Prop
  | plain chars => ∀ c ∈ chars, isPlain c
  | quoted _ after => ∀ c ∈ after, isPlain c

/-- Nothing stands behind the closing quote. -/
def Closed : Cell → Prop
  | plain _ => True
  | quoted _ after => after = []

end Cell

/-- A row of cells, with commas between them. -/
def rowText : List Cell → List Char
  | [] => []
  | [cell] => cell.text
  | cell :: next :: cells => cell.text ++ ',' :: rowText (next :: cells)

/-- Rows with what ends their lines. -/
def linesText (lines : List (List Cell × Break)) : List Char :=
  lines.flatMap fun line => rowText line.1 ++ line.2.text

/-- Lines in front of a text: rows of cells that are valid, and no line ends in the first half of
a CRLF. -/
def LinesBefore : List (List Cell × Break) → List Char → Prop
  | [], _ => True
  | line :: lines, rest =>
      (line.1 ≠ [] ∧ ∀ cell ∈ line.1, cell.Valid) ∧
        (line.2 = .cr → (linesText lines ++ rest).head? ≠ some '\n') ∧ LinesBefore lines rest

/-- A sheet as it is written: its lines, and the row after the last line break, if there is
one. -/
structure Sheet where
  lines : List (List Cell × Break)
  last : List Cell
  linesBefore : LinesBefore lines (rowText last)
  valid : ∀ cell ∈ last, cell.Valid
  ends : last = [] ∨ rowText last ≠ []

namespace Sheet

def text (sheet : Sheet) : List Char := linesText sheet.lines ++ rowText sheet.last

/-- The rows of a sheet. -/
def rows (sheet : Sheet) : List (List Cell) :=
  sheet.lines.map Prod.fst ++ if sheet.last = [] then [] else [sheet.last]

/-- What the cells hold. -/
def values (sheet : Sheet) : List (List (List Char)) := sheet.rows.map (·.map Cell.value)

/-- Nothing stands behind a closing quote. -/
def Closed (sheet : Sheet) : Prop := ∀ row ∈ sheet.rows, ∀ cell ∈ row, cell.Closed

end Sheet

/-- Cells in front of more of the same row. -/
def cellsText (cells : List Cell) : List Char := cells.flatMap fun cell => cell.text ++ [',']

/-- A quote right behind what is written of the cell would be stray. -/
def Cell.RefusesQuote : Cell → Prop
  | plain chars => chars ≠ []
  | quoted _ after => after ≠ []

/-- The row has a quote where none belongs: in a plain cell, or in what stands behind a closing
quote. -/
def StrayRow (text : List Char) : Prop :=
  ∃ cells, ∃ cell : Cell, ∃ rest, text = cellsText cells ++ (cell.text ++ '"' :: rest) ∧
    (∀ other ∈ cells, other.Valid) ∧ cell.Valid ∧ cell.RefusesQuote

/-- The text ends in a quoted cell of the row. -/
def UnterminatedRow (text : List Char) : Prop :=
  ∃ cells chars, text = cellsText cells ++ '"' :: escape chars ∧ ∀ other ∈ cells, other.Valid

/-- After some lines there is a quote where none belongs. -/
def Stray (text : List Char) : Prop :=
  ∃ lines rest, text = linesText lines ++ rest ∧ LinesBefore lines rest ∧ StrayRow rest

/-- After some lines the text ends in a quoted cell. -/
def Unterminated (text : List Char) : Prop :=
  ∃ lines rest, text = linesText lines ++ rest ∧ LinesBefore lines rest ∧ UnterminatedRow rest

/-! ### Where cells and rows end -/

/-- The text does not go on with a plain character. -/
def Stops (text : List Char) : Prop := ∀ c ∈ text.head?, isPlain c = false

/-- The text is over or goes on with a line break. -/
def AtBreak (text : List Char) : Prop := ∀ c ∈ text.head?, c = '\n' ∨ c = '\r'

/-- The text is over, or the next cell or line comes. -/
def Ends (text : List Char) : Prop := ∀ c ∈ text.head?, c = ',' ∨ c = '\n' ∨ c = '\r'

theorem AtBreak.ends {text : List Char} (h : AtBreak text) : Ends text := fun c hc =>
  Or.inr (h c hc)

theorem Ends.stops {text : List Char} (h : Ends text) : Stops text := fun c hc => by
  rcases h c hc with rfl | rfl | rfl <;> decide

theorem Ends.no_quote {text : List Char} (h : Ends text) : text.head? ≠ some '"' := fun hquote => by
  have := h _ hquote
  simp at this

theorem atBreak_nil : AtBreak [] := fun _ hc => absurd hc (by simp)

theorem atBreak_break (brk : Break) (rest : List Char) : AtBreak (brk.text ++ rest) := by
  cases brk <;> simp [AtBreak, Break.text]

theorem ends_comma (rest : List Char) : Ends (',' :: rest) := fun c hc => by
  simp only [List.head?_cons, Option.mem_some_iff] at hc
  exact Or.inl hc.symm

theorem Break.text_ne_nil (brk : Break) : brk.text ≠ [] := by cases brk <;> simp [Break.text]

/-- Plain characters are read up to where they stop. -/
theorem plain_injective {chars chars' rest rest' : List Char} (h : ∀ c ∈ chars, isPlain c)
    (h' : ∀ c ∈ chars', isPlain c) (hrest : Stops rest) (hrest' : Stops rest')
    (heq : chars ++ rest = chars' ++ rest') : chars = chars' ∧ rest = rest' := by
  induction chars generalizing chars' with
  | nil =>
      cases chars' with
      | nil => exact ⟨rfl, heq⟩
      | cons c cs =>
          subst heq
          exact absurd (h' c (List.mem_cons_self ..)) (by simp [hrest c rfl])
  | cons c cs ih =>
      obtain ⟨hc, hcs⟩ := List.forall_mem_cons.1 h
      cases chars' with
      | nil =>
          subst heq
          exact absurd hc (by simp [hrest' c rfl])
      | cons c' cs' =>
          obtain ⟨rfl, htail⟩ := List.cons_eq_cons.1 heq
          obtain ⟨rfl, rfl⟩ := ih hcs (List.forall_mem_cons.1 h').2 htail
          exact ⟨rfl, rfl⟩

/-- Quoted characters are read up to the first quote that no other follows. -/
theorem escape_injective {chars chars' rest rest' : List Char} (hrest : rest.head? ≠ some '"')
    (hrest' : rest'.head? ≠ some '"')
    (heq : escape chars ++ '"' :: rest = escape chars' ++ '"' :: rest') :
    chars = chars' ∧ rest = rest' := by
  induction chars generalizing chars' with
  | nil =>
      cases chars' with
      | nil => exact ⟨rfl, (List.cons_eq_cons.1 heq).2⟩
      | cons c cs =>
          by_cases hc : c = '"'
          · simp only [escape, hc, if_true, List.nil_append, List.cons_append] at heq
            exact absurd (by rw [(List.cons_eq_cons.1 heq).2]; rfl) hrest
          · simp only [escape, hc, if_false, List.nil_append, List.cons_append] at heq
            exact absurd (List.cons_eq_cons.1 heq).1.symm hc
  | cons c cs ih =>
      cases chars' with
      | nil =>
          by_cases hc : c = '"'
          · simp only [escape, hc, if_true, List.nil_append, List.cons_append] at heq
            exact absurd (by rw [← (List.cons_eq_cons.1 heq).2]; rfl) hrest'
          · simp only [escape, hc, if_false, List.nil_append, List.cons_append] at heq
            exact absurd (List.cons_eq_cons.1 heq).1 hc
      | cons c' cs' =>
          by_cases hc : c = '"' <;> by_cases hc' : c' = '"' <;>
            simp only [escape, hc, hc', if_true, if_false, List.cons_append,
              List.cons_eq_cons] at heq
          · obtain ⟨rfl, rfl⟩ := ih heq.2.2
            exact ⟨by rw [hc, hc'], rfl⟩
          · exact absurd heq.1.symm hc'
          · exact heq.1.elim
          · obtain ⟨rfl, rfl⟩ := ih heq.2
            exact ⟨by rw [heq.1], rfl⟩

/-- What stands behind a closing quote does not begin with a quote. -/
theorem head?_after_ne {after rest : List Char} (h : ∀ c ∈ after, isPlain c) (hrest : Ends rest) :
    (after ++ rest).head? ≠ some '"' := by
  cases after with
  | nil => exact hrest.no_quote
  | cons c cs =>
      intro hquote
      obtain rfl := Option.some.inj hquote
      exact absurd (h '"' (List.mem_cons_self ..)) (by decide)

/-- **A cell is read in one way.** -/
theorem cell_injective {cell cell' : Cell} {rest rest' : List Char} (h : cell.Valid)
    (h' : cell'.Valid) (hrest : Ends rest) (hrest' : Ends rest')
    (heq : cell.text ++ rest = cell'.text ++ rest') : cell = cell' ∧ rest = rest' := by
  cases cell with
  | plain chars =>
      cases cell' with
      | plain chars' =>
          obtain ⟨rfl, rfl⟩ := plain_injective h h' hrest.stops hrest'.stops heq
          exact ⟨rfl, rfl⟩
      | quoted chars' after' =>
          exact absurd (congrArg List.head? heq) (head?_after_ne h hrest)
  | quoted chars after =>
      cases cell' with
      | plain chars' =>
          exact absurd (congrArg List.head? heq).symm (head?_after_ne h' hrest')
      | quoted chars' after' =>
          have htail : escape chars ++ '"' :: after ++ rest =
              escape chars' ++ '"' :: after' ++ rest' := (List.cons_eq_cons.1 heq).2
          rw [List.append_assoc, List.append_assoc, List.cons_append, List.cons_append] at htail
          obtain ⟨rfl, hafter⟩ := escape_injective (head?_after_ne h hrest)
            (head?_after_ne h' hrest') htail
          obtain ⟨rfl, rfl⟩ := plain_injective h h' hrest.stops hrest'.stops hafter
          exact ⟨rfl, rfl⟩

/-- **A row is read in one way.** -/
theorem row_injective {row row' : List Cell} {rest rest' : List Char} (hne : row ≠ [])
    (hne' : row' ≠ []) (h : ∀ cell ∈ row, cell.Valid) (h' : ∀ cell ∈ row', cell.Valid)
    (hrest : AtBreak rest) (hrest' : AtBreak rest')
    (heq : rowText row ++ rest = rowText row' ++ rest') : row = row' ∧ rest = rest' := by
  induction row generalizing row' with
  | nil => exact absurd rfl hne
  | cons cell cells ih =>
      obtain ⟨hcell, hcells⟩ := List.forall_mem_cons.1 h
      cases row' with
      | nil => exact absurd rfl hne'
      | cons cell' cells' =>
          obtain ⟨hcell', hcells'⟩ := List.forall_mem_cons.1 h'
          cases cells with
          | nil =>
              cases cells' with
              | nil =>
                  obtain ⟨rfl, rfl⟩ := cell_injective hcell hcell' hrest.ends hrest'.ends heq
                  exact ⟨rfl, rfl⟩
              | cons next' cells' =>
                  simp only [rowText, List.append_assoc, List.cons_append] at heq
                  obtain ⟨-, rfl⟩ := cell_injective hcell hcell' hrest.ends (ends_comma _) heq
                  have := hrest ',' rfl
                  simp at this
          | cons next cells =>
              cases cells' with
              | nil =>
                  simp only [rowText, List.append_assoc, List.cons_append] at heq
                  obtain ⟨-, rfl⟩ := cell_injective hcell hcell' (ends_comma _) hrest'.ends heq
                  have := hrest' ',' rfl
                  simp at this
              | cons next' cells' =>
                  simp only [rowText, List.append_assoc, List.cons_append] at heq
                  obtain ⟨rfl, htail⟩ :=
                    cell_injective hcell hcell' (ends_comma _) (ends_comma _) heq
                  obtain ⟨hsame, rfl⟩ := ih (List.cons_ne_nil _ _) (List.cons_ne_nil _ _) hcells
                    hcells' (List.cons_eq_cons.1 htail).2
                  exact ⟨by rw [hsame], rfl⟩

/-- A line break is read in one way, if none ends in the first half of a CRLF. -/
theorem break_injective {brk brk' : Break} {rest rest' : List Char}
    (h : brk = .cr → rest.head? ≠ some '\n') (h' : brk' = .cr → rest'.head? ≠ some '\n')
    (heq : brk.text ++ rest = brk'.text ++ rest') : brk = brk' ∧ rest = rest' := by
  cases brk <;> cases brk' <;>
    simp only [Break.text, List.cons_append, List.nil_append, List.cons_eq_cons, true_and] at heq
  case lf.lf => exact ⟨rfl, heq⟩
  case cr.cr => exact ⟨rfl, heq⟩
  case crlf.crlf => exact ⟨rfl, heq⟩
  case cr.crlf => exact absurd (by rw [heq]; rfl) (h rfl)
  case crlf.cr => exact absurd (by rw [← heq]; rfl) (h' rfl)
  all_goals simp at heq

theorem linesText_cons (line : List Cell × Break) (lines : List (List Cell × Break)) :
    linesText (line :: lines) = rowText line.1 ++ (line.2.text ++ linesText lines) := by
  rw [linesText, List.flatMap_cons, List.append_assoc]
  rfl

/-- **A text has at most one sheet.** -/
theorem Sheet.text_injective {sheet sheet' : Sheet} (heq : sheet.text = sheet'.text) :
    sheet = sheet' := by
  obtain ⟨lines, last, hlines, hvalid, hends⟩ := sheet
  obtain ⟨lines', last', hlines', hvalid', hends'⟩ := sheet'
  suffices hsame : lines = lines' ∧ last = last' by
    obtain ⟨rfl, rfl⟩ := hsame
    rfl
  simp only [Sheet.text] at heq
  induction lines generalizing lines' with
  | nil =>
      cases lines' with
      | nil =>
          refine ⟨rfl, ?_⟩
          simp only [linesText, List.flatMap_nil, List.nil_append] at heq
          rcases hends with rfl | hne
          · rcases hends' with rfl | hne'
            · rfl
            · exact absurd heq.symm hne'
          · have hlast : last ≠ [] := fun h => hne (by rw [h]; rfl)
            have hlast' : last' ≠ [] := fun h => hne (by rw [heq, h]; rfl)
            exact (row_injective hlast hlast' hvalid hvalid' atBreak_nil atBreak_nil
              (by rw [heq])).1
      | cons line' lines' =>
          rw [linesText_cons, List.append_assoc, List.append_assoc] at heq
          simp only [linesText, List.flatMap_nil, List.nil_append] at heq
          obtain ⟨⟨hne', hrow'⟩, -, -⟩ := hlines'
          rcases hends with rfl | hne
          · exact absurd heq.symm (by simp [rowText, Break.text_ne_nil])
          · have hlast : last ≠ [] := fun h => hne (by rw [h]; rfl)
            have := (row_injective hlast hne' hvalid hrow' atBreak_nil (atBreak_break _ _)
              ((List.append_nil _).trans heq)).2
            exact absurd this.symm (by simp [Break.text_ne_nil])
  | cons line lines ih =>
      obtain ⟨⟨hne, hrow⟩, hcr, hlines⟩ := hlines
      cases lines' with
      | nil =>
          rw [linesText_cons, List.append_assoc, List.append_assoc] at heq
          simp only [linesText, List.flatMap_nil, List.nil_append] at heq
          rcases hends' with rfl | hne'
          · exact absurd heq (by simp [rowText, Break.text_ne_nil])
          · have hlast' : last' ≠ [] := fun h => hne' (by rw [h]; rfl)
            have := (row_injective hne hlast' hrow hvalid' (atBreak_break _ _) atBreak_nil
              (heq.trans (List.append_nil _).symm)).2
            exact absurd this (by simp [Break.text_ne_nil])
      | cons line' lines' =>
          obtain ⟨⟨hne', hrow'⟩, hcr', hlines'⟩ := hlines'
          rw [linesText_cons, linesText_cons, List.append_assoc, List.append_assoc,
            List.append_assoc, List.append_assoc] at heq
          obtain ⟨hsame, htail⟩ := row_injective hne hne' hrow hrow' (atBreak_break _ _)
            (atBreak_break _ _) heq
          obtain ⟨hbreak, htail⟩ := break_injective hcr hcr' htail
          obtain ⟨rfl, rfl⟩ := ih hlines _ hlines' htail
          exact ⟨by rw [show line = line' from Prod.ext hsame hbreak], rfl⟩

/-! ### Every text -/

/-- A text with no end of a quoted cell, or up to the first one. -/
theorem exists_escape (text : List Char) :
    (∃ chars, text = escape chars) ∨
      ∃ chars rest, text = escape chars ++ '"' :: rest ∧ rest.head? ≠ some '"' := by
  induction hlength : text.length using Nat.strongRecOn generalizing text with
  | _ n ih =>
      cases text with
      | nil => exact Or.inl ⟨[], rfl⟩
      | cons c text =>
          by_cases hc : c = '"'
          · subst hc
            cases text with
            | nil => exact Or.inr ⟨[], [], rfl, by simp⟩
            | cons d text =>
                by_cases hd : d = '"'
                · subst hd
                  rcases ih text.length (by simp at hlength; omega) text rfl with
                    ⟨chars, rfl⟩ | ⟨chars, rest, rfl, hrest⟩
                  · exact Or.inl ⟨'"' :: chars, by simp [escape]⟩
                  · exact Or.inr ⟨'"' :: chars, rest, by simp [escape], hrest⟩
                · exact Or.inr ⟨[], d :: text, rfl, by simpa using hd⟩
          · rcases ih text.length (by simp at hlength; omega) text rfl with
              ⟨chars, rfl⟩ | ⟨chars, rest, rfl, hrest⟩
            · exact Or.inl ⟨c :: chars, by simp [escape, hc]⟩
            · exact Or.inr ⟨c :: chars, rest, by simp [escape, hc], hrest⟩

/-- Plain characters, and where they stop. -/
theorem exists_plain (text : List Char) :
    ∃ chars rest, text = chars ++ rest ∧ (∀ c ∈ chars, isPlain c) ∧
      (Ends rest ∨ ∃ tail, rest = '"' :: tail) := by
  induction text with
  | nil => exact ⟨[], [], rfl, by simp, Or.inl atBreak_nil.ends⟩
  | cons c text ih =>
      by_cases hc : isPlain c
      · obtain ⟨chars, rest, rfl, hchars, hrest⟩ := ih
        exact ⟨c :: chars, rest, rfl, List.forall_mem_cons.2 ⟨hc, hchars⟩, hrest⟩
      · refine ⟨[], c :: text, rfl, by simp, ?_⟩
        by_cases hquote : c = '"'
        · exact Or.inr ⟨text, by rw [hquote]⟩
        · refine Or.inl fun d hd => ?_
          obtain rfl := Option.some.inj hd
          simp only [isPlain, Bool.and_eq_true, decide_eq_true_eq] at hc
          by_contra hends
          rw [not_or, not_or] at hends
          exact hc ⟨⟨⟨hquote, hends.1⟩, hends.2.1⟩, hends.2.2⟩

/-- The start of a cell: it does not end, or it ends where it may or at a stray quote. -/
theorem exists_cell (text : List Char) :
    (∃ chars, text = '"' :: escape chars) ∨
      ∃ cell : Cell, ∃ rest, text = cell.text ++ rest ∧ cell.Valid ∧
        (Ends rest ∨ cell.RefusesQuote ∧ ∃ tail, rest = '"' :: tail) := by
  by_cases hquote : ∃ tail, text = '"' :: tail
  · obtain ⟨tail, rfl⟩ := hquote
    rcases exists_escape tail with ⟨chars, rfl⟩ | ⟨chars, rest, rfl, hrest⟩
    · exact Or.inl ⟨chars, rfl⟩
    · obtain ⟨after, rest, rfl, hafter, hends⟩ := exists_plain rest
      refine Or.inr ⟨.quoted chars after, rest, by simp [Cell.text], hafter, hends.imp_right ?_⟩
      rintro ⟨tail, rfl⟩
      refine ⟨fun hnil => ?_, tail, rfl⟩
      rw [hnil] at hrest
      exact hrest rfl
  · obtain ⟨chars, rest, rfl, hchars, hends⟩ := exists_plain text
    refine Or.inr ⟨.plain chars, rest, rfl, hchars, hends.imp_right ?_⟩
    rintro ⟨tail, rfl⟩
    refine ⟨fun hnil => ?_, tail, rfl⟩
    rw [hnil] at hquote
    exact hquote ⟨tail, rfl⟩

theorem cellsText_cons (cell : Cell) (cells : List Cell) :
    cellsText (cell :: cells) = cell.text ++ ',' :: cellsText cells := by
  simp [cellsText]

/-- The start of a row: it ends at a break or with the text, or it is spoilt. -/
theorem exists_row (text : List Char) :
    (∃ row rest, text = rowText row ++ rest ∧ row ≠ [] ∧ (∀ cell ∈ row, cell.Valid) ∧
      AtBreak rest) ∨ StrayRow text ∨ UnterminatedRow text := by
  induction hlength : text.length using Nat.strongRecOn generalizing text with
  | _ n ih =>
      rcases exists_cell text with ⟨chars, rfl⟩ | ⟨cell, rest, rfl, hcell, hends⟩
      · exact Or.inr (Or.inr ⟨[], chars, rfl, by simp⟩)
      · rcases hends with hends | ⟨hrefuses, tail, rfl⟩
        · cases rest with
          | nil => exact Or.inl ⟨[cell], [], rfl, by simp, by simpa using hcell, atBreak_nil⟩
          | cons c rest =>
              by_cases hcomma : c = ','
              · subst hcomma
                rcases ih rest.length (by simp at hlength; omega) rest rfl with
                  ⟨row, rest, rfl, hne, hrow, hbreak⟩ |
                    ⟨cells, other, rest, rfl, hcells, hother⟩ | ⟨cells, chars, rfl, hcells⟩
                · obtain ⟨next, row, rfl⟩ := List.exists_cons_of_ne_nil hne
                  exact Or.inl ⟨cell :: next :: row, rest, by simp [rowText], by simp,
                    List.forall_mem_cons.2 ⟨hcell, hrow⟩, hbreak⟩
                · exact Or.inr (Or.inl ⟨cell :: cells, other, rest, by simp [cellsText_cons],
                    List.forall_mem_cons.2 ⟨hcell, hcells⟩, hother⟩)
                · exact Or.inr (Or.inr ⟨cell :: cells, chars, by simp [cellsText_cons],
                    List.forall_mem_cons.2 ⟨hcell, hcells⟩⟩)
              · refine Or.inl ⟨[cell], c :: rest, rfl, by simp, by simpa using hcell, ?_⟩
                intro d hd
                exact (hends d hd).resolve_left fun h => hcomma ((Option.some.inj hd).trans h)
        · exact Or.inr (Or.inl ⟨[], cell, tail, rfl, by simp, hcell, hrefuses⟩)

/-- What is at a break: the break, or the end. -/
theorem AtBreak.cases {text : List Char} (h : AtBreak text) :
    text = [] ∨ ∃ brk : Break, ∃ rest, text = brk.text ++ rest ∧
      (brk = .cr → rest.head? ≠ some '\n') := by
  cases text with
  | nil => exact Or.inl rfl
  | cons c text =>
      refine Or.inr ?_
      rcases h c rfl with rfl | rfl
      · exact ⟨.lf, text, rfl, fun h => by cases h⟩
      · by_cases hlf : ∃ rest, text = '\n' :: rest
        · obtain ⟨rest, rfl⟩ := hlf
          exact ⟨.crlf, rest, rfl, fun h => by cases h⟩
        · refine ⟨.cr, text, rfl, fun _ hhead => hlf ?_⟩
          obtain ⟨rest, hrest⟩ := List.head?_eq_some_iff.1 hhead
          exact ⟨rest, hrest⟩

/-- **Every text** has a sheet, or stops at a stray quote, or ends inside quotes. -/
theorem sheet_or_stray_or_unterminated (text : List Char) :
    (∃ sheet : Sheet, text = sheet.text) ∨ Stray text ∨ Unterminated text := by
  induction hlength : text.length using Nat.strongRecOn generalizing text with
  | _ n ih =>
      rcases exists_row text with ⟨row, rest, rfl, hne, hrow, hbreak⟩ | hstray | hopen
      · rcases hbreak.cases with rfl | ⟨brk, rest, rfl, hcr⟩
        · by_cases hnil : rowText row = []
          · exact Or.inl ⟨⟨[], [], trivial, by simp, Or.inl rfl⟩, by rw [hnil]; rfl⟩
          · exact Or.inl ⟨⟨[], row, trivial, hrow, Or.inr hnil⟩, by
              simp [Sheet.text, linesText]⟩
        · have hbreakLength := List.length_pos_iff.2 brk.text_ne_nil
          rcases ih rest.length (by simp at hlength; omega) rest rfl with
            ⟨sheet, rfl⟩ | ⟨lines, rest, rfl, hlines, hstray⟩ | ⟨lines, rest, rfl, hlines, hopen⟩
          · refine Or.inl ⟨⟨(row, brk) :: sheet.lines, sheet.last, ⟨⟨hne, hrow⟩, hcr,
              sheet.linesBefore⟩, sheet.valid, sheet.ends⟩, ?_⟩
            simp [Sheet.text, linesText_cons]
          · refine Or.inr (Or.inl ⟨(row, brk) :: lines, rest, ?_, ⟨⟨hne, hrow⟩, hcr, hlines⟩,
              hstray⟩)
            simp [linesText_cons]
          · refine Or.inr (Or.inr ⟨(row, brk) :: lines, rest, ?_, ⟨⟨hne, hrow⟩, hcr, hlines⟩,
              hopen⟩)
            simp [linesText_cons]
      · exact Or.inr (Or.inl ⟨[], text, rfl, trivial, hstray⟩)
      · exact Or.inr (Or.inr ⟨[], text, rfl, trivial, hopen⟩)

end Csv
