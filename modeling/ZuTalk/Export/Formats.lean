/-
# Exports of a transcript

`export_markdown`, `export_txt` and `export_clipboard_text` of `crates/vt-export/src/formats.rs`.

What is written for a transcript with language columns is lines that splitting at line feeds tells
apart, the rows of the table among them, each of which reads back to as many cells as there are
columns (`readRow_rowLine`).  The cells and the list below the table have the facts of the
utterances, each once, exactly where no two facts of an utterance meet in a column; the lines for
the clipboard have them always (`exports_keep_facts_iff`).
-/

import Mathlib.Data.List.Forall2
import ZuTalk.Export.Facts
import ZuTalk.Library.Delimited

namespace ZuTalk
namespace Export

open Delimited

/-! ### Cells -/

/-- `str::replace`, of characters. -/
def replaceChars (chars replacement text : List Char) : List Char :=
  text.flatMap fun c => if c ∈ chars then replacement else [c]

/-- `markdown_cell`. -/
def markdownCell (value : List Char) : List Char :=
  replaceChars ['\r', '\n'] ['<', 'b', 'r', '>']
    (replaceChars ['|'] ['\\', '|'] (replaceChars ['\\'] ['\\', '\\'] value))

/-- `txt_cell`. -/
def txtCell (value : List Char) : List Char := replaceChars ['\r', '\n', '\t'] [' '] value

/-- A number with zeros in front, up to a width. -/
def padded (width n : ℕ) : List Char :=
  List.replicate (width - (Nat.toDigits 10 n).length) '0' ++ Nat.toDigits 10 n

/-- `format_time_vtt`. -/
def formatTimeVtt (ms : ℕ) : List Char :=
  padded 2 (ms / 3600000) ++ ':' :: padded 2 (ms % 3600000 / 60000) ++
    ':' :: padded 2 (ms % 60000 / 1000) ++ '.' :: padded 3 (ms % 1000)

/-! ### Data -/

/-- `ExportToken`. -/
structure ExportToken where
  text : List Char
  startMs : ℕ
  endMs : ℕ

/-- `ExportTranscript`. -/
inductive ExportTranscript
  | asyncTokens (tokens : List ExportToken)
  | notebookCapture (leftLanguage : List Char) (rightLanguage : Option (List Char))
      (utterances : List ExportUtterance)
  | notebookCaptureLanguageColumns (languageColumns : List (List Char))
      (commonCaptionLanguage : Option (List Char)) (utterances : List ExportUtterance)

/-- `ExportData`. -/
structure ExportData where
  title : List Char
  transcript : ExportTranscript
  summary : Option (List Char)

/-- `ExportError`. -/
inductive ExportError
  | failed (message : List Char)

/-- `fixed_language_row`. -/
def fixedLanguageRow (utterance : ExportUtterance) (leftLanguage rightLanguage : List Char) :
    Option (List Char × List Char) :=
  let translatedLanguage := utterance.translatedLanguage.getD []
  let translatedText := utterance.translatedText.getD []
  if sameLanguage utterance.sourceLanguage leftLanguage then
    some (utterance.sourceText,
      if sameLanguage translatedLanguage rightLanguage then translatedText else [])
  else if sameLanguage utterance.sourceLanguage rightLanguage then
    some (if sameLanguage translatedLanguage leftLanguage then translatedText else [],
      utterance.sourceText)
  else none

/-! ### Markdown -/

/-- A row of a table. -/
def rowLine (cells : List (List Char)) : List Char :=
  ['|', ' '] ++ [' ', '|', ' '].intercalate cells ++ [' ', '|']

/-- The line of a fact that has no column, as `append_unrepresented_markdown` writes it. -/
def unrepresentedMarkdown (utterance : ExportUtterance) (fact : UtteranceFact) : List Char :=
  let label :=
    if fact.isSource then markdownCell (displayLanguage fact.language)
    else markdownCell (displayLanguage fact.language) ++ [' ', '(', '翻', '译', '自', ' '] ++
      markdownCell (displayLanguage utterance.sourceLanguage) ++ [')']
  ['-', ' ', '*', '*'] ++ label ++ ['*', '*', ':', ' '] ++ markdownCell fact.text

/-- The heading of the list below a table. -/
def othersHeading : List Char :=
  ['#', '#', '#', ' ', '其', '他', '语', '言', '内', '容']

/-- The part of `export_markdown` for a transcript. -/
def transcriptMarkdown : ExportTranscript → List Char
  | .asyncTokens tokens => tokens.flatMap fun token =>
      '[' :: formatTimeVtt token.startMs ++ [']', ' '] ++ token.text ++ ['\n', '\n']
  | .notebookCapture leftLanguage (some rightLanguage) utterances =>
      let outsidePair := utterances.filter fun utterance =>
        (fixedLanguageRow utterance leftLanguage rightLanguage).isNone
      rowLine [markdownCell leftLanguage, markdownCell rightLanguage] ++ ['\n'] ++
        rowLine [['-', '-', '-'], ['-', '-', '-']] ++ ['\n'] ++
        (utterances.filterMap (fixedLanguageRow · leftLanguage rightLanguage)).flatMap
          (fun row => rowLine [markdownCell row.1, markdownCell row.2] ++ ['\n']) ++ ['\n'] ++
        if outsidePair = [] then []
        else "### 其他语言\n\n".toList ++
          outsidePair.flatMap (fun utterance =>
            "- **".toList ++ markdownCell utterance.sourceLanguage ++ "**: ".toList ++
              markdownCell utterance.sourceText ++ ['\n']) ++ ['\n']
  | .notebookCapture leftLanguage none utterances => utterances.flatMap fun utterance =>
      (utterance.sourceStartMs.elim [] fun ms => '[' :: formatTimeVtt ms ++ [']', ' ']) ++
        ['*', '*'] ++ markdownCell (if utterance.sourceLanguage = [] then leftLanguage
          else utterance.sourceLanguage) ++ "**: ".toList ++
        markdownCell utterance.sourceText ++ ['\n', '\n']
  | .notebookCaptureLanguageColumns languageColumns _ utterances =>
      (if languageColumns = [] then []
        else rowLine (languageColumns.map markdownCell) ++ ['\n'] ++
          rowLine (List.replicate languageColumns.length ['-', '-', '-']) ++ ['\n'] ++
          (utterances.filterMap (orderedLanguageRow · languageColumns)).flatMap
            (fun cells => rowLine (cells.map markdownCell) ++ ['\n']) ++ ['\n']) ++
        if utterances.any (hasUnrepresentedFact · languageColumns) then
          othersHeading ++ ['\n', '\n'] ++
            utterances.flatMap (fun utterance =>
              (unrepresentedFacts utterance languageColumns).flatMap fun fact =>
                unrepresentedMarkdown utterance fact ++ ['\n']) ++ ['\n']
        else []

/-- `export_markdown`. -/
def exportMarkdown (data : ExportData) : Except ExportError (List Char) :=
  .ok ("# ".toList ++ data.title ++ "\n\n## 转录\n\n".toList ++
    transcriptMarkdown data.transcript ++
    data.summary.elim [] fun summary => "## 总结\n\n".toList ++ summary ++ ['\n'])

/-! ### Plain text -/

/-- The line of a fact that has no column, as `append_unrepresented_txt` writes it. -/
def unrepresentedTxt (utterance : ExportUtterance) (fact : UtteranceFact) : List Char :=
  let label :=
    if fact.isSource then txtCell (displayLanguage fact.language)
    else txtCell (displayLanguage fact.language) ++ [' ', '翻', '译', '自', ' '] ++
      txtCell (displayLanguage utterance.sourceLanguage)
  '[' :: label ++ [']', ' '] ++ txtCell fact.text

/-- A row with tabs between its cells. -/
def tabLine (cells : List (List Char)) : List Char := ['\t'].intercalate cells

/-- The part of `export_txt` for a transcript. -/
def transcriptTxt : ExportTranscript → List Char
  | .asyncTokens tokens => tokens.flatMap fun token => token.text ++ ['\n']
  | .notebookCapture leftLanguage (some rightLanguage) utterances =>
      leftLanguage ++ ['\t'] ++ rightLanguage ++ ['\n'] ++ utterances.flatMap fun utterance =>
        match fixedLanguageRow utterance leftLanguage rightLanguage with
        | some (left, right) => txtCell left ++ ['\t'] ++ txtCell right ++ ['\n']
        | none => '[' :: utterance.sourceLanguage ++ [']', ' '] ++
            txtCell utterance.sourceText ++ ['\n']
  | .notebookCapture leftLanguage none utterances => utterances.flatMap fun utterance =>
      '[' :: (if utterance.sourceLanguage = [] then leftLanguage else utterance.sourceLanguage) ++
        [']', ' '] ++ txtCell utterance.sourceText ++ ['\n']
  | .notebookCaptureLanguageColumns languageColumns _ utterances =>
      (if languageColumns = [] then []
        else tabLine (languageColumns.map txtCell) ++ ['\n'] ++
          (utterances.filterMap (orderedLanguageRow · languageColumns)).flatMap
            (fun cells => tabLine (cells.map txtCell) ++ ['\n'])) ++
        utterances.flatMap fun utterance =>
          (unrepresentedFacts utterance languageColumns).flatMap fun fact =>
            unrepresentedTxt utterance fact ++ ['\n']

/-- `export_txt`. -/
def exportTxt (data : ExportData) : Except ExportError (List Char) :=
  .ok (data.title ++ ['\n', '\n'] ++ transcriptTxt data.transcript ++
    data.summary.elim [] fun summary => "\n---\n\n".toList ++ summary ++ ['\n'])

/-! ### The clipboard -/

/-- `ClipboardUtterance`. -/
structure ClipboardUtterance where
  startMs : Option ℕ
  speakerName : Option (List Char)
  sourceLanguage : List Char
  sourceText : List Char
  translatedLanguage : Option (List Char)
  translatedText : Option (List Char)
  languageVariants : List ExportLanguageVariant

/-- `ClipboardTranscript`. -/
structure ClipboardTranscript where
  title : Option (List Char)
  languageColumns : List (List Char)
  utterances : List ClipboardUtterance

/-- The utterance that `clipboard_language_lines` takes the facts of. -/
def ClipboardUtterance.toExport (utterance : ClipboardUtterance) : ExportUtterance where
  sourceLanguage := utterance.sourceLanguage
  sourceText := utterance.sourceText
  sourceStartMs := utterance.startMs
  sourceEndMs := none
  translatedLanguage := utterance.translatedLanguage
  translatedText := utterance.translatedText
  languageVariants := utterance.languageVariants

/-- The line of a fact. -/
def clipboardLine (entry : List Char × UtteranceFact) : List Char :=
  txtCell (displayLanguage entry.1) ++ [':', ' '] ++ txtCell entry.2.text

/-- `clipboard_language_lines`. -/
def clipboardLanguageLines (utterance : ClipboardUtterance) (languageColumns : List (List Char)) :
    List (List Char) :=
  (clipboardFacts utterance.toExport languageColumns).map clipboardLine

/-- Text that is trimmed, and dropped where nothing is left. -/
def nonBlank (text : Option (List Char)) : Option (List Char) :=
  (text.map Text.trim).filter (· ≠ [])

/-- The line in front of the lines of an utterance, if it has one. -/
def paragraphHead (utterance : ClipboardUtterance) : List (List Char) :=
  match utterance.startMs, nonBlank utterance.speakerName with
  | some ms, some speaker => ['[' :: formatTimeVtt ms ++ [']', ' '] ++ txtCell speaker]
  | some ms, none => ['[' :: formatTimeVtt ms ++ [']']]
  | none, some speaker => [txtCell speaker]
  | none, none => []

/-- The paragraph of an utterance with its lines; an utterance without lines has none. -/
def paragraph (utterance : ClipboardUtterance) (lines : List (List Char)) :
    Option (List Char) :=
  if lines = [] then none else some (['\n'].intercalate (paragraphHead utterance ++ lines))

/-- `export_clipboard_text`. -/
def exportClipboardText (data : ClipboardTranscript) : List Char :=
  ['\n', '\n'].intercalate ((nonBlank data.title).toList.map txtCell ++
    data.utterances.filterMap fun utterance =>
      paragraph utterance (clipboardLanguageLines utterance data.languageColumns))

/-! ### Reading back -/

/-- Line breaks as `markdown_cell` writes them. -/
def tagBreaks (text : List Char) : List Char := replaceChars ['\r', '\n'] ['<', 'b', 'r', '>'] text

/-- A character that is replaced is not there any more. -/
theorem not_mem_replaceChars {c : Char} {chars replacement : List Char} (hc : c ∈ chars)
    (hreplacement : c ∉ replacement) (text : List Char) :
    c ∉ replaceChars chars replacement text := by
  unfold replaceChars
  rw [List.mem_flatMap]
  rintro ⟨d, -, hd⟩
  split at hd
  · exact hreplacement hd
  · next hnot =>
      obtain rfl := List.mem_singleton.1 hd
      exact hnot hc

/-- **A cell is its text escaped**, line breaks as tags. -/
theorem markdownCell_eq (text : List Char) :
    markdownCell text = escaped '|' '\\' (tagBreaks text) := by
  unfold markdownCell tagBreaks escaped replaceChars
  simp only [List.flatMap_assoc]
  refine List.flatMap_congr fun c _ => ?_
  by_cases hescape : c = '\\'
  · subst hescape
    decide
  by_cases hpipe : c = '|'
  · subst hpipe
    decide
  by_cases hbreak : c ∈ ['\r', '\n']
  · rcases List.mem_pair.1 hbreak with rfl | rfl <;> decide
  · simp only [List.mem_singleton, hescape, hpipe, hbreak, or_self, if_false,
      List.flatMap_cons, List.flatMap_nil, List.append_nil]

theorem newline_not_mem_markdownCell (text : List Char) : '\n' ∉ markdownCell text :=
  not_mem_replaceChars (by simp) (by simp) _

theorem newline_not_mem_txtCell (text : List Char) : '\n' ∉ txtCell text :=
  not_mem_replaceChars (by simp) (by simp) _

theorem tab_not_mem_txtCell (text : List Char) : '\t' ∉ txtCell text :=
  not_mem_replaceChars (by simp) (by simp) _

/-- A row of a table is read: its cells between the pipes, without the blanks around them. -/
def readRow (line : List Char) : List (List Char) :=
  (pieces '|' '\\' line).tail.dropLast.map fun piece => piece.tail.dropLast

/-- The cells of a row after the first pipe, with the blanks and pipes between and after them. -/
theorem pieces_cells (cells : List (List Char)) (hcells : cells ≠ []) :
    pieces '|' '\\' (' ' :: [' ', '|', ' '].intercalate (cells.map markdownCell) ++ [' ', '|']) =
      cells.map (fun cell => ' ' :: tagBreaks cell ++ [' ']) ++ [[]] := by
  induction cells with
  | nil => exact absurd rfl hcells
  | cons cell cells ih =>
      have hend : pieces '|' '\\' [' ', '|'] = [[' '], []] := by
        rw [pieces_cons (by simp) (by simp), pieces_delimiter (by simp)]
        rfl
      have hcell : ∀ rest : List Char, pieces '|' '\\' (' ' :: (markdownCell cell ++ rest)) =
          prepend ' ' ((tagBreaks cell).foldr prepend (pieces '|' '\\' rest)) := fun rest => by
        rw [pieces_cons (by simp) (by simp), markdownCell_eq, pieces_escaped_append]
      cases cells with
      | nil =>
          simp only [List.map_cons, List.map_nil, List.intercalate_singleton, List.cons_append]
          rw [hcell, hend, foldr_prepend]
          rfl
      | cons next cells =>
          rw [List.map_cons, List.map_cons, List.intercalate_cons_cons]
          have hrest := ih (List.cons_ne_nil _ _)
          rw [List.map_cons, List.cons_append] at hrest
          simp only [List.append_assoc, List.cons_append, List.nil_append]
          rw [hcell, pieces_cons (by simp) (by simp), pieces_delimiter (by simp), hrest]
          simp [prepend, foldr_prepend]

/-- **A row is read back**, line breaks as tags. -/
theorem readRow_rowLine {cells : List (List Char)} (hcells : cells ≠ []) :
    readRow (rowLine (cells.map markdownCell)) = cells.map tagBreaks := by
  have hline : rowLine (cells.map markdownCell) = '|' :: ' ' ::
      [' ', '|', ' '].intercalate (cells.map markdownCell) ++ [' ', '|'] := rfl
  rw [readRow, hline, List.cons_append, pieces_delimiter (by simp), pieces_cells cells hcells]
  simp [Function.comp_def]

/-- **A row with tabs is read back**, breaks as blanks. -/
theorem splitOn_tabLine {cells : List (List Char)} (hcells : cells ≠ []) :
    (tabLine (cells.map txtCell)).splitOn '\t' = cells.map txtCell := by
  refine List.splitOn_intercalate '\t' (fun cell hcell => ?_) (by simpa using hcells)
  obtain ⟨text, -, rfl⟩ := List.mem_map.1 hcell
  exact tab_not_mem_txtCell text

/-! ### Facts that are kept -/

/-- Where the facts of an utterance stand: in a row of the table, if it has one, and in the list
below the table. -/
structure Placed where
  row : Option (List (List Char))
  others : List UtteranceFact

/-- **The facts of an utterance are kept**: the row has as many cells as there are columns, and each
column the texts of its facts; the list has the facts without a column. -/
structure Keeps (columns : List (List Char)) (utterance : ExportUtterance) (placed : Placed) :
    Prop where
  row : KeepsRow columns utterance placed.row
  width : ∀ cells, placed.row = some cells → cells.length = columns.length
  others : placed.others.Perm
    ((factsOf utterance).filter fun fact => (languageIndex columns fact.language).isNone)

/-- The lines of the list below a table, utterance after utterance. -/
def listLines (line : ExportUtterance → UtteranceFact → List Char)
    (utterances : List ExportUtterance) (placed : List Placed) : List (List Char) :=
  (List.zipWith (fun utterance entry => entry.others.map (line utterance))
    utterances placed).flatten

/-- The lines of a Markdown export between title and summary. -/
def markdownLines (columns : List (List Char)) (utterances : List ExportUtterance)
    (placed : List Placed) : List (List Char) :=
  let others := listLines unrepresentedMarkdown utterances placed
  (if columns = [] then []
    else rowLine (columns.map markdownCell) ::
      rowLine (List.replicate columns.length ['-', '-', '-']) ::
      (placed.filterMap Placed.row).map (fun cells => rowLine (cells.map markdownCell)) ++ [[]]) ++
    if others = [] then [] else othersHeading :: [] :: others ++ [[]]

/-- The lines of a plain text export between title and summary. -/
def txtLines (columns : List (List Char)) (utterances : List ExportUtterance)
    (placed : List Placed) : List (List Char) :=
  (if columns = [] then []
    else tabLine (columns.map txtCell) ::
      (placed.filterMap Placed.row).map fun cells => tabLine (cells.map txtCell)) ++
    listLines unrepresentedTxt utterances placed

/-- The paragraphs for the clipboard: the title, and the lines of each utterance that has some. -/
def clipboardParagraphs (data : ClipboardTranscript)
    (entries : List (List (List Char × UtteranceFact))) : List (List (List Char)) :=
  (nonBlank data.title).toList.map (fun title => [txtCell title]) ++
    ((data.utterances.zip entries).filter fun entry => entry.2 ≠ []).map fun entry =>
      paragraphHead entry.1 ++ entry.2.map clipboardLine

/-- What `ordered_language_row` and `append_unrepresented_markdown` place. -/
def placement (columns : List (List Char)) (utterance : ExportUtterance) : Placed :=
  ⟨orderedLanguageRow utterance columns, unrepresentedFacts utterance columns⟩

theorem listLines_placement (line : ExportUtterance → UtteranceFact → List Char)
    (columns : List (List Char)) (utterances : List ExportUtterance) :
    listLines line utterances (utterances.map (placement columns)) =
      utterances.flatMap fun utterance =>
        (unrepresentedFacts utterance columns).map (line utterance) := by
  unfold listLines
  rw [List.zipWith_map_right, List.zipWith_self, List.flatMap_def]
  rfl

theorem unlines_flatMap {α : Type} (items : List α) (lines : α → List (List Char)) :
    unlines (items.flatMap lines) = items.flatMap fun item => unlines (lines item) :=
  List.flatMap_assoc

theorem unlines_map {α : Type} (items : List α) (line : α → List Char) :
    unlines (items.map line) = items.flatMap fun item => line item ++ ['\n'] :=
  List.flatMap_map ..

/-- The list is there exactly if some utterance has a fact without a column. -/
theorem listLines_eq_nil_iff (line : ExportUtterance → UtteranceFact → List Char)
    (columns : List (List Char)) (utterances : List ExportUtterance) :
    listLines line utterances (utterances.map (placement columns)) = [] ↔
      utterances.any (hasUnrepresentedFact · columns) = false := by
  rw [listLines_placement, List.flatMap_eq_nil_iff, List.any_eq_false]
  refine forall₂_congr fun utterance _ => ?_
  rw [List.map_eq_nil_iff, hasUnrepresentedFact, unrepresentedFacts, List.filter_eq_nil_iff,
    Bool.not_eq_true, List.any_eq_false]

theorem transcriptMarkdown_eq (columns : List (List Char)) (common : Option (List Char))
    (utterances : List ExportUtterance) :
    transcriptMarkdown (.notebookCaptureLanguageColumns columns common utterances) =
      unlines (markdownLines columns utterances (utterances.map (placement columns))) := by
  have hrows : ((utterances.map (placement columns)).filterMap Placed.row) =
      utterances.filterMap (orderedLanguageRow · columns) := List.filterMap_map ..
  rw [transcriptMarkdown, markdownLines, unlines_append, hrows]
  congr 1
  · split
    · rfl
    · rw [List.cons_append, List.cons_append, unlines_cons, unlines_cons, unlines_append,
        unlines_map]
      simp
  · by_cases hany : utterances.any (hasUnrepresentedFact · columns) = true
    · rw [if_pos hany, if_neg fun h => by simp [(listLines_eq_nil_iff _ _ _).1 h] at hany,
        listLines_placement, List.cons_append, List.cons_append, unlines_cons, unlines_cons,
        unlines_append, unlines_flatMap]
      simp [unlines_map]
    · rw [if_neg hany, if_pos ((listLines_eq_nil_iff _ _ _).2 (Bool.not_eq_true _ ▸ hany))]
      rfl

theorem transcriptTxt_eq (columns : List (List Char)) (common : Option (List Char))
    (utterances : List ExportUtterance) :
    transcriptTxt (.notebookCaptureLanguageColumns columns common utterances) =
      unlines (txtLines columns utterances (utterances.map (placement columns))) := by
  have hrows : ((utterances.map (placement columns)).filterMap Placed.row) =
      utterances.filterMap (orderedLanguageRow · columns) := List.filterMap_map ..
  rw [transcriptTxt, txtLines, unlines_append, hrows, listLines_placement, unlines_flatMap]
  simp only [unlines_map]
  congr 1
  split
  · rfl
  · rw [unlines_cons, unlines_map]
    simp

theorem newline_not_mem_formatTimeVtt (ms : ℕ) : '\n' ∉ formatTimeVtt ms := by
  have hpadded : ∀ width n, '\n' ∉ padded width n := fun width n h => by
    rcases List.mem_append.1 h with h | h
    · exact absurd (List.eq_of_mem_replicate h) (by simp)
    · have hdigit := Nat.isDigit_of_mem_toDigits (by omega) (Nat.le_refl 10) h
      exact absurd hdigit (by decide)
  simp [formatTimeVtt, hpadded]

theorem newline_not_mem_rowLine {cells : List (List Char)} (h : ∀ cell ∈ cells, '\n' ∉ cell) :
    '\n' ∉ rowLine cells := by
  simp [rowLine, not_mem_intercalate _ h]

theorem newline_not_mem_tabLine {cells : List (List Char)} (h : ∀ cell ∈ cells, '\n' ∉ cell) :
    '\n' ∉ tabLine cells := not_mem_intercalate (by simp) h

theorem newline_not_mem_unrepresentedMarkdown (utterance : ExportUtterance)
    (fact : UtteranceFact) : '\n' ∉ unrepresentedMarkdown utterance fact := by
  unfold unrepresentedMarkdown
  cases fact.isSource <;> simp [newline_not_mem_markdownCell]

theorem newline_not_mem_unrepresentedTxt (utterance : ExportUtterance)
    (fact : UtteranceFact) : '\n' ∉ unrepresentedTxt utterance fact := by
  unfold unrepresentedTxt
  cases fact.isSource <;> simp [newline_not_mem_txtCell]

theorem newline_not_mem_clipboardLine (entry : List Char × UtteranceFact) :
    '\n' ∉ clipboardLine entry := by
  simp [clipboardLine, newline_not_mem_txtCell]

theorem newline_not_mem_paragraphHead (utterance : ClipboardUtterance) :
    ∀ line ∈ paragraphHead utterance, '\n' ∉ line := by
  unfold paragraphHead
  split <;> simp [newline_not_mem_txtCell, newline_not_mem_formatTimeVtt]

theorem newline_not_mem_listLines {line : ExportUtterance → UtteranceFact → List Char}
    (h : ∀ utterance fact, '\n' ∉ line utterance fact) (utterances : List ExportUtterance)
    (placed : List Placed) : ∀ written ∈ listLines line utterances placed, '\n' ∉ written := by
  intro written hwritten
  obtain ⟨lines, hlines, hmem⟩ := List.mem_flatten.1 hwritten
  obtain ⟨i, hi, rfl⟩ := List.mem_iff_getElem.1 hlines
  rw [List.getElem_zipWith] at hmem
  obtain ⟨fact, -, rfl⟩ := List.mem_map.1 hmem
  exact h _ fact

/-- Every line of a Markdown export is one line. -/
theorem newline_not_mem_markdownLines (columns : List (List Char))
    (utterances : List ExportUtterance) (placed : List Placed) :
    ∀ line ∈ markdownLines columns utterances placed, '\n' ∉ line := by
  have hcells : ∀ cells : List (List Char), '\n' ∉ rowLine (cells.map markdownCell) :=
    fun cells => newline_not_mem_rowLine
      (List.forall_mem_map.2 fun cell _ => newline_not_mem_markdownCell cell)
  have hdashes : '\n' ∉ rowLine (List.replicate columns.length ['-', '-', '-']) :=
    newline_not_mem_rowLine fun cell hcell => by
      rw [List.eq_of_mem_replicate hcell]
      simp
  have hothers := newline_not_mem_listLines newline_not_mem_unrepresentedMarkdown utterances placed
  refine List.forall_mem_append.2 ⟨?_, ?_⟩
  · split
    · exact List.forall_mem_nil _
    · refine List.forall_mem_cons.2 ⟨hcells columns, List.forall_mem_cons.2 ⟨hdashes, ?_⟩⟩
      exact List.forall_mem_append.2
        ⟨List.forall_mem_map.2 fun cells _ => hcells cells, by simp⟩
  · split
    · exact List.forall_mem_nil _
    · refine List.forall_mem_cons.2 ⟨by simp [othersHeading], List.forall_mem_cons.2 ⟨by simp, ?_⟩⟩
      exact List.forall_mem_append.2 ⟨hothers, by simp⟩

/-- Every line of a plain text export is one line. -/
theorem newline_not_mem_txtLines (columns : List (List Char))
    (utterances : List ExportUtterance) (placed : List Placed) :
    ∀ line ∈ txtLines columns utterances placed, '\n' ∉ line := by
  have hcells : ∀ cells : List (List Char), '\n' ∉ tabLine (cells.map txtCell) :=
    fun cells => newline_not_mem_tabLine
      (List.forall_mem_map.2 fun cell _ => newline_not_mem_txtCell cell)
  refine List.forall_mem_append.2
    ⟨?_, newline_not_mem_listLines newline_not_mem_unrepresentedTxt utterances placed⟩
  split
  · exact List.forall_mem_nil _
  · exact List.forall_mem_cons.2
      ⟨hcells columns, List.forall_mem_map.2 fun cells _ => hcells cells⟩

/-- Every line for the clipboard is one line, and no paragraph is empty. -/
theorem clipboardParagraphs_lines (data : ClipboardTranscript)
    (entries : List (List (List Char × UtteranceFact))) :
    (∀ lines ∈ clipboardParagraphs data entries, lines ≠ []) ∧
      ∀ lines ∈ clipboardParagraphs data entries, ∀ line ∈ lines, '\n' ∉ line := by
  refine ⟨List.forall_mem_append.2 ⟨by simp, List.forall_mem_map.2 fun entry hentry => ?_⟩,
    List.forall_mem_append.2 ⟨?_, List.forall_mem_map.2 fun entry _ => ?_⟩⟩
  · have hne : entry.2 ≠ [] := by simpa using (List.mem_filter.1 hentry).2
    simp [hne]
  · refine List.forall_mem_map.2 fun title _ => ?_
    simpa using newline_not_mem_txtCell title
  · exact List.forall_mem_append.2 ⟨newline_not_mem_paragraphHead entry.1,
      List.forall_mem_map.2 fun fact _ => newline_not_mem_clipboardLine fact⟩

theorem exportClipboardText_eq (data : ClipboardTranscript) :
    exportClipboardText data = ['\n', '\n'].intercalate ((clipboardParagraphs data
      (data.utterances.map fun utterance =>
        clipboardFacts utterance.toExport data.languageColumns)).map ['\n'].intercalate) := by
  have hparagraphs : ∀ utterances : List ClipboardUtterance,
      utterances.filterMap (fun utterance =>
        paragraph utterance (clipboardLanguageLines utterance data.languageColumns)) =
      (((utterances.zip (utterances.map fun utterance =>
        clipboardFacts utterance.toExport data.languageColumns)).filter
          fun entry => entry.2 ≠ []).map fun entry =>
            paragraphHead entry.1 ++ entry.2.map clipboardLine).map ['\n'].intercalate := by
    intro utterances
    induction utterances with
    | nil => rfl
    | cons utterance utterances ih =>
        rw [List.filterMap_cons, List.map_cons, List.zip_cons_cons, List.filter_cons, ih,
          paragraph, clipboardLanguageLines]
        by_cases hnone : clipboardFacts utterance.toExport data.languageColumns = []
        · simp [hnone]
        · simp [hnone]
  unfold exportClipboardText clipboardParagraphs
  rw [hparagraphs, List.map_append]
  congr 2
  simp

/-! ### Exports -/

/-- What `export_markdown` writes after a transcript. -/
def markdownSummary (summary : Option (List Char)) : List Char :=
  summary.elim [] fun summary => "## 总结\n\n".toList ++ summary ++ ['\n']

/-- What `export_txt` writes after a transcript. -/
def txtSummary (summary : Option (List Char)) : List Char :=
  summary.elim [] fun summary => "\n---\n\n".toList ++ summary ++ ['\n']

/-- **A Markdown export keeps the facts** of a transcript: between title and summary it is lines
that are read back, in the order of the utterances; the facts of each utterance are kept in its row
and in the list, and the rows are read back cell by cell. -/
def MarkdownKeeps (title : List Char) (columns : List (List Char)) (common : Option (List Char))
    (utterances : List ExportUtterance) (summary : Option (List Char)) : Prop :=
  ∃ placed : List Placed, List.Forall₂ (Keeps columns) utterances placed ∧
    exportMarkdown ⟨title, .notebookCaptureLanguageColumns columns common utterances, summary⟩ =
      .ok ("# ".toList ++ title ++ "\n\n## 转录\n\n".toList ++
        unlines (markdownLines columns utterances placed) ++ markdownSummary summary) ∧
    (unlines (markdownLines columns utterances placed)).splitOn '\n' =
      markdownLines columns utterances placed ++ [[]] ∧
    ∀ cells ∈ placed.filterMap Placed.row,
      readRow (rowLine (cells.map markdownCell)) = cells.map tagBreaks

/-- **A plain text export keeps the facts** of a transcript, as a Markdown export does. -/
def TxtKeeps (title : List Char) (columns : List (List Char)) (common : Option (List Char))
    (utterances : List ExportUtterance) (summary : Option (List Char)) : Prop :=
  ∃ placed : List Placed, List.Forall₂ (Keeps columns) utterances placed ∧
    exportTxt ⟨title, .notebookCaptureLanguageColumns columns common utterances, summary⟩ =
      .ok (title ++ ['\n', '\n'] ++ unlines (txtLines columns utterances placed) ++
        txtSummary summary) ∧
    (unlines (txtLines columns utterances placed)).splitOn '\n' =
      txtLines columns utterances placed ++ [[]] ∧
    ∀ cells ∈ placed.filterMap Placed.row,
      (tabLine (cells.map txtCell)).splitOn '\t' = cells.map txtCell

/-- **The lines of an utterance for the clipboard keep its facts**: each once, under the first
column of its language that is not blank, or under its own language. -/
def KeepsLines (columns : List (List Char)) (utterance : ClipboardUtterance)
    (entries : List (List Char × UtteranceFact)) : Prop :=
  (entries.map Prod.snd).Perm (factsOf utterance.toExport) ∧
    ∀ entry ∈ entries, entry.1 = ((columns.filter fun column => Text.trim column ≠ []).find?
      (sameLanguage entry.2.language ·)).getD entry.2.language

/-- **A text for the clipboard keeps the facts**: it is paragraphs that are read back, one for each
utterance that has facts, in the order of the utterances. -/
def ClipboardKeeps (data : ClipboardTranscript) : Prop :=
  ∃ entries : List (List (List Char × UtteranceFact)),
    List.Forall₂ (KeepsLines data.languageColumns) data.utterances entries ∧
    exportClipboardText data = ['\n', '\n'].intercalate
      ((clipboardParagraphs data entries).map ['\n'].intercalate) ∧
    (clipboardParagraphs data entries ≠ [] → (exportClipboardText data).splitOn '\n' =
      [[]].intercalate (clipboardParagraphs data entries))

/-- The lines for the clipboard always keep the facts. -/
theorem clipboardKeeps (data : ClipboardTranscript) : ClipboardKeeps data := by
  obtain ⟨hne, hlines⟩ := clipboardParagraphs_lines data
    (data.utterances.map fun utterance => clipboardFacts utterance.toExport data.languageColumns)
  refine ⟨_, ?_, exportClipboardText_eq data, fun h => ?_⟩
  · refine List.forall₂_map_right_iff.2 (List.forall₂_same.2 fun utterance _ => ?_)
    exact ⟨clipboardFacts_perm _ _, fun entry hentry => clipboardFacts_language hentry⟩
  · rw [exportClipboardText_eq, splitOn_paragraphs hne hlines h]

/-- What is placed is kept where no facts meet. -/
theorem keeps_placement {columns : List (List Char)} {utterance : ExportUtterance}
    (h : NoneMeet columns utterance) : Keeps columns utterance (placement columns utterance) where
  row := (keepsRow_iff columns utterance).2 ((noneMeet_iff columns utterance).2 h)
  width _ hcells := length_orderedLanguageRow hcells
  others := (utteranceFacts_perm utterance).filter _

/-- Facts that are kept do not meet. -/
theorem Keeps.noneMeet {columns : List (List Char)} {utterance : ExportUtterance} {placed : Placed}
    (h : Keeps columns utterance placed) : NoneMeet columns utterance :=
  (noneMeet_iff columns utterance).1 h.row.length_le

theorem noneMeet_of_forall₂ {columns : List (List Char)} {utterances : List ExportUtterance}
    {placed : List Placed} (h : List.Forall₂ (Keeps columns) utterances placed) :
    ∀ utterance ∈ utterances, NoneMeet columns utterance := by
  induction h with
  | nil => exact List.forall_mem_nil _
  | cons hkeeps _ ih => exact List.forall_mem_cons.2 ⟨hkeeps.noneMeet, ih⟩

/-- A row has cells. -/
theorem ne_nil_of_mem_rows {columns : List (List Char)} {utterances : List ExportUtterance}
    {cells : List (List Char)}
    (h : cells ∈ (utterances.map (placement columns)).filterMap Placed.row) : cells ≠ [] := by
  obtain ⟨placed, hplaced, hrow⟩ := List.mem_filterMap.1 h
  obtain ⟨utterance, -, rfl⟩ := List.mem_map.1 hplaced
  have hlength := length_orderedLanguageRow hrow
  have hsome := isSome_orderedLanguageRow utterance columns
  rw [show orderedLanguageRow utterance columns = some cells from hrow, Option.isSome_some,
    eq_comm, List.any_eq_true] at hsome
  obtain ⟨fact, -, hfact⟩ := hsome
  obtain ⟨i, hi⟩ := Option.isSome_iff_exists.1 hfact
  have hpos := languageIndex_lt hi
  exact List.ne_nil_of_length_pos (by omega)

/-- **The exports keep every fact** of a transcript with language columns exactly where no two
facts of an utterance have languages with one base that is the base of a column. -/
theorem exports_keep_facts_iff (title : List Char) (columns : List (List Char))
    (common : Option (List Char)) (utterances : List ExportUtterance)
    (summary : Option (List Char)) (clipboard : ClipboardTranscript) :
    (MarkdownKeeps title columns common utterances summary ∧
      TxtKeeps title columns common utterances summary ∧ ClipboardKeeps clipboard) ↔
      ∀ utterance ∈ utterances, NoneMeet columns utterance := by
  constructor
  · rintro ⟨⟨placed, hplaced, -⟩, -⟩
    exact noneMeet_of_forall₂ hplaced
  · intro h
    have hplaced : List.Forall₂ (Keeps columns) utterances (utterances.map (placement columns)) :=
      List.forall₂_map_right_iff.2 (List.forall₂_same.2 fun utterance hutterance =>
        keeps_placement (h utterance hutterance))
    refine ⟨⟨_, hplaced, ?_, splitOn_unlines (newline_not_mem_markdownLines _ _ _),
      fun cells hcells => readRow_rowLine (ne_nil_of_mem_rows hcells)⟩,
      ⟨_, hplaced, ?_, splitOn_unlines (newline_not_mem_txtLines _ _ _),
        fun cells hcells => splitOn_tabLine (ne_nil_of_mem_rows hcells)⟩, clipboardKeeps clipboard⟩
    · rw [exportMarkdown, transcriptMarkdown_eq]
      rfl
    · rw [exportTxt, transcriptTxt_eq]
      rfl

/-- A source and a translation of unknown languages, for a column of unknown language. -/
def metUtterance : ExportUtterance where
  sourceLanguage := ['u', 'n', 'd']
  sourceText := ['a']
  sourceStartMs := none
  sourceEndMs := none
  translatedLanguage := none
  translatedText := some ['b']
  languageVariants := []

/-- The row of `metUtterance` has the translation, and the source is nowhere. -/
theorem metUtterance_lost :
    orderedLanguageRow metUtterance [['u', 'n', 'd']] = some [['b']] ∧
      unrepresentedFacts metUtterance [['u', 'n', 'd']] = [] ∧
      ¬ MarkdownKeeps [] [['u', 'n', 'd']] none [metUtterance] none ∧
      ¬ TxtKeeps [] [['u', 'n', 'd']] none [metUtterance] none := by
  have hmeet : ¬ NoneMeet [['u', 'n', 'd']] metUtterance := by
    rw [← noneMeet_iff]
    exact fun h => absurd (h 0) (by decide)
  refine ⟨by decide, by decide, ?_, ?_⟩
  · rintro ⟨placed, hplaced, -⟩
    exact hmeet (noneMeet_of_forall₂ hplaced _ (List.mem_singleton_self _))
  · rintro ⟨placed, hplaced, -⟩
    exact hmeet (noneMeet_of_forall₂ hplaced _ (List.mem_singleton_self _))

end Export
end ZuTalk
