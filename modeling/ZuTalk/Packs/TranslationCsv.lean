/-
# The reader of translation tables

`parse_csv_records` and `parse_translation_csv` of `crates/vt-store/src/context_pack_store.rs`.

The scanner decides from the character it is at, whether the field has anything in it and whether
it was quoted.  So it takes what stands behind a closing quote into the field
(`parseCsvRecords_text`), and it is the reader of the form it is documented to read exactly where
no text has any (`reads_iff`).  A byte order mark is an ordinary character to it: before a quote
it makes the quote a stray one (`parseTranslationCsv_mark_quote`), elsewhere the header drops it
again.
-/

import Mathlib
import ZuTalk.Library.Csv
import ZuTalk.Library.Text
import ZuTalk.Packs.Snapshot

namespace ZuTalk
namespace Packs

open Csv

/-! ### The scanner -/

/-- The variables of the loop. -/
structure CsvScan where
  records : List (List (List Char))
  record : List (List Char)
  field : List Char
  inQuotes : Bool
  quoted : Bool
  deriving DecidableEq

namespace CsvScan

/-- Before the first character. -/
def start : CsvScan := ⟨[], [], [], false, false⟩

/-- A character is added to the field. -/
def push (scan : CsvScan) (c : Char) : CsvScan := { scan with field := scan.field ++ [c] }

/-- The field is over. -/
def endField (scan : CsvScan) : CsvScan :=
  { scan with record := scan.record ++ [scan.field], field := [], quoted := false }

/-- The field and the record are over. -/
def endRecord (scan : CsvScan) : CsvScan :=
  { scan with
    records := scan.records ++ [scan.record ++ [scan.field]], record := [], field := [],
    quoted := false }

end CsvScan

def quoteInside : ContextPackStoreError :=
  .validation "translation CSV contains a quote inside an unquoted field"

def unterminatedField : ContextPackStoreError :=
  .validation "translation CSV contains an unterminated quoted field"

/-- The loop of `parse_csv_records`. -/
def scanCsv (scan : CsvScan) : List Char → Except ContextPackStoreError CsvScan
  | [] => .ok scan
  | current :: rest =>
      if scan.inQuotes then
        if current = '"' then
          match rest with
          | [] => scanCsv { scan with inQuotes := false } []
          | next :: rest' =>
              if next = '"' then scanCsv (scan.push '"') rest'
              else scanCsv { scan with inQuotes := false } (next :: rest')
        else scanCsv (scan.push current) rest
      else if current = '"' then
        if scan.field = [] ∧ scan.quoted = false then
          scanCsv { scan with inQuotes := true, quoted := true } rest
        else .error quoteInside
      else if current = ',' then scanCsv scan.endField rest
      else if current = '\n' then scanCsv scan.endRecord rest
      else if current = '\r' then
        match rest with
        | [] => scanCsv scan.endRecord []
        | next :: rest' =>
            if next = '\n' then scanCsv scan.endRecord rest'
            else scanCsv scan.endRecord (next :: rest')
      else scanCsv (scan.push current) rest

/-- What is left after the loop: the text is over, `endsLine` says whether with a line break. -/
def finishCsv (text : List Char) (scan : CsvScan) :
    Except ContextPackStoreError (List (List (List Char))) :=
  if scan.inQuotes then .error unterminatedField
  else if scan.field ≠ [] ∨ scan.record ≠ [] ∨
      (text ≠ [] ∧ ¬ ∃ c ∈ text.getLast?, c = '\n' ∨ c = '\r') then
    .ok (scan.records ++ [scan.record ++ [scan.field]])
  else .ok scan.records

/-- `parse_csv_records`. -/
def parseCsvRecords (text : List Char) :
    Except ContextPackStoreError (List (List (List Char))) :=
  scanCsv .start text >>= finishCsv text

/-! ### The table -/

/-- `CONTEXT_CSV_MAX_ROWS`. -/
def contextCsvMaxRows : ℕ := 1000

/-- `CONTEXT_CSV_MAX_CELL_SCALARS`. -/
def contextCsvMaxCellScalars : ℕ := 256

/-- `ParsedTranslationCsv`. -/
structure ParsedTranslationCsv where
  languageA : List Char
  languageB : List Char
  rows : List (List Char × List Char)
  deriving DecidableEq

/-- The byte order mark. -/
def byteOrderMark : Char := '\uFEFF'

/-- A code as `validate_language_code` takes it. -/
def isLanguageCode (value : List Char) : Bool :=
  value ≠ [] && Text.byteLen value ≤ 32 && value.all (·.toNat < 128) &&
    match value.splitOn '-' with
    | [] => false
    | primary :: parts =>
        (2 ≤ primary.length && primary.length ≤ 3 && primary.all Char.isAlpha) &&
          parts.all fun part => 2 ≤ part.length && part.length ≤ 8 && part.all Char.isAlphanum

/-- `validate_language_code`. -/
def validateLanguageCode (value : List Char) : Except ContextPackStoreError Unit :=
  if isLanguageCode value then .ok ()
  else .error (.validation ("invalid language-code header '" ++ String.ofList value ++ "'"))

/-- What is wrong with a row, after its number. -/
def rowError (index : ℕ) (what : String) : ContextPackStoreError :=
  .validation ("translation CSV row " ++ toString (index + 2) ++ what)

/-- The loop of `parse_translation_csv` over the rows behind the header, `index` being that of the
next record. -/
def readTermRows (rows : List (List Char × List Char)) (index : ℕ) :
    List (List (List Char)) → Except ContextPackStoreError (List (List Char × List Char))
  | [] => .ok rows
  | record :: records =>
      if record.all fun cell => Text.trim cell = [] then readTermRows rows (index + 1) records
      else
        match record with
        | [left, right] =>
            if Text.trim left = [] ∨ Text.trim right = [] then
              .error (rowError index " contains an empty cell")
            else if contextCsvMaxCellScalars < (Text.trim left).length ∨
                contextCsvMaxCellScalars < (Text.trim right).length then
              .error (rowError index (" exceeds " ++ toString contextCsvMaxCellScalars ++
                " scalars per cell"))
            else if contextCsvMaxRows < rows.length + 1 then
              .error (.validation ("translation CSV exceeds " ++ toString contextCsvMaxRows ++
                " rows"))
            else readTermRows (rows ++ [(Text.trim left, Text.trim right)]) (index + 1) records
        | _ => .error (rowError index " must contain exactly two cells")

/-- `parse_translation_csv`, on the records. -/
def readTranslationTable (records : List (List (List Char))) :
    Except ContextPackStoreError ParsedTranslationCsv :=
  match records with
  | [] => .error (.validation "translation CSV requires a header")
  | [first, second] :: records => do
      let languageA := Text.trim (first.dropWhile (· = byteOrderMark))
      let languageB := Text.trim second
      validateLanguageCode languageA
      validateLanguageCode languageB
      if languageA.map Char.toLower = languageB.map Char.toLower then
        throw (.validation "translation CSV headers must name two different languages")
      let rows ← readTermRows [] 0 records
      if rows = [] then throw (.validation "translation CSV contains no term rows")
      return ⟨languageA, languageB, rows⟩
  | _ :: _ =>
      .error (.validation "translation CSV must have exactly two language-code headers")

/-- `parse_translation_csv`. -/
def parseTranslationCsv (text : List Char) : Except ContextPackStoreError ParsedTranslationCsv :=
  parseCsvRecords text >>= readTranslationTable

/-! ### What the scanner makes of cells and rows -/

variable {scan : CsvScan} {rest : List Char}

/-- Plain characters are added to the field. -/
theorem scanCsv_plain (hin : scan.inQuotes = false) {chars : List Char}
    (h : ∀ c ∈ chars, isPlain c) :
    scanCsv scan (chars ++ rest) = scanCsv { scan with field := scan.field ++ chars } rest := by
  induction chars generalizing scan with
  | nil => simp
  | cons c cs ih =>
      obtain ⟨hc, hcs⟩ := List.forall_mem_cons.1 h
      simp only [isPlain, Bool.and_eq_true, decide_eq_true_eq] at hc
      obtain ⟨⟨⟨hquote, hcomma⟩, hlf⟩, hcr⟩ := hc
      rw [List.cons_append, scanCsv.eq_def]
      simp only [hin, hquote, hcomma, hlf, hcr, if_false, Bool.false_eq_true]
      rw [ih (by exact hin) hcs, CsvScan.push]
      simp [hin]

/-- A quote where the field has nothing in it opens a quoted field. -/
theorem scanCsv_open (hin : scan.inQuotes = false) (hfield : scan.field = [])
    (hquoted : scan.quoted = false) :
    scanCsv scan ('"' :: rest) = scanCsv { scan with inQuotes := true, quoted := true } rest := by
  rw [scanCsv.eq_def]
  simp [hin, hfield, hquoted]

/-- A quote behind anything else is refused. -/
theorem scanCsv_stray (hin : scan.inQuotes = false) (h : scan.field ≠ [] ∨ scan.quoted = true) :
    scanCsv scan ('"' :: rest) = .error quoteInside := by
  rw [scanCsv.eq_def]
  simp only [hin, Bool.false_eq_true, if_false, if_true]
  rw [if_neg]
  rintro ⟨hfield, hquoted⟩
  rcases h with h | h
  · exact h hfield
  · rw [hquoted] at h
    exact Bool.noConfusion h

/-- A character in quotes, a quote doubled. -/
theorem scanCsv_escape_cons (hin : scan.inQuotes = true) (c : Char) :
    scanCsv scan (escape [c] ++ rest) = scanCsv (scan.push c) rest := by
  by_cases hc : c = '"'
  · subst hc
    rw [escape, if_pos rfl, List.cons_append, scanCsv.eq_def]
    simp [hin, escape]
  · rw [escape, if_neg hc, List.cons_append, scanCsv.eq_def]
    simp [hin, hc, escape]

theorem escape_cons (c : Char) (cs : List Char) : escape (c :: cs) = escape [c] ++ escape cs := by
  by_cases hc : c = '"' <;> simp [escape, hc]

/-- Characters in quotes are added to the field. -/
theorem scanCsv_escape (hin : scan.inQuotes = true) (chars : List Char) :
    scanCsv scan (escape chars ++ rest) =
      scanCsv { scan with field := scan.field ++ chars } rest := by
  induction chars generalizing scan with
  | nil => simp [escape]
  | cons c cs ih =>
      rw [escape_cons, List.append_assoc, scanCsv_escape_cons hin, ih (by exact hin), CsvScan.push]
      simp

/-- A quote that no other follows closes the field. -/
theorem scanCsv_close (hin : scan.inQuotes = true) (hrest : rest.head? ≠ some '"') :
    scanCsv scan ('"' :: rest) = scanCsv { scan with inQuotes := false } rest := by
  rw [scanCsv.eq_def]
  cases rest with
  | nil => simp [hin]
  | cons c rest =>
      have hc : c ≠ '"' := fun h => hrest (by rw [h]; rfl)
      simp [hin, hc]

/-- Between cells. -/
structure CsvScan.Fresh (scan : CsvScan) : Prop where
  inQuotes : scan.inQuotes = false
  field : scan.field = []
  quoted : scan.quoted = false

/-- Whether the field was quoted. -/
def cellQuoted : Cell → Bool
  | .plain _ => false
  | .quoted _ _ => true

/-- **A cell** is read to its value. -/
theorem scanCsv_cell (hscan : scan.Fresh) {cell : Cell} (hcell : cell.Valid)
    (hrest : ∀ chars, cell = .quoted chars [] → rest.head? ≠ some '"') :
    scanCsv scan (cell.text ++ rest) =
      scanCsv { scan with field := cell.value, quoted := cellQuoted cell } rest := by
  obtain ⟨hin, hfield, hquoted⟩ := hscan
  cases cell with
  | plain chars =>
      rw [Cell.text, scanCsv_plain hin hcell, hfield]
      simp [Cell.value, cellQuoted, hquoted]
  | quoted chars after =>
      have hafter : (after ++ rest).head? ≠ some '"' := by
        cases after with
        | nil => exact hrest chars rfl
        | cons c cs =>
            intro hhead
            obtain rfl := Option.some.inj hhead
            exact absurd (hcell '"' (List.mem_cons_self ..)) (by decide)
      rw [Cell.text, List.cons_append, scanCsv_open hin hfield hquoted, List.append_assoc,
        scanCsv_escape rfl, List.cons_append, scanCsv_close rfl hafter, scanCsv_plain rfl hcell]
      simp [Cell.value, cellQuoted, hfield, hin]

theorem scanCsv_comma (hin : scan.inQuotes = false) :
    scanCsv scan (',' :: rest) = scanCsv scan.endField rest := by
  rw [scanCsv.eq_def]
  simp [hin]

/-- **A line break** ends the record, where it does not end in the first half of a CRLF. -/
theorem scanCsv_break (hin : scan.inQuotes = false) {brk : Break}
    (h : brk = .cr → rest.head? ≠ some '\n') :
    scanCsv scan (brk.text ++ rest) = scanCsv scan.endRecord rest := by
  cases brk with
  | lf =>
      rw [Break.text, List.cons_append, scanCsv.eq_def]
      simp [hin]
  | crlf =>
      rw [Break.text, List.cons_append, scanCsv.eq_def]
      simp [hin]
  | cr =>
      rw [Break.text, List.cons_append, scanCsv.eq_def]
      cases rest with
      | nil => simp [hin]
      | cons c rest =>
          have hc : c ≠ '\n' := fun hlf => h rfl (by rw [hlf]; rfl)
          simp [hin, hc]

/-- Cells in front of more of the row. -/
theorem scanCsv_cells (hscan : scan.Fresh) {cells : List Cell} (h : ∀ cell ∈ cells, cell.Valid) :
    scanCsv scan (cellsText cells ++ rest) =
      scanCsv { scan with record := scan.record ++ cells.map Cell.value } rest := by
  induction cells generalizing scan with
  | nil => simp [cellsText]
  | cons cell cells ih =>
      obtain ⟨hcell, hcells⟩ := List.forall_mem_cons.1 h
      rw [cellsText_cons, List.append_assoc, List.cons_append,
        scanCsv_cell hscan hcell fun _ _ => by simp, scanCsv_comma (by exact hscan.inQuotes)]
      have hfresh : CsvScan.Fresh (CsvScan.endField
          { scan with field := cell.value, quoted := cellQuoted cell }) :=
        ⟨hscan.inQuotes, rfl, rfl⟩
      rw [ih hfresh hcells]
      congr 1
      simp [CsvScan.endField, hscan.field, hscan.quoted]

/-- A row is its cells up to the last one, and that one. -/
theorem rowText_eq (row : List Cell) (hne : row ≠ []) :
    rowText row = cellsText row.dropLast ++ (row.getLast hne).text := by
  induction row with
  | nil => exact absurd rfl hne
  | cons cell cells ih =>
      cases cells with
      | nil => simp [rowText, cellsText]
      | cons next cells =>
          rw [rowText, ih (List.cons_ne_nil _ _), List.dropLast_cons_cons, cellsText_cons,
            List.getLast_cons (List.cons_ne_nil _ _)]
          simp

/-- **A row** that ends with a line break or the text. -/
theorem scanCsv_row (hscan : scan.Fresh) (hrecord : scan.record = []) {row : List Cell}
    (hne : row ≠ []) (h : ∀ cell ∈ row, cell.Valid) (hrest : AtBreak rest) :
    scanCsv scan (rowText row ++ rest) =
      scanCsv { scan with
        record := row.dropLast.map Cell.value, field := (row.getLast hne).value,
        quoted := cellQuoted (row.getLast hne) } rest := by
  rw [rowText_eq row hne, List.append_assoc, scanCsv_cells hscan fun cell hcell =>
    h cell (List.dropLast_subset row hcell)]
  have hfresh : CsvScan.Fresh
      { scan with record := scan.record ++ row.dropLast.map Cell.value } :=
    ⟨hscan.inQuotes, hscan.field, hscan.quoted⟩
  rw [scanCsv_cell hfresh (h _ (List.getLast_mem hne)) fun _ _ => hrest.ends.no_quote, hrecord]
  rfl

/-- The fields of a row. -/
theorem dropLast_append_value (row : List Cell) (hne : row ≠ []) :
    (row.map Cell.value).dropLast ++ [(row.getLast hne).value] = row.map Cell.value := by
  conv_rhs => rw [← List.dropLast_append_getLast hne]
  simp

/-- **Lines** in front of a text are read to the records of their rows. -/
theorem scanCsv_lines (hscan : scan.Fresh) (hrecord : scan.record = [])
    {lines : List (List Cell × Break)} (h : LinesBefore lines rest) :
    scanCsv scan (linesText lines ++ rest) =
      scanCsv { scan with
        records := scan.records ++ lines.map fun line => line.1.map Cell.value } rest := by
  induction lines generalizing scan with
  | nil => simp [linesText]
  | cons line lines ih =>
      obtain ⟨⟨hne, hrow⟩, hcr, hlines⟩ := h
      rw [linesText_cons, List.append_assoc, List.append_assoc,
        scanCsv_row hscan hrecord hne hrow (atBreak_break _ _),
        scanCsv_break (by exact hscan.inQuotes) hcr]
      have hfresh : CsvScan.Fresh (CsvScan.endRecord { scan with
          record := line.1.dropLast.map Cell.value, field := (line.1.getLast hne).value,
          quoted := cellQuoted (line.1.getLast hne) }) := ⟨hscan.inQuotes, rfl, rfl⟩
      rw [ih hfresh rfl hlines]
      congr 1
      simp [CsvScan.endRecord, dropLast_append_value, hscan.field, hscan.quoted, hrecord]

/-! ### What the scanner makes of a text -/

theorem fresh_start : CsvScan.start.Fresh := ⟨rfl, rfl, rfl⟩

/-- After some lines the scanner has their records. -/
def afterLines (lines : List (List Cell × Break)) : CsvScan :=
  { CsvScan.start with records := lines.map fun line => line.1.map Cell.value }

theorem fresh_afterLines (lines : List (List Cell × Break)) : (afterLines lines).Fresh :=
  ⟨rfl, rfl, rfl⟩

theorem scanCsv_start {lines : List (List Cell × Break)} (h : LinesBefore lines rest) :
    scanCsv .start (linesText lines ++ rest) = scanCsv (afterLines lines) rest :=
  scanCsv_lines fresh_start rfl h

/-- A text of whole lines is over or ends with a line break. -/
theorem getLast?_linesText (lines : List (List Cell × Break)) :
    linesText lines ≠ [] → ∃ c ∈ (linesText lines).getLast?, c = '\n' ∨ c = '\r' := by
  induction lines using List.reverseRecOn with
  | nil => exact fun h => absurd rfl h
  | append_singleton lines line _ =>
      intro _
      obtain ⟨row, brk⟩ := line
      have htext : linesText (lines ++ [(row, brk)]) =
          linesText lines ++ rowText row ++ brk.text := by simp [linesText]
      cases brk <;> simp [htext, Break.text]

/-- A last row with nothing in it is still written: its text ends with a quote. -/
theorem last_row_counts (sheet : Sheet) (hlast : sheet.last ≠ []) :
    (sheet.last.getLast hlast).value ≠ [] ∨ sheet.last.dropLast.map Cell.value ≠ [] ∨
      (sheet.text ≠ [] ∧ ¬ ∃ c ∈ sheet.text.getLast?, c = '\n' ∨ c = '\r') := by
  have hends : rowText sheet.last ≠ [] := sheet.ends.resolve_left hlast
  rw [or_iff_not_imp_left, or_iff_not_imp_left, not_not, not_not]
  intro hvalue hrecord
  have hdrop : sheet.last.dropLast = [] := List.map_eq_nil_iff.1 hrecord
  have hrow : rowText sheet.last = (sheet.last.getLast hlast).text := by
    rw [rowText_eq sheet.last hlast, hdrop]
    rfl
  have hquotes : rowText sheet.last = ['"', '"'] := by
    rw [hrow] at hends ⊢
    generalize sheet.last.getLast hlast = cell at hvalue hends
    cases cell with
    | plain chars => exact absurd hvalue hends
    | quoted chars after =>
        obtain ⟨rfl, rfl⟩ := List.append_eq_nil_iff.1 hvalue
        rfl
  simp [Sheet.text, hquotes]

/-- **A sheet is read** to what its cells hold. -/
theorem parseCsvRecords_text (sheet : Sheet) :
    parseCsvRecords sheet.text = .ok sheet.values := by
  have hscan : scanCsv .start sheet.text = scanCsv (afterLines sheet.lines) (rowText sheet.last) :=
    scanCsv_start sheet.linesBefore
  have hfinish : ∀ scan, (Except.ok scan >>= finishCsv sheet.text) = finishCsv sheet.text scan :=
    fun _ => rfl
  unfold parseCsvRecords
  by_cases hlast : sheet.last = []
  · have htext : sheet.text = linesText sheet.lines := by simp [Sheet.text, hlast, rowText]
    have hends := getLast?_linesText sheet.lines
    rw [hscan, hlast, rowText, scanCsv, hfinish, finishCsv,
      if_neg (by simp [afterLines, CsvScan.start]), if_neg, Sheet.values, Sheet.rows, if_pos hlast]
    · simp [afterLines]
    · rw [htext]
      rintro (hfield | hrecord | ⟨hne, hbreak⟩)
      · exact hfield rfl
      · exact hrecord rfl
      · exact hbreak (hends hne)
  · have hrow : scanCsv (afterLines sheet.lines) (rowText sheet.last) = .ok
        { afterLines sheet.lines with
          record := sheet.last.dropLast.map Cell.value, field := (sheet.last.getLast hlast).value,
          quoted := cellQuoted (sheet.last.getLast hlast) } := by
      have hrow := scanCsv_row (fresh_afterLines sheet.lines) rfl hlast sheet.valid atBreak_nil
      rwa [List.append_nil, scanCsv] at hrow
    rw [hscan, hrow, hfinish, finishCsv, if_neg (by simp [afterLines, CsvScan.start]), if_pos,
      Sheet.values, Sheet.rows, if_neg hlast]
    · simp [afterLines, dropLast_append_value]
    · exact last_row_counts sheet hlast

/-- **A stray quote** is refused. -/
theorem parseCsvRecords_stray {text : List Char} (h : Stray text) :
    parseCsvRecords text = .error quoteInside := by
  obtain ⟨lines, rest, rfl, hlines, cells, cell, tail, rfl, hcells, hcell, hrefuses⟩ := h
  have hfresh : CsvScan.Fresh
      { afterLines lines with record := (afterLines lines).record ++ cells.map Cell.value } :=
    ⟨rfl, rfl, rfl⟩
  have hrest : ∀ chars, cell = .quoted chars [] → ('"' :: tail).head? ≠ some '"' := by
    rintro chars rfl
    exact absurd rfl hrefuses
  unfold parseCsvRecords
  rw [scanCsv_start hlines, scanCsv_cells (fresh_afterLines lines) hcells,
    scanCsv_cell hfresh hcell hrest, scanCsv_stray (by rfl)]
  · rfl
  · cases cell with
    | plain chars => exact Or.inl hrefuses
    | quoted chars after => exact Or.inr rfl

/-- **A quoted cell that does not end** is refused. -/
theorem parseCsvRecords_unterminated {text : List Char} (h : Unterminated text) :
    parseCsvRecords text = .error unterminatedField := by
  obtain ⟨lines, rest, rfl, hlines, cells, chars, rfl, hcells⟩ := h
  have hopen : ∀ scan : CsvScan, scan.Fresh → scanCsv scan ('"' :: escape chars) =
      .ok { scan with field := chars, inQuotes := true, quoted := true } := fun scan hscan => by
    have hescape := @scanCsv_escape { scan with inQuotes := true, quoted := true } [] rfl chars
    rw [List.append_nil, scanCsv] at hescape
    rw [scanCsv_open hscan.inQuotes hscan.field hscan.quoted, hescape, hscan.field]
    rfl
  unfold parseCsvRecords
  rw [scanCsv_start hlines, scanCsv_cells (fresh_afterLines lines) hcells,
    hopen _ ⟨rfl, rfl, rfl⟩]
  rfl

/-! ### The form that is documented -/

/-- `Reads text records`: the text is a sheet in which nothing stands behind a closing quote, and
the records are what its cells hold. -/
def Reads (text : List Char) (records : List (List (List Char))) : Prop :=
  ∃ sheet : Sheet, sheet.Closed ∧ sheet.text = text ∧ sheet.values = records

/-- The text is a sheet in which something stands behind a closing quote. -/
def Trails (text : List Char) : Prop := ∃ sheet : Sheet, ¬ sheet.Closed ∧ sheet.text = text

theorem quoteInside_ne : quoteInside ≠ unterminatedField := by decide

/-- What is not a sheet is refused. -/
theorem exists_sheet_of_ok {text : List Char} {records : List (List (List Char))}
    (h : parseCsvRecords text = .ok records) :
    ∃ sheet : Sheet, sheet.text = text ∧ sheet.values = records := by
  rcases sheet_or_stray_or_unterminated text with ⟨sheet, rfl⟩ | hstray | hopen
  · rw [parseCsvRecords_text] at h
    exact ⟨sheet, rfl, Except.ok.inj h⟩
  · rw [parseCsvRecords_stray hstray] at h
    cases h
  · rw [parseCsvRecords_unterminated hopen] at h
    cases h

/-- **The reader reads the documented form**, for a text, exactly where nothing stands behind a
closing quote. -/
theorem reads_iff (text : List Char) :
    (∀ records, parseCsvRecords text = .ok records ↔ Reads text records) ↔ ¬ Trails text := by
  constructor
  · rintro h ⟨sheet, hclosed, rfl⟩
    obtain ⟨other, hother, htext, -⟩ := (h _).1 (parseCsvRecords_text sheet)
    exact hclosed (Sheet.text_injective htext ▸ hother)
  · intro h records
    constructor
    · intro hok
      obtain ⟨sheet, rfl, hvalues⟩ := exists_sheet_of_ok hok
      exact ⟨sheet, not_not.1 fun hclosed => h ⟨sheet, hclosed, rfl⟩, rfl, hvalues⟩
    · rintro ⟨sheet, -, rfl, rfl⟩
      exact parseCsvRecords_text sheet

/-- The refusal of a stray quote is that. -/
theorem parseCsvRecords_eq_quoteInside {text : List Char} :
    parseCsvRecords text = .error quoteInside ↔ Stray text := by
  refine ⟨fun h => ?_, parseCsvRecords_stray⟩
  rcases sheet_or_stray_or_unterminated text with ⟨sheet, rfl⟩ | hstray | hopen
  · rw [parseCsvRecords_text] at h
    cases h
  · exact hstray
  · rw [parseCsvRecords_unterminated hopen] at h
    exact absurd (Except.error.inj h).symm quoteInside_ne

/-! ### What is written in quotes -/

/-- Records written with every field in quotes, each ended by the line break. -/
def quotedText (brk : Break) (records : List (List (List Char))) : List Char :=
  linesText (records.map fun record => (record.map (Cell.quoted · []), brk))

theorem rowText_quoted_head {record : List (List Char)} (h : record ≠ []) (rest : List Char) :
    (rowText (record.map (Cell.quoted · [])) ++ rest).head? = some '"' := by
  obtain ⟨field, record, rfl⟩ := List.exists_cons_of_ne_nil h
  cases record <;> rfl

theorem linesBefore_quoted (brk : Break) {records : List (List (List Char))}
    (h : ∀ record ∈ records, record ≠ []) (hrest : rest.head? ≠ some '\n') :
    LinesBefore (records.map fun record => (record.map (Cell.quoted · []), brk)) rest := by
  induction records with
  | nil => trivial
  | cons record records ih =>
      obtain ⟨hrecord, hrecords⟩ := List.forall_mem_cons.1 h
      refine ⟨⟨by simpa using hrecord, by simp [Cell.Valid]⟩, fun _ => ?_, ih hrecords⟩
      cases records with
      | nil => simpa [linesText] using hrest
      | cons next records =>
          rw [List.map_cons, linesText_cons, List.append_assoc,
            rowText_quoted_head (hrecords next (List.mem_cons_self ..))]
          decide

/-- **Records written in quotes** are read back. -/
theorem parseCsvRecords_quotedText (brk : Break) {records : List (List (List Char))}
    (h : ∀ record ∈ records, record ≠ []) :
    parseCsvRecords (quotedText brk records) = .ok records := by
  have hread := parseCsvRecords_text
    ⟨_, [], linesBefore_quoted brk h (by simp [rowText]), by simp, Or.inl rfl⟩
  simpa [Sheet.text, Sheet.values, Sheet.rows, rowText, Cell.value, Function.comp_def, quotedText]
    using hread

/-- They are also read back when the last line break is left out. -/
theorem parseCsvRecords_quotedText_last (brk : Break) {records : List (List (List Char))}
    {last : List (List Char)} (h : ∀ record ∈ records, record ≠ []) (hlast : last ≠ []) :
    parseCsvRecords (quotedText brk records ++ rowText (last.map (Cell.quoted · []))) =
      .ok (records ++ [last]) := by
  have hhead := rowText_quoted_head hlast []
  rw [List.append_nil] at hhead
  have hread := parseCsvRecords_text
    ⟨_, last.map (Cell.quoted · []), linesBefore_quoted brk h (by rw [hhead]; decide),
      by simp [Cell.Valid], Or.inr fun hnil => by rw [hnil] at hhead; cases hhead⟩
  simpa [Sheet.text, Sheet.values, Sheet.rows, Cell.value, Function.comp_def, quotedText, hlast]
    using hread

/-! ### A byte order mark in front -/

/-- The mark in front of the first field of a record. -/
def markRow : List (List Char) → List (List Char)
  | [] => []
  | field :: fields => (byteOrderMark :: field) :: fields

/-- The mark in front of the first field of all. -/
def markRecords : List (List (List Char)) → List (List (List Char))
  | [] => []
  | record :: records => markRow record :: records

namespace CsvScan

/-- The mark in front of the first field that is there. -/
def marked (scan : CsvScan) : CsvScan :=
  match scan.records, scan.record with
  | [], [] => { scan with field := byteOrderMark :: scan.field }
  | [], _ :: _ => { scan with record := markRow scan.record }
  | _ :: _, _ => { scan with records := markRecords scan.records }

/-- The first field has something in it, or is over. -/
def Begun (scan : CsvScan) : Prop := scan.records = [] → scan.record = [] → scan.field ≠ []

theorem marked_push (scan : CsvScan) (c : Char) : (scan.push c).marked = scan.marked.push c := by
  obtain ⟨_ | _, _ | _, _, _, _⟩ := scan <;> rfl

theorem marked_endField (scan : CsvScan) : scan.endField.marked = scan.marked.endField := by
  obtain ⟨_ | _, _ | _, _, _, _⟩ := scan <;> rfl

theorem marked_endRecord (scan : CsvScan) : scan.endRecord.marked = scan.marked.endRecord := by
  obtain ⟨_ | _, _ | _, _, _, _⟩ := scan <;> rfl

theorem marked_quotes (scan : CsvScan) (inQuotes quoted : Bool) :
    { scan with inQuotes := inQuotes, quoted := quoted }.marked =
      { scan.marked with inQuotes := inQuotes, quoted := quoted } := by
  obtain ⟨_ | _, _ | _, _, _, _⟩ := scan <;> rfl

@[simp] theorem marked_inQuotes (scan : CsvScan) : scan.marked.inQuotes = scan.inQuotes := by
  obtain ⟨_ | _, _ | _, _, _, _⟩ := scan <;> rfl

@[simp] theorem marked_quoted (scan : CsvScan) : scan.marked.quoted = scan.quoted := by
  obtain ⟨_ | _, _ | _, _, _, _⟩ := scan <;> rfl

theorem Begun.marked_field {scan : CsvScan} (h : scan.Begun) :
    scan.marked.field = [] ↔ scan.field = [] := by
  obtain ⟨_ | _, _ | _, _, _, _⟩ := scan <;> first | exact Iff.rfl | skip
  simpa [marked] using h rfl rfl

theorem begun_push (scan : CsvScan) (c : Char) : (scan.push c).Begun := fun _ _ => by simp [push]

theorem begun_endField (scan : CsvScan) : scan.endField.Begun := fun _ h => by
  simp [endField] at h

theorem begun_endRecord (scan : CsvScan) : scan.endRecord.Begun := fun h => by
  simp [endRecord] at h

end CsvScan

open CsvScan in
/-- **The mark goes through the scan** untouched, once the first field has something in it. -/
theorem scanCsv_marked {scan : CsvScan} (h : scan.Begun) (text : List Char) :
    scanCsv scan.marked text = (scanCsv scan text).map marked := by
  fun_induction scanCsv scan text with
  | case1 scan => rfl
  | case2 scan hin ih =>
      rw [← ih h, marked_quotes scan false scan.quoted,
        scanCsv_close (by simpa using hin) (by simp), marked_quoted]
  | case3 scan hin rest ih =>
      rw [← ih (begun_push _ _), marked_push, ← scanCsv_escape_cons (by simpa using hin)]
      rfl
  | case4 scan hin next rest hnext ih =>
      rw [← ih h, marked_quotes scan false scan.quoted,
        scanCsv_close (by simpa using hin) (by simpa using hnext), marked_quoted]
  | case5 scan c rest hin hc ih =>
      rw [← ih (begun_push _ _), marked_push, scanCsv.eq_def]
      simp [hin, hc]
  | case6 scan rest hin hopen ih =>
      rw [← ih h, marked_quotes scan true true,
        scanCsv_open (by simpa using hin) (h.marked_field.2 hopen.1) (by simpa using hopen.2)]
  | case7 scan rest hin hopen =>
      rw [scanCsv_stray (by simpa using hin)]
      · rfl
      · rw [Ne, h.marked_field, marked_quoted, ← Bool.not_eq_false, ← not_and_or]
        exact hopen
  | case8 scan rest hin _ ih =>
      rw [← ih (begun_endField scan), marked_endField, scanCsv_comma (by simpa using hin)]
  | case9 scan rest hin _ _ ih | case10 scan hin _ _ _ ih | case11 scan hin rest _ _ _ ih =>
      rw [← ih (begun_endRecord scan), marked_endRecord, scanCsv.eq_def]
      simp [hin]
  | case12 scan hin next rest hnext _ _ _ ih =>
      rw [← ih (begun_endRecord scan), marked_endRecord, scanCsv.eq_def]
      simp [hin, hnext]
  | case13 scan c rest hin hquote hcomma hlf hcr ih =>
      rw [← ih (begun_push _ _), marked_push, scanCsv.eq_def]
      simp [hin, hquote, hcomma, hlf, hcr]

open CsvScan in
theorem CsvScan.Begun.after {scan last : CsvScan} (h : scan.Begun) {text : List Char}
    (hscan : scanCsv scan text = .ok last) : last.Begun := by
  fun_induction scanCsv scan text with
  | case1 scan => exact Except.ok.inj hscan ▸ h
  | case2 scan hin ih => exact ih h hscan
  | case3 scan hin rest ih => exact ih (begun_push _ _) hscan
  | case4 scan hin next rest hnext ih => exact ih h hscan
  | case5 scan c rest hin hc ih => exact ih (begun_push _ _) hscan
  | case6 scan rest hin hopen ih => exact ih h hscan
  | case7 => cases hscan
  | case8 scan rest hin _ ih => exact ih (begun_endField scan) hscan
  | case9 scan rest hin _ _ ih => exact ih (begun_endRecord scan) hscan
  | case10 scan hin _ _ _ ih => exact ih (begun_endRecord scan) hscan
  | case11 scan hin rest _ _ _ ih => exact ih (begun_endRecord scan) hscan
  | case12 scan hin next rest hnext _ _ _ ih => exact ih (begun_endRecord scan) hscan
  | case13 scan c rest hin hquote hcomma hlf hcr ih => exact ih (begun_push _ _) hscan

/-- The text is over with the mark as without it. -/
theorem finishCsv_marked {scan : CsvScan} (h : scan.Begun) {text : List Char} (hne : text ≠ []) :
    finishCsv (byteOrderMark :: text) scan.marked = (finishCsv text scan).map markRecords := by
  have hlast : (byteOrderMark :: text).getLast? = text.getLast? := by
    rw [List.getLast?_cons, List.getLast?_eq_some_getLast hne]
    rfl
  have hrecord : scan.marked.record = [] ↔ scan.record = [] := by
    obtain ⟨_ | _, _ | _, _, _, _⟩ := scan <;> simp [CsvScan.marked, markRow]
  have hrecords : scan.marked.records ++ [scan.marked.record ++ [scan.marked.field]] =
      markRecords (scan.records ++ [scan.record ++ [scan.field]]) := by
    obtain ⟨_ | _, _ | _, _, _, _⟩ := scan <;> rfl
  unfold finishCsv
  simp only [CsvScan.marked_inQuotes, hlast, ne_eq, h.marked_field, hrecord, hrecords,
    List.cons_ne_nil, not_false_eq_true, hne]
  have hstored : scan.marked.records = markRecords scan.records := by
    obtain ⟨_ | _, _ | _, _, _, _⟩ := scan <;> rfl
  rw [hstored]
  split
  · rfl
  · split <;> rfl

/-- One character that is no quote, and the first field has something in it or is over. -/
theorem scanCsv_marked_start {c : Char} (hc : c ≠ '"') (text : List Char) :
    ∃ scan : CsvScan, ∃ rest, scan.Begun ∧ scanCsv .start (c :: text) = scanCsv scan rest ∧
      scanCsv CsvScan.start.marked (c :: text) = scanCsv scan.marked rest := by
  by_cases hcomma : c = ','
  · subst hcomma
    refine ⟨_, text, CsvScan.begun_endField .start, scanCsv_comma rfl, ?_⟩
    rw [CsvScan.marked_endField]
    exact scanCsv_comma rfl
  · by_cases hbreak : AtBreak (c :: text)
    · rcases hbreak.cases with hnil | ⟨brk, rest, htext, hcr⟩
      · cases hnil
      · rw [htext]
        refine ⟨_, rest, CsvScan.begun_endRecord .start, scanCsv_break rfl hcr, ?_⟩
        rw [CsvScan.marked_endRecord]
        exact scanCsv_break rfl hcr
    · have hplain : ∀ d ∈ [c], isPlain d := by
        have hlines : c ≠ '\n' ∧ c ≠ '\r' := not_or.1 fun h => hbreak fun d hd =>
          Option.some.inj hd ▸ h
        simpa [isPlain, hc, hcomma] using hlines
      exact ⟨_, text, CsvScan.begun_push .start c, @scanCsv_plain .start text rfl _ hplain,
        @scanCsv_plain CsvScan.start.marked text rfl _ hplain⟩

theorem isPlain_byteOrderMark : ∀ c ∈ [byteOrderMark], isPlain c :=
  List.forall_mem_singleton.2 rfl

theorem scanCsv_mark (text : List Char) :
    scanCsv .start (byteOrderMark :: text) = scanCsv CsvScan.start.marked text :=
  @scanCsv_plain .start text rfl [byteOrderMark] isPlain_byteOrderMark

/-- **A mark before anything but a quote** stands in front of the first field. -/
theorem parseCsvRecords_mark {c : Char} (hc : c ≠ '"') (text : List Char) :
    parseCsvRecords (byteOrderMark :: c :: text) =
      (parseCsvRecords (c :: text)).map markRecords := by
  obtain ⟨scan, rest, hbegun, hstart, hmarked⟩ := scanCsv_marked_start hc text
  unfold parseCsvRecords
  rw [scanCsv_mark, hmarked, hstart, scanCsv_marked hbegun]
  cases hscan : scanCsv scan rest with
  | error error => rfl
  | ok last => exact finishCsv_marked (hbegun.after hscan) (List.cons_ne_nil _ _)

/-- **The header drops the mark.** -/
theorem readTranslationTable_mark (records : List (List (List Char))) :
    readTranslationTable (markRecords records) = readTranslationTable records := by
  match records with
  | [] => rfl
  | [] :: _ => rfl
  | [_] :: _ => rfl
  | [first, second] :: _ =>
      simp only [markRecords, markRow, readTranslationTable]
      rw [List.dropWhile_cons_of_pos (by decide)]
  | (_ :: _ :: _ :: _) :: _ => rfl

theorem parseTranslationCsv_mark {c : Char} (hc : c ≠ '"') (text : List Char) :
    parseTranslationCsv (byteOrderMark :: c :: text) = parseTranslationCsv (c :: text) := by
  unfold parseTranslationCsv
  rw [parseCsvRecords_mark hc]
  cases parseCsvRecords (c :: text) with
  | error error => rfl
  | ok records => exact readTranslationTable_mark records

/-- **A mark before a quote** makes it a stray one. -/
theorem parseTranslationCsv_mark_quote (text : List Char) :
    parseTranslationCsv (byteOrderMark :: '"' :: text) = .error quoteInside := by
  have hstray : Stray (byteOrderMark :: '"' :: text) :=
    ⟨[], _, rfl, trivial, [], .plain [byteOrderMark], text, rfl, by simp,
      isPlain_byteOrderMark, List.cons_ne_nil _ _⟩
  unfold parseTranslationCsv
  rw [parseCsvRecords_stray hstray]
  rfl

/-! ### What the table is refused for -/

/-- Texts that differ in what they begin with are different. -/
theorem append_ne {start rest text : String} (n : ℕ) (hn : n ≤ start.toList.length)
    (h : start.toList.take n ≠ text.toList.take n) : start ++ rest ≠ text := fun heq => by
  apply h
  rw [← heq, String.toList_append, List.take_append_of_le_length hn]

theorem rowError_ne (index : ℕ) (what : String) : rowError index what ≠ quoteInside := by
  intro h
  have hmessage := ContextPackStoreError.validation.inj h
  rw [String.append_assoc] at hmessage
  exact append_ne 17 (by decide) (by decide) hmessage

theorem validateLanguageCode_ne (value : List Char) :
    validateLanguageCode value ≠ .error quoteInside := by
  unfold validateLanguageCode
  split
  · exact fun h => by cases h
  · intro h
    have hmessage := ContextPackStoreError.validation.inj (Except.error.inj h)
    rw [String.append_assoc] at hmessage
    exact append_ne 1 (by decide) (by decide) hmessage

theorem readTermRows_ne (rows : List (List Char × List Char)) (index : ℕ)
    (records : List (List (List Char))) : readTermRows rows index records ≠ .error quoteInside := by
  fun_induction readTermRows rows index records with
  | case1 => exact fun h => by cases h
  | case2 _ _ _ _ _ ih => exact ih
  | case3 | case4 => exact fun h => rowError_ne _ _ (Except.error.inj h)
  | case5 => exact fun h => absurd (Except.error.inj h) (by decide)
  | case6 _ _ _ _ _ _ _ _ _ ih => exact ih
  | case7 => exact fun h => rowError_ne _ _ (Except.error.inj h)

theorem bind_ne {α β ε : Type} {x : Except ε α} {f : α → Except ε β} {e : ε} (hx : x ≠ .error e)
    (hf : ∀ a, f a ≠ .error e) : (x >>= f) ≠ .error e := by
  cases x with
  | error e' => exact fun h => hx (congrArg Except.error (Except.error.inj h))
  | ok a => exact hf a

/-- The table is never refused with the words of the scanner. -/
theorem readTranslationTable_ne (records : List (List (List Char))) :
    readTranslationTable records ≠ .error quoteInside := by
  match records with
  | [] => exact fun h => absurd (Except.error.inj h) (by decide)
  | [] :: _ => exact fun h => absurd (Except.error.inj h) (by decide)
  | [_] :: _ => exact fun h => absurd (Except.error.inj h) (by decide)
  | (_ :: _ :: _ :: _) :: _ => exact fun h => absurd (Except.error.inj h) (by decide)
  | [first, second] :: records =>
      unfold readTranslationTable
      refine bind_ne (validateLanguageCode_ne _) fun _ => ?_
      refine bind_ne (validateLanguageCode_ne _) fun _ => ?_
      split
      · exact fun h => absurd (Except.error.inj h) (by decide)
      · refine bind_ne (readTermRows_ne _ _ _) fun rows => ?_
        split
        · exact fun h => absurd (Except.error.inj h) (by decide)
        · exact fun h => by cases h

/-- **A mark in front changes nothing**, exactly where the text is not empty and begins with no
quote, or is refused for a stray one anyway. -/
theorem parseTranslationCsv_mark_iff (text : List Char) :
    parseTranslationCsv (byteOrderMark :: text) = parseTranslationCsv text ↔
      text ≠ [] ∧ (text.head? = some '"' → Stray text) := by
  cases text with
  | nil => exact iff_of_false (by decide) fun h => h.1 rfl
  | cons c text =>
      by_cases hc : c = '"'
      · subst hc
        rw [parseTranslationCsv_mark_quote]
        simp only [ne_eq, List.cons_ne_nil, not_false_eq_true, List.head?_cons, true_and,
          forall_const]
        rw [← parseCsvRecords_eq_quoteInside, eq_comm]
        unfold parseTranslationCsv
        cases parseCsvRecords ('"' :: text) with
        | error error =>
            exact ⟨fun h => congrArg _ (Except.error.inj h),
              fun h => congrArg _ (Except.error.inj h)⟩
        | ok records =>
            exact iff_of_false (readTranslationTable_ne records) fun h => by cases h
      · refine iff_of_true (parseTranslationCsv_mark hc text) ⟨List.cons_ne_nil _ _, fun h => ?_⟩
        exact absurd (Option.some.inj h) hc

/-- **The reader of translation tables** meets the form it is documented to read, and does not see
a byte order mark, exactly for texts that have nothing behind a closing quote and do not begin
with a quote, unless a stray quote has them refused with the mark as without it.  What is written
in quotes it always gives back. -/
theorem csv_reader_iff (text : List Char) :
    ((∀ records, parseCsvRecords text = .ok records ↔ Reads text records) ∧
        parseTranslationCsv (byteOrderMark :: text) = parseTranslationCsv text ↔
      ¬ Trails text ∧ text ≠ [] ∧ (text.head? = some '"' → Stray text)) ∧
    ∀ brk records, (∀ record ∈ records, record ≠ []) →
      parseCsvRecords (quotedText brk records) = .ok records ∧
      ∀ last, last ≠ [] →
        parseCsvRecords (quotedText brk records ++ rowText (last.map (Cell.quoted · []))) =
          .ok (records ++ [last]) := by
  refine ⟨and_congr (reads_iff text) (parseTranslationCsv_mark_iff text), ?_⟩
  intro brk records h
  exact ⟨parseCsvRecords_quotedText brk h, fun last hlast =>
    parseCsvRecords_quotedText_last brk h hlast⟩

theorem csv_reader_quoted :
    parseCsvRecords (quotedText .crlf [[['a', ','], ['"']], [[]]]) =
      .ok [[['a', ','], ['"']], [[]]] :=
  ((csv_reader_iff ['a']).2 .crlf [[['a', ','], ['"']], [[]]] (by decide)).1

/-- The header with its first code in quotes, and a row. -/
def quotedHeader : List Char :=
  ['"', 'e', 'n', '"', ',', 'z', 'h', '\n', 'a', ',', 'b']

/-- A field that goes on behind its closing quote is read; and a mark in front of a header in
quotes has the table refused. -/
theorem csv_reader_fails :
    (parseCsvRecords ['"', 'a', '"', 'b'] = .ok [[['a', 'b']]] ∧
      ¬ Reads ['"', 'a', '"', 'b'] [[['a', 'b']]]) ∧
    parseTranslationCsv quotedHeader = .ok ⟨['e', 'n'], ['z', 'h'], [(['a'], ['b'])]⟩ ∧
    parseTranslationCsv (byteOrderMark :: quotedHeader) = .error quoteInside := by
  refine ⟨⟨by decide, ?_⟩, by decide +kernel, parseTranslationCsv_mark_quote _⟩
  rintro ⟨sheet, hclosed, htext, -⟩
  have hsheet : sheet = ⟨[], [.quoted ['a'] ['b']], trivial, by simp [Cell.Valid, isPlain],
      Or.inr (by simp [rowText, Cell.text])⟩ :=
    Sheet.text_injective (htext.trans rfl)
  subst hsheet
  have := hclosed [.quoted ['a'] ['b']] (by simp [Sheet.rows]) _ (List.mem_singleton_self _)
  exact List.cons_ne_nil _ _ this

end Packs
end ZuTalk
