/-
# Subtitle files

`export_srt`, `export_vtt` and `subtitle_tokens` of `crates/vt-export/src/formats.rs`.

Both files are blocks of lines with empty lines between them, and are read back so
(`parseSrt`, `parseVtt`): a cue has its number, in an SRT file, its times and its text.  The text is
written as it is, and an asynchronous transcript gives all its tokens, whatever their times.  So the
files are read back to the tokens, each later at its end than at its start, exactly where no text
that is written has an empty line and every token of an asynchronous transcript ends after it
starts (`subtitles_wellFormed_iff`).
-/

import Mathlib.Data.List.Induction
import ZuTalk.Export.Formats

namespace ZuTalk
namespace Export

open Delimited

/-! ### Writing -/

/-- A time in hours, minutes, seconds and thousandths, the last after a separator. -/
def formatTime (separator : Char) (ms : ℕ) : List Char :=
  padded 2 (ms / 3600000) ++ ':' :: padded 2 (ms % 3600000 / 60000) ++
    ':' :: padded 2 (ms % 60000 / 1000) ++ separator :: padded 3 (ms % 1000)

/-- `format_time_srt`. -/
def formatTimeSrt (ms : ℕ) : List Char := formatTime ',' ms

/-- `format_time_vtt` is the same with a point. -/
theorem formatTimeVtt_eq (ms : ℕ) : formatTimeVtt ms = formatTime '.' ms := rfl

/-- `SubtitleSelection`. -/
structure SubtitleSelection where
  tokens : List ExportToken
  omittedRows : ℕ

/-- The token of an utterance with usable times: both are there, and the end is later. -/
def usable (utterance : ExportUtterance) : Option ExportToken :=
  match utterance.sourceStartMs, utterance.sourceEndMs with
  | some startMs, some endMs =>
      if endMs > startMs then some ⟨utterance.sourceText, startMs, endMs⟩ else none
  | _, _ => none

/-- The tokens of utterances, and how many have none, in one pass. -/
def selectUtterances (utterances : List ExportUtterance) : SubtitleSelection :=
  utterances.foldl (fun selection utterance =>
    match usable utterance with
    | some token => { selection with tokens := selection.tokens ++ [token] }
    | none => { selection with omittedRows := selection.omittedRows + 1 }) ⟨[], 0⟩

/-- `subtitle_tokens`. -/
def subtitleTokens (data : ExportData) : SubtitleSelection :=
  match data.transcript with
  | .asyncTokens tokens => ⟨tokens, 0⟩
  | .notebookCapture _ _ utterances => selectUtterances utterances
  | .notebookCaptureLanguageColumns _ _ utterances => selectUtterances utterances

/-- The line with the times of a cue. -/
def timingLine (format : ℕ → List Char) (token : ExportToken) : List Char :=
  format token.startMs ++ [' ', '-', '-', '>', ' '] ++ format token.endMs

/-- `export_srt`. -/
def exportSrt (data : ExportData) : Except ExportError (List Char) :=
  .ok (((subtitleTokens data).tokens.zipIdx 1).flatMap fun (token, idx) =>
    Nat.toDigits 10 idx ++ ['\n'] ++ timingLine formatTimeSrt token ++ ['\n'] ++
      token.text ++ ['\n', '\n'])

/-- `export_vtt`. -/
def exportVtt (data : ExportData) : Except ExportError (List Char) :=
  .ok (['W', 'E', 'B', 'V', 'T', 'T', '\n', '\n'] ++
    (subtitleTokens data).tokens.flatMap fun token =>
      timingLine formatTimeVtt token ++ ['\n'] ++ token.text ++ ['\n', '\n'])

/-! ### Reading -/

/-- A number in decimal digits. -/
def readNumber (text : List Char) : Option ℕ :=
  if text ≠ [] ∧ text.all Char.isDigit then some (Nat.ofDigitChars 10 text 0) else none

/-- A time is read, the separator before the thousandths given. -/
def readTime (separator : Char) (text : List Char) : Option ℕ :=
  match text.splitOn ':' with
  | [hours, minutes, rest] =>
      match rest.splitOn separator with
      | [seconds, millis] => do
          let h ← readNumber hours
          let m ← readNumber minutes
          let s ← readNumber seconds
          let ms ← readNumber millis
          if m < 60 ∧ s < 60 ∧ ms < 1000 then some (h * 3600000 + m * 60000 + s * 1000 + ms)
          else none
      | _ => none
  | _ => none

/-- A cue: the line with its times, and the lines of its text. -/
def readCue (separator : Char) : List (List Char) → Option ExportToken
  | timing :: lines =>
      match timing.splitOn ' ' with
      | [start, ['-', '-', '>'], finish] => do
          let startMs ← readTime separator start
          let endMs ← readTime separator finish
          some ⟨['\n'].intercalate lines, startMs, endMs⟩
      | _ => none
  | [] => none

/-- A cue with its number in front. -/
def readNumbered : List (List Char) × ℕ → Option ExportToken
  | (number :: lines, idx) => if readNumber number = some idx then readCue ',' lines else none
  | ([], _) => none

/-- The cues of an SRT file: blocks of lines, numbered from one on. -/
def parseSrt (text : List Char) : Option (List ExportToken) :=
  ((blocks (text.splitOn '\n')).zipIdx 1).mapM readNumbered

/-- The cues of a WebVTT file: blocks of lines after the one of the header. -/
def parseVtt (text : List Char) : Option (List ExportToken) :=
  match blocks (text.splitOn '\n') with
  | [['W', 'E', 'B', 'V', 'T', 'T']] :: cues => cues.mapM (readCue '.')
  | _ => none

/-! ### Times are read back -/

theorem isDigit_of_mem_padded {width n : ℕ} {c : Char} (h : c ∈ padded width n) :
    c.isDigit = true := by
  rcases List.mem_append.1 h with h | h
  · rw [List.eq_of_mem_replicate h]
    rfl
  · exact Nat.isDigit_of_mem_toDigits (by omega) (Nat.le_refl 10) h

theorem readNumber_padded (width n : ℕ) : readNumber (padded width n) = some n := by
  have hdigits : (padded width n).all Char.isDigit = true :=
    List.all_eq_true.2 fun _ h => isDigit_of_mem_padded h
  have hne : padded width n ≠ [] := by simp [padded, Nat.toDigits_ne_nil]
  rw [readNumber, if_pos ⟨hne, hdigits⟩, padded, Nat.ofDigitChars_append,
    Nat.ofDigitChars_replicate_zero, Nat.mul_zero, Nat.ofDigitChars_ten_toDigits]

theorem readNumber_toDigits (n : ℕ) : readNumber (Nat.toDigits 10 n) = some n := by
  have h := readNumber_padded 0 n
  rwa [padded, Nat.zero_sub, List.replicate_zero, List.nil_append] at h

/-- A character that is no digit is in no number. -/
theorem not_mem_padded {c : Char} (hc : c.isDigit = false) (width n : ℕ) : c ∉ padded width n :=
  fun h => by simp [isDigit_of_mem_padded h] at hc

theorem not_mem_formatTime {c separator : Char} (hc : c.isDigit = false) (hcolon : c ≠ ':')
    (hseparator : c ≠ separator) (ms : ℕ) : c ∉ formatTime separator ms := by
  simp [formatTime, not_mem_padded hc, hcolon, hseparator]

/-- **A time is read back.** -/
theorem readTime_formatTime {separator : Char} (hdigit : separator.isDigit = false)
    (hcolon : separator ≠ ':') (ms : ℕ) :
    readTime separator (formatTime separator ms) = some ms := by
  have hcolons : (formatTime separator ms).splitOn ':' =
      [padded 2 (ms / 3600000), padded 2 (ms % 3600000 / 60000),
        padded 2 (ms % 60000 / 1000) ++ separator :: padded 3 (ms % 1000)] := by
    have hdigits := not_mem_padded (c := ':') (by decide)
    rw [formatTime, List.append_assoc, List.append_assoc, List.cons_append, List.cons_append,
      List.splitOn_append_cons_self_of_not_mem (hdigits _ _),
      List.splitOn_append_cons_self_of_not_mem (hdigits _ _), List.splitOn_eq_singleton]
    simp [hdigits, hcolon.symm]
  have hparts : (padded 2 (ms % 60000 / 1000) ++ separator :: padded 3 (ms % 1000)).splitOn
      separator = [padded 2 (ms % 60000 / 1000), padded 3 (ms % 1000)] := by
    have hdigits := not_mem_padded hdigit
    rw [List.splitOn_append_cons_self_of_not_mem (hdigits _ _),
      List.splitOn_eq_singleton (hdigits _ _)]
  have hsum : ms / 3600000 * 3600000 + ms % 3600000 / 60000 * 60000 +
      ms % 60000 / 1000 * 1000 + ms % 1000 = ms := by omega
  simp only [readTime, hcolons, hparts, readNumber_padded, Option.bind_eq_bind, Option.bind_some]
  rw [if_pos ⟨by omega, by omega, by omega⟩, hsum]

/-! ### Cues are read back -/

/-- What separates the thousandths of a time: no digit, no colon and no blank. -/
structure IsSeparator (separator : Char) : Prop where
  digit : separator.isDigit = false
  colon : separator ≠ ':'
  blank : separator ≠ ' '
  newline : separator ≠ '\n'

/-- **A cue is read back.** -/
theorem readCue_timingLine {separator : Char} (h : IsSeparator separator) (token : ExportToken) :
    readCue separator (timingLine (formatTime separator) token :: linesOf token.text) =
      some token := by
  have hblank := not_mem_formatTime (c := ' ') (by decide) (by decide) h.blank.symm
  have hparts : (timingLine (formatTime separator) token).splitOn ' ' =
      [formatTime separator token.startMs, ['-', '-', '>'], formatTime separator token.endMs] := by
    have hline : timingLine (formatTime separator) token = formatTime separator token.startMs ++
        ' ' :: (['-', '-', '>'] ++ ' ' :: formatTime separator token.endMs) := by
      simp [timingLine]
    rw [hline, List.splitOn_append_cons_self_of_not_mem (hblank _),
      List.splitOn_append_cons_self_of_not_mem (by decide), List.splitOn_eq_singleton (hblank _)]
  simp only [readCue, hparts, readTime_formatTime h.digit h.colon, Option.bind_eq_bind,
    Option.bind_some, intercalate_linesOf]

/-- The line with the times is a line of its own. -/
theorem isHead_timingLine {separator : Char} (h : IsSeparator separator) (token : ExportToken) :
    IsHead [timingLine (formatTime separator) token] where
  ne_nil := List.cons_ne_nil _ _
  filled := by simp [timingLine]
  lines := by
    have hnewline := not_mem_formatTime (c := '\n') (by decide) (by decide) h.newline.symm
    simp [timingLine, hnewline]

/-- The text of a cue that is read has no empty line. -/
theorem plain_of_readCue {separator : Char} {block : List (List Char)} {token : ExportToken}
    (hempty : [] ∉ block) (hlines : ∀ line ∈ block, '\n' ∉ line)
    (h : readCue separator block = some token) : Plain token.text := by
  cases block with
  | nil => cases h
  | cons timing lines =>
      simp only [readCue] at h
      split at h
      · obtain ⟨startMs, -, h⟩ := Option.bind_eq_some_iff.1 h
        obtain ⟨endMs, -, h⟩ := Option.bind_eq_some_iff.1 h
        obtain rfl := Option.some.inj h
        exact plain_intercalate (fun hmem => hempty (List.mem_cons_of_mem _ hmem))
          fun line hline => hlines line (List.mem_cons_of_mem _ hline)
      · cases h

/-- What holds of all that is read holds of the results. -/
theorem forall_of_mapM_eq_some {α β : Type*} {f : α → Option β} {p : β → Prop} {l : List α}
    (h : ∀ a ∈ l, ∀ b, f a = some b → p b) {results : List β} (hmap : l.mapM f = some results) :
    ∀ b ∈ results, p b := by
  induction l generalizing results with
  | nil =>
      obtain rfl := Option.some.inj hmap
      exact List.forall_mem_nil _
  | cons a l ih =>
      obtain ⟨hfirst, hrest⟩ := List.forall_mem_cons.1 h
      rw [List.mapM_cons] at hmap
      obtain ⟨b, hb, hmap⟩ := Option.bind_eq_some_iff.1 hmap
      obtain ⟨bs, hbs, hmap⟩ := Option.bind_eq_some_iff.1 hmap
      obtain rfl := Option.some.inj hmap
      exact List.forall_mem_cons.2 ⟨hfirst b hb, ih hrest hbs⟩

/-- What is read back item by item is read back. -/
theorem mapM_map_eq_some {α β : Type*} {f : β → Option α} {g : α → β} {l : List α}
    (h : ∀ a ∈ l, f (g a) = some a) : (l.map g).mapM f = some l := by
  induction l with
  | nil => rfl
  | cons a l ih =>
      obtain ⟨ha, hl⟩ := List.forall_mem_cons.1 h
      rw [List.map_cons, List.mapM_cons, ha, ih hl]
      rfl

/-! ### Files are read back -/

/-- What `export_srt` writes of a token: its number and times, and its text. -/
def srtItem (entry : ExportToken × ℕ) : List (List Char) × List Char :=
  ([Nat.toDigits 10 entry.2, timingLine (formatTime ',') entry.1], entry.1.text)

/-- What `export_vtt` writes of a token: its times, and its text. -/
def vttItem (token : ExportToken) : List (List Char) × List Char :=
  ([timingLine (formatTime '.') token], token.text)

theorem isSeparator_comma : IsSeparator ',' := by
  constructor <;> decide

theorem isSeparator_point : IsSeparator '.' := by
  constructor <;> decide

theorem isHead_srtItem (entry : ExportToken × ℕ) : IsHead (srtItem entry).1 := by
  obtain ⟨-, hfilled, hlines⟩ := isHead_timingLine isSeparator_comma entry.1
  have hdigits : '\n' ∉ Nat.toDigits 10 entry.2 := fun h =>
    absurd (Nat.isDigit_of_mem_toDigits (by omega) (Nat.le_refl 10) h) (by decide)
  refine ⟨List.cons_ne_nil _ _, ?_, List.forall_mem_cons.2 ⟨hdigits, hlines⟩⟩
  rw [srtItem, List.mem_cons, not_or]
  exact ⟨Nat.toDigits_ne_nil.symm, hfilled⟩

theorem isHead_vttItem (token : ExportToken) : IsHead (vttItem token).1 :=
  isHead_timingLine isSeparator_point token

theorem exportSrt_eq (data : ExportData) :
    exportSrt data = .ok (entries (((subtitleTokens data).tokens.zipIdx 1).map srtItem)) := by
  unfold exportSrt entries
  rw [List.flatMap_map]
  congr 2
  funext entry
  simp [srtItem, formatTimeSrt, timingLine]

theorem exportVtt_eq (data : ExportData) :
    exportVtt data = .ok (unlines ([['W', 'E', 'B', 'V', 'T', 'T'], []] ++
      entryLines ((subtitleTokens data).tokens.map vttItem))) := by
  unfold exportVtt
  rw [unlines_append, ← entries_eq, entries, List.flatMap_map]
  congr 3
  funext token
  simp [vttItem, formatTimeVtt_eq, timingLine]

/-- The lines of an SRT file. -/
theorem splitOn_srt (tokens : List (ExportToken × ℕ)) :
    (entries (tokens.map srtItem)).splitOn '\n' = entryLines (tokens.map srtItem) ++ [[]] := by
  rw [entries_eq, splitOn_unlines]
  exact newline_not_mem_entryLines (List.forall_mem_map.2 fun entry _ => isHead_srtItem entry)

/-- The lines of a WebVTT file. -/
theorem splitOn_vtt (tokens : List ExportToken) :
    (unlines ([['W', 'E', 'B', 'V', 'T', 'T'], []] ++
        entryLines (tokens.map vttItem))).splitOn '\n' =
      ['W', 'E', 'B', 'V', 'T', 'T'] :: [] :: (entryLines (tokens.map vttItem) ++ [[]]) := by
  rw [splitOn_unlines]
  · rfl
  · refine List.forall_mem_append.2 ⟨by decide, ?_⟩
    exact newline_not_mem_entryLines (List.forall_mem_map.2 fun token _ => isHead_vttItem token)

/-- The numbers in front of the cues are their places. -/
theorem mapM_readNumbered (tokens : List ExportToken) (start : ℕ) :
    (((tokens.zipIdx start).map fun entry =>
      (srtItem entry).1 ++ linesOf (srtItem entry).2).zipIdx start).mapM readNumbered =
        some tokens := by
  induction tokens generalizing start with
  | nil => rfl
  | cons token tokens ih =>
      have hfirst : readNumbered ((srtItem (token, start)).1 ++ linesOf (srtItem (token, start)).2,
          start) = some token := by
        rw [srtItem, List.cons_append, readNumbered, if_pos (readNumber_toDigits start)]
        exact readCue_timingLine isSeparator_comma token
      rw [List.zipIdx_cons, List.map_cons, List.zipIdx_cons, List.mapM_cons, hfirst, ih]
      rfl

/-- **An SRT file is read back** where no text has an empty line. -/
theorem parseSrt_exportSrt {tokens : List ExportToken} (h : ∀ token ∈ tokens, Plain token.text) :
    parseSrt (entries ((tokens.zipIdx 1).map srtItem)) = some tokens := by
  have hplain : ∀ item ∈ (tokens.zipIdx 1).map srtItem, Plain item.2 :=
    List.forall_mem_map.2 fun entry hentry => h entry.1 (List.fst_mem_of_mem_zipIdx hentry)
  rw [parseSrt, splitOn_srt, blocks_entryLines
    (List.forall_mem_map.2 fun entry _ => isHead_srtItem entry) hplain, List.map_map]
  exact mapM_readNumbered tokens 1

/-- **A WebVTT file is read back** where no text has an empty line. -/
theorem parseVtt_exportVtt {tokens : List ExportToken} (h : ∀ token ∈ tokens, Plain token.text) :
    parseVtt (unlines ([['W', 'E', 'B', 'V', 'T', 'T'], []] ++
      entryLines (tokens.map vttItem))) = some tokens := by
  have hblocks := blocks_append (List.cons_ne_nil ['W', 'E', 'B', 'V', 'T', 'T'] []) (by decide)
    (entryLines (tokens.map vttItem) ++ [[]])
  have hplain : ∀ item ∈ tokens.map vttItem, Plain item.2 := List.forall_mem_map.2 h
  have hcues := blocks_entryLines (List.forall_mem_map.2 fun token _ => isHead_vttItem token) hplain
  rw [List.singleton_append, hcues, List.map_map] at hblocks
  rw [parseVtt, splitOn_vtt, hblocks]
  exact mapM_map_eq_some fun token _ => readCue_timingLine isSeparator_point token

/-- No text that is read from an SRT file has an empty line. -/
theorem plain_of_parseSrt {text : List Char} {tokens : List ExportToken}
    (h : parseSrt text = some tokens) : ∀ token ∈ tokens, Plain token.text := by
  refine forall_of_mapM_eq_some (fun (block, idx) hblock token hread => ?_) h
  have hmem := List.fst_mem_of_mem_zipIdx hblock
  have hempty := not_mem_of_mem_blocks hmem
  have hlines : ∀ line ∈ block, '\n' ∉ line := fun line hline =>
    not_mem_of_mem_splitOn (mem_of_mem_blocks hmem hline)
  cases block with
  | nil => cases hread
  | cons number lines =>
      rw [readNumbered] at hread
      split at hread
      · exact plain_of_readCue (fun h => hempty (List.mem_cons_of_mem _ h))
          (fun line hline => hlines line (List.mem_cons_of_mem _ hline)) hread
      · cases hread

/-! ### Rows that are selected -/

/-- One pass selects the rows with usable times, and counts the others. -/
theorem selectUtterances_eq (utterances : List ExportUtterance) :
    selectUtterances utterances =
      ⟨utterances.filterMap usable, utterances.countP fun row => (usable row).isNone⟩ := by
  unfold selectUtterances
  induction utterances using List.reverseRecOn with
  | nil => rfl
  | append_singleton utterances utterance ih =>
      rw [List.foldl_append, ih, List.foldl_cons, List.foldl_nil, List.filterMap_append,
        List.countP_append]
      cases h : usable utterance <;> simp [h]

/-- Selected and omitted rows are all rows. -/
theorem length_selectUtterances (utterances : List ExportUtterance) :
    (selectUtterances utterances).tokens.length + (selectUtterances utterances).omittedRows =
      utterances.length := by
  have hnone : (fun row => decide ¬(usable row).isSome = true) =
      fun row => (usable row).isNone := by
    funext row
    cases usable row <;> rfl
  have hrows := List.length_eq_countP_add_countP (l := utterances) fun row => (usable row).isSome
  rw [selectUtterances_eq, List.length_filterMap_eq_countP]
  rw [hnone] at hrows
  exact hrows.symm

/-- The rows that are selected. -/
theorem mem_selectUtterances {utterances : List ExportUtterance} {token : ExportToken} :
    token ∈ (selectUtterances utterances).tokens ↔
      ∃ utterance ∈ utterances, usable utterance = some token := by
  rw [selectUtterances_eq]
  exact List.mem_filterMap

/-- The token of a row has its text, and ends after it starts. -/
theorem usable_eq_some {utterance : ExportUtterance} {token : ExportToken}
    (h : usable utterance = some token) :
    token.text = utterance.sourceText ∧ token.startMs < token.endMs := by
  unfold usable at h
  split at h
  · split at h
    · next hlater =>
        obtain rfl := Option.some.inj h
        exact ⟨rfl, hlater⟩
    · cases h
  · cases h

/-- A row has usable times: both are there, and the end is later. -/
def Timed (utterance : ExportUtterance) : Prop :=
  ∃ startMs ∈ utterance.sourceStartMs, ∃ endMs ∈ utterance.sourceEndMs, startMs < endMs

theorem timed_iff (utterance : ExportUtterance) :
    Timed utterance ↔ ∃ token, usable utterance = some token := by
  unfold Timed usable
  constructor
  · rintro ⟨startMs, hstart, endMs, hend, hlater⟩
    rw [Option.mem_def] at hstart hend
    rw [hstart, hend]
    exact ⟨_, if_pos hlater⟩
  · rintro ⟨token, h⟩
    split at h
    · next startMs endMs hstart hend =>
        split at h
        · next hlater => exact ⟨startMs, hstart, endMs, hend, hlater⟩
        · cases h
    · cases h

/-! ### Well-formed files -/

/-- The number of rows of a transcript. -/
def ExportTranscript.rows : ExportTranscript → ℕ
  | .asyncTokens tokens => tokens.length
  | .notebookCapture _ _ utterances => utterances.length
  | .notebookCaptureLanguageColumns _ _ utterances => utterances.length

/-- **The subtitle files of a transcript are well formed**: both are read back to the tokens that
were selected, every cue ends after it starts, and the rows that are not selected are counted. -/
structure SubtitlesWellFormed (data : ExportData) : Prop where
  srt : ∃ text, exportSrt data = .ok text ∧ parseSrt text = some (subtitleTokens data).tokens
  vtt : ∃ text, exportVtt data = .ok text ∧ parseVtt text = some (subtitleTokens data).tokens
  later : ∀ token ∈ (subtitleTokens data).tokens, token.startMs < token.endMs
  counted : (subtitleTokens data).tokens.length + (subtitleTokens data).omittedRows =
    data.transcript.rows

/-- A transcript that fits in a subtitle file: no text that is written has an empty line, and the
tokens of an asynchronous transcript end after they start. -/
def Fits : ExportTranscript → Prop
  | .asyncTokens tokens => ∀ token ∈ tokens, Plain token.text ∧ token.startMs < token.endMs
  | .notebookCapture _ _ utterances =>
      ∀ utterance ∈ utterances, Timed utterance → Plain utterance.sourceText
  | .notebookCaptureLanguageColumns _ _ utterances =>
      ∀ utterance ∈ utterances, Timed utterance → Plain utterance.sourceText

theorem counted_subtitleTokens (data : ExportData) :
    (subtitleTokens data).tokens.length + (subtitleTokens data).omittedRows =
      data.transcript.rows := by
  unfold subtitleTokens
  cases data.transcript with
  | asyncTokens tokens => rfl
  | notebookCapture left right utterances => exact length_selectUtterances utterances
  | notebookCaptureLanguageColumns columns common utterances =>
      exact length_selectUtterances utterances

theorem forall_selectUtterances_iff (utterances : List ExportUtterance) :
    (∀ token ∈ (selectUtterances utterances).tokens,
        Plain token.text ∧ token.startMs < token.endMs) ↔
      ∀ utterance ∈ utterances, Timed utterance → Plain utterance.sourceText := by
  constructor
  · intro h utterance hutterance htimed
    obtain ⟨token, husable⟩ := (timed_iff utterance).1 htimed
    rw [← (usable_eq_some husable).1]
    exact (h token (mem_selectUtterances.2 ⟨utterance, hutterance, husable⟩)).1
  · intro h token htoken
    obtain ⟨utterance, hutterance, husable⟩ := mem_selectUtterances.1 htoken
    obtain ⟨htext, hlater⟩ := usable_eq_some husable
    exact ⟨htext ▸ h utterance hutterance ((timed_iff utterance).2 ⟨token, husable⟩), hlater⟩

/-- A transcript fits exactly if the tokens that are selected do. -/
theorem fits_iff (data : ExportData) :
    Fits data.transcript ↔ ∀ token ∈ (subtitleTokens data).tokens,
      Plain token.text ∧ token.startMs < token.endMs := by
  unfold subtitleTokens
  cases data.transcript with
  | asyncTokens tokens => exact Iff.rfl
  | notebookCapture left right utterances => exact (forall_selectUtterances_iff utterances).symm
  | notebookCaptureLanguageColumns columns common utterances =>
      exact (forall_selectUtterances_iff utterances).symm

/-- **The subtitle files are well formed exactly for a transcript that fits.** -/
theorem subtitles_wellFormed_iff (data : ExportData) :
    SubtitlesWellFormed data ↔ Fits data.transcript := by
  rw [fits_iff]
  constructor
  · rintro ⟨⟨text, -, hread⟩, -, hlater, -⟩ token htoken
    exact ⟨plain_of_parseSrt hread token htoken, hlater token htoken⟩
  · intro h
    have hplain : ∀ token ∈ (subtitleTokens data).tokens, Plain token.text :=
      fun token htoken => (h token htoken).1
    exact ⟨⟨_, exportSrt_eq data, parseSrt_exportSrt hplain⟩,
      ⟨_, exportVtt_eq data, parseVtt_exportVtt hplain⟩,
      fun token htoken => (h token htoken).2, counted_subtitleTokens data⟩

/-- A token with an empty line in its text, and one that ends where it starts. -/
def brokenToken : ExportToken := ⟨['a', '\n', '\n', 'b'], 0, 1000⟩

@[inherit_doc brokenToken]
def momentToken : ExportToken := ⟨['a'], 1000, 1000⟩

/-- **A text with an empty line is not read back**: what is below the line is no cue.  And a token
without length is written as a cue. -/
theorem brokenToken_not_read :
    ¬ SubtitlesWellFormed ⟨['t'], .asyncTokens [brokenToken], none⟩ ∧
      (exportSrt ⟨['t'], .asyncTokens [brokenToken], none⟩).toOption.bind parseSrt = none ∧
      ¬ SubtitlesWellFormed ⟨['t'], .asyncTokens [momentToken], none⟩ := by
  refine ⟨fun h => ?_, by decide, fun h => ?_⟩
  · obtain ⟨text, -, hread⟩ := h.srt
    have hplain := plain_of_parseSrt hread brokenToken List.mem_cons_self
    exact absurd hplain (by decide)
  · have hlater := h.later momentToken List.mem_cons_self
    exact absurd hlater (by decide)

end Export
end ZuTalk
