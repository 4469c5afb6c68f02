/-
# The facts of an utterance

`utterance_facts`, `ordered_language_row` and `clipboard_language_lines` of
`crates/vt-export/src/formats.rs`: which texts of an utterance are exported, and where.

Texts of one known language are one fact: the source if it is one, else the last of them; a text
of an unknown language is one of its own (`utteranceFacts_perm`).  A row has one cell for a column,
and a column takes unknown languages for one another, so facts that are kept apart may meet in a
cell, where the last one stays (`keepsRow_iff`).  The lines for the clipboard take every fact once
(`clipboardFacts_perm`).
-/

import Mathlib.Data.List.Perm.Basic
import ZuTalk.Library.Latest
import ZuTalk.Library.Text

namespace ZuTalk
namespace Export

/-! ### Languages -/

/-- The base of a language code, in lower case. -/
def base (language : List Char) : List Char :=
  ((Text.trim language).takeWhile fun c => c ≠ '-' && c ≠ '_').map Char.toLower

/-- `same_language`. -/
def sameLanguage (a b : List Char) : Bool := base a = base b

/-- `is_unknown_language`. -/
def isUnknownLanguage (language : List Char) : Bool :=
  Text.trim language = [] || language.map Char.toLower = ['u', 'n', 'd']

/-- `language_index`. -/
def languageIndex (columns : List (List Char)) (language : List Char) : Option ℕ :=
  columns.findIdx? (sameLanguage · language)

/-- `display_language`. -/
def displayLanguage (language : List Char) : List Char :=
  if Text.trim language = [] then ['u', 'n', 'd'] else language

/-! ### Utterances -/

/-- `ExportLanguageVariant`. -/
structure ExportLanguageVariant where
  language : List Char
  text : List Char
  deriving DecidableEq

/-- `ExportUtterance`. -/
structure ExportUtterance where
  sourceLanguage : List Char
  sourceText : List Char
  sourceStartMs : Option ℕ
  sourceEndMs : Option ℕ
  translatedLanguage : Option (List Char)
  translatedText : Option (List Char)
  languageVariants : List ExportLanguageVariant
  deriving DecidableEq

/-- `UtteranceFact`. -/
structure UtteranceFact where
  language : List Char
  text : List Char
  isSource : Bool
  deriving DecidableEq

/-- Two facts are told as one. -/
def merges (a b : UtteranceFact) : Bool :=
  !isUnknownLanguage a.language && !isUnknownLanguage b.language &&
    sameLanguage a.language b.language

/-- `push_or_replace_fact`. -/
def pushOrReplaceFact (facts : List UtteranceFact) (language text : List Char) (isSource : Bool) :
    List UtteranceFact :=
  if Text.trim text = [] then facts
  else Latest.push merges UtteranceFact.isSource facts ⟨language, Text.trim text, isSource⟩

/-- `utterance_facts`. -/
def utteranceFacts (utterance : ExportUtterance) : List UtteranceFact :=
  let facts := pushOrReplaceFact [] utterance.sourceLanguage utterance.sourceText true
  let facts := match utterance.translatedText with
    | none => facts
    | some text =>
        pushOrReplaceFact facts (utterance.translatedLanguage.getD ['u', 'n', 'd']) text false
  utterance.languageVariants.foldl
    (fun facts variant => pushOrReplaceFact facts variant.language variant.text false) facts

/-- `ordered_language_row`. -/
def orderedLanguageRow (utterance : ExportUtterance) (columns : List (List Char)) :
    Option (List (List Char)) :=
  let row := (utteranceFacts utterance).foldl
    (fun (row : List (List Char) × Bool) fact =>
      match languageIndex columns fact.language with
      | some index => (row.1.set index fact.text, true)
      | none => row)
    (List.replicate columns.length [], false)
  if row.2 then some row.1 else none

/-- `has_unrepresented_fact`. -/
def hasUnrepresentedFact (utterance : ExportUtterance) (columns : List (List Char)) : Bool :=
  (utteranceFacts utterance).any fun fact => (languageIndex columns fact.language).isNone

/-- The facts that `append_unrepresented_markdown` and `append_unrepresented_txt` go over. -/
def unrepresentedFacts (utterance : ExportUtterance) (columns : List (List Char)) :
    List UtteranceFact :=
  (utteranceFacts utterance).filter fun fact => (languageIndex columns fact.language).isNone

/-! ### The facts there are -/

/-- A text besides the source. -/
def translation (language text : List Char) : UtteranceFact := ⟨language, Text.trim text, false⟩

/-- The texts of an utterance besides the source, as far as there is something in them. -/
def otherTexts (utterance : ExportUtterance) : List UtteranceFact :=
  (utterance.translatedText.toList.map
      (translation (utterance.translatedLanguage.getD ['u', 'n', 'd'])) ++
    utterance.languageVariants.map fun variant => translation variant.language variant.text).filter
      fun fact => fact.text ≠ []

/-- What an utterance has to be exported: the source text; for each other known language the last
text that is not empty; and every text of an unknown language. -/
def factsOf (utterance : ExportUtterance) : List UtteranceFact :=
  let source : UtteranceFact := ⟨utterance.sourceLanguage, Text.trim utterance.sourceText, true⟩
  if source.text = [] then Latest.standing merges (otherTexts utterance)
  else
    source :: Latest.standing merges
      ((otherTexts utterance).filter fun fact => !merges source fact)

theorem merges_symm (a b : UtteranceFact) : merges a b = merges b a := by
  have hsame : sameLanguage a.language b.language = sameLanguage b.language a.language := by
    unfold sameLanguage
    rw [decide_eq_decide, eq_comm]
  unfold merges
  rw [hsame, Bool.and_comm (!isUnknownLanguage a.language)]

theorem merges_trans (a b c : UtteranceFact) (hab : merges a b) (hbc : merges b c) :
    merges a c := by
  simp only [merges, sameLanguage, Bool.and_eq_true, decide_eq_true_eq] at *
  exact ⟨⟨hab.1.1, hbc.1.2⟩, hab.2.trans hbc.2⟩

/-- Texts are pushed where there is something in them. -/
theorem foldl_pushOrReplaceFact (variants : List ExportLanguageVariant)
    (facts : List UtteranceFact) :
    variants.foldl (fun facts variant =>
        pushOrReplaceFact facts variant.language variant.text false) facts =
      ((variants.map fun variant => translation variant.language variant.text).filter
        fun fact => fact.text ≠ []).foldl (Latest.push merges UtteranceFact.isSource) facts := by
  induction variants generalizing facts with
  | nil => rfl
  | cons variant variants ih =>
      rw [List.foldl_cons, ih, List.map_cons, List.filter_cons, pushOrReplaceFact]
      by_cases htext : Text.trim variant.text = []
      · rw [if_pos htext, if_neg (by simp [translation, htext])]
      · rw [if_neg htext, if_pos (by simp [translation, htext]), List.foldl_cons]
        rfl

/-- The facts are pushed one after the other. -/
theorem utteranceFacts_eq (utterance : ExportUtterance) :
    utteranceFacts utterance = (otherTexts utterance).foldl
      (Latest.push merges UtteranceFact.isSource)
      (pushOrReplaceFact [] utterance.sourceLanguage utterance.sourceText true) := by
  unfold utteranceFacts otherTexts
  rw [foldl_pushOrReplaceFact, List.filter_append, List.foldl_append]
  cases utterance.translatedText with
  | none => rfl
  | some text =>
      refine congrArg (fun facts => List.foldl _ facts _) ?_
      exact foldl_pushOrReplaceFact [⟨utterance.translatedLanguage.getD ['u', 'n', 'd'], text⟩] _

theorem not_isSource_of_mem_otherTexts {utterance : ExportUtterance} {fact : UtteranceFact}
    (h : fact ∈ otherTexts utterance) : fact.isSource = false := by
  rcases List.mem_append.1 (List.mem_filter.1 h).1 with hmem | hmem
  · obtain ⟨text, -, rfl⟩ := List.mem_map.1 hmem
    rfl
  · obtain ⟨variant, -, rfl⟩ := List.mem_map.1 hmem
    rfl

/-- **The facts of an utterance** are the source, the last text of each other known language and
every text of an unknown one, each once. -/
theorem utteranceFacts_perm (utterance : ExportUtterance) :
    (utteranceFacts utterance).Perm (factsOf utterance) := by
  have hothers := fun fact => @not_isSource_of_mem_otherTexts utterance fact
  rw [utteranceFacts_eq]
  unfold factsOf pushOrReplaceFact
  by_cases htext : Text.trim utterance.sourceText = []
  · simp only [htext, if_true]
    refine (Latest.foldl_push_perm merges_symm merges_trans List.Pairwise.nil hothers).trans ?_
    simp
  · simp only [htext, if_false]
    refine (Latest.foldl_push_perm merges_symm merges_trans (List.pairwise_singleton _ _)
      hothers).trans ?_
    simp

/-- There is something in every fact. -/
theorem text_ne_nil {utterance : ExportUtterance} {fact : UtteranceFact}
    (h : fact ∈ factsOf utterance) : fact.text ≠ [] := by
  have hothers : ∀ fact ∈ otherTexts utterance, fact.text ≠ [] := fun fact hfact => by
    simpa using (List.mem_filter.1 hfact).2
  simp only [factsOf] at h
  split at h
  · exact hothers fact (Latest.mem_of_mem_standing h)
  · next hsource =>
      rcases List.mem_cons.1 h with rfl | h
      · exact hsource
      · exact hothers fact (List.mem_filter.1 (Latest.mem_of_mem_standing h)).1

/-! ### Rows -/

/-- The texts of the facts in a column. -/
def inColumn (columns : List (List Char)) (facts : List UtteranceFact) (i : ℕ) :
    List (List Char) :=
  (facts.filter fun fact => languageIndex columns fact.language = some i).map UtteranceFact.text

/-- What a row has in a column. -/
def written (row : Option (List (List Char))) (i : ℕ) : List (List Char) :=
  ((row.bind (·[i]?)).filter (· ≠ [])).toList

/-- **A row keeps the facts** of an utterance: each column has exactly the texts of its facts. -/
def KeepsRow (columns : List (List Char)) (utterance : ExportUtterance)
    (row : Option (List (List Char))) : Prop :=
  ∀ i, (inColumn columns (factsOf utterance) i).Perm (written row i)

/-- No two facts of an utterance are of languages with one base that a column has. -/
def NoneMeet (columns : List (List Char)) (utterance : ExportUtterance) : Prop :=
  (factsOf utterance).Pairwise fun a b =>
    sameLanguage a.language b.language = true →
      ∀ column ∈ columns, sameLanguage column a.language = false

/-- One fact after the other is put into the cell of its column. -/
def placeFact (columns : List (List Char)) (row : List (List Char) × Bool)
    (fact : UtteranceFact) : List (List Char) × Bool :=
  match languageIndex columns fact.language with
  | some index => (row.1.set index fact.text, true)
  | none => row

theorem orderedLanguageRow_eq (utterance : ExportUtterance) (columns : List (List Char)) :
    orderedLanguageRow utterance columns =
      let row := (utteranceFacts utterance).foldl (placeFact columns)
        (List.replicate columns.length [], false)
      if row.2 then some row.1 else none := rfl

theorem length_placeFact (columns : List (List Char)) (facts : List UtteranceFact)
    (row : List (List Char) × Bool) :
    (facts.foldl (placeFact columns) row).1.length = row.1.length := by
  induction facts generalizing row with
  | nil => rfl
  | cons fact facts ih =>
      rw [List.foldl_cons, ih, placeFact]
      split
      · exact List.length_set
      · rfl

theorem inColumn_cons (columns : List (List Char)) (fact : UtteranceFact)
    (facts : List UtteranceFact) (i : ℕ) :
    inColumn columns (fact :: facts) i =
      if languageIndex columns fact.language = some i then fact.text :: inColumn columns facts i
      else inColumn columns facts i := by
  unfold inColumn
  rw [List.filter_cons]
  by_cases h : languageIndex columns fact.language = some i <;> simp [h]

/-- Of the facts of a column the last one stays in its cell. -/
theorem getElem?_placeFact (columns : List (List Char)) (facts : List UtteranceFact)
    (row : List (List Char) × Bool) {i : ℕ} (hi : i < row.1.length) :
    (facts.foldl (placeFact columns) row).1[i]? =
      ((inColumn columns facts i).getLast?).or row.1[i]? := by
  induction facts generalizing row with
  | nil => rfl
  | cons fact facts ih =>
      have hlength : (placeFact columns row fact).1.length = row.1.length :=
        length_placeFact columns [fact] row
      rw [List.foldl_cons, ih _ (hlength ▸ hi), inColumn_cons, placeFact]
      split
      · next index hindex =>
          by_cases hsame : index = i
          · subst hsame
            rw [if_pos hindex, List.getLast?_cons]
            cases (inColumn columns facts index).getLast? <;> simp [hi]
          · rw [if_neg (by rw [hindex]; simpa using hsame), List.getElem?_set_ne hsame]
      · next hindex => rw [if_neg (by rw [hindex]; simp)]

/-- A row is there where some fact has a column. -/
theorem placeFact_snd (columns : List (List Char)) (facts : List UtteranceFact)
    (row : List (List Char) × Bool) :
    (facts.foldl (placeFact columns) row).2 =
      (row.2 || facts.any fun fact => (languageIndex columns fact.language).isSome) := by
  induction facts generalizing row with
  | nil => simp
  | cons fact facts ih =>
      rw [List.foldl_cons, ih, List.any_cons, placeFact]
      cases languageIndex columns fact.language <;> simp

theorem isSome_orderedLanguageRow (utterance : ExportUtterance) (columns : List (List Char)) :
    (orderedLanguageRow utterance columns).isSome =
      (utteranceFacts utterance).any fun fact => (languageIndex columns fact.language).isSome := by
  have hsnd := placeFact_snd columns (utteranceFacts utterance)
    (List.replicate columns.length [], false)
  rw [Bool.false_or] at hsnd
  rw [orderedLanguageRow_eq]
  simp only [hsnd]
  split
  · next h => rw [h, Option.isSome_some]
  · next h =>
      rw [Bool.not_eq_true] at h
      rw [h, Option.isSome_none]

/-- **A row has as many cells** as there are columns. -/
theorem length_orderedLanguageRow {utterance : ExportUtterance} {columns : List (List Char)}
    {cells : List (List Char)} (h : orderedLanguageRow utterance columns = some cells) :
    cells.length = columns.length := by
  rw [orderedLanguageRow_eq] at h
  simp only at h
  split at h
  · obtain rfl := Option.some.inj h
    rw [length_placeFact, List.length_replicate]
  · cases h

theorem languageIndex_lt {columns : List (List Char)} {language : List Char} {i : ℕ}
    (h : languageIndex columns language = some i) : i < columns.length :=
  (List.findIdx?_eq_some_iff_findIdx_eq.1 h).1

/-- **What a row has in a column** is the last text of the facts of the column. -/
theorem written_orderedLanguageRow (utterance : ExportUtterance) (columns : List (List Char))
    (i : ℕ) : written (orderedLanguageRow utterance columns) i =
      (inColumn columns (utteranceFacts utterance) i).getLast?.toList := by
  have hnone : (∀ fact ∈ utteranceFacts utterance, languageIndex columns fact.language ≠ some i) →
      inColumn columns (utteranceFacts utterance) i = [] := fun h => by
    unfold inColumn
    rw [List.filter_eq_nil_iff.2 fun fact hfact => by simpa using h fact hfact]
    rfl
  cases hrow : orderedLanguageRow utterance columns with
  | none =>
      have hany := isSome_orderedLanguageRow utterance columns
      rw [hrow, Option.isSome_none, eq_comm, List.any_eq_false] at hany
      rw [hnone fun fact hfact hindex => hany fact hfact (by rw [hindex]; rfl)]
      rfl
  | some cells =>
      have hlength := length_orderedLanguageRow hrow
      by_cases hi : i < columns.length
      · rw [orderedLanguageRow_eq] at hrow
        simp only at hrow
        split at hrow
        · obtain rfl := Option.some.inj hrow
          have hcell := getElem?_placeFact columns (utteranceFacts utterance)
            (List.replicate columns.length [], false) (by simpa using hi)
          unfold written
          rw [Option.bind_some, hcell]
          cases hlast : (inColumn columns (utteranceFacts utterance) i).getLast? with
          | none => simp [hi]
          | some text =>
              have hmem := List.mem_of_mem_getLast? hlast
              obtain ⟨fact, hfact, rfl⟩ := List.mem_map.1 hmem
              have hne : fact.text ≠ [] := text_ne_nil
                ((utteranceFacts_perm utterance).mem_iff.1 (List.mem_filter.1 hfact).1)
              simp [hne]
        · cases hrow
      · rw [hnone fun fact _ hindex => hi (languageIndex_lt hindex)]
        unfold written
        rw [Option.bind_some, List.getElem?_eq_none (by omega)]
        rfl

theorem inColumn_perm (columns : List (List Char)) (utterance : ExportUtterance) (i : ℕ) :
    (inColumn columns (utteranceFacts utterance) i).Perm
      (inColumn columns (factsOf utterance) i) :=
  ((utteranceFacts_perm utterance).filter _).map _

/-- A list is its last element exactly if it has no more than one. -/
theorem perm_getLast?_iff {α : Type} {l : List α} :
    l.Perm l.getLast?.toList ↔ l.length ≤ 1 := by
  match l with
  | [] => simp
  | [_] => simp
  | a :: b :: l =>
      refine iff_of_false (fun h => ?_) (by simp)
      have hlength := h.length_eq
      rw [List.getLast?_cons] at hlength
      simp at hlength

/-- **A row keeps the facts** exactly where no column has two of them. -/
theorem keepsRow_iff (columns : List (List Char)) (utterance : ExportUtterance) :
    KeepsRow columns utterance (orderedLanguageRow utterance columns) ↔
      ∀ i, (inColumn columns (factsOf utterance) i).length ≤ 1 := by
  refine forall_congr' fun i => ?_
  rw [written_orderedLanguageRow, ← (inColumn_perm columns utterance i).length_eq,
    ← perm_getLast?_iff]
  exact ⟨(inColumn_perm columns utterance i).trans, (inColumn_perm columns utterance i).symm.trans⟩

/-- A row that keeps its facts has none that meet. -/
theorem KeepsRow.length_le {columns : List (List Char)} {utterance : ExportUtterance}
    {row : Option (List (List Char))} (h : KeepsRow columns utterance row) (i : ℕ) :
    (inColumn columns (factsOf utterance) i).length ≤ 1 := by
  rw [(h i).length_eq, written]
  cases (row.bind (·[i]?)).filter (· ≠ []) <;> simp

/-- Two languages are in one column exactly if a column has the base of both. -/
theorem languageIndex_eq_iff {columns : List (List Char)} {a b : List Char} :
    (∃ i, languageIndex columns a = some i ∧ languageIndex columns b = some i) ↔
      sameLanguage a b ∧ ∃ column ∈ columns, sameLanguage column a := by
  unfold languageIndex
  constructor
  · rintro ⟨i, ha, hb⟩
    obtain ⟨hi, hcolumn, -⟩ := List.findIdx?_eq_some_iff_getElem.1 ha
    obtain ⟨_, hother, -⟩ := List.findIdx?_eq_some_iff_getElem.1 hb
    refine ⟨?_, columns[i], List.getElem_mem hi, hcolumn⟩
    simp only [sameLanguage, decide_eq_true_eq] at *
    exact hcolumn.symm.trans hother
  · rintro ⟨hsame, column, hcolumn, hbase⟩
    have hpredicate : (sameLanguage · b) = (sameLanguage · a) := by
      funext c
      simp only [sameLanguage, decide_eq_true_eq] at *
      rw [hsame]
    rw [hpredicate]
    cases hindex : columns.findIdx? (sameLanguage · a) with
    | none => exact absurd hbase (by simp [List.findIdx?_eq_none_iff.1 hindex column hcolumn])
    | some i => exact ⟨i, rfl, rfl⟩

/-- Columns that have one fact at most, said of the facts two by two. -/
theorem length_inColumn_le_iff (columns : List (List Char)) (facts : List UtteranceFact) :
    (∀ i, (inColumn columns facts i).length ≤ 1) ↔
      facts.Pairwise fun a b => ¬ ∃ i, languageIndex columns a.language = some i ∧
        languageIndex columns b.language = some i := by
  induction facts with
  | nil => simp [inColumn]
  | cons fact facts ih =>
      rw [List.pairwise_cons, ← ih]
      constructor
      · intro h
        refine ⟨?_, fun i => ?_⟩
        · rintro other hother ⟨i, hindex, hsame⟩
          have hlength := h i
          have hmem : other.text ∈ inColumn columns facts i :=
            List.mem_map_of_mem (List.mem_filter.2 ⟨hother, by simpa using hsame⟩)
          have hpos := List.length_pos_of_mem hmem
          rw [inColumn_cons, if_pos hindex, List.length_cons] at hlength
          omega
        · have hlength := h i
          rw [inColumn_cons] at hlength
          split at hlength
          · rw [List.length_cons] at hlength
            omega
          · exact hlength
      · rintro ⟨hapart, h⟩ i
        rw [inColumn_cons]
        split
        · next hindex =>
            have hnone : inColumn columns facts i = [] := by
              unfold inColumn
              rw [List.filter_eq_nil_iff.2 fun other hother hsame =>
                hapart other hother ⟨i, hindex, by simpa using hsame⟩]
              rfl
            rw [hnone]
            simp
        · exact h i

/-- **No column has two facts** of an utterance exactly if none meet. -/
theorem noneMeet_iff (columns : List (List Char)) (utterance : ExportUtterance) :
    (∀ i, (inColumn columns (factsOf utterance) i).length ≤ 1) ↔ NoneMeet columns utterance := by
  rw [length_inColumn_le_iff]
  refine List.Pairwise.iff fun a b => ?_
  rw [languageIndex_eq_iff, not_and]
  refine imp_congr_right fun _ => ?_
  simp only [not_exists, not_and, Bool.not_eq_true]

/-! ### Lines for the clipboard -/

/-- A column takes the facts of its language that no column took before: what is written, each with
the language it is written under, and the facts with whether they are taken. -/
def takeColumn (column : List Char) :
    List (UtteranceFact × Bool) →
      List (List Char × UtteranceFact) × List (UtteranceFact × Bool)
  | [] => ([], [])
  | (fact, emitted) :: facts =>
      let rest := takeColumn column facts
      if !emitted && sameLanguage fact.language column then
        ((column, fact) :: rest.1, (fact, true) :: rest.2)
      else (rest.1, (fact, emitted) :: rest.2)

/-- The columns one after the other, and then what no column took. -/
def takeColumns : List (List Char) → List (UtteranceFact × Bool) → List (List Char × UtteranceFact)
  | [], facts => (facts.filter fun entry => !entry.2).map fun entry => (entry.1.language, entry.1)
  | column :: columns, facts =>
      (takeColumn column facts).1 ++ takeColumns columns (takeColumn column facts).2

/-- The facts of `clipboard_language_lines` in the order of the lines. -/
def clipboardFacts (utterance : ExportUtterance) (columns : List (List Char)) :
    List (List Char × UtteranceFact) :=
  takeColumns (columns.filter fun column => Text.trim column ≠ [])
    ((utteranceFacts utterance).map (·, false))

/-- The facts that are not taken yet. -/
def untaken (facts : List (UtteranceFact × Bool)) : List UtteranceFact :=
  (facts.filter fun entry => !entry.2).map Prod.fst

/-- What a column takes and what it leaves are what was there. -/
theorem takeColumn_perm (column : List Char) (facts : List (UtteranceFact × Bool)) :
    ((takeColumn column facts).1.map Prod.snd ++ untaken (takeColumn column facts).2).Perm
      (untaken facts) := by
  induction facts with
  | nil => exact List.Perm.refl _
  | cons entry facts ih =>
      obtain ⟨fact, emitted⟩ := entry
      rw [takeColumn]
      cases emitted with
      | true => simpa [untaken] using ih
      | false =>
          by_cases hsame : sameLanguage fact.language column
          · simpa [hsame, untaken] using ih.cons fact
          · simp only [Bool.not_false, Bool.true_and, hsame, Bool.false_eq_true, if_false]
            refine List.perm_middle.trans ?_
            exact ih.cons fact

theorem takeColumns_perm (columns : List (List Char)) (facts : List (UtteranceFact × Bool)) :
    ((takeColumns columns facts).map Prod.snd).Perm (untaken facts) := by
  induction columns generalizing facts with
  | nil => simp [takeColumns, untaken, Function.comp_def]
  | cons column columns ih =>
      rw [takeColumns, List.map_append]
      exact ((ih _).append_left _).trans (takeColumn_perm column facts)

/-- **Every fact is written once** for the clipboard. -/
theorem clipboardFacts_perm (utterance : ExportUtterance) (columns : List (List Char)) :
    ((clipboardFacts utterance columns).map Prod.snd).Perm (factsOf utterance) := by
  refine (takeColumns_perm _ _).trans (List.Perm.trans (List.Perm.of_eq ?_)
    (utteranceFacts_perm utterance))
  simp [untaken, List.filter_map, Function.comp_def]

/-- What a column takes is written under it and of its language, and what it leaves is not. -/
theorem takeColumn_spec (column : List Char) (facts : List (UtteranceFact × Bool)) :
    (∀ entry ∈ (takeColumn column facts).1,
      entry.1 = column ∧ sameLanguage entry.2.language column = true) ∧
    ∀ fact ∈ untaken (takeColumn column facts).2,
      sameLanguage fact.language column = false := by
  induction facts with
  | nil => exact ⟨by simp [takeColumn], by simp [takeColumn, untaken]⟩
  | cons entry facts ih =>
      obtain ⟨fact, emitted⟩ := entry
      obtain ⟨htaken, hleft⟩ := ih
      rw [takeColumn]
      cases emitted with
      | true =>
          refine ⟨by simpa using htaken, ?_⟩
          simpa [untaken] using hleft
      | false =>
          by_cases hsame : sameLanguage fact.language column
          · simp only [Bool.not_false, Bool.true_and, hsame, if_true]
            exact ⟨List.forall_mem_cons.2 ⟨⟨rfl, hsame⟩, htaken⟩, by simpa [untaken] using hleft⟩
          · simp only [Bool.not_false, Bool.true_and, hsame, Bool.false_eq_true, if_false]
            refine ⟨htaken, ?_⟩
            change ∀ other ∈ fact :: untaken (takeColumn column facts).2, _
            exact List.forall_mem_cons.2 ⟨Bool.not_eq_true _ ▸ hsame, hleft⟩

theorem takeColumns_language {columns : List (List Char)} {facts : List (UtteranceFact × Bool)}
    {entry : List Char × UtteranceFact} (h : entry ∈ takeColumns columns facts) :
    entry.1 = (columns.find? (sameLanguage entry.2.language ·)).getD entry.2.language := by
  induction columns generalizing facts with
  | nil =>
      obtain ⟨other, -, rfl⟩ := List.mem_map.1 h
      rfl
  | cons column columns ih =>
      obtain ⟨htaken, hleft⟩ := takeColumn_spec column facts
      rw [List.find?_cons]
      rcases List.mem_append.1 h with hmem | hmem
      · obtain ⟨hcolumn, hsame⟩ := htaken entry hmem
        rw [hsame, hcolumn]
        rfl
      · have hfact : entry.2 ∈ untaken (takeColumn column facts).2 :=
          (takeColumns_perm columns _).mem_iff.1 (List.mem_map_of_mem hmem)
        rw [hleft _ hfact]
        exact ih hmem

/-- **A line is written under the first column** of its language, or under its own language if no
column has it. -/
theorem clipboardFacts_language {utterance : ExportUtterance} {columns : List (List Char)}
    {entry : List Char × UtteranceFact} (h : entry ∈ clipboardFacts utterance columns) :
    entry.1 = ((columns.filter fun column => Text.trim column ≠ []).find?
      (sameLanguage entry.2.language ·)).getD entry.2.language :=
  takeColumns_language h

end Export
end ZuTalk
