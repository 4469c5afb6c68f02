/-
# Contexts of a notebook

`compile_notebook_context_with_limit` of `crates/vt-store/src/context_pack_store.rs`: what the
sources of the bound packs have is put into a context as far as its JSON stays within a budget, and
a receipt says what became of it.

The sources are given in the order of their packs, decrypted.  The hash, and what the reader of
JSON makes of a text that is an object, are parameters.
-/

import ZuTalk.Library.Selection
import ZuTalk.Packs.TranslationCsv

namespace ZuTalk
namespace Packs

open Recorder

/-! ### The context -/

/-- `SonioxTranslationTerm`. -/
structure SonioxTranslationTerm where
  source : List Char
  target : List Char
  deriving DecidableEq

/-- `SonioxGeneralContext`. -/
structure SonioxGeneralContext where
  key : List Char
  value : List Char
  deriving DecidableEq

/-- `SonioxContext`. -/
structure SonioxContext where
  translationTerms : List SonioxTranslationTerm := []
  terms : List (List Char) := []
  general : List SonioxGeneralContext := []
  text : List Char := []
  deriving DecidableEq

/-- A character in a string of JSON, as `serde_json` writes it. -/
def jsonEscape (c : Char) : List Char :=
  if c = '"' then ['\\', '"']
  else if c = '\\' then ['\\', '\\']
  else if c = '\n' then ['\\', 'n']
  else if c = '\r' then ['\\', 'r']
  else if c = '\t' then ['\\', 't']
  else if c.toNat = 0x08 then ['\\', 'b']
  else if c.toNat = 0x0C then ['\\', 'f']
  else if c.toNat < 0x20 then
    ['\\', 'u', '0', '0', Nat.digitChar (c.toNat / 16), Nat.digitChar (c.toNat % 16)]
  else [c]

def jsonString (text : List Char) : List Char := '"' :: text.flatMap jsonEscape ++ ['"']

def jsonArray (items : List (List Char)) : List Char :=
  '[' :: [','].intercalate items ++ [']']

def jsonObject (members : List (List Char × List Char)) : List Char :=
  '\x7b' :: [','].intercalate (members.map fun member =>
    jsonString member.1 ++ ':' :: member.2) ++ ['\x7d']

def SonioxTranslationTerm.toJson (term : SonioxTranslationTerm) : List Char :=
  jsonObject [(['s', 'o', 'u', 'r', 'c', 'e'], jsonString term.source),
    (['t', 'a', 'r', 'g', 'e', 't'], jsonString term.target)]

def SonioxGeneralContext.toJson (pair : SonioxGeneralContext) : List Char :=
  jsonObject [(['k', 'e', 'y'], jsonString pair.key),
    (['v', 'a', 'l', 'u', 'e'], jsonString pair.value)]

/-- The members of a context besides the text: a list is left out if there is nothing in it. -/
def SonioxContext.members (context : SonioxContext) : List (List Char × List Char) :=
  (if context.translationTerms = [] then []
    else [(['t', 'r', 'a', 'n', 's', 'l', 'a', 't', 'i', 'o', 'n', '_', 't', 'e', 'r', 'm', 's'],
      jsonArray (context.translationTerms.map SonioxTranslationTerm.toJson))]) ++
    (if context.terms = [] then []
      else [(['t', 'e', 'r', 'm', 's'], jsonArray (context.terms.map jsonString))]) ++
    if context.general = [] then []
    else [(['g', 'e', 'n', 'e', 'r', 'a', 'l'],
      jsonArray (context.general.map SonioxGeneralContext.toJson))]

/-- `serde_json::to_string` of a context. -/
def SonioxContext.toJson (context : SonioxContext) : List Char :=
  jsonObject (context.members ++
    if context.text = [] then []
    else [(['t', 'e', 'x', 't'], jsonString context.text)])

/-- `serialized_scalar_count`. -/
def serializedScalarCount (context : SonioxContext) : ℕ := context.toJson.length

/-! ### Sources -/

/-- `ContextContentKind`. -/
inductive ContextContentKind
  | translationTerms
  | terms
  | general
  | text
  deriving DecidableEq

/-- `ContextPackScope`. -/
inductive ContextPackScope
  | ownPack
  | library
  deriving DecidableEq

/-- `CandidateOrigin`. -/
structure CandidateOrigin where
  packId : String
  sourceId : String
  deriving DecidableEq

/-- `Candidate`. -/
structure Candidate (α : Type) where
  origin : CandidateOrigin
  value : α
  deriving DecidableEq

/-- A source with the scope of its pack, decrypted. -/
structure ContextSource where
  origin : CandidateOrigin
  packScope : ContextPackScope
  title : String
  revision : ℕ
  plaintextSha256 : String
  trusted : Bool
  contentKind : ContextContentKind
  text : List Char

/-- `ContextReceiptSource`. -/
structure ContextReceiptSource where
  origin : CandidateOrigin
  packScope : ContextPackScope
  sourceTitle : String
  sourceRevision : ℕ
  plaintextSha256 : String
  includedItems : ℕ
  includedScalars : ℕ
  deriving DecidableEq

/-- `ContextOmissionReason`. -/
inductive ContextOmissionReason
  | duplicate
  | budgetExceeded
  | truncated
  deriving DecidableEq

/-- `ContextOmission`. -/
structure ContextOmission where
  origin : CandidateOrigin
  kind : ContextContentKind
  reason : ContextOmissionReason
  omittedItems : ℕ
  omittedScalars : ℕ
  deriving DecidableEq

/-- What stops a compilation. -/
inductive CompileError
  | store (error : ContextPackStoreError)
  | trust (message : String)

/-- `str::lines`: a carriage return in front of the line feed goes with it. -/
def lines (text : List Char) : List (List Char) :=
  let parts := text.splitOn '\n'
  (parts.dropLast.map fun line => if line.getLast? = some '\r' then line.dropLast else line) ++
    (parts.getLast?.filter (· ≠ [])).toList

/-- The lines of a text that are not blank, trimmed. -/
def filledLines (text : List Char) : List (List Char) :=
  ((lines text).map Text.trim).filter (· ≠ [])

/-- `parse_terms`. -/
def parseTerms (text : List Char) : Except ContextPackStoreError (List (List Char)) :=
  let terms := filledLines text
  if terms = [] then .error (.validation "terms source contains no non-empty terms")
  else if contextCsvMaxRows < terms.length then
    .error (.validation "terms source exceeds 1,000 entries")
  else
    match terms.find? fun term => contextCsvMaxCellScalars < term.length with
    | some term => .error (.validation ("term exceeds " ++ toString contextCsvMaxCellScalars ++
        " Unicode scalars: " ++ String.ofList (term.take 32)))
    | none => .ok terms

/-- `validate_general_pair`. -/
def validateGeneralPair (key value : List Char) : Except ContextPackStoreError Unit :=
  if Text.trim key = [] ∨ Text.trim value = [] then
    .error (.validation "general Context keys and values cannot be empty")
  else if 64 < key.length ∨ 512 < value.length then
    .error (.validation "general Context key/value exceeds the 64/512 scalar limit")
  else .ok ()

/-- `str::split_once`. -/
def splitOnce (separator : Char) (text : List Char) : Option (List Char × List Char) :=
  if separator ∈ text then
    some (text.takeWhile (· ≠ separator), (text.dropWhile (· ≠ separator)).tail)
  else none

/-- A line `key=value` or `key:value`. -/
def parseGeneralLine (line : List Char) : Except ContextPackStoreError SonioxGeneralContext :=
  match (splitOnce '=' line).or (splitOnce ':' line) with
  | none => .error (.validation "general Context lines must use key=value or key:value")
  | some (key, value) => do
      validateGeneralPair (Text.trim key) (Text.trim value)
      return ⟨Text.trim key, Text.trim value⟩

/-- A member of an object, whose value is there if it is a string. -/
def parseGeneralMember (member : List Char × Option (List Char)) :
    Except ContextPackStoreError SonioxGeneralContext :=
  match member.2 with
  | none => .error (.validation "general Context JSON values must be strings")
  | some value => do
      validateGeneralPair member.1 value
      return ⟨member.1, value⟩

section Compile

variable (objectFromStr : List Char → Option (List (List Char × Option (List Char))))
  (sha256Hex : Bytes → String)

/-- `parse_general`. -/
def parseGeneral (text : List Char) : Except ContextPackStoreError (List SonioxGeneralContext) :=
  match objectFromStr text with
  | some members => do
      let pairs ← members.mapM parseGeneralMember
      if pairs = [] then throw (.validation "general Context object cannot be empty")
      return pairs
  | none => do
      let pairs ← (filledLines text).mapM parseGeneralLine
      if pairs = [] then throw (.validation "general Context source contains no entries")
      if 100 < pairs.length then
        throw (.validation "general Context source exceeds 100 entries")
      return pairs

/-- What the sources have, and the receipts of the sources. -/
structure Candidates where
  translations : List (Candidate SonioxTranslationTerm)
  terms : List (Candidate (List Char))
  general : List (Candidate SonioxGeneralContext)
  texts : List (Candidate (List Char))
  sources : List ContextReceiptSource

/-- What a source has. -/
inductive Content
  | translationTerms (rows : List (List Char × List Char))
  | terms (terms : List (List Char))
  | general (pairs : List SonioxGeneralContext)
  | text (text : List Char)

/-- A source is read by what it is of. -/
def readContent (source : ContextSource) : Except ContextPackStoreError Content :=
  match source.contentKind with
  | .translationTerms => do return .translationTerms (← parseTranslationCsv source.text).rows
  | .terms => do return .terms (← parseTerms source.text)
  | .general => do return .general (← parseGeneral objectFromStr source.text)
  | .text => return .text (Text.trim source.text)

/-- A receipt of a source of which nothing is included yet. -/
def ContextSource.receipt (source : ContextSource) : ContextReceiptSource where
  origin := source.origin
  packScope := source.packScope
  sourceTitle := source.title
  sourceRevision := source.revision
  plaintextSha256 := source.plaintextSha256
  includedItems := 0
  includedScalars := 0

/-- The candidates of a source are added: both directions of a pair of terms. -/
def Candidates.add (found : Candidates) (source : ContextSource) : Content → Candidates
  | .translationTerms rows => { found with
      translations := found.translations ++ rows.flatMap fun pair =>
        [⟨source.origin, ⟨pair.1, pair.2⟩⟩, ⟨source.origin, ⟨pair.2, pair.1⟩⟩]
      sources := found.sources ++ [source.receipt] }
  | .terms terms => { found with
      terms := found.terms ++ terms.map (⟨source.origin, ·⟩)
      sources := found.sources ++ [source.receipt] }
  | .general pairs => { found with
      general := found.general ++ pairs.map (⟨source.origin, ·⟩)
      sources := found.sources ++ [source.receipt] }
  | .text text => { found with
      texts := found.texts ++ [⟨source.origin, text⟩]
      sources := found.sources ++ [source.receipt] }

/-- The loop over the sources. -/
def readSource (found : Candidates) (source : ContextSource) : Except CompileError Candidates :=
  if source.trusted then
    match readContent objectFromStr source with
    | .error error => .error (.store error)
    | .ok content => .ok (found.add source content)
  else .error (.trust ("source " ++ source.origin.sourceId ++ " is not locally trusted"))

/-! ### The passes -/

/-- The variables of the passes. -/
structure Compiling where
  context : SonioxContext
  sources : List ContextReceiptSource
  omissions : List ContextOmission

/-- `record_included`. -/
def recordIncluded (origin : CandidateOrigin) (items scalars : ℕ) :
    List ContextReceiptSource → List ContextReceiptSource
  | [] => []
  | source :: sources =>
      if source.origin = origin then
        { source with
          includedItems := source.includedItems + items
          includedScalars := source.includedScalars + scalars } :: sources
      else source :: recordIncluded origin items scalars sources

/-- `record_omission`. -/
def recordOmission (origin : CandidateOrigin) (kind : ContextContentKind)
    (reason : ContextOmissionReason) (items scalars : ℕ) :
    List ContextOmission → List ContextOmission
  | [] => [⟨origin, kind, reason, items, scalars⟩]
  | omission :: omissions =>
      if omission.origin = origin ∧ omission.kind = kind ∧ omission.reason = reason then
        { omission with
          omittedItems := omission.omittedItems + items
          omittedScalars := omission.omittedScalars + scalars } :: omissions
      else omission :: recordOmission origin kind reason items scalars omissions

namespace Compiling

variable (compiling : Compiling)

def included (origin : CandidateOrigin) (scalars : ℕ) : Compiling :=
  { compiling with sources := recordIncluded origin 1 scalars compiling.sources }

def omitted (origin : CandidateOrigin) (kind : ContextContentKind)
    (reason : ContextOmissionReason) (scalars : ℕ) : Compiling :=
  { compiling with omissions := recordOmission origin kind reason 1 scalars compiling.omissions }

end Compiling

/-- A step of the passes over terms, pairs of terms and general pairs: `add` puts a candidate into
the context, and of those seen before it is a duplicate. -/
def placeItem {α : Type} [DecidableEq α] (kind : ContextContentKind)
    (add : SonioxContext → α → SonioxContext) (scalars : α → ℕ) (maxScalars : ℕ)
    (pass : List α × Compiling) (candidate : Candidate α) : List α × Compiling :=
  if candidate.value ∈ pass.1 then
    (pass.1, pass.2.omitted candidate.origin kind .duplicate (scalars candidate.value))
  else
    let context := add pass.2.context candidate.value
    (candidate.value :: pass.1,
      if maxScalars < serializedScalarCount context then
        pass.2.omitted candidate.origin kind .budgetExceeded (scalars candidate.value)
      else { pass.2 with context := context }.included candidate.origin (scalars candidate.value))

def addTranslation (context : SonioxContext) (term : SonioxTranslationTerm) : SonioxContext :=
  { context with translationTerms := context.translationTerms ++ [term] }

def addTerm (context : SonioxContext) (term : List Char) : SonioxContext :=
  { context with terms := context.terms ++ [term] }

def addGeneral (context : SonioxContext) (pair : SonioxGeneralContext) : SonioxContext :=
  { context with general := context.general ++ [pair] }

def translationScalars (term : SonioxTranslationTerm) : ℕ := term.source.length + term.target.length

def generalScalars (pair : SonioxGeneralContext) : ℕ := pair.key.length + pair.value.length

/-- `largest_text_prefix_that_fits`. -/
def largestTextPrefixThatFits (context : SonioxContext) (separator candidate : List Char)
    (maxScalars : ℕ) : SonioxContext × ℕ :=
  let withPart := fun n =>
    { context with text := context.text ++ separator ++ candidate.take n }
  let low := Selection.longest
    (fun middle => serializedScalarCount (withPart middle) ≤ maxScalars) 0 candidate.length
  (if low = 0 then context else withPart low, low)

/-- A step of the pass over texts. -/
def placeText (maxScalars : ℕ) (pass : List (List Char) × Compiling)
    (candidate : Candidate (List Char)) : List (List Char) × Compiling :=
  if candidate.value = [] then pass
  else if candidate.value ∈ pass.1 then
    (pass.1, pass.2.omitted candidate.origin .text .duplicate candidate.value.length)
  else
    let before := pass.2.context
    let separator := if before.text = [] then [] else ['\n', '\n']
    let context := { before with text := before.text ++ separator ++ candidate.value }
    (candidate.value :: pass.1,
      if serializedScalarCount context ≤ maxScalars then
        { pass.2 with context := context }.included candidate.origin candidate.value.length
      else
        let (context, included) :=
          largestTextPrefixThatFits before separator candidate.value maxScalars
        let total := candidate.value.length
        let compiling := { pass.2 with context := context }
        if included = 0 then compiling.omitted candidate.origin .text .budgetExceeded total
        else if included < total then
          (compiling.included candidate.origin included).omitted candidate.origin .text .truncated
            (total - included)
        else compiling.included candidate.origin included)

/-- The passes over what was found. -/
def Candidates.compile (found : Candidates) (maxScalars : ℕ) : Compiling :=
  let compiling : Compiling := ⟨{}, found.sources, []⟩
  let compiling := (found.translations.foldl
    (placeItem .translationTerms addTranslation translationScalars maxScalars) ([], compiling)).2
  let compiling := (found.terms.foldl
    (placeItem .terms addTerm List.length maxScalars) ([], compiling)).2
  let compiling := (found.general.foldl
    (placeItem .general addGeneral generalScalars maxScalars) ([], compiling)).2
  (found.texts.foldl (placeText maxScalars) ([], compiling)).2

/-- The part of a `ContextReceipt` that says what became of the sources. -/
structure Accounting where
  sources : List ContextReceiptSource
  omissions : List ContextOmission
  deriving DecidableEq

/-- The context that is compiled, and its receipt. -/
def Compiling.finish (notebookId : String) (compiling : Compiling) :
    ContextCompilation SonioxContext Accounting where
  context := compiling.context
  contextJson := String.ofList compiling.context.toJson
  receipt := {
    notebookId := notebookId
    contextSha256 := sha256Hex (utf8 (String.ofList compiling.context.toJson))
    serializedScalars := compiling.context.toJson.length
    sources := ⟨compiling.sources, compiling.omissions⟩ }

/-- `compile_notebook_context_with_limit`, of the sources of the bound packs. -/
def compileNotebookContextWithLimit (notebookId : String) (sources : List ContextSource)
    (maxScalars : ℕ) : Except CompileError (ContextCompilation SonioxContext Accounting) := do
  if maxScalars < 2 then
    throw (.store (.validation "context scalar budget must fit at least an empty JSON object"))
  let found ← sources.foldlM (readSource objectFromStr) ⟨[], [], [], [], []⟩
  return (found.compile maxScalars).finish sha256Hex notebookId

end Compile

end Packs
end ZuTalk
