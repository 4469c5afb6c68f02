/-
# The candidates of the audience canvas

`macos/ZuTalk/ZuTalk/Capture/CaptureLivePresentationPolicy.swift` and `CaptureHistory.swift`: what
the audience canvas shows of the stored rows.  `AudienceCandidateFold` reads the rows in their
order and keeps, for each column, the rows that fit and the row that covers the most; a row of no
identified language takes the column of the last identified one before it, and the first of them
that of a fallback.

Only rows that borrow their column depend on the fallback (`consume_congr`).  Dictionaries are
listed in the order in which their keys came, and `lowercased` is the lower case of the Unicode
standard.
-/

import ZuTalk.Capture.Event
import ZuTalk.Library.Slots
import ZuTalk.Library.Text

namespace ZuTalk
namespace Capture

/-- `NotebookCaptureUtteranceDTO`: a stored row as the client has it. -/
structure NotebookCaptureUtteranceDTO extends NotebookCaptureUtterance where
  sessionId : String
  provisionalSourceLanguage : Option String
  deriving DecidableEq, Repr

namespace NotebookCaptureUtteranceDTO

/-- `hasSourceLane`. -/
def hasSourceLane (utterance : NotebookCaptureUtteranceDTO) : Bool :=
  let sourceVariants := utterance.languageVariants.filter (·.role = "source")
  if sourceVariants.isEmpty then utterance.languageVariants.isEmpty
  else
    sourceVariants.any fun variant =>
      variant.state = "ready" && variant.text.isSome && variant.completion.isSome

/-- A variant is a final translation. -/
def isFinalTranslation (variant : LanguageVariant) : Bool :=
  (variant.role = "translation" || variant.role = "translated") && variant.state = "ready" &&
    variant.completion = some "complete" && variant.text.isSome

/-- `highestFinalLaneProjectionRevision`. -/
def highestFinalLaneProjectionRevision (utterance : NotebookCaptureUtteranceDTO) : ℕ :=
  (utterance.languageVariants.filter isFinalTranslation).foldl
    (fun highest variant => max highest variant.projectionRevision)
    (if utterance.hasSourceLane && utterance.completion = "complete" then
      utterance.sourceProjectionRevision
    else 0)

end NotebookCaptureUtteranceDTO

variable (lowercased : String → String)

/-- `normalizedLanguage`: the language without its region. -/
def normalizedLanguage (language : Option String) : Option String :=
  language.bind fun language =>
    let parts := ((lowercased (Text.trimStr language)).toList.splitOn '-').filter (!·.isEmpty)
    let normalized := parts.head?.getD []
    if normalized.isEmpty then none else some (String.ofList normalized)

/-- `orderedLanguages`. -/
def orderedLanguages (languages : List String) : List String :=
  (languages.filterMap fun language => normalizedLanguage lowercased (some language)).eraseDups

/-- The language, unless it is `und`. -/
def knownLanguage (language : Option String) : Option String :=
  (normalizedLanguage lowercased language).filter (· ≠ "und")

/-- `identifiedSourceLanguage`. -/
def identifiedSourceLanguage (utterance : NotebookCaptureUtteranceDTO) : Option String :=
  if utterance.hasSourceLane && !utterance.sourceText.isEmpty then
    match knownLanguage lowercased (some utterance.sourceLanguage) with
    | some source => some source
    | none => knownLanguage lowercased utterance.provisionalSourceLanguage
  else none

/-- `audienceSourcePlacement`: the column of a row. -/
def audienceSourcePlacement (utterance : NotebookCaptureUtteranceDTO)
    (selectedLanguages : List String) (lastIdentifiedSourceLanguage : Option String) :
    Option String :=
  if utterance.hasSourceLane && !utterance.sourceText.isEmpty then
    let languages := orderedLanguages lowercased selectedLanguages
    match knownLanguage lowercased (some utterance.sourceLanguage) with
    | some source => if languages.contains source then some source else none
    | none =>
        match knownLanguage lowercased utterance.provisionalSourceLanguage with
        | some provisional => if languages.contains provisional then some provisional else none
        | none =>
            (normalizedLanguage lowercased lastIdentifiedSourceLanguage).filter languages.contains
  else none

/-- `AudienceCandidateFold`. -/
structure AudienceCandidateFold where
  carried : Option ℕ
  anchors : List (String × ℕ)
  visibleSources : List (String × List NotebookCaptureUtteranceDTO)
  coverageLeaders : List (String × NotebookCaptureUtteranceDTO)
  previousIdentified : Option String

/-- Rows in an order. -/
def sortedBy (before : NotebookCaptureUtteranceDTO → NotebookCaptureUtteranceDTO → Bool)
    (rows : List NotebookCaptureUtteranceDTO) : List NotebookCaptureUtteranceDTO :=
  rows.mergeSort fun left right => !before right left

namespace AudienceCandidateFold

/-- `AudienceCandidateFold()`. -/
def empty : AudienceCandidateFold := ⟨none, [], [], [], none⟩

/-- `borrowsLanguage`. -/
def borrowsLanguage (utterance : NotebookCaptureUtteranceDTO) : Bool :=
  utterance.hasSourceLane && !utterance.sourceText.isEmpty &&
    (identifiedSourceLanguage lowercased utterance).isNone

/-- `comesBefore`. -/
def comesBefore (anchors : List (String × ℕ)) (left right : NotebookCaptureUtteranceDTO) : Bool :=
  let leftAnchor := left.sourceStartMs.or (anchors.lookup left.id)
  let rightAnchor := right.sourceStartMs.or (anchors.lookup right.id)
  let otherwise : Bool :=
    if left.sourceStartMs.isNone ≠ right.sourceStartMs.isNone then right.sourceStartMs.isNone
    else left.sequence < right.sequence
  match leftAnchor, rightAnchor with
  | some leftAnchor, some rightAnchor =>
      if leftAnchor ≠ rightAnchor then leftAnchor < rightAnchor else otherwise
  | some _, none => true
  | none, some _ => false
  | none, none => otherwise

/-- A row is entered in its column. -/
def place (fold : AudienceCandidateFold) (utterance : NotebookCaptureUtteranceDTO)
    (language : String) (limit : ℕ) : AudienceCandidateFold :=
  let retained := sortedBy (comesBefore fold.anchors)
    ((fold.visibleSources.lookup language).getD [] ++ [utterance])
  let fold := { fold with
    visibleSources := Slots.put language (retained.drop (retained.length - limit))
      fold.visibleSources }
  match utterance.sourceEndMs.or utterance.sourceStartMs with
  | some coverage =>
      let existingCoverage := (fold.coverageLeaders.lookup language).bind fun leader =>
        leader.sourceEndMs.or leader.sourceStartMs
      if existingCoverage.all (· < coverage) then
        { fold with coverageLeaders := Slots.put language utterance fold.coverageLeaders }
      else fold
  | none => fold

/-- `consume`. -/
def consume (fold : AudienceCandidateFold) (utterance : NotebookCaptureUtteranceDTO)
    (selectedLanguages : List String) (fallbackLanguage : Option String) (limit : ℕ) :
    AudienceCandidateFold :=
  let borrowed := fold.previousIdentified.or fallbackLanguage
  let fold :=
    match utterance.sourceStartMs with
    | some start => { fold with carried := some (utterance.sourceEndMs.getD start) }
    | none =>
        match fold.carried with
        | some carried => { fold with anchors := Slots.put utterance.id carried fold.anchors }
        | none => fold
  let fold := { fold with
    previousIdentified :=
      (identifiedSourceLanguage lowercased utterance).or fold.previousIdentified }
  match audienceSourcePlacement lowercased utterance selectedLanguages borrowed with
  | some language => fold.place utterance language limit
  | none => fold

/-- `result`: the candidates, and the bounds that they are sorted by. -/
def result (fold : AudienceCandidateFold) (globalTail : List NotebookCaptureUtteranceDTO)
    (tailAnchors : List (String × ℕ)) : List NotebookCaptureUtteranceDTO × List (String × ℕ) :=
  let candidates := globalTail ++ (fold.visibleSources.flatMap Prod.snd ++
    fold.coverageLeaders.map Prod.snd)
  let candidatesByID := Slots.putAll [] (candidates.map fun utterance => (utterance.id, utterance))
  let bounds := candidatesByID.filterMap fun entry =>
    ((fold.anchors.lookup entry.1).or (tailAnchors.lookup entry.1)).map (entry.1, ·)
  (sortedBy (fun left right =>
      if left.sequence ≠ right.sequence then left.sequence < right.sequence else left.id < right.id)
    (candidatesByID.map Prod.snd), bounds)

variable {lowercased}

/-- A row that does not borrow has its column whatever was identified last. -/
theorem audienceSourcePlacement_congr {utterance : NotebookCaptureUtteranceDTO}
    (h : borrowsLanguage lowercased utterance = false) (selectedLanguages : List String)
    (last last' : Option String) :
    audienceSourcePlacement lowercased utterance selectedLanguages last =
      audienceSourcePlacement lowercased utterance selectedLanguages last' := by
  unfold borrowsLanguage identifiedSourceLanguage at h
  unfold audienceSourcePlacement
  cases hlane : utterance.hasSourceLane && !utterance.sourceText.isEmpty with
  | false => rfl
  | true =>
      rw [hlane, if_pos rfl, Bool.true_and] at h
      rw [if_pos rfl, if_pos rfl]
      cases hsource : knownLanguage lowercased (some utterance.sourceLanguage) with
      | some source => rfl
      | none =>
          cases hprovisional : knownLanguage lowercased utterance.provisionalSourceLanguage with
          | some provisional => rfl
          | none => simp [hsource, hprovisional] at h

/-- **Only a row that borrows depends on the fallback.** -/
theorem consume_congr {utterance : NotebookCaptureUtteranceDTO}
    (h : borrowsLanguage lowercased utterance = false) (fold : AudienceCandidateFold)
    (selectedLanguages : List String) (fallback fallback' : Option String) (limit : ℕ) :
    fold.consume lowercased utterance selectedLanguages fallback limit =
      fold.consume lowercased utterance selectedLanguages fallback' limit := by
  unfold consume
  dsimp only
  rw [audienceSourcePlacement_congr h selectedLanguages (fold.previousIdentified.or fallback)
    (fold.previousIdentified.or fallback')]

end AudienceCandidateFold

end Capture
end ZuTalk
