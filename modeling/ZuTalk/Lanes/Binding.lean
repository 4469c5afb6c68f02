/-
# Binding facts to rows

`crates/vt-store/src/notebook_capture_store.rs`: `bind_translation_inbox_item_from_conn`,
`reconcile_translation_inbox_items_from_conn`, `settle_translation_inbox_items_from_conn`,
`apply_bound_translation_inbox_snapshot_from_conn`,
`revalidate_bound_translation_inbox_items_for_utterance_from_conn`,
`detach_translation_inbox_item_from_bound_utterance`,
`translation_inbox_belongs_elsewhere_from_conn` and `upsert_translation_inbox_item_from_conn`.

Where the source tries to bind and carries on after a `Conflict`, the attempt stands under a
savepoint (`attempt`): what it wrote before it was refused is undone.
-/

import ZuTalk.Lanes.Writer

namespace ZuTalk
namespace Lanes

open Capture (UtteranceCompletion)
open Inbox (NotebookCaptureStoreError RealtimeTranslationInboxKey canonicalLanguage)
open Table Transactions

/-- `RealtimeTranslationInboxBinding`. -/
structure Binding where
  key : RealtimeTranslationInboxKey
  canonicalSequence : ℕ
  utterance : Option Utterance
  deriving DecidableEq

/-- How a fact is named in messages. -/
def shownKey (key : RealtimeTranslationInboxKey) : String :=
  s!"{key.sessionId}:{key.laneIndex}:{key.groupEpoch}:{key.providerSequence}:{key.targetLanguage}"

/-- A key with its language in the one spelling. -/
def canonicalKey (key : RealtimeTranslationInboxKey) : RealtimeTranslationInboxKey :=
  { key with targetLanguage := canonicalLanguage key.targetLanguage }

/-- Every action over a list, with what each of them returned. -/
def collect {α β : Type} (f : α → Tx (Option β)) : List α → Tx (List β)
  | [] => pure []
  | a :: rest => do
      let found ← f a
      let others ← collect f rest
      return found.toList ++ others

/-- The facts a pass offers a row to. -/
def Fact.isOffered (f : Fact) : Bool := !f.withdrawn && f.binding.isNone

section Placing

variable (toLowercase : Char → List Char)

/-! ### Binding -/

/-- `translation_inbox_placement_matches_from_conn`. -/
def placementMatches (s : CaptureStore) (f : Fact) (u : Utterance) :
    Except NotebookCaptureStoreError Bool :=
  Inbox.placementMatches toLowercase s.placement f.placed u.placed

/-- Whether a fact is evidence for the source of a row, and nothing more. -/
def evidenceOnly (f : Fact) (canonical : Utterance) : Bool :=
  let targetIsCurrentSource := canonical.targetIsCurrentSource f.targetLanguage
  let auxiliaryFinalClaimsOwner := targetIsCurrentSource && !canonical.sourceLaneIsComplete &&
    f.completion = some .complete
  targetIsCurrentSource && !auxiliaryFinalClaimsOwner

/-- The facts the binding statement updates. -/
def binds (key : FactKey) (utteranceId : String) (f : Fact) : Bool :=
  f.toFactKey = key && f.boundUtteranceId.all (· = utteranceId)

/-- `bind_translation_inbox_item_within_savepoint`. -/
def bindWithinSavepoint (key : RealtimeTranslationInboxKey) (canonicalSequence : ℕ) :
    Tx (Option Utterance) := do
  let factKey ← checked (FactKey.of key)
  let s ← get
  let f ← require (s.fact factKey) (.notFound s!"translation inbox {shownKey key}")
  if f.withdrawn then pure none
  else
    let bound := f.boundSequence.elim canonicalSequence Subtype.val
    refuse (bound ≠ canonicalSequence)
      (.conflict s!"translation inbox item is already bound to sequence {bound}")
    let sequence ← checked (u64ToI64 canonicalSequence "sequence")
    let canonical ← require (s.utteranceBySequence key.sessionId sequence)
      (.notFound s!"utterance {key.sessionId}:{canonicalSequence}")
    let placed ← checked (placementMatches toLowercase s f canonical)
    refuse (!placed) (.conflict <| "translation inbox identity does not match canonical " ++
      s!"utterance {key.sessionId}:{canonicalSequence}")
    let canonical ← adoptTranslationInboxSourceLanguage f canonical
    let s ← get
    refuse (!s.inbox.any (binds factKey canonical.id))
      (.conflict "translation inbox binding changed concurrently")
    modify (·.editFacts (binds factKey canonical.id) fun body =>
      { body with binding := some (canonical.id, sequence) })
    if evidenceOnly f canonical then pure none
    else applyTranslationInboxToBoundUtterance f sequence

/-- One fact of `reconcile_translation_inbox_items_from_conn`. -/
def reconcileItem (live : Bool) (f : Fact) : Tx (Option Binding) := do
  let s ← get
  let candidates ← checked (Inbox.candidates s.placement f.placed)
  match Inbox.uniqueCandidate toLowercase f.placed candidates live with
  | none => pure none
  | some sequence => do
      match ← attempt (bindWithinSavepoint toLowercase f.key sequence) with
      | .ok utterance => pure (some ⟨f.key, sequence, utterance⟩)
      | .error e => if e.isConflict then pure none else throw e

/-- `reconcile_translation_inbox_items_from_conn`. -/
def reconcileItems (sessionId : String) (items : List Fact) : Tx (List Binding) := do
  let s ← get
  let live ← check (s.captureSessionIsActive sessionId)
  collect (reconcileItem toLowercase live) (items.filter Fact.isOffered)

/-- The sequences of a fact, in `settle_translation_inbox_items_from_conn`. -/
def trySequences (f : Fact) : List ℕ → Tx (Option Binding)
  | [] => pure none
  | sequence :: rest => do
      match ← attempt (bindWithinSavepoint toLowercase f.key sequence) with
      | .ok utterance => pure (some ⟨f.key, sequence, utterance⟩)
      | .error e => if e.isConflict then trySequences f rest else throw e

/-- One fact of `settle_translation_inbox_items_from_conn`. -/
def settleItem (f : Fact) : Tx (Option Binding) := do
  let s ← get
  let sequences ← checked (Inbox.placementOrder toLowercase s.placement f.placed)
  trySequences toLowercase f sequences

/-- `settle_translation_inbox_items_from_conn`. -/
def settleItems (items : List Fact) : Tx (List Binding) :=
  collect (settleItem toLowercase) (items.filter Fact.isOffered)

/-! ### The facts of a row -/

/-- The facts of a row applied one after the other, until the row is gone. -/
def applyEach (utteranceId : String) (sequence : I64) : List Fact → Tx Bool
  | [] => pure true
  | f :: rest => do
      let _ ← applyTranslationInboxToBoundUtterance f sequence
      let s ← get
      if (s.utteranceById utteranceId).isNone then pure false
      else applyEach utteranceId sequence rest

/-- `apply_bound_translation_inbox_snapshot_from_conn`: what is present before what is
withdrawn. -/
def applyBoundSnapshot (items : List Fact) (utteranceId : String) (sequence : I64) : Tx Bool :=
  let bound := items.filter fun f => f.binding = some (utteranceId, sequence)
  applyEach utteranceId sequence
    ((bound.filter fun f => !f.withdrawn) ++ bound.filter fun f => f.withdrawn)

/-- `apply_bound_translation_inbox_items_from_conn`. -/
def applyBoundItems (utteranceId : String) (sequence : I64) : Tx Bool := do
  let s ← get
  applyBoundSnapshot (s.boundTo utteranceId) utteranceId sequence

/-- `detach_translation_inbox_item_from_bound_utterance`. -/
def detachItem (f : Fact) : Tx (Option Utterance) := do
  let binding ← require f.binding
    (.corruptData "cannot detach an unbound translation inbox item")
  let s ← get
  let bound := fun g : Fact => g.toFactKey = f.toFactKey && g.binding = some binding
  refuse (!s.inbox.any bound)
    (.conflict "translation inbox binding changed while revalidating identity")
  modify (·.editFacts bound fun body => { body with binding := none })
  let s ← get
  match s.utteranceById binding.1 with
  | none => pure none
  | some canonical =>
      if canonical.targetIsCurrentSource f.targetLanguage then pure (some canonical)
      else
        let remaining := (s.boundTo binding.1).find? fun g => !g.withdrawn &&
          g.binding = some binding && g.targetLanguage = f.targetLanguage
        match remaining with
        | some g => applyTranslationInboxToBoundUtterance g binding.2
        | none => do
            let u ← upsertTranslationVariant f.sessionId binding.2 f.targetLanguage .waiting
              .detachDerivedBinding
            collectEmptyTranslationShell u

/-- One fact of `revalidate_bound_translation_inbox_items_for_utterance_from_conn`. -/
def revalidateItem (canonical : Utterance) (f : Fact) : Tx PUnit := do
  let s ← get
  let placed ← checked (placementMatches toLowercase s f canonical)
  if placed then pure ⟨⟩
  else
    let _ ← detachItem f
    pure ⟨⟩

/-- `revalidate_bound_translation_inbox_items_for_utterance_from_conn`. -/
def revalidateBoundItems (utteranceId : String) (sequence : I64) : Tx PUnit := do
  let s ← get
  let canonical ← require (s.utteranceById utteranceId) (.notFound s!"utterance {utteranceId}")
  ((s.boundTo utteranceId).filter fun f => f.binding = some (utteranceId, sequence)).forM
    (revalidateItem toLowercase canonical)

/-! ### A fact that arrives -/

/-- `translation_inbox_belongs_elsewhere_from_conn`. -/
def belongsElsewhere (s : CaptureStore) (f : Fact) (bound : Utterance) :
    Except StoreError Bool :=
  if f.withdrawn then .ok false
  else do
    let active ← s.captureSessionIsActive f.sessionId
    if !active then return false
    if bound.variants.any fun v => v.isFinalTranslation && v.language = f.targetLanguage then
      return false
    let candidates ← (Inbox.candidates s.placement f.placed).mapError .capture
    let ranked := Inbox.rankedCandidates toLowercase f.placed candidates
    match ranked.find? fun entry => entry.2 = bound.sequence.val with
    | none => return false
    | some (here, _) =>
        if !Inbox.isLiveHome here then return true
        return (Inbox.uniqueCandidate toLowercase f.placed candidates true).any
          fun best => best ≠ bound.sequence.val

/-- `NewRealtimeTranslationInboxItem`. -/
structure NewRealtimeTranslationInboxItem where
  key : RealtimeTranslationInboxKey
  sourceLanguage : String
  sourceText : String
  sourceStartMs : Option ℕ
  sourceEndMs : Option ℕ
  translatedText : Option String
  completion : Option UtteranceCompletion
  withdrawn : Bool
  deriving DecidableEq, Repr

/-- What `validate_translation_inbox_input` lets a fact say. -/
def NewRealtimeTranslationInboxItem.translation (input : NewRealtimeTranslationInboxItem) :
    Except NotebookCaptureStoreError (Option (String × UtteranceCompletion)) :=
  match input.withdrawn, input.translatedText, input.completion with
  | false, some text, some completion => .ok (some (text, completion))
  | true, none, none => .ok none
  | _, _, _ => .error (.validation
      "present translation inbox items require text/completion; withdrawn items forbid both")

/-- `validate_translation_inbox_key`. -/
def validateTranslationInboxKey (key : RealtimeTranslationInboxKey) :
    Except NotebookCaptureStoreError Unit := do
  requireNonempty "session_id" key.sessionId
  validateLanguage key.targetLanguage

/-- `validate_translation_inbox_input`, with what the fact says. -/
def validateTranslationInboxInput (input : NewRealtimeTranslationInboxItem) :
    Except NotebookCaptureStoreError (Option (String × UtteranceCompletion)) := do
  validateTranslationInboxKey input.key
  validateLanguage input.sourceLanguage
  match input.sourceStartMs, input.sourceEndMs with
  | some startMs, some endMs =>
      if endMs < startMs then
        throw (.validation "translation inbox source_end_ms precedes source_start_ms")
      else input.translation
  | _, _ => input.translation

/-- `RealtimeTranslationInboxPersistence`. -/
structure Persistence where
  item : Fact
  boundUtterance : Option Utterance
  removedBound : Option (String × I64)
  detachedUtterance : Option Utterance
  changed : Bool
  deriving DecidableEq

/-- Whether what arrived differs from the fact there is. -/
def Fact.differs (f : Fact) (input : NewRealtimeTranslationInboxItem)
    (translation : Option (String × UtteranceCompletion)) : Bool :=
  f.sourceLanguage ≠ Language.of input.sourceLanguage || f.sourceText ≠ input.sourceText ||
    f.sourceStartMs.map Subtype.val ≠ input.sourceStartMs ||
    f.sourceEndMs.map Subtype.val ≠ input.sourceEndMs || f.translation ≠ translation

/-- `INSERT ... ON CONFLICT DO UPDATE` of a fact. -/
def writeFact (factKey : FactKey) (input : NewRealtimeTranslationInboxItem)
    (translation : Option (String × UtteranceCompletion)) : Tx PUnit := do
  let laneIndex ← checked (u64ToI64 input.key.laneIndex "translation lane index")
  let startMs ← checked (optionU64ToI64 input.sourceStartMs "translation source start")
  let endMs ← checked (optionU64ToI64 input.sourceEndMs "translation source end")
  let new : FactBody :=
    { laneIndex := laneIndex
      sourceLanguage := Language.of input.sourceLanguage
      sourceText := input.sourceText
      sourceStartMs := startMs
      sourceEndMs := endMs
      translation := translation
      revision := 0
      binding := none }
  modify (·.upsertFact factKey new fun old =>
    { new with revision := old.revision + 1, binding := old.binding })

/-- The fact of a key, read again. -/
def requireFact (factKey : FactKey) (message : String) : Tx Fact := do
  let s ← get
  require (s.fact factKey) (.notFound message)

/-- A changed fact that was bound, in `upsert_translation_inbox_item_from_conn`. -/
def reviseBoundItem (factKey : FactKey) (f : Fact) : Tx Persistence :=
  match f.binding with
  | none => pure ⟨f, none, none, none, true⟩
  | some binding => do
      let s ← get
      match s.utteranceBySequence factKey.sessionId binding.2 with
      | none => do
          modify (·.editFacts (·.toFactKey = factKey) fun body => { body with binding := none })
          let f ← requireFact factKey
            "translation inbox disappeared while clearing stale binding"
          pure ⟨f, none, none, none, true⟩
      | some canonical => do
          let placed ← checked (placementMatches toLowercase s f canonical)
          let elsewhere ←
            (if placed then check (belongsElsewhere toLowercase s f canonical) else pure true)
          if elsewhere then
            let detached ← detachItem f
            let item ← requireFact factKey
              "translation inbox disappeared after stale binding detach"
            pure ⟨item, none, if detached.isNone then some binding else none, detached, true⟩
          else
            let shown ← applyTranslationInboxToBoundUtterance f binding.2
            let s ← get
            if shown.isNone &&
                (s.utteranceBySequence factKey.sessionId binding.2).isNone then
              let item ← requireFact factKey
                "translation inbox disappeared after shell collection"
              pure ⟨item, shown, some binding, none, true⟩
            else pure ⟨f, shown, none, none, true⟩

/-- The automatic binding at the end of `upsert_translation_inbox_item_from_conn`. -/
def bindArrived (factKey : FactKey) (persisted : Persistence) : Tx Persistence := do
  if persisted.item.isOffered && persisted.item.groupEpoch = 0 then
    let s ← get
    let candidates ← checked (Inbox.candidates s.placement persisted.item.placed)
    match Inbox.uniqueCandidate toLowercase persisted.item.placed candidates true with
    | none => pure persisted
    | some sequence => do
        match ← attempt (bindWithinSavepoint toLowercase persisted.item.key sequence) with
        | .ok shown => do
            let item ← requireFact factKey
              "translation inbox disappeared after automatic binding"
            pure { persisted with item := item, boundUtterance := shown }
        | .error e => if e.isConflict then pure persisted else throw e
  else pure persisted

/-- `upsert_translation_inbox_item_from_conn`. -/
def upsertInboxItem (input : NewRealtimeTranslationInboxItem)
    (translation : Option (String × UtteranceCompletion)) : Tx Persistence := do
  let factKey ← checked (FactKey.of input.key)
  let shown := shownKey (canonicalKey input.key)
  let s ← get
  let existing := s.fact factKey
  let changed := existing.all fun current => current.differs input translation
  refuse (existing.any (fun current => current.completion = some .complete) && changed)
    (.conflict s!"final translation inbox fact {shown} is immutable")
  if changed then
    writeFact factKey input translation
    let f ← requireFact factKey s!"translation inbox {shown}"
    let persisted ← reviseBoundItem toLowercase factKey f
    bindArrived toLowercase factKey persisted
  else
    let f ← requireFact factKey s!"translation inbox {shown}"
    bindArrived toLowercase factKey ⟨f, none, none, none, false⟩

end Placing

end Lanes
end ZuTalk
