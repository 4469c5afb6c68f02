/-
# A row and its lanes

`crates/vt-store/src/notebook_capture_store.rs`: `RealtimeUtterance` and
`RealtimeUtteranceVariant`, and what each statement of the lane writer does to one row;
`crates/vt-store/src/migration.rs`: `realtime_utterances` and `realtime_utterance_variants`.

A lane with a text has a completion and is ready, and a lane without one is not: `Payload` is what
the CHECK of the table and `validate_variant_payload` let through.  The legacy columns
(`translated_language`, `translated_text`, `alignment`) and the times a row was written at are left
out: nothing is decided by them.
-/

import ZuTalk.Lanes.Language
import ZuTalk.Inbox.Placement

namespace ZuTalk
namespace Lanes

open Capture (UtteranceCompletion)
open Inbox (NotebookCaptureStoreError UtteranceVariantRole UtteranceVariantState i64Max)

/-- An integer of the tables that is not negative. -/
abbrev I64 := {n : ℕ // n ≤ i64Max}

/-- `u64_to_i64`. -/
def u64ToI64 (value : ℕ) (field : String) : Except NotebookCaptureStoreError I64 :=
  if h : value ≤ i64Max then .ok ⟨value, h⟩
  else .error (.validation s!"{field} exceeds SQLite integer range")

/-- `option_u64_to_i64`. -/
def optionU64ToI64 (value : Option ℕ) (field : String) :
    Except NotebookCaptureStoreError (Option I64) :=
  match value with
  | none => .ok none
  | some value => (u64ToI64 value field).map some

/-! ### Lanes -/

/-- State, text and completion of a lane. -/
inductive Payload
  | ready (text : String) (completion : UtteranceCompletion)
  | waiting
  | failed
  | unavailable
  deriving DecidableEq, Repr

/-- `validate_variant_payload`. -/
def validateVariantPayload (text : Option String) (state : UtteranceVariantState)
    (completion : Option UtteranceCompletion) : Except NotebookCaptureStoreError Payload :=
  match state, text, completion with
  | .ready, some text, some completion => .ok (.ready text completion)
  | .waiting, none, none => .ok .waiting
  | .failed, none, none => .ok .failed
  | .unavailable, none, none => .ok .unavailable
  | _, _, _ => .error (.validation
      "ready variants require text and completion; non-ready variants require neither")

namespace Payload

/-- Ready, with a text. -/
def isReady : Payload → Bool
  | ready _ _ => true
  | _ => false

/-- Ready and Complete. -/
def isSettled : Payload → Bool
  | ready _ .complete => true
  | _ => false

/-- The text of a lane. -/
def text : Payload → Option String
  | ready text _ => some text
  | _ => none

theorem isSettled_iff {p : Payload} : p.isSettled = true ↔ ∃ text, p = .ready text .complete := by
  constructor
  · intro h
    unfold isSettled at h
    split at h
    · exact ⟨_, rfl⟩
    · exact absurd h Bool.false_ne_true
  · rintro ⟨text, rfl⟩
    rfl

theorem isReady_of_isSettled {p : Payload} (h : p.isSettled = true) : p.isReady = true := by
  obtain ⟨text, rfl⟩ := isSettled_iff.1 h
  rfl

end Payload

/-- `RealtimeUtteranceVariant`. -/
structure Variant where
  language : Language
  role : UtteranceVariantRole
  payload : Payload
  revision : ℕ
  projectionRevision : ℕ
  deriving DecidableEq

/-- A translation lane that is Ready and Complete. -/
def Variant.isFinalTranslation (v : Variant) : Bool := v.role = .translation && v.payload.isSettled

/-- A translation lane with a text. -/
def Variant.isReadyTranslation (v : Variant) : Bool := v.role = .translation && v.payload.isReady

/-! ### Rows -/

/-- What names a row: nothing ever changes it. -/
structure UtteranceKey where
  id : String
  sessionId : String
  sequence : I64
  deriving DecidableEq

/-- The columns of a row that statements set, and its lanes. -/
structure UtteranceBody where
  sessionSpeakerId : Option String
  sourceLanguage : Language
  sourceText : String
  sourceStartMs : Option I64
  sourceEndMs : Option I64
  revision : ℕ
  completion : UtteranceCompletion
  sourceProjectionRevision : ℕ
  variants : List Variant
  deriving DecidableEq

/-- `RealtimeUtterance`. -/
structure Utterance extends UtteranceKey, UtteranceBody where
  deriving DecidableEq

/-- The source columns of a row, which placement reads without its lanes. -/
def Utterance.placed (u : Utterance) : Inbox.RealtimeUtterance where
  id := u.id
  sessionId := u.sessionId
  sequence := u.sequence
  sourceLanguage := u.sourceLanguage.code
  sourceText := u.sourceText
  sourceStartMs := u.sourceStartMs.map Subtype.val
  sourceEndMs := u.sourceEndMs.map Subtype.val
  completion := u.completion
  variants := []

namespace UtteranceBody

/-- `variants.iter().find(|variant| variant.role == Source)`. -/
def sourceVariant (b : UtteranceBody) : Option Variant := b.variants.find? (·.role = .source)

/-- The lane of a language. -/
def variant (b : UtteranceBody) (language : Language) : Option Variant :=
  b.variants.find? (·.language = language)

/-- `has_source_fact`. -/
def hasSourceFact (b : UtteranceBody) : Bool :=
  b.completion = .complete || b.sourceText ≠ "" || b.sourceStartMs.isSome ||
    b.sourceEndMs.isSome || b.variants.any fun v => v.role = .source && v.payload.isReady

/-- `source_fact_is_complete`. -/
def sourceFactIsComplete (b : UtteranceBody) : Bool := b.completion = .complete

/-- `has_source_lane`. -/
def hasSourceLane (b : UtteranceBody) : Bool :=
  match b.sourceVariant with
  | some v => v.payload.isReady
  | none => b.variants.isEmpty && b.hasSourceFact

/-- `source_lane_is_complete`. -/
def sourceLaneIsComplete (b : UtteranceBody) : Bool :=
  match b.sourceVariant with
  | some v => v.payload.isSettled
  | none => b.variants.isEmpty && b.sourceFactIsComplete

/-! ### What the statements set -/

/-- `UPDATE realtime_utterance_variants SET ... WHERE utterance_id = ?1 AND ...`. -/
def setVariants (selects : Variant → Bool) (set : Variant → Variant) (b : UtteranceBody) :
    UtteranceBody :=
  { b with variants := Table.update selects set b.variants }

/-- `DELETE FROM realtime_utterance_variants WHERE utterance_id = ?1 AND ...`. -/
def deleteVariants (selects : Variant → Bool) (b : UtteranceBody) : UtteranceBody :=
  { b with variants := Table.delete selects b.variants }

/-- `INSERT INTO realtime_utterance_variants`. -/
def insertVariant (v : Variant) (b : UtteranceBody) : UtteranceBody :=
  { b with variants := b.variants ++ [v] }

/-- The source lane gives way to a Final translation of its language. -/
def coalesceSource (b : UtteranceBody) : UtteranceBody :=
  { b.deleteVariants (·.role = .source) with sourceProjectionRevision := 0 }

/-- The source lane is written, in place of the one there was and of the lane of its language. -/
def replaceSource (text : String) (completion : UtteranceCompletion) (b : UtteranceBody) :
    UtteranceBody :=
  (b.deleteVariants fun v => v.role = .source || v.language = b.sourceLanguage).insertVariant
    ⟨b.sourceLanguage, .source, .ready text completion, b.revision, 0⟩

/-- The source lane is given a desired revision. -/
def projectSource (projectionRevision : ℕ) (b : UtteranceBody) : UtteranceBody :=
  { b.setVariants (·.role = .source) fun v => { v with projectionRevision } with
    sourceProjectionRevision := projectionRevision }

/-- `INSERT ... ON CONFLICT DO UPDATE` of a translation lane. -/
def upsertTranslation (language : Language) (payload : Payload) (b : UtteranceBody) :
    UtteranceBody :=
  if b.variants.any (·.language = language) then
    b.setVariants (·.language = language) fun v =>
      { v with role := .translation, payload := payload, revision := v.revision + 1 }
  else b.insertVariant ⟨language, .translation, payload, 0, 0⟩

/-- A translation lane is given a desired revision. -/
def projectTranslation (language : Language) (projectionRevision : ℕ) (b : UtteranceBody) :
    UtteranceBody :=
  b.setVariants (fun v => v.language = language && v.role = .translation) fun v =>
    { v with projectionRevision }

/-- The source lanes `adopt_translation_inbox_source_language` renames. -/
def renames (labelled : Language) (v : Variant) : Bool := v.role = .source && v.language = labelled

/-- The adopted language is no translation target any more, and the source lane is renamed. -/
def relabel (labelled adopted : Language) (b : UtteranceBody) : UtteranceBody :=
  { (b.deleteVariants fun v =>
      v.role = .translation && v.language = adopted && !v.payload.isReady).setVariants
        (renames labelled) fun v => { v with language := adopted, revision := v.revision + 1 } with
    sourceLanguage := adopted }

/-- The source lane that an auxiliary Final may claim. -/
def claimable (language : Language) (v : Variant) : Bool :=
  v.role = .source && v.language = language && v.payload.isReady && !v.payload.isSettled

/-- The provisional source lane becomes a Final translation. -/
def claim (language : Language) (text : String) (b : UtteranceBody) : UtteranceBody :=
  { b.setVariants (claimable language) fun v =>
      { v with
        role := .translation
        payload := .ready text .complete
        revision := v.revision + 1
        projectionRevision := 0 } with
    sourceProjectionRevision := 0 }

/-- A Final translation is given a desired revision. -/
def projectClaimed (language : Language) (projectionRevision : ℕ) (b : UtteranceBody) :
    UtteranceBody :=
  b.setVariants (fun v => v.isFinalTranslation && v.language = language) fun v =>
    { v with projectionRevision }

/-- The source of a row is withdrawn. -/
def withdrawSource (b : UtteranceBody) : UtteranceBody :=
  { b with
    sourceText := ""
    sourceStartMs := none
    sourceEndMs := none
    completion := .partially
    sourceProjectionRevision := 0
    revision := b.revision + 1 }

end UtteranceBody

/-! ### What a reader has read -/

/-- The characters of a text that are not blanks. -/
def withoutWhitespace (value : String) : List Char :=
  value.toList.filter fun c => !Text.isWhitespace c

/-- `preserves_settled_lane`. -/
def preservesSettledLane (settled incoming : String) : Bool :=
  if Text.byteLen incoming.toList > Text.byteLen settled.toList &&
      settled.toList.isPrefixOf incoming.toList then true
  else
    let settled := withoutWhitespace settled
    let incoming := withoutWhitespace incoming
    Text.byteLen incoming ≥ Text.byteLen settled && settled.isPrefixOf incoming

/-- The words of a text begin with those of another. -/
def Extends (settled incoming : String) : Prop :=
  withoutWhitespace settled <+: withoutWhitespace incoming

theorem Extends.refl (text : String) : Extends text text := List.prefix_rfl

theorem Extends.trans {a b c : String} (hab : Extends a b) (hbc : Extends b c) : Extends a c :=
  List.IsPrefix.trans hab hbc

/-- What `preserves_settled_lane` lets through takes nothing back. -/
theorem extends_of_preservesSettledLane {settled incoming : String}
    (h : preservesSettledLane settled incoming = true) : Extends settled incoming := by
  unfold preservesSettledLane at h
  split at h
  · rename_i hprefix
    exact (List.isPrefixOf_iff_prefix.1 (Bool.and_eq_true_iff.1 hprefix).2).filter _
  · exact List.isPrefixOf_iff_prefix.1 (Bool.and_eq_true_iff.1 h).2

end Lanes
end ZuTalk
