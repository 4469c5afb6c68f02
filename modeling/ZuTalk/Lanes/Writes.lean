/-
# What one write does

Whatever an operation of the capture store does, it does by writes of a few kinds, each under the
conditions the code has checked when it gets there.  `RowWrite` says what a row may become, `Write`
what the tables may become.  What every write keeps, every operation keeps: no later proof looks
into an operation again.
-/

import ZuTalk.Lanes.Operations
import Mathlib.Logic.Relation

namespace ZuTalk
namespace Lanes

open Capture (UtteranceCompletion CaptureState NewRealtimeUtterance)
open Table Transactions

/-! ### What a row becomes -/

namespace UtteranceBody

/-- A translation lane is written, and given the desired revision if it is Final. -/
def translationWritten (language : Language) (payload : Payload) (desired : ℕ)
    (b : UtteranceBody) : UtteranceBody :=
  if payload.isSettled then
    (b.upsertTranslation language payload).projectTranslation language desired
  else b.upsertTranslation language payload

/-- A row gets another label. -/
def relabelled (adopted : Language) (desired : ℕ) (b : UtteranceBody) : UtteranceBody :=
  if b.variants.countP (renames b.sourceLanguage) = 1 then
    (b.relabel b.sourceLanguage adopted).projectSource
      (if b.sourceLaneIsComplete then desired else 0)
  else b.relabel b.sourceLanguage adopted

/-- Whether a new label is projected. -/
def projectsLabel (b : UtteranceBody) : Bool :=
  b.variants.countP (renames b.sourceLanguage) = 1 && b.sourceLaneIsComplete

/-- A provisional source lane becomes a Final translation. -/
def claimed (language : Language) (text : String) (desired : ℕ) (b : UtteranceBody) :
    UtteranceBody :=
  (b.claim language text).projectClaimed language desired

/-- The lanes of a source. -/
def sourceWritten (text : String) (completion : UtteranceCompletion) (coalesces : Bool)
    (desired : ℕ) (b : UtteranceBody) : UtteranceBody :=
  let written := if coalesces then b.coalesceSource else b.replaceSource text completion
  if completion = .complete && !coalesces then written.projectSource desired else written

/-- Whether a Final translation has the language of the source. -/
def coalesces (sourceLanguage : Language) (b : UtteranceBody) : Bool :=
  b.variants.any fun v => v.isFinalTranslation && v.language = sourceLanguage

/-- The source is withdrawn, with its lane. -/
def sourceless (b : UtteranceBody) : UtteranceBody :=
  if b.hasSourceLane then (b.deleteVariants (·.role = .source)).withdrawSource
  else b.withdrawSource

end UtteranceBody

namespace CaptureStore

/-- The desired revision of a session. -/
def desiredRevision (s : CaptureStore) (sessionId : String) : ℕ :=
  (s.run sessionId).elim 0 (·.desiredRevision)

/-- A row is set, and a Final lane of it is to be projected or not. -/
def written (u : Utterance) (b : UtteranceBody) (projects : Bool) (s : CaptureStore) :
    CaptureStore :=
  if projects then (s.editUtterance u.id fun _ => b).bumped u.sessionId
  else s.editUtterance u.id fun _ => b

/-- A fact is written, and keeps its binding. -/
def writtenFact (key : FactKey) (new : FactBody) (s : CaptureStore) : CaptureStore :=
  s.upsertFact key new fun old => { new with revision := old.revision + 1, binding := old.binding }

end CaptureStore

/-- What a translation or a fact makes of a row, and whether a lane of it is to be projected. -/
inductive AuxiliaryRow (s : CaptureStore) (u : Utterance) : UtteranceBody → Bool → Prop
  | lane {language : Language} {payload : Payload} {write : TranslationLaneWrite}
      (notSource : (u.hasSourceLane && u.sourceLanguage = language) = false)
      (writes : laneDecision (u.variant language) payload write = .write) :
      AuxiliaryRow s u
        (u.translationWritten language payload (s.desiredRevision u.sessionId + 1))
        payload.isSettled
  | relabel {f : Fact} {shown : Utterance} (adopts : adopts s f u = true)
      (overlaid : s.applyUtteranceOverrides ⟨u.toUtteranceKey,
        u.relabelled f.sourceLanguage (s.desiredRevision u.sessionId + 1)⟩ = .ok shown) :
      AuxiliaryRow s u (u.relabelled f.sourceLanguage (s.desiredRevision u.sessionId + 1))
        u.projectsLabel
  | claim {language : Language} {text : String}
      (claimable : u.variants.countP (UtteranceBody.claimable language) = 1)
      (inactive : s.captureSessionIsActive u.sessionId = .ok false) :
      AuxiliaryRow s u (u.claimed language text (s.desiredRevision u.sessionId + 1)) true

/-- What one write makes of a row. -/
inductive RowWrite (s : CaptureStore) (u : Utterance) : UtteranceBody → Bool → Prop
  | auxiliary {b : UtteranceBody} {projects : Bool} (write : AuxiliaryRow s u b projects) :
      RowWrite s u b projects
  | revise {input : NewRealtimeUtterance} {startMs endMs : Option I64}
      (incomplete : u.sourceFactIsComplete = false)
      (unsettled : (u.variants.any fun v => v.role = .source && v.payload.isSettled) = false)
      (speaker : checkSpeaker s u.sessionId input.sessionSpeakerId = .ok ())
      (active : s.captureSessionIsActive u.sessionId = .ok true) :
      RowWrite s u
        ((u.revised input (learnedLanguage input (some u)) startMs endMs).sourceWritten
          input.sourceText input.completion (u.coalesces (learnedLanguage input (some u)))
          (s.desiredRevision u.sessionId + 1))
        (input.completion = .complete && !u.coalesces (learnedLanguage input (some u)))
  | withdraw (incomplete : u.sourceFactIsComplete = false)
      (active : s.captureSessionIsActive u.sessionId = .ok true) : RowWrite s u u.sourceless false

/-! ### What the tables become -/

/-- One write of a translation or a fact. -/
inductive Auxiliary (s : CaptureStore) : CaptureStore → Prop
  | row {u : Utterance} {b : UtteranceBody} {projects : Bool} (mem : u ∈ s.utterances)
      (write : AuxiliaryRow s u b projects) : Auxiliary s (s.written u b projects)
  | collect {u : Utterance} (mem : u ∈ s.utterances) (empty : u.isEmptyShell = true)
      (unedited : s.utteranceHasUserState u.id = false) : Auxiliary s (s.deleteUtterance u.id)
  | bind {key : FactKey} {u : Utterance} (mem : u ∈ s.utterances)
      (session : key.sessionId = u.sessionId) :
      Auxiliary s
        (s.editFacts (binds key u.id) fun f => { f with binding := some (u.id, u.sequence) })
  | unbind {selects : Fact → Bool} :
      Auxiliary s (s.editFacts selects fun f => { f with binding := none })
  | fact {key : FactKey} {new : FactBody}
      (active : s.captureSessionIsActive key.sessionId = .ok true)
      (incomplete : ∀ f ∈ s.inbox, f.toFactKey = key → f.completion ≠ some .complete)
      (unbound : new.binding = none) : Auxiliary s (s.writtenFact key new)

/-- One write, in a call that may create a run.  The deletion of a whole session is not among them,
nor that of a speaker. -/
inductive Write (creates : Option String) (s : CaptureStore) : CaptureStore → Prop
  | auxiliary {t : CaptureStore} (write : Auxiliary s t) : Write creates s t
  | row {u : Utterance} {b : UtteranceBody} {projects : Bool} (mem : u ∈ s.utterances)
      (write : RowWrite s u b projects) : Write creates s (s.written u b projects)
  | insert {input : NewRealtimeUtterance} {sequence : I64} {startMs endMs : Option I64}
      {u : Utterance} {t : CaptureStore}
      (new : u = newUtterance input sequence (Language.of input.sourceLanguage) startMs endMs)
      (inserted : s.insertUtterance u = .ok t)
      (speaker : checkSpeaker s u.sessionId input.sessionSpeakerId = .ok ())
      (active : s.captureSessionIsActive u.sessionId = .ok true) :
      Write creates s (t.written u (u.sourceWritten input.sourceText input.completion false
        (s.desiredRevision u.sessionId + 1)) (input.completion = .complete))
  | delete {u : Utterance} (mem : u ∈ s.utterances) (incomplete : u.completion ≠ .complete)
      (unread : u.variants.any Variant.isReadyTranslation = false)
      (active : s.captureSessionIsActive u.sessionId = .ok true) :
      Write creates s (s.deleteUtterance u.id)
  | stage {m : Mutation} {u : Utterance} {v : Variant} (mem : u ∈ s.utterances)
      (id : u.id = m.utteranceId) (session : u.sessionId = m.sessionId)
      (lane : u.variant m.laneLanguage = some v)
      (settled : v.payload.isSettled = true) :
      Write creates s { s with mutations := s.mutations ++ [m] }
  | cancel {selects : Mutation → Bool} :
      Write creates s { s with mutations := delete selects s.mutations }
  | correct {o : Override} {u : Utterance} {v : Variant} (mem : u ∈ s.utterances)
      (id : u.id = o.utteranceId) (lane : u.variant o.laneLanguage = some v)
      (settled : v.payload.isSettled = true) (role : laneOf v = o.lane)
      (utteranceRevision : o.machineUtteranceRevision = u.revision)
      (variantRevision : o.machineVariantRevision = v.revision)
      (edited : o.editRevision = s.laneEditRevision o.utteranceId o.laneLanguage + 1) :
      Write creates s { s with overrides := upsertOverride o s.overrides }
  | runs {selects : Run → Bool} {set : RunBody → RunBody}
      (desired : ∀ run ∈ s.runs, selects run = true →
        (set run.toRunBody).desiredRevision = run.desiredRevision)
      (applied : ∀ run ∈ s.runs, selects run = true →
        run.appliedRevision ≤ (set run.toRunBody).appliedRevision ∧
          (run.appliedRevision ≤ run.desiredRevision →
            (set run.toRunBody).appliedRevision ≤ run.desiredRevision))
      (state : ∀ run ∈ s.runs, selects run = true →
        (set run.toRunBody).captureState = run.captureState ∨
          validCaptureTransition run.captureState (set run.toRunBody).captureState = true) :
      Write creates s (s.editRuns selects set)
  | capture {run : Run} {t : CaptureStore} (created : creates = some run.sessionId)
      (new : run.desiredRevision = 0 ∧ run.appliedRevision = 0)
      (inserted : s.insertRun run = .ok t) : Write creates s t
  | speak {id sessionId : String}
      (running : (s.run sessionId).isSome = true)
      (new : (s.sessionSpeakers.any fun speaker => speaker.1 = id) = false) :
      Write creates s { s with sessionSpeakers := s.sessionSpeakers ++ [(id, sessionId)] }
  | jobs {purgeJobs : List String} : Write creates s { s with purgeJobs := purgeJobs }

/-- Any number of writes of translations and facts. -/
abbrev Auxiliaries : CaptureStore → CaptureStore → Prop := Relation.ReflTransGen Auxiliary

/-- Any number of writes. -/
abbrev Writes (creates : Option String) : CaptureStore → CaptureStore → Prop :=
  Relation.ReflTransGen (Write creates)

theorem writes_of_auxiliaries {creates : Option String} {s t : CaptureStore} (h : Auxiliaries s t) :
    Writes creates s t :=
  Relation.ReflTransGen.mono (fun _ _ => Write.auxiliary) _ _ h

/-- Only a row that says nothing is collected. -/
theorem UtteranceBody.of_isEmptyShell {b : UtteranceBody} (h : b.isEmptyShell = true) :
    b.completion ≠ .complete ∧ b.variants.any Variant.isReadyTranslation = false := by
  obtain ⟨hfact, hunread⟩ : b.hasSourceFact = false ∧
      b.variants.any Variant.isReadyTranslation = false := by
    simpa [isEmptyShell] using h
  refine ⟨fun hcomplete => ?_, hunread⟩
  simp [hasSourceFact, hcomplete] at hfact

end Lanes
end ZuTalk
