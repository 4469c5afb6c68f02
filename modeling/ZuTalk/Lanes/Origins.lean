/-
# What writes about translations leave

Where a row comes from and what becomes of it, for one write about a translation, and that no such
write makes a session active or ends it.
-/

import ZuTalk.Lanes.Effects

namespace ZuTalk
namespace Lanes

open Table

variable {s t : CaptureStore} {u : Utterance}

/-! ### Rows -/

theorem utterances_written (u : Utterance) (b : UtteranceBody) (projects : Bool) :
    (s.written u b projects).utterances = (s.editUtterance u.id fun _ => b).utterances := by
  unfold CaptureStore.written
  split <;> rfl

theorem of_mem_written {v : Utterance} {b : UtteranceBody} {projects : Bool}
    (hu : u ∈ s.utterances) (hv : v ∈ (s.written u b projects).utterances) :
    v = ⟨u.toUtteranceKey, b⟩ ∨ (v ∈ s.utterances ∧ v.id ≠ u.id) := by
  rw [utterances_written] at hv
  obtain ⟨w, hw, ⟨hid, rfl⟩ | ⟨hid, rfl⟩⟩ := mem_update hv
  · left
    rw [eq_of_id_eq hw hu (of_decide_eq_true hid)]
  · exact .inr ⟨hw, of_decide_eq_false hid⟩

theorem mem_written_of_ne {v : Utterance} {b : UtteranceBody} {projects : Bool}
    (hv : v ∈ s.utterances) (hne : v.id ≠ u.id) : v ∈ (s.written u b projects).utterances := by
  rw [utterances_written]
  have hset : (if decide (v.id = u.id) = true then { v with toUtteranceBody := b } else v) ∈
      (s.editUtterance u.id fun _ => b).utterances := mem_update_of_mem hv
  rwa [if_neg (by simpa using hne)] at hset

theorem utterances_upsertFact (key : FactKey) (new : FactBody) (set : FactBody → FactBody) :
    (s.upsertFact key new set).utterances = s.utterances := by
  unfold CaptureStore.upsertFact
  split <;> rfl

theorem Auxiliary.origin (h : Auxiliary s t) {v : Utterance} (hv : v ∈ t.utterances) :
    ∃ u ∈ s.utterances, v.toUtteranceKey = u.toUtteranceKey ∧
      (v = u ∨ ∃ projects, AuxiliaryRow s u v.toUtteranceBody projects) := by
  have hsame : v ∈ s.utterances → ∃ u ∈ s.utterances, v.toUtteranceKey = u.toUtteranceKey ∧
      (v = u ∨ ∃ projects, AuxiliaryRow s u v.toUtteranceBody projects) := fun hold =>
    ⟨v, hold, rfl, .inl rfl⟩
  cases h with
  | row mem write =>
      rcases of_mem_written mem hv with rfl | ⟨hold, -⟩
      · exact ⟨_, mem, rfl, .inr ⟨_, write⟩⟩
      · exact hsame hold
  | collect mem empty unedited => exact hsame (mem_of_mem_delete hv)
  | bind mem session => exact hsame hv
  | unbind => exact hsame hv
  | fact active incomplete unbound =>
      exact hsame (by rwa [CaptureStore.writtenFact, utterances_upsertFact] at hv)

theorem mem_deleteUtterance (hu : u ∈ s.utterances) {id : String} (hne : u.id ≠ id) :
    u ∈ (s.deleteUtterance id).utterances := List.mem_filter.2 ⟨hu, by simpa using hne⟩

theorem Auxiliary.fate (h : Auxiliary s t) (hu : u ∈ s.utterances) :
    (∃ v ∈ t.utterances, v.toUtteranceKey = u.toUtteranceKey ∧
        (v = u ∨ ∃ projects, AuxiliaryRow s u v.toUtteranceBody projects)) ∨
      (u.isEmptyShell = true ∧ s.utteranceHasUserState u.id = false) := by
  have hsame : u ∈ t.utterances → ∃ v ∈ t.utterances, v.toUtteranceKey = u.toUtteranceKey ∧
      (v = u ∨ ∃ projects, AuxiliaryRow s u v.toUtteranceBody projects) := fun hstays =>
    ⟨u, hstays, rfl, .inl rfl⟩
  cases h with
  | @row w b projects mem write =>
      by_cases hid : u.id = w.id
      · obtain rfl := eq_of_id_eq hu mem hid
        exact .inl ⟨_, mem_written mem b projects, rfl, .inr ⟨_, write⟩⟩
      · exact .inl (hsame (mem_written_of_ne hu hid))
  | @collect w mem empty unedited =>
      by_cases hid : u.id = w.id
      · obtain rfl := eq_of_id_eq hu mem hid
        exact .inr ⟨empty, unedited⟩
      · exact .inl (hsame (mem_deleteUtterance hu hid))
  | bind mem session => exact .inl (hsame hu)
  | unbind => exact .inl (hsame hu)
  | fact active incomplete unbound =>
      refine .inl (hsame ?_)
      rwa [CaptureStore.writtenFact, utterances_upsertFact]

theorem key_of_auxiliaries (h : Auxiliaries s t) {v : Utterance} (hv : v ∈ t.utterances) :
    ∃ u ∈ s.utterances, v.toUtteranceKey = u.toUtteranceKey := by
  induction h generalizing v with
  | refl => exact ⟨v, hv, rfl⟩
  | tail _ hlast ih =>
      obtain ⟨w, hw, hkey, -⟩ := hlast.origin hv
      obtain ⟨u, hu, hkey'⟩ := ih hw
      exact ⟨u, hu, hkey.trans hkey'⟩

/-! ### Sessions -/

theorem captureSessionIsActive_written (u : Utterance) (b : UtteranceBody) (projects : Bool)
    (sessionId : String) :
    (s.written u b projects).captureSessionIsActive sessionId =
      s.captureSessionIsActive sessionId := by
  unfold CaptureStore.written
  split
  · unfold CaptureStore.captureSessionIsActive CaptureStore.bumped
    rw [run_editRuns]
    have hrun : (s.editUtterance u.id fun _ => b).run sessionId = s.run sessionId := rfl
    rw [hrun]
    cases s.run sessionId with
    | none => rfl
    | some run =>
        dsimp only [Option.map_some]
        congr 2
        split
        · rfl
        · rfl
  · rfl

theorem Auxiliary.captureSessionIsActive (h : Auxiliary s t) (sessionId : String) :
    t.captureSessionIsActive sessionId = s.captureSessionIsActive sessionId := by
  cases h with
  | row mem write => exact captureSessionIsActive_written _ _ _ sessionId
  | collect | bind | unbind => rfl
  | fact active incomplete unbound =>
      unfold CaptureStore.writtenFact CaptureStore.upsertFact
      split
      · rfl
      · rfl

theorem captureSessionIsActive_of_auxiliaries (h : Auxiliaries s t) (sessionId : String) :
    t.captureSessionIsActive sessionId = s.captureSessionIsActive sessionId := by
  induction h with
  | refl => rfl
  | tail _ hlast ih => exact (hlast.captureSessionIsActive sessionId).trans ih

end Lanes
end ZuTalk
