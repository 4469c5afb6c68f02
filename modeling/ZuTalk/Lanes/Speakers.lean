/-
# Who speaks

A source is accepted only with a speaker of its own session, and a speaker that is deleted is taken
from all rows.  So no row ever names a speaker its session does not have; and a Final row keeps its
speaker until that one is deleted.
-/

import ZuTalk.Lanes.Sources

namespace ZuTalk
namespace Lanes

open Capture (UtteranceCompletion)
open Table UtteranceBody Machine

variable {s t : CaptureStore} {u : Utterance} {b : UtteranceBody}
variable {creates : Option String}

/-! ### The table of speakers -/

/-- What the check of a speaker finds. -/
theorem checkSpeaker_eq_ok {sessionId speakerId : String} :
    checkSpeaker s sessionId (some speakerId) = .ok () ↔
      s.sessionSpeakers.find? (·.1 = speakerId) = some (speakerId, sessionId) := by
  unfold checkSpeaker
  dsimp only
  cases hfound : s.sessionSpeakers.find? (·.1 = speakerId) with
  | none => exact iff_of_false (fun h => by cases h) (fun h => by cases h)
  | some speaker =>
      have hid : speaker.1 = speakerId := by simpa using List.find?_some hfound
      dsimp only
      constructor
      · intro h
        split at h
        · rename_i hsession
          rw [← hid, ← hsession]
        · cases h
      · intro h
        rw [if_pos (congrArg Prod.snd (Option.some.inj h))]

/-- No speaker of the sessions is lost. -/
def KeepsSpeakers (s t : CaptureStore) : Prop :=
  ∀ sessionId speaker, checkSpeaker s sessionId speaker = .ok () →
    checkSpeaker t sessionId speaker = .ok ()

theorem keepsSpeakers_of_same (h : t.sessionSpeakers = s.sessionSpeakers) : KeepsSpeakers s t := by
  intro sessionId speaker hspeaker
  cases speaker with
  | none => rfl
  | some speakerId => rwa [checkSpeaker_eq_ok, h, ← checkSpeaker_eq_ok]

theorem sessionSpeakers_written (u : Utterance) (b : UtteranceBody) (projects : Bool) :
    (s.written u b projects).sessionSpeakers = s.sessionSpeakers := by
  unfold CaptureStore.written
  split <;> rfl

/-- **No write takes a speaker away**, and one that comes is of a session that has a run. -/
theorem Write.sessionSpeakers (h : Write creates s t) :
    t.sessionSpeakers = s.sessionSpeakers ∨
      ∃ id sessionId, (s.run sessionId).isSome = true ∧
        t.sessionSpeakers = s.sessionSpeakers ++ [(id, sessionId)] := by
  cases h with
  | auxiliary write =>
      left
      cases write with
      | row mem write => exact sessionSpeakers_written _ _ _
      | collect | bind | unbind => rfl
      | fact active incomplete unbound =>
          unfold CaptureStore.writtenFact CaptureStore.upsertFact
          split <;> rfl
  | row mem write => exact .inl (sessionSpeakers_written _ _ _)
  | insert new inserted speaker active =>
      refine .inl ((sessionSpeakers_written _ _ _).trans ?_)
      unfold CaptureStore.insertUtterance at inserted
      split at inserted
      · cases inserted
        rfl
      · cases inserted
  | capture created new inserted => exact .inl (insertRun_eq_ok inserted).sessionSpeakers
  | speak running new => exact .inr ⟨_, _, running, rfl⟩
  | delete | stage | cancel | correct | runs | jobs => exact .inl rfl

theorem Write.keepsSpeakers (h : Write creates s t) : KeepsSpeakers s t := by
  rcases h.sessionSpeakers with hsame | ⟨id, session, -, hmore⟩
  · exact keepsSpeakers_of_same hsame
  · intro sessionId speaker hspeaker
    cases speaker with
    | none => rfl
    | some speakerId =>
        rw [checkSpeaker_eq_ok] at hspeaker ⊢
        rw [hmore, List.find?_append, hspeaker]
        rfl

theorem checkSpeaker_withoutSpeaker {sessionId id : String} {speaker : Option String}
    (hne : speaker ≠ some id) (h : checkSpeaker s sessionId speaker = .ok ()) :
    checkSpeaker (s.withoutSpeaker id) sessionId speaker = .ok () := by
  cases speaker with
  | none => rfl
  | some speakerId =>
      rw [checkSpeaker_eq_ok] at h ⊢
      refine find?_delete_eq_some h (decide_eq_false fun hid => hne ?_)
      exact congrArg some hid

theorem checkSpeaker_withoutSession {sessionId other : String} {speaker : Option String}
    (hne : sessionId ≠ other) (h : checkSpeaker s sessionId speaker = .ok ()) :
    checkSpeaker (s.withoutSession other) sessionId speaker = .ok () := by
  cases speaker with
  | none => rfl
  | some speakerId =>
      rw [checkSpeaker_eq_ok] at h ⊢
      exact find?_delete_eq_some h (decide_eq_false hne)

/-! ### The speakers of rows -/

/-- Every row names a speaker of its session, if any. -/
def Enrolled (s : CaptureStore) : Prop :=
  ∀ u ∈ s.utterances, checkSpeaker s u.sessionId u.sessionSpeakerId = .ok ()

theorem sessionSpeakerId_sourceWritten (b : UtteranceBody) (text : String)
    (completion : UtteranceCompletion) (coalesces : Bool) (desired : ℕ) :
    (b.sourceWritten text completion coalesces desired).sessionSpeakerId = b.sessionSpeakerId := by
  unfold UtteranceBody.sourceWritten
  dsimp only
  split
  · split <;> rfl
  · split <;> rfl

/-- What is written to a row leaves its speaker, or gives it one of its session. -/
theorem RowWrite.speaker {projects : Bool} (h : RowWrite s u b projects)
    (hu : Owned u.toUtteranceBody) :
    b.sessionSpeakerId = u.sessionSpeakerId ∨
      (u.completion ≠ .complete ∧ checkSpeaker s u.sessionId b.sessionSpeakerId = .ok ()) := by
  cases h with
  | auxiliary write => exact .inl (write.keepsSource hu).columns.sessionSpeakerId
  | @revise input startMs endMs incomplete unsettled speaker active =>
      refine .inr ⟨by simpa [UtteranceBody.sourceFactIsComplete] using incomplete, ?_⟩
      rw [sessionSpeakerId_sourceWritten]
      exact speaker
  | withdraw incomplete active =>
      left
      unfold UtteranceBody.sourceless
      split <;> rfl

theorem Becomes.speaker (h : Becomes s u b) (hu : Owned u.toUtteranceBody) :
    b.sessionSpeakerId = u.sessionSpeakerId ∨
      (u.completion ≠ .complete ∧ checkSpeaker s u.sessionId b.sessionSpeakerId = .ok ()) := by
  cases h with
  | same => exact .inl rfl
  | written write => exact write.speaker hu

theorem Write.enrolled (h : Write creates s t) (howned : AllOwned s) (hs : Enrolled s) :
    Enrolled t := by
  intro v hv
  refine h.keepsSpeakers _ _ ?_
  rcases h.origin hv with ⟨u, hu, hkey, hbecomes⟩ | hinserted
  · rw [hkey]
    rcases hbecomes.speaker (howned u hu) with hsame | ⟨-, hspeaker⟩
    · rw [hsame]
      exact hs u hu
    · exact hspeaker
  · cases hinserted with
    | source new speaker active =>
        subst new
        dsimp only
        rw [sessionSpeakerId_sourceWritten]
        exact speaker

theorem Enrolled.withoutSpeaker (hs : Enrolled s) (id : String) :
    Enrolled (s.withoutSpeaker id) := by
  intro v hv
  obtain ⟨u, hu, ⟨-, rfl⟩ | ⟨hother, rfl⟩⟩ := mem_update hv
  · rfl
  · exact checkSpeaker_withoutSpeaker (of_decide_eq_false hother) (hs v hu)

theorem Enrolled.withoutSession (hs : Enrolled s) (sessionId : String) :
    Enrolled (s.withoutSession sessionId) := by
  intro u hu
  have hne : u.sessionId ≠ sessionId := by simpa using (List.mem_filter.1 hu).2
  exact checkSpeaker_withoutSession hne (hs u (mem_of_mem_delete hu))

section Runs

variable {toLowercase : Char → List Char} {ops more : List Op} {sessionId : String}
variable {speaker : Option String}

/-- **Speakers are of the session.**  In any state the store can be in, the speaker a row names is
there, and is one of the row's own session. -/
theorem speakers_are_of_the_session (h : run (step toLowercase) emptyStore ops = some t)
    (hu : u ∈ t.utterances) {speakerId : String} (hspeaker : u.sessionSpeakerId = some speakerId) :
    t.sessionSpeakers.find? (·.1 = speakerId) = some (speakerId, u.sessionId) := by
  have henrolled : AllOwned t ∧ Enrolled t := by
    refine run_invariant_of_write (I := fun s => AllOwned s ∧ Enrolled s)
      ⟨fun u hu => absurd hu List.not_mem_nil, fun u hu => absurd hu List.not_mem_nil⟩
      (fun hwrite hs => ⟨hwrite.allOwned hs.1, hwrite.enrolled hs.1 hs.2⟩)
      (fun s id hs => ⟨allOwned_withoutSpeaker id hs.1, hs.2.withoutSpeaker id⟩)
      (fun s sessionId hs =>
        ⟨allOwned_withoutSession sessionId hs.1, hs.2.withoutSession sessionId⟩) h
  rw [← checkSpeaker_eq_ok, ← hspeaker]
  exact henrolled.2 u hu

theorem speakers_are_of_the_session_heard : ∃ u ∈ heardStore.utterances,
    heardStore.sessionSpeakers.find? (·.1 = "ann") = some ("ann", u.sessionId) := by
  obtain ⟨u, hu, hspeaker⟩ : ∃ u ∈ heardStore.utterances, u.sessionSpeakerId = some "ann" := by
    decide +kernel
  exact ⟨u, hu, speakers_are_of_the_session run_heard hu hspeaker⟩

/-- The Final rows of a speaker stay theirs, and the speaker stays in the session. -/
structure SpeakerStands (sessionId : String) (speaker : Option String) (s t : CaptureStore) :
    Prop where
  rows : ∀ u ∈ s.utterances, u.sessionId = sessionId → u.completion = .complete →
    u.sessionSpeakerId = speaker → ∃ v ∈ t.utterances, v.toUtteranceKey = u.toUtteranceKey ∧
      v.completion = .complete ∧ v.sessionSpeakerId = speaker
  check : checkSpeaker s sessionId speaker = .ok () → checkSpeaker t sessionId speaker = .ok ()

theorem SpeakerStands.refl (s : CaptureStore) : SpeakerStands sessionId speaker s s :=
  ⟨fun u hu _ hcomplete hspeaker => ⟨u, hu, rfl, hcomplete, hspeaker⟩, fun h => h⟩

theorem SpeakerStands.trans {w : CaptureStore} (hst : SpeakerStands sessionId speaker s t)
    (htw : SpeakerStands sessionId speaker t w) : SpeakerStands sessionId speaker s w := by
  refine ⟨fun u hu hsession hcomplete hspeaker => ?_, fun h => htw.check (hst.check h)⟩
  obtain ⟨v, hv, hkey, hvcomplete, hvspeaker⟩ := hst.rows u hu hsession hcomplete hspeaker
  have hvsession : v.sessionId = sessionId := by
    rw [← hsession]
    exact congrArg UtteranceKey.sessionId hkey
  obtain ⟨x, hx, hxkey, hxcomplete, hxspeaker⟩ := htw.rows v hv hvsession hvcomplete hvspeaker
  exact ⟨x, hx, hxkey.trans hkey, hxcomplete, hxspeaker⟩

theorem Write.speakerStands (h : Write creates s t) (hs : AllOwned s) :
    SpeakerStands sessionId speaker s t := by
  refine ⟨fun u hu hsession hcomplete hspeaker => ?_, h.keepsSpeakers _ _⟩
  rcases h.fate hu with ⟨v, hv, hkey, hbecomes⟩ | hdeleted
  · refine ⟨v, hv, hkey, ((hbecomes.goes (hs u hu)).columns hcomplete).1, ?_⟩
    rcases hbecomes.speaker (hs u hu) with hsame | ⟨hincomplete, -⟩
    · exact hsame.trans hspeaker
    · exact absurd hcomplete hincomplete
  · exact absurd hcomplete hdeleted.unread.1

theorem step_speakerStands {op : Op} (hs : AllOwned s) (h : step toLowercase s op = some t)
    (hsession : op.purges ≠ some sessionId)
    (hspeaker : ∀ id, speaker = some id → op.unspeaks ≠ some id) :
    SpeakerStands sessionId speaker s t := by
  rcases step_cases toLowercase h with hwrites | ⟨id, hid, rfl⟩ | ⟨other, hother, rfl⟩
  · clear h
    induction hwrites using Relation.ReflTransGen.head_induction_on with
    | refl => exact .refl _
    | head hfirst _ ih => exact (hfirst.speakerStands hs).trans (ih (hfirst.allOwned hs))
  · have hne : speaker ≠ some id := fun heq => hspeaker id heq hid
    refine ⟨fun u hu _ hcomplete huspeaker => ?_, checkSpeaker_withoutSpeaker hne⟩
    have hset : (if decide (u.sessionSpeakerId = some id) = true then
        { u with sessionSpeakerId := none } else u) ∈ (s.withoutSpeaker id).utterances :=
      mem_update_of_mem hu
    rw [if_neg (by simpa [huspeaker] using hne)] at hset
    exact ⟨u, hset, rfl, hcomplete, huspeaker⟩
  · have hne : sessionId ≠ other := by
      rintro rfl
      exact hsession hother
    refine ⟨fun u hu husession hcomplete huspeaker => ?_, checkSpeaker_withoutSession hne⟩
    refine ⟨u, List.mem_filter.2 ⟨hu, ?_⟩, rfl, hcomplete, huspeaker⟩
    simpa [husession] using hne

theorem run_speakerStands (hs : AllOwned s) (h : run (step toLowercase) s more = some t)
    (hsession : ∀ op ∈ more, op.purges ≠ some sessionId)
    (hspeaker : ∀ op ∈ more, ∀ id, speaker = some id → op.unspeaks ≠ some id) :
    SpeakerStands sessionId speaker s t := by
  refine (run_relation_of (I := AllOwned) (P := fun op : Op => op.purges ≠ some sessionId ∧
    ∀ id, speaker = some id → op.unspeaks ≠ some id) SpeakerStands.refl
    (fun _ _ _ => SpeakerStands.trans) (fun _ _ _ hs hop hstep => ?_) hs ?_ h).2
  · exact ⟨step_allOwned hs hstep, step_speakerStands hs hstep hop.1 hop.2⟩
  · exact fun op hop => ⟨hsession op hop, hspeaker op hop⟩

end Runs

end Lanes
end ZuTalk
