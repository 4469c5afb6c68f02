/-
# A deleted session is gone

What is in the tables is of sessions that have a run (`Attached`): facts and speakers by what the
calls check, edits by the row they are of.  So `purge_session_artifacts` deletes what is of the
session, and nothing else; and since nothing but the creation of a run gives a session a run, no
call that comes late brings anything of it back.
-/

import ZuTalk.Lanes.Bound
import ZuTalk.Lanes.Captures
import ZuTalk.Lanes.Corrections
import ZuTalk.Lanes.Speakers

namespace ZuTalk
namespace Lanes

open Table Transactions Machine

variable {s t : CaptureStore} {u : Utterance} {f : Fact} {m : Mutation}
variable {creates : Option String} {sessionId : String}

/-! ### The sessions that have a run -/

/-- The sessions that have a run. -/
def CaptureStore.sessionIds (s : CaptureStore) : List String := s.runs.map Run.sessionId

theorem sessionIds_editRuns (selects : Run → Bool) (set : RunBody → RunBody) :
    (s.editRuns selects set).sessionIds = s.sessionIds := map_key_update fun _ => rfl

theorem sessionIds_written (u : Utterance) (b : UtteranceBody) (projects : Bool) :
    (s.written u b projects).sessionIds = s.sessionIds := by
  unfold CaptureStore.written
  split
  · exact sessionIds_editRuns _ _
  · rfl

theorem run_eq_none (h : sessionId ∉ s.sessionIds) : s.run sessionId = none := by
  refine List.find?_eq_none.2 fun run hrun hsession => h ?_
  exact List.mem_map.2 ⟨run, hrun, of_decide_eq_true hsession⟩

theorem mem_sessionIds_of_run {run : Run} (h : s.run sessionId = some run) :
    sessionId ∈ s.sessionIds := by
  obtain ⟨hmem, hsession⟩ := mem_of_run h
  exact List.mem_map.2 ⟨run, hmem, hsession⟩

theorem mem_sessionIds_of_active {active : Bool}
    (h : s.captureSessionIsActive sessionId = .ok active) : sessionId ∈ s.sessionIds := by
  obtain ⟨run, hrun, -⟩ := captureSessionIsActive_eq_ok.1 h
  exact mem_sessionIds_of_run hrun

theorem mem_sessionIds_of_row (hu : u ∈ s.utterances) : u.sessionId ∈ s.sessionIds := by
  obtain ⟨run, hrun, hsession⟩ := s.captured u hu
  exact List.mem_map.2 ⟨run, hrun, hsession⟩

/-- **Nothing but the creation of a run gives a session a run**, and no write takes it away. -/
theorem Write.sessionIds (h : Write creates s t) :
    t.sessionIds = s.sessionIds ∨
      ∃ created, creates = some created ∧ t.sessionIds = s.sessionIds ++ [created] := by
  cases h with
  | auxiliary write =>
      left
      cases write with
      | row mem write => exact sessionIds_written _ _ _
      | collect | bind | unbind => rfl
      | fact active incomplete unbound =>
          unfold CaptureStore.writtenFact CaptureStore.upsertFact
          split
          · rfl
          · rfl
  | row mem write => exact .inl (sessionIds_written _ _ _)
  | insert new inserted speaker active =>
      refine .inl ((sessionIds_written _ _ _).trans ?_)
      exact congrArg (List.map Run.sessionId) (insertUtterance_eq_ok inserted).2.1
  | runs desired applied state => exact .inl (sessionIds_editRuns _ _)
  | @capture run t created fresh inserted =>
      refine .inr ⟨run.sessionId, created, ?_⟩
      unfold CaptureStore.sessionIds
      rw [(insertRun_eq_ok inserted).runs, List.map_append, List.map_singleton]
  | delete | stage | cancel | correct | speak | jobs => exact .inl rfl

theorem Write.mem_sessionIds (h : Write creates s t) (hs : sessionId ∈ s.sessionIds) :
    sessionId ∈ t.sessionIds := by
  rcases h.sessionIds with hsame | ⟨created, -, hmore⟩
  · exact hsame ▸ hs
  · exact hmore ▸ List.mem_append_left _ hs

theorem Write.not_mem_sessionIds (h : Write creates s t) (hcreates : creates ≠ some sessionId)
    (hs : sessionId ∉ s.sessionIds) : sessionId ∉ t.sessionIds := by
  rcases h.sessionIds with hsame | ⟨created, hcreated, hmore⟩
  · exact hsame ▸ hs
  · rw [hmore, List.mem_append, List.mem_singleton]
    rintro (hold | rfl)
    · exact hs hold
    · exact hcreates hcreated

/-! ### What is of a session -/

/-- Everything is of a session that has a run, and an edit is of a row of its session. -/
structure Attached (s : CaptureStore) : Prop where
  facts : ∀ f ∈ s.inbox, f.sessionId ∈ s.sessionIds
  speakers : ∀ speaker ∈ s.sessionSpeakers, speaker.2 ∈ s.sessionIds
  edits : ∀ m ∈ s.mutations, ∃ u ∈ s.utterances, u.id = m.utteranceId ∧ u.sessionId = m.sessionId

/-- Where a fact comes from. -/
theorem Write.fact_origin (h : Write creates s t) (hf : f ∈ t.inbox) :
    (∃ g ∈ s.inbox, g.sessionId = f.sessionId) ∨ f.sessionId ∈ s.sessionIds := by
  have hedit : ∀ {selects : Fact → Bool} {set : FactBody → FactBody},
      f ∈ (s.editFacts selects set).inbox → ∃ g ∈ s.inbox, g.sessionId = f.sessionId := by
    intro selects set hedited
    obtain ⟨g, hg, ⟨-, rfl⟩ | ⟨-, rfl⟩⟩ := mem_update hedited
    · exact ⟨g, hg, rfl⟩
    · exact ⟨f, hg, rfl⟩
  have hdelete : ∀ id, f ∈ (s.deleteUtterance id).inbox →
      ∃ g ∈ s.inbox, g.sessionId = f.sessionId := by
    intro id hdeleted
    have hunbound : f ∈ (s.editFacts (fun f => decide (f.boundUtteranceId = some id))
        fun f => { f with binding := none }).inbox := hdeleted
    exact hedit hunbound
  have hsame : ∀ {w : CaptureStore}, w.inbox = s.inbox → f ∈ w.inbox →
      (∃ g ∈ s.inbox, g.sessionId = f.sessionId) ∨ f.sessionId ∈ s.sessionIds :=
    fun hw hmem => .inl ⟨f, hw ▸ hmem, rfl⟩
  cases h with
  | auxiliary write =>
      cases write with
      | row mem write => exact hsame (inbox_written _ _ _) hf
      | collect mem empty unedited => exact .inl (hdelete _ hf)
      | bind | unbind => exact .inl (hedit hf)
      | @fact key new active incomplete unbound =>
          unfold CaptureStore.writtenFact CaptureStore.upsertFact at hf
          split at hf
          · exact .inl (hedit hf)
          · rcases List.mem_append.1 hf with hold | hnew
            · exact .inl ⟨f, hold, rfl⟩
            · rw [List.mem_singleton.1 hnew]
              exact .inr (mem_sessionIds_of_active active)
  | row mem write => exact hsame (inbox_written _ _ _) hf
  | insert new inserted speaker active =>
      exact hsame ((inbox_written _ _ _).trans (insertUtterance_eq_ok inserted).2.2.1) hf
  | delete mem incomplete unread active => exact .inl (hdelete _ hf)
  | capture created new inserted => exact hsame (insertRun_eq_ok inserted).inbox hf
  | stage | cancel => exact hsame rfl hf
  | correct mem id lane settled role utteranceRevision variantRevision edited =>
      exact hsame rfl hf
  | runs | speak | jobs => exact hsame rfl hf

/-- Where a speaker comes from. -/
theorem Write.speaker_origin (h : Write creates s t) {speaker : String × String}
    (hspeaker : speaker ∈ t.sessionSpeakers) :
    speaker ∈ s.sessionSpeakers ∨ speaker.2 ∈ s.sessionIds := by
  rcases h.sessionSpeakers with hsame | ⟨id, sessionId, hrunning, hmore⟩
  · exact .inl (hsame ▸ hspeaker)
  · rw [hmore, List.mem_append, List.mem_singleton] at hspeaker
    rcases hspeaker with hold | rfl
    · exact .inl hold
    · obtain ⟨run, hrun⟩ := Option.isSome_iff_exists.1 hrunning
      exact .inr (mem_sessionIds_of_run hrun)

theorem mutations_written (u : Utterance) (b : UtteranceBody) (projects : Bool) :
    (s.written u b projects).mutations = s.mutations := by
  unfold CaptureStore.written
  split <;> rfl

/-- Rows that stay keep the edits that are made of them. -/
theorem edits_of_rows (hs : Attached s) (hmutations : ∀ m ∈ t.mutations, m ∈ s.mutations)
    (hrows : ∀ u ∈ s.utterances, ∃ v ∈ t.utterances, v.toUtteranceKey = u.toUtteranceKey)
    (hm : m ∈ t.mutations) :
    ∃ u ∈ t.utterances, u.id = m.utteranceId ∧ u.sessionId = m.sessionId := by
  obtain ⟨u, hu, hid, hsession⟩ := hs.edits m (hmutations m hm)
  obtain ⟨v, hv, hkey⟩ := hrows u hu
  exact ⟨v, hv, (congrArg UtteranceKey.id hkey).trans hid,
    (congrArg UtteranceKey.sessionId hkey).trans hsession⟩

theorem edits_deleteUtterance (hs : Attached s) (id : String)
    (hm : m ∈ (s.deleteUtterance id).mutations) :
    ∃ u ∈ (s.deleteUtterance id).utterances, u.id = m.utteranceId ∧ u.sessionId = m.sessionId := by
  obtain ⟨hold, hkept⟩ := List.mem_filter.1 hm
  obtain ⟨u, hu, hid, hsession⟩ := hs.edits m hold
  refine ⟨u, mem_deleteUtterance hu ?_, hid, hsession⟩
  rw [hid]
  simpa using hkept

theorem Write.edits (h : Write creates s t) (hs : Attached s) (hm : m ∈ t.mutations) :
    ∃ u ∈ t.utterances, u.id = m.utteranceId ∧ u.sessionId = m.sessionId := by
  have hsame : ∀ {w : CaptureStore}, w.mutations = s.mutations → w.utterances = s.utterances →
      m ∈ w.mutations → ∃ u ∈ w.utterances, u.id = m.utteranceId ∧ u.sessionId = m.sessionId := by
    intro w hmutations hrows hmem
    exact hrows ▸ hs.edits m (hmutations ▸ hmem)
  have hwritten : ∀ {w : Utterance}, w ∈ s.utterances → ∀ b projects,
      m ∈ (s.written w b projects).mutations → ∃ u ∈ (s.written w b projects).utterances,
        u.id = m.utteranceId ∧ u.sessionId = m.sessionId := fun hw b projects hmem =>
    edits_of_rows hs (fun _ h => mutations_written _ b projects ▸ h)
      (fun _ hu => exists_key_written hw hu b projects) hmem
  cases h with
  | auxiliary write =>
      cases write with
      | row mem write => exact hwritten mem _ _ hm
      | collect mem empty unedited => exact edits_deleteUtterance hs _ hm
      | bind | unbind => exact hsame rfl rfl hm
      | fact active incomplete unbound =>
          refine hsame ?_ (utterances_upsertFact _ _ _) hm
          unfold CaptureStore.writtenFact CaptureStore.upsertFact
          split <;> rfl
  | row mem write => exact hwritten mem _ _ hm
  | insert new inserted speaker active =>
      obtain ⟨hrows, -, -, -, hmutations, -⟩ := insertUtterance_eq_ok inserted
      refine edits_of_rows hs (fun _ h => hmutations ▸ mutations_written _ _ _ ▸ h)
        (fun u hu => exists_key_written ?_ ?_ _ _) hm
      · rw [hrows]
        exact List.mem_append_right _ (.head _)
      · rw [hrows]
        exact List.mem_append_left _ hu
  | delete mem incomplete unread active => exact edits_deleteUtterance hs _ hm
  | stage mem id session lane settled =>
      rcases List.mem_append.1 hm with hold | hnew
      · exact hs.edits m hold
      · rw [List.mem_singleton.1 hnew]
        exact ⟨_, mem, id, session⟩
  | cancel => exact hs.edits m (mem_of_mem_delete hm)
  | correct mem id lane settled role utteranceRevision variantRevision edited =>
      exact hsame rfl rfl hm
  | runs desired applied state => exact hsame rfl rfl hm
  | capture created new inserted =>
      exact hsame (insertRun_eq_ok inserted).mutations (insertRun_eq_ok inserted).utterances hm
  | speak running new => exact hsame rfl rfl hm
  | jobs => exact hsame rfl rfl hm

/-- **Everything is of a session that has a run**, whatever is written. -/
theorem Write.attached (h : Write creates s t) (hs : Attached s) : Attached t where
  facts f hf := by
    rcases h.fact_origin hf with ⟨g, hg, hsession⟩ | hrunning
    · exact hsession ▸ h.mem_sessionIds (hs.facts g hg)
    · exact h.mem_sessionIds hrunning
  speakers speaker hspeaker := by
    rcases h.speaker_origin hspeaker with hold | hrunning
    · exact h.mem_sessionIds (hs.speakers speaker hold)
    · exact h.mem_sessionIds hrunning
  edits m hm := h.edits hs hm

theorem Attached.withoutSpeaker (hs : Attached s) (id : String) :
    Attached (s.withoutSpeaker id) where
  facts := hs.facts
  speakers speaker hspeaker := hs.speakers speaker (mem_of_mem_delete hspeaker)
  edits m hm := by
    refine edits_of_rows hs (fun _ h => h) (fun u hu => ?_) hm
    obtain ⟨v, hv, hkey, -⟩ := mem_of_withoutSpeaker hu id
    exact ⟨v, hv, hkey⟩

theorem mem_sessionIds_withoutSession {other : String} :
    other ∈ (s.withoutSession sessionId).sessionIds ↔ other ∈ s.sessionIds ∧ other ≠ sessionId := by
  change other ∈ (delete _ s.runs).map Run.sessionId ↔ other ∈ s.runs.map Run.sessionId ∧ _
  unfold delete
  simp only [List.mem_map, List.mem_filter]
  constructor
  · rintro ⟨run, ⟨hrun, hkept⟩, rfl⟩
    exact ⟨⟨run, hrun, rfl⟩, by simpa using hkept⟩
  · rintro ⟨⟨run, hrun, rfl⟩, hne⟩
    exact ⟨run, ⟨hrun, by simpa using hne⟩, rfl⟩

theorem Attached.withoutSession (hs : Attached s) (sessionId : String) :
    Attached (s.withoutSession sessionId) where
  facts f hf := by
    obtain ⟨hf, hkept⟩ := List.mem_filter.1 hf
    rw [mem_sessionIds_withoutSession]
    refine ⟨?_, by simpa using hkept⟩
    obtain ⟨g, hg, ⟨-, rfl⟩ | ⟨-, rfl⟩⟩ := mem_update hf
    · exact hs.facts g hg
    · exact hs.facts f hg
  speakers speaker hspeaker := by
    obtain ⟨hold, hkept⟩ := List.mem_filter.1 hspeaker
    exact mem_sessionIds_withoutSession.2 ⟨hs.speakers speaker hold, by simpa using hkept⟩
  edits m hm := by
    obtain ⟨hold, hkept⟩ := List.mem_filter.1 hm
    obtain ⟨hsession, -⟩ : ¬m.sessionId = sessionId ∧ _ := by
      simpa only [Bool.not_eq_true', Bool.or_eq_false_iff, decide_eq_false_iff_not] using hkept
    obtain ⟨u, hu, hid, husession⟩ := hs.edits m hold
    refine ⟨u, List.mem_filter.2 ⟨hu, ?_⟩, hid, husession⟩
    simpa [husession] using hsession

/-! ### One deletion -/

/-- What is of the session is deleted, and nothing else. -/
structure Purged (sessionId : String) (s t : CaptureStore) : Prop where
  utterances : t.utterances = delete (·.sessionId = sessionId) s.utterances
  inbox : t.inbox = delete (·.sessionId = sessionId) s.inbox
  runs : t.runs = delete (·.sessionId = sessionId) s.runs
  sessionSpeakers :
    t.sessionSpeakers = delete (fun speaker => speaker.2 = sessionId) s.sessionSpeakers
  mutations : t.mutations = delete (·.sessionId = sessionId) s.mutations
  overrides : ∀ o, o ∈ t.overrides ↔ o ∈ s.overrides ∧ ∃ u ∈ t.utterances, u.id = o.utteranceId

/-- The rows of a session, by their ids. -/
theorem mem_gone (sessionId : String) (hu : u ∈ s.utterances) :
    ((s.utterances.filter (·.sessionId = sessionId)).map (·.id)).contains u.id = true ↔
      u.sessionId = sessionId := by
  rw [List.contains_iff_mem, List.mem_map]
  constructor
  · rintro ⟨v, hv, hid⟩
    obtain ⟨hv, hsession⟩ := List.mem_filter.1 hv
    obtain rfl := eq_of_id_eq hv hu hid
    exact of_decide_eq_true hsession
  · intro hsession
    exact ⟨u, List.mem_filter.2 ⟨hu, decide_eq_true hsession⟩, rfl⟩

/-- **The deletion of a session leaves the others alone**: no fact loses its binding, no row a
correction, and no edit is dropped. -/
theorem purged_withoutSession (hattached : Attached s) (hbound : Bound s)
    (hcorrections : Corrections s) (sessionId : String) :
    Purged sessionId s (s.withoutSession sessionId) where
  utterances := rfl
  inbox := by
    refine delete_update (fun _ => rfl) fun f hf hselects => decide_eq_true ?_
    unfold Fact.boundUtteranceId at hselects
    cases hbinding : f.binding with
    | none => simp [hbinding] at hselects
    | some binding =>
        obtain ⟨u, hu, hkey⟩ := hbound f hf binding hbinding
        have hid : u.id = binding.1 := congrArg UtteranceKey.id hkey
        have hsession : u.sessionId = f.sessionId := congrArg UtteranceKey.sessionId hkey
        rw [hbinding, Option.map_some, Option.any_some, ← hid, mem_gone _ hu] at hselects
        exact hsession.symm.trans hselects
  runs := rfl
  sessionSpeakers := rfl
  mutations := by
    refine List.filter_congr fun m hm => ?_
    dsimp only
    obtain ⟨u, hu, hid, hsession⟩ := hattached.edits m hm
    have hgone := mem_gone sessionId hu
    rw [hid, hsession] at hgone
    by_cases heq : m.sessionId = sessionId
    · simp [heq]
    · have hkept := Bool.eq_false_iff.2 fun h => heq (hgone.1 h)
      rw [hkept, Bool.or_false]
  overrides o := by
    constructor
    · intro ho
      obtain ⟨u, hu, hid, -⟩ := (hcorrections.withoutSession sessionId).fits o ho
      exact ⟨mem_of_mem_delete ho, u, hu, hid⟩
    · rintro ⟨ho, u, hu, hid⟩
      obtain ⟨hold, hkept⟩ := List.mem_filter.1 hu
      refine List.mem_filter.2 ⟨ho, ?_⟩
      rw [Bool.not_eq_true']
      refine Bool.eq_false_iff.2 fun hgone => ?_
      dsimp only at hgone
      rw [← hid] at hgone
      simp [(mem_gone _ hold).1 hgone] at hkept

/-! ### Every run -/

section Runs

variable {toLowercase : Char → List Char} {ops more : List Op} {w : CaptureStore}

theorem attached_of_run (h : run (step toLowercase) emptyStore ops = some t) : Attached t :=
  run_invariant_of_write (I := Attached)
    ⟨fun _ hf => absurd hf List.not_mem_nil, fun _ hf => absurd hf List.not_mem_nil,
      fun _ hf => absurd hf List.not_mem_nil⟩
    (fun h => h.attached) (fun _ id hs => hs.withoutSpeaker id)
    (fun _ sessionId hs => hs.withoutSession sessionId) h

theorem step_purge (hsession : requireNonempty "session_id" sessionId = .ok ())
    (h : step toLowercase s (.purgeSessionArtifacts sessionId) = some t) :
    t = s.withoutSession sessionId := by
  have hpurge : purgeSessionArtifacts sessionId s = .ok PUnit.unit (s.withoutSession sessionId) :=
    checked_bind_ok hsession
  rw [← Option.some.inj h]
  exact congrArg finalState (transaction_ok hpurge)

/-- **A deletion is of one session.**  In any state the store can be in, `purge_session_artifacts`
deletes the rows, facts, speakers, edits and the run of its session, and the corrections of its
rows; every other row, fact, speaker, edit, run and correction is left as it is. -/
theorem purge_is_of_one_session (hs : run (step toLowercase) emptyStore ops = some s)
    (hsession : requireNonempty "session_id" sessionId = .ok ())
    (h : step toLowercase s (.purgeSessionArtifacts sessionId) = some t) :
    Purged sessionId s t := by
  rw [step_purge hsession h]
  exact purged_withoutSession (attached_of_run hs) (bound_of_run hs) (sound_of_run hs).2 sessionId

/-- The session that has ended is deleted, and the one that is active is left. -/
theorem purge_is_of_one_session_heard :
    Purged "n" continuedStore (after lowerAscii continuedStore (.purgeSessionArtifacts "n")) ∧
      (after lowerAscii continuedStore (.purgeSessionArtifacts "n")).mutations.map Mutation.id =
        ["m2"] :=
  ⟨purge_is_of_one_session run_continued rfl rfl, by decide +kernel⟩

/-- Nothing is of the session. -/
structure Gone (sessionId : String) (s : CaptureStore) : Prop where
  run : s.run sessionId = none
  utterances : ∀ u ∈ s.utterances, u.sessionId ≠ sessionId
  inbox : ∀ f ∈ s.inbox, f.sessionId ≠ sessionId
  sessionSpeakers : ∀ speaker ∈ s.sessionSpeakers, speaker.2 ≠ sessionId
  mutations : ∀ m ∈ s.mutations, m.sessionId ≠ sessionId

theorem Attached.gone (hs : Attached s) (h : sessionId ∉ s.sessionIds) : Gone sessionId s where
  run := run_eq_none h
  utterances u hu hsession := h (hsession ▸ mem_sessionIds_of_row hu)
  inbox f hf hsession := h (hsession ▸ hs.facts f hf)
  sessionSpeakers speaker hspeaker hsession := h (hsession ▸ hs.speakers speaker hspeaker)
  mutations m hm hsession := by
    obtain ⟨u, hu, -, husession⟩ := hs.edits m hm
    exact h (hsession ▸ husession ▸ mem_sessionIds_of_row hu)

/-- A call that does not create a run for a session without one leaves it without. -/
theorem step_not_mem_sessionIds {op : Op} (hs : sessionId ∉ s.sessionIds)
    (h : step toLowercase s op = some t) (hop : op.creates ≠ some sessionId) :
    sessionId ∉ t.sessionIds := by
  rcases step_cases toLowercase h with hwrites | ⟨id, -, rfl⟩ | ⟨other, -, rfl⟩
  · clear h
    induction hwrites with
    | refl => exact hs
    | tail _ hlast ih => exact hlast.not_mem_sessionIds hop ih
  · exact hs
  · exact fun hmem => hs (mem_sessionIds_withoutSession.1 hmem).1

/-- **A deleted session stays gone.**  After `purge_session_artifacts`, whatever calls come, and
however late, but for one that creates a run for the session: nothing in the tables is of it. -/
theorem purged_sessions_stay_gone (hs : run (step toLowercase) emptyStore ops = some s)
    (hsession : requireNonempty "session_id" sessionId = .ok ())
    (hpurge : step toLowercase s (.purgeSessionArtifacts sessionId) = some t)
    (h : run (step toLowercase) t more = some w)
    (hkept : ∀ op ∈ more, op.creates ≠ some sessionId) : Gone sessionId w := by
  have hgone : sessionId ∉ t.sessionIds := by
    rw [step_purge hsession hpurge]
    exact fun hmem => (mem_sessionIds_withoutSession.1 hmem).2 rfl
  have hlast : Attached w ∧ sessionId ∉ w.sessionIds := by
    have hattached : Attached t := by
      rw [step_purge hsession hpurge]
      exact (attached_of_run hs).withoutSession sessionId
    refine run_invariant_of (I := fun s => Attached s ∧ sessionId ∉ s.sessionIds)
      (P := fun op : Op => op.creates ≠ some sessionId) (fun s op t hs hop hstep => ⟨?_, ?_⟩)
      ⟨hattached, hgone⟩ hkept h
    · exact step_invariant (fun h => h.attached) (fun _ id hs => hs.withoutSpeaker id)
        (fun _ sessionId hs => hs.withoutSession sessionId) hs.1 hstep
    · exact step_not_mem_sessionIds hs.2 hstep hop
  exact hlast.1.gone hlast.2

theorem purged_sessions_stay_gone_heard :
    Gone "n" (after lowerAscii (after lowerAscii heardStore (.purgeSessionArtifacts "n"))
      (.upsertUtterance heardSource none)) :=
  purged_sessions_stay_gone run_heard rfl rfl (run_step lowerAscii _ [_]) (by simp [Op.creates])

end Runs

end Lanes
end ZuTalk
