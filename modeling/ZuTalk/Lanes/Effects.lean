/-
# Translations are written by writes

Every function that writes lanes, bindings and facts and goes through has taken the tables from one
state to another by `Auxiliaries`: one lemma for each function, from the statements of one row up to
a fact that arrives.

A function that is handed a row it did not read itself relies on that row being `Seen`: it has the
key of a row that is there, and is that row where the user has edited nothing.
-/

import ZuTalk.Lanes.Writes

namespace ZuTalk
namespace Lanes

open Capture (UtteranceCompletion CaptureState NewRealtimeUtterance)
open Inbox (NotebookCaptureStoreError RealtimeTranslationInboxKey)
open Table Transactions

variable {s t : CaptureStore} {u shown : Utterance}

theorem checked_bind {α β : Type} {x : Except NotebookCaptureStoreError α} {f : α → Tx β}
    {Q : β → CaptureStore → Prop} (h : ∀ a, x = .ok a → Commits Q (f a) s) :
    Commits Q (checked x >>= f) s := by
  refine Commits.check_bind fun a ha => h a ?_
  cases x with
  | ok b => exact congrArg Except.ok (Except.ok.inj ha)
  | error e => cases ha

theorem checked_bind_ok {α β : Type} {x : Except NotebookCaptureStoreError α} {f : α → Tx β}
    {a : α} (h : x = .ok a) : (checked x >>= f) s = f a s :=
  check_bind_ok (by rw [h]; rfl)

/-! ### Rows of the tables -/

theorem mem_of_utteranceById {id : String} (h : s.utteranceById id = some u) :
    u ∈ s.utterances ∧ u.id = id :=
  ⟨List.mem_of_find?_eq_some h, by simpa using List.find?_some h⟩

theorem mem_of_utteranceBySequence {sessionId : String} {sequence : I64}
    (h : s.utteranceBySequence sessionId sequence = some u) :
    u ∈ s.utterances ∧ u.sessionId = sessionId ∧ u.sequence = sequence :=
  ⟨List.mem_of_find?_eq_some h, by simpa using List.find?_some h⟩

theorem eq_of_id_eq {v : Utterance} (hu : u ∈ s.utterances) (hv : v ∈ s.utterances)
    (hid : u.id = v.id) : u = v := eq_of_key_eq s.ids hu hv hid

theorem utteranceById_of_mem (hu : u ∈ s.utterances) : s.utteranceById u.id = some u :=
  s.ids.find?_eq_some hu

/-! ### One row is set -/

theorem editUtterance_of_mem (hu : u ∈ s.utterances) (set : UtteranceBody → UtteranceBody) :
    s.editUtterance u.id set = s.editUtterance u.id fun _ => set u.toUtteranceBody := by
  refine CaptureStore.ext (update_congr fun v hv hid => ?_) rfl rfl rfl rfl rfl rfl
  rw [eq_of_id_eq hv hu (of_decide_eq_true hid)]

theorem editUtterance_editUtterance (id : String) (set set' : UtteranceBody → UtteranceBody) :
    (s.editUtterance id set).editUtterance id set' =
      s.editUtterance id fun b => set' (set b) :=
  CaptureStore.ext (update_update fun _ => rfl) rfl rfl rfl rfl rfl rfl

/-- One statement on a row. -/
theorem written_of_edit (hu : u ∈ s.utterances) (set : UtteranceBody → UtteranceBody) :
    s.editUtterance u.id set = s.written u (set u.toUtteranceBody) false :=
  editUtterance_of_mem hu set

/-- Two statements on a row. -/
theorem written_of_edits (hu : u ∈ s.utterances) (set set' : UtteranceBody → UtteranceBody) :
    (s.editUtterance u.id set).editUtterance u.id set' =
      s.written u (set' (set u.toUtteranceBody)) false := by
  rw [editUtterance_editUtterance, editUtterance_of_mem hu]
  rfl

/-- Two statements on a row, and the desired revision in between. -/
theorem written_of_projection (hu : u ∈ s.utterances) (set set' : UtteranceBody → UtteranceBody) :
    ((s.editUtterance u.id set).bumped u.sessionId).editUtterance u.id set' =
      s.written u (set' (set u.toUtteranceBody)) true := by
  have hcommute : ((s.editUtterance u.id set).bumped u.sessionId).editUtterance u.id set' =
      ((s.editUtterance u.id set).editUtterance u.id set').bumped u.sessionId := rfl
  rw [hcommute, editUtterance_editUtterance, editUtterance_of_mem hu]
  rfl

theorem mem_written (hu : u ∈ s.utterances) (b : UtteranceBody) (projects : Bool) :
    ⟨u.toUtteranceKey, b⟩ ∈ (s.written u b projects).utterances := by
  have hmem : ⟨u.toUtteranceKey, b⟩ ∈ (s.editUtterance u.id fun _ => b).utterances := by
    have hset : (if decide (u.id = u.id) = true then { u with toUtteranceBody := b } else u) ∈
        (s.editUtterance u.id fun _ => b).utterances := mem_update_of_mem hu
    rwa [if_pos (decide_eq_true rfl)] at hset
  unfold CaptureStore.written
  split
  · exact hmem
  · exact hmem

theorem run_editRuns (selects : Run → Bool) (set : RunBody → RunBody) (sessionId : String) :
    (s.editRuns selects set).run sessionId = (s.run sessionId).map fun run =>
      if selects run then { run with toRunBody := set run.toRunBody } else run := by
  refine find?_update ?_ sessionId
  exact fun _ => rfl

theorem run_withoutSession {sessionId other : String} (hne : sessionId ≠ other) :
    (s.withoutSession other).run sessionId = s.run sessionId := by
  unfold CaptureStore.run CaptureStore.withoutSession delete
  rw [List.find?_filter]
  congr 1
  funext run
  by_cases hid : run.sessionId = sessionId
  · simp [hid, hne]
  · simp [hid]

theorem mem_of_run {run : Run} {sessionId : String} (h : s.run sessionId = some run) :
    run ∈ s.runs ∧ run.sessionId = sessionId :=
  ⟨List.mem_of_find?_eq_some h, by simpa using List.find?_some h⟩

theorem desiredRevision_bumped (s : CaptureStore) (sessionId : String)
    (h : ((s.bumped sessionId).run sessionId).isSome = true) :
    (s.bumped sessionId).desiredRevision sessionId = s.desiredRevision sessionId + 1 := by
  unfold CaptureStore.desiredRevision CaptureStore.bumped
  unfold CaptureStore.bumped at h
  rw [run_editRuns] at h ⊢
  cases hs : s.run sessionId with
  | none => simp [hs] at h
  | some run => simp [(mem_of_run hs).2]

/-- The desired revision that is handed out. -/
theorem bump_commits (s : CaptureStore) (sessionId : String) :
    Commits (fun revision t => t = s.bumped sessionId ∧
        revision = s.desiredRevision sessionId + 1)
      (bumpRealtimeLoroDesiredRevision sessionId) s := by
  refine Commits.modify_bind (Commits.get_bind (Commits.require_bind fun run hrun => ?_))
  refine Commits.pure ⟨rfl, ?_⟩
  rw [← desiredRevision_bumped s sessionId (by rw [hrun]; rfl), CaptureStore.desiredRevision,
    hrun]
  rfl

/-! ### What a row shows -/

theorem applyOverride_key {o : Override} (h : applyOverride u o = .ok shown) :
    shown.toUtteranceKey = u.toUtteranceKey := by
  unfold applyOverride at h
  split at h
  · cases h
  split at h
  · cases h
  split at h
  · cases h
  split at h
  · cases h
  dsimp only at h
  split at h
  · split at h
    · cases h
      rfl
    · cases h
  · split at h
    · cases h
      rfl
    · cases h

theorem applyUtteranceOverrides_key (h : s.applyUtteranceOverrides u = .ok shown) :
    shown.toUtteranceKey = u.toUtteranceKey := by
  unfold CaptureStore.applyUtteranceOverrides at h
  generalize select _ _ s.overrides = overrides at h
  induction overrides generalizing u with
  | nil =>
      cases h
      rfl
  | cons o rest ih =>
      rw [List.foldlM_cons] at h
      cases ho : applyOverride u o with
      | error e =>
          rw [ho] at h
          cases h
      | ok v =>
          rw [ho] at h
          exact (ih h).trans (applyOverride_key ho)

/-- A row the user has edited nothing of. -/
def Plain (s : CaptureStore) (id : String) : Prop := ∀ o ∈ s.overrides, o.utteranceId ≠ id

theorem applyUtteranceOverrides_plain (h : Plain s u.id) : s.applyUtteranceOverrides u = .ok u := by
  have hnone : select (fun o : Override => decide (o.utteranceId = u.id))
      (fun a b => compare a.laneLanguage.code b.laneLanguage.code ≠ .gt) s.overrides = [] := by
    refine List.eq_nil_iff_forall_not_mem.2 fun o ho => ?_
    obtain ⟨hmem, hid⟩ := mem_select.1 ho
    exact h o hmem (of_decide_eq_true hid)
  unfold CaptureStore.applyUtteranceOverrides
  rw [hnone]
  rfl

/-- A row that is there, or what it shows. -/
structure Seen (s : CaptureStore) (shown : Utterance) : Prop where
  exists_row : ∃ u ∈ s.utterances, u.toUtteranceKey = shown.toUtteranceKey
  mem_of_plain : Plain s shown.id → shown ∈ s.utterances

theorem Seen.of_mem (hu : u ∈ s.utterances) : Seen s u := ⟨⟨u, hu, rfl⟩, fun _ => hu⟩

theorem Seen.overlaid (hu : Seen s u) (h : s.applyUtteranceOverrides u = .ok shown) :
    Seen s shown := by
  have hkey := applyUtteranceOverrides_key h
  obtain ⟨v, hv, hvkey⟩ := hu.exists_row
  refine ⟨⟨v, hv, hvkey.trans hkey.symm⟩, fun hplain => ?_⟩
  have hid : shown.id = u.id := congrArg UtteranceKey.id hkey
  rw [hid] at hplain
  obtain rfl := Except.ok.inj ((applyUtteranceOverrides_plain hplain).symm.trans h)
  exact hu.mem_of_plain hplain

theorem visible_commits (u : Utterance) (s : CaptureStore) :
    Commits (fun shown t => t = s ∧ s.applyUtteranceOverrides u = .ok shown) (visible u) s :=
  Commits.get_bind (commits_check fun _ h => ⟨rfl, h⟩)

theorem reloaded_commits (hu : u ∈ s.utterances) :
    Commits (fun shown t => t = s ∧ s.applyUtteranceOverrides u = .ok shown) (reloaded u.id) s := by
  refine Commits.get_bind (Commits.require_bind fun v hv => ?_)
  obtain rfl := Option.some.inj ((utteranceById_of_mem hu).symm.trans hv)
  exact visible_commits u s

theorem visible_eq_ok (h : s.applyUtteranceOverrides u = .ok shown) :
    visible u s = .ok shown s := by
  change check (s.applyUtteranceOverrides u) s = _
  rw [h]
  rfl

theorem reloaded_eq_ok (hu : u ∈ s.utterances) (h : s.applyUtteranceOverrides u = .ok shown) :
    reloaded u.id s = .ok shown s := by
  change (require (s.utteranceById u.id) _ >>= visible) s = _
  rw [require_bind_some (utteranceById_of_mem hu)]
  exact visible_eq_ok h

/-! ### The statements of a row -/

/-- What a function that writes a row and reads it again returns. -/
def Returns (s : CaptureStore) (u shown : Utterance) (t : CaptureStore) : Prop :=
  Auxiliaries s t ∧ Seen t shown ∧ shown.toUtteranceKey = u.toUtteranceKey

/-- A row that was written, read again. -/
theorem reloaded_returns {b : UtteranceBody} {projects : Bool} (hu : u ∈ s.utterances)
    (hwrite : ∀ shown, s.applyUtteranceOverrides ⟨u.toUtteranceKey, b⟩ = .ok shown →
      AuxiliaryRow s u b projects) :
    Commits (fun shown t => Returns s u shown t) (reloaded u.id) (s.written u b projects) := by
  have hmem := mem_written hu b projects
  refine (reloaded_commits hmem).mono fun shown t h => ?_
  obtain ⟨rfl, hshown⟩ := h
  have hoverrides : (s.written u b projects).overrides = s.overrides := by
    unfold CaptureStore.written
    split <;> rfl
  have hkey := applyUtteranceOverrides_key hshown
  refine ⟨.single (.row hu (hwrite shown ?_)), (Seen.of_mem hmem).overlaid hshown, hkey⟩
  unfold CaptureStore.applyUtteranceOverrides at hshown ⊢
  rw [hoverrides] at hshown
  exact hshown

theorem writeTranslation_returns (hu : u ∈ s.utterances) {language : Language} {payload : Payload}
    (hwrite : AuxiliaryRow s u
      (u.translationWritten language payload (s.desiredRevision u.sessionId + 1))
      payload.isSettled) :
    Commits (fun shown t => Returns s u shown t) (writeTranslation u language payload) s := by
  refine Commits.modify_bind ?_
  cases hsettled : payload.isSettled with
  | true =>
      rw [if_pos rfl]
      refine Commits.bind ((bump_commits _ _).mono fun revision t h => ?_)
      obtain ⟨rfl, rfl⟩ := h
      refine Commits.modify_bind ?_
      rw [written_of_projection hu]
      rw [UtteranceBody.translationWritten, hsettled, if_pos rfl] at hwrite
      exact reloaded_returns hu fun _ _ => hwrite
  | false =>
      rw [if_neg Bool.false_ne_true, written_of_edit hu]
      rw [UtteranceBody.translationWritten, hsettled, if_neg Bool.false_ne_true] at hwrite
      exact reloaded_returns hu fun _ _ => hwrite

theorem relabelUtterance_returns (hu : u ∈ s.utterances) {f : Fact}
    (hadopts : adopts s f u = true) :
    Commits (fun shown t => Returns s u shown t) (relabelUtterance u f.sourceLanguage) s := by
  refine Commits.get_bind ?_
  rw [utteranceById_of_mem hu, Option.elim_some]
  refine Commits.modify_bind ?_
  have hreturns : ∀ b projects,
      b = u.relabelled f.sourceLanguage (s.desiredRevision u.sessionId + 1) →
        projects = u.projectsLabel →
          Commits (fun shown t => Returns s u shown t) (reloaded u.id)
            (s.written u b projects) := by
    rintro b projects rfl rfl
    exact reloaded_returns hu fun shown hshown => .relabel hadopts hshown
  unfold UtteranceBody.relabelled UtteranceBody.projectsLabel at hreturns
  by_cases hone : u.variants.countP (UtteranceBody.renames u.sourceLanguage) = 1
  · rw [if_pos hone]
    cases hcomplete : u.sourceLaneIsComplete with
    | true =>
        rw [if_pos rfl]
        refine Commits.bind ((bump_commits _ _).mono fun revision t h => ?_)
        obtain ⟨rfl, rfl⟩ := h
        refine Commits.modify_bind ?_
        rw [written_of_projection hu]
        refine hreturns _ _ ?_ ?_
        · rw [if_pos hone, hcomplete, if_pos rfl]
          rfl
        · simp [hone, hcomplete]
    | false =>
        rw [if_neg Bool.false_ne_true]
        refine Commits.modify_bind ?_
        rw [written_of_edits hu]
        refine hreturns _ _ ?_ ?_
        · rw [if_pos hone, hcomplete, if_neg Bool.false_ne_true]
        · simp [hone, hcomplete]
  · rw [if_neg hone, written_of_edit hu]
    refine hreturns _ _ ?_ ?_
    · rw [if_neg hone]
    · simp [hone]

theorem claim_returns (hu : Seen s u) (hinactive : s.captureSessionIsActive u.sessionId = .ok false)
    (language : Language) (text : String) :
    Commits (fun shown t => Auxiliaries s t ∧ Seen t shown)
      (claimAuxiliaryFinalFromProvisionalSource u language text) s := by
  obtain ⟨v, hv, hkey⟩ := hu.exists_row
  have hid : u.id = v.id := congrArg UtteranceKey.id hkey.symm
  have hsession : u.sessionId = v.sessionId := congrArg UtteranceKey.sessionId hkey.symm
  refine Commits.get_bind (Commits.refuse_bind fun hone => ?_)
  rw [hid, utteranceById_of_mem hv, Option.elim_some] at hone
  have hone : v.variants.countP (UtteranceBody.claimable language) = 1 := by simpa using hone
  refine Commits.modify_bind (Commits.bind ((bump_commits _ _).mono fun revision t h => ?_))
  obtain ⟨rfl, rfl⟩ := h
  refine Commits.modify_bind ?_
  rw [hsession] at hinactive
  rw [hid, hsession, written_of_projection hv]
  exact (reloaded_returns hv fun _ _ => .claim hone hinactive).mono fun _ _ h => ⟨h.1, h.2.1⟩

/-! ### One lane -/

theorem upsertTranslationVariant_returns (sessionId : String) (sequence : I64)
    (language : Language) (payload : Payload) (write : TranslationLaneWrite) (s : CaptureStore) :
    Commits (fun shown t => Auxiliaries s t ∧ Seen t shown ∧ shown.sessionId = sessionId)
      (upsertTranslationVariant sessionId sequence language payload write) s := by
  refine Commits.get_bind (Commits.require_bind fun u hu => Commits.refuse_bind fun hsource => ?_)
  obtain ⟨hmem, hsession, -⟩ := mem_of_utteranceBySequence hu
  have hkept : ∀ shown : Utterance, shown.toUtteranceKey = u.toUtteranceKey →
      shown.sessionId = sessionId := fun shown hkey =>
    (congrArg UtteranceKey.sessionId hkey).trans hsession
  cases hdecision : laneDecision (u.variant language) payload write with
  | write =>
      exact (writeTranslation_returns hmem (.lane hsource hdecision)).mono fun shown _ h =>
        ⟨h.1, h.2.1, hkept shown h.2.2⟩
  | keep =>
      refine (visible_commits u s).mono fun shown t h => ?_
      obtain ⟨rfl, hshown⟩ := h
      exact ⟨.refl, (Seen.of_mem hmem).overlaid hshown,
        hkept shown (applyUtteranceOverrides_key hshown)⟩
  | cannotDetach => exact Commits.throw
  | immutable => exact Commits.throw

theorem adopt_returns (f : Fact) (hu : u ∈ s.utterances) :
    Commits (fun shown t => Returns s u shown t) (adoptTranslationInboxSourceLanguage f u) s := by
  refine Commits.get_bind (Commits.ite (fun hadopts => ?_) fun _ => ?_)
  · exact relabelUtterance_returns hu hadopts
  · exact Commits.pure ⟨.refl, .of_mem hu, rfl⟩

/-- A row with overrides or edits on their way has user state. -/
theorem plain_of_userState {id : String} (h : s.utteranceHasUserState id = false) : Plain s id := by
  intro o ho hid
  have hnone := (Bool.or_eq_false_iff.1 h).1
  have hsome : s.overrides.any (·.utteranceId = id) = true :=
    List.any_eq_true.2 ⟨o, ho, decide_eq_true hid⟩
  rw [hnone] at hsome
  cases hsome

theorem collectEmptyTranslationShell_writes (hu : Seen s u) :
    Commits (fun _ t => Auxiliaries s t) (collectEmptyTranslationShell u) s := by
  refine Commits.get_bind (Commits.ite (fun _ => Commits.pure .refl) fun hshell => ?_)
  refine Commits.refuse_bind fun _ => Commits.modify_bind (Commits.pure ?_)
  obtain ⟨hempty, hedited⟩ : u.isEmptyShell = true ∧ s.utteranceHasUserState u.id = false := by
    simpa using hshell
  have hmem := hu.mem_of_plain (plain_of_userState hedited)
  exact .single (.collect hmem hempty hedited)

/-! ### A fact and its row -/

theorem applyTranslation_writes (hu : Seen s u) (f : Fact) (sequence : I64)
    (translation : String × UtteranceCompletion) (lane : Option (String × UtteranceCompletion))
    {active : Bool} (hactive : s.captureSessionIsActive u.sessionId = .ok active) :
    Commits (fun _ t => Auxiliaries s t)
      (applyTranslation f u sequence translation lane active) s := by
  refine Commits.ite (fun _ => Commits.pure .refl) fun _ => ?_
  refine Commits.ite (fun hclaims => ?_) fun _ => ?_
  · have hinactive : active = false := by
      cases active with
      | false => rfl
      | true => simp_all [UtteranceBody.targetIsCurrentSource]
    exact Commits.map ((claim_returns hu (hinactive ▸ hactive) _ _).mono fun _ _ h => h.1)
  · exact Commits.map ((upsertTranslationVariant_returns _ _ _ _ _ s).mono fun _ _ h => h.1)

/-- A lane that is written, and a row that may have nothing left to say. -/
theorem withdrawn_lane_writes (sessionId : String) (sequence : I64) (language : Language)
    (payload : Payload) (write : TranslationLaneWrite) (s : CaptureStore) :
    Commits (fun _ t => Auxiliaries s t)
      (upsertTranslationVariant sessionId sequence language payload write >>=
        collectEmptyTranslationShell) s := by
  refine Commits.bind ((upsertTranslationVariant_returns _ _ _ _ _ s).mono fun shown t h => ?_)
  exact (collectEmptyTranslationShell_writes h.2.1).mono fun _ _ hrest => h.1.trans hrest

theorem applyWithdrawal_writes (hu : Seen s u) (f : Fact) (sequence : I64)
    (lane : Option (String × UtteranceCompletion)) (active : Bool) :
    Commits (fun _ t => Auxiliaries s t) (applyWithdrawal f u sequence lane active) s := by
  have hvisible : Commits (fun shown t => t = s ∧ Seen s shown) (visible u) s :=
    (visible_commits u s).mono fun _ _ h => ⟨h.1, hu.overlaid h.2⟩
  refine Commits.ite (fun _ => Commits.map (hvisible.mono ?_)) fun _ => ?_
  · rintro _ t ⟨rfl, -⟩
    exact .refl
  · cases lane with
    | some lane =>
        exact Commits.map ((upsertTranslationVariant_returns _ _ _ _ _ s).mono fun _ _ h => h.1)
    | none =>
        refine Commits.ite (fun _ => Commits.bind (hvisible.mono ?_)) fun _ => ?_
        · rintro shown t ⟨rfl, hshown⟩
          exact collectEmptyTranslationShell_writes hshown
        · exact withdrawn_lane_writes _ _ _ _ _ s

theorem applyTranslationInboxToBoundUtterance_writes (f : Fact) (sequence : I64) :
    Leads Auxiliaries (applyTranslationInboxToBoundUtterance f sequence) := by
  intro s
  refine Commits.get_bind (Commits.require_bind fun u hu => ?_)
  obtain ⟨hmem, hsession, -⟩ := mem_of_utteranceBySequence hu
  refine Commits.bind ((adopt_returns f hmem).mono fun shown t h => ?_)
  obtain ⟨hwrites, hseen, hkey⟩ := h
  refine Commits.get_bind (Commits.check_bind fun active hactive => ?_)
  cases f.translation with
  | some translation =>
      have hshown : shown.sessionId = f.sessionId :=
        (congrArg UtteranceKey.sessionId hkey).trans hsession
      rw [← hshown] at hactive
      exact (applyTranslation_writes hseen f sequence translation _ hactive).mono fun _ _ h =>
        hwrites.trans h
  | none =>
      refine Commits.ite (fun _ => Commits.pure hwrites) fun _ => ?_
      exact (applyWithdrawal_writes hseen f sequence _ active).mono fun _ _ h => hwrites.trans h

/-! ### Binding -/

theorem factKey_sessionId {key : RealtimeTranslationInboxKey} {factKey : FactKey}
    (h : FactKey.of key = .ok factKey) : factKey.sessionId = key.sessionId := by
  unfold FactKey.of at h
  cases hepoch : u64ToI64 key.groupEpoch "translation group epoch" with
  | error e =>
      rw [hepoch] at h
      cases h
  | ok groupEpoch =>
      cases hsequence : u64ToI64 key.providerSequence "translation provider sequence" with
      | error e =>
          rw [hepoch, hsequence] at h
          cases h
      | ok providerSequence =>
          rw [hepoch, hsequence] at h
          cases h
          rfl

theorem Leads.collect {α β : Type} {f : α → Tx (Option β)} (h : ∀ a, Leads Auxiliaries (f a)) :
    ∀ as : List α, Leads Auxiliaries (collect f as)
  | [] => Leads.pure _
  | a :: rest => Leads.bind (h a) fun _ => Leads.bind (Leads.collect h rest) fun _ => Leads.pure _

section Placing

variable (toLowercase : Char → List Char)

theorem bindWithinSavepoint_writes (key : RealtimeTranslationInboxKey) (canonicalSequence : ℕ) :
    Leads Auxiliaries (bindWithinSavepoint toLowercase key canonicalSequence) := by
  intro s
  refine checked_bind fun factKey hkey => Commits.get_bind (Commits.require_bind fun f _ => ?_)
  have hsession := factKey_sessionId hkey
  refine Commits.ite (fun _ => Commits.pure .refl) fun _ => ?_
  refine Commits.refuse_bind fun _ => checked_bind fun sequence _ => ?_
  refine Commits.require_bind fun u hu => checked_bind fun _ _ => Commits.refuse_bind fun _ => ?_
  obtain ⟨hmem, hus, hsequence⟩ := mem_of_utteranceBySequence hu
  refine Commits.bind ((adopt_returns f hmem).mono fun shown t h => ?_)
  obtain ⟨hwrites, hseen, hshown⟩ := h
  refine Commits.get_bind (Commits.refuse_bind fun _ => Commits.modify_bind ?_)
  obtain ⟨v, hv, hvkey⟩ := hseen.exists_row
  have hvid : v.id = shown.id := congrArg UtteranceKey.id hvkey
  have hvsession : v.sessionId = u.sessionId :=
    congrArg UtteranceKey.sessionId (hvkey.trans hshown)
  have hvsequence : v.sequence = sequence :=
    (congrArg UtteranceKey.sequence (hvkey.trans hshown)).trans hsequence
  have hbound : Auxiliary t (t.editFacts (binds factKey shown.id) fun body =>
      { body with binding := some (shown.id, sequence) }) := by
    rw [← hvid, ← hvsequence]
    exact .bind hv (hsession.trans (hus.symm.trans hvsession.symm))
  refine Commits.ite (fun _ => Commits.pure (hwrites.tail hbound)) fun _ => ?_
  exact ((applyTranslationInboxToBoundUtterance_writes f sequence).from (hwrites.tail hbound))

theorem reconcileItem_writes (live : Bool) (f : Fact) :
    Leads Auxiliaries (reconcileItem toLowercase live f) := by
  refine Leads.bind Leads.get fun s => Leads.bind (Leads.check _) fun candidates => ?_
  split
  · exact Leads.pure _
  · refine Leads.bind (Leads.attempt (bindWithinSavepoint_writes toLowercase _ _)) fun result => ?_
    cases result with
    | ok utterance => exact Leads.pure _
    | error e => exact Leads.ite (Leads.pure _) (Leads.throw e)

theorem reconcileItems_writes (sessionId : String) (items : List Fact) :
    Leads Auxiliaries (reconcileItems toLowercase sessionId items) :=
  Leads.bind Leads.get fun _ => Leads.bind (Leads.check _) fun live =>
    Leads.collect (reconcileItem_writes toLowercase live) _

theorem trySequences_writes (f : Fact) :
    ∀ sequences : List ℕ, Leads Auxiliaries (trySequences toLowercase f sequences)
  | [] => Leads.pure _
  | sequence :: rest => by
      refine Leads.bind (Leads.attempt (bindWithinSavepoint_writes toLowercase f.key sequence))
        fun result => ?_
      cases result with
      | ok utterance => exact Leads.pure _
      | error e => exact Leads.ite (trySequences_writes f rest) (Leads.throw e)

theorem settleItems_writes (items : List Fact) :
    Leads Auxiliaries (settleItems toLowercase items) :=
  Leads.collect (fun f => Leads.bind Leads.get fun _ => Leads.bind (Leads.check _) fun _ =>
    trySequences_writes toLowercase f _) _

/-! ### The facts of a row -/

theorem applyEach_writes (utteranceId : String) (sequence : I64) :
    ∀ items : List Fact, Leads Auxiliaries (applyEach utteranceId sequence items)
  | [] => Leads.pure _
  | f :: rest =>
      Leads.bind (applyTranslationInboxToBoundUtterance_writes f sequence) fun _ =>
        Leads.bind Leads.get fun _ =>
          Leads.ite (Leads.pure _) (applyEach_writes utteranceId sequence rest)

theorem applyBoundItems_writes (utteranceId : String) (sequence : I64) :
    Leads Auxiliaries (applyBoundItems utteranceId sequence) :=
  Leads.bind Leads.get fun _ => applyEach_writes utteranceId sequence _

theorem detachItem_writes (f : Fact) : Leads Auxiliaries (detachItem f) := by
  refine Leads.bind (Leads.require _ _) fun binding => Leads.bind Leads.get fun _ => ?_
  refine Leads.bind (Leads.refuse _ _) fun _ => Leads.bind (Leads.modify fun s => ?_) fun _ => ?_
  · exact .single .unbind
  refine Leads.bind Leads.get fun s => ?_
  cases s.utteranceById binding.1 with
  | none => exact Leads.pure _
  | some canonical =>
      refine Leads.ite (Leads.pure _) ?_
      dsimp only
      split
      · exact applyTranslationInboxToBoundUtterance_writes _ _
      · exact withdrawn_lane_writes _ _ _ _ _

theorem revalidateBoundItems_writes (utteranceId : String) (sequence : I64) :
    Leads Auxiliaries (revalidateBoundItems toLowercase utteranceId sequence) := by
  refine Leads.bind Leads.get fun s => Leads.bind (Leads.require _ _) fun canonical => ?_
  refine Leads.forM (fun f => ?_) _
  refine Leads.bind Leads.get fun _ => Leads.bind (Leads.check _) fun placed => ?_
  exact Leads.ite (Leads.pure _) (Leads.bind (detachItem_writes f) fun _ => Leads.pure _)

/-! ### A fact that arrives -/

theorem writeFact_writes {factKey : FactKey} {input : NewRealtimeTranslationInboxItem}
    {translation : Option (String × UtteranceCompletion)}
    (hactive : s.captureSessionIsActive factKey.sessionId = .ok true)
    (h : ∀ f ∈ s.inbox, f.toFactKey = factKey → f.completion ≠ some .complete) :
    Commits (fun _ t => Auxiliaries s t) (writeFact factKey input translation) s := by
  refine checked_bind fun laneIndex _ => checked_bind fun startMs _ => ?_
  refine checked_bind fun endMs _ => ?_
  exact Commits.modify (.single (.fact hactive h rfl))

theorem requireFact_leads (factKey : FactKey) (message : String) :
    Leads Auxiliaries (requireFact factKey message) :=
  Leads.bind Leads.get fun _ => Leads.require _ _

theorem reviseBoundItem_writes (factKey : FactKey) (f : Fact) :
    Leads Auxiliaries (reviseBoundItem toLowercase factKey f) := by
  unfold reviseBoundItem
  cases f.binding with
  | none => exact Leads.pure _
  | some binding =>
      refine Leads.bind Leads.get fun s => ?_
      cases s.utteranceBySequence factKey.sessionId binding.2 with
      | none =>
          refine Leads.bind (Leads.modify fun s => .single .unbind) fun _ => ?_
          exact Leads.bind (requireFact_leads _ _) fun _ => Leads.pure _
      | some canonical =>
          refine Leads.bind (Leads.check _) fun placed => Leads.bind ?_ fun elsewhere => ?_
          · exact Leads.ite (Leads.check _) (Leads.pure _)
          · refine Leads.ite ?_ ?_
            · refine Leads.bind (detachItem_writes f) fun detached => ?_
              exact Leads.bind (requireFact_leads _ _) fun _ => Leads.pure _
            · refine Leads.bind (applyTranslationInboxToBoundUtterance_writes f _) fun shown => ?_
              refine Leads.bind Leads.get fun s => Leads.ite ?_ (Leads.pure _)
              exact Leads.bind (requireFact_leads _ _) fun _ => Leads.pure _

theorem bindArrived_writes (factKey : FactKey) (persisted : Persistence) :
    Leads Auxiliaries (bindArrived toLowercase factKey persisted) := by
  refine Leads.ite ?_ (Leads.pure _)
  refine Leads.bind Leads.get fun s => Leads.bind (Leads.check _) fun candidates => ?_
  split
  · exact Leads.pure _
  · refine Leads.bind (Leads.attempt (bindWithinSavepoint_writes toLowercase _ _)) fun result => ?_
    cases result with
    | ok shown => exact Leads.bind (requireFact_leads _ _) fun _ => Leads.pure _
    | error e => exact Leads.ite (Leads.pure _) (Leads.throw e)

theorem fact_eq_some {f : Fact} (hf : f ∈ s.inbox) : s.fact f.toFactKey = some f :=
  s.facts.find?_eq_some hf

theorem upsertInboxItem_writes {input : NewRealtimeTranslationInboxItem}
    (hactive : s.captureSessionIsActive input.key.sessionId = .ok true)
    (translation : Option (String × UtteranceCompletion)) :
    Commits (fun _ t => Auxiliaries s t) (upsertInboxItem toLowercase input translation) s := by
  refine checked_bind fun factKey hkey => Commits.get_bind (Commits.refuse_bind fun hfinal => ?_)
  rw [← factKey_sessionId hkey] at hactive
  refine Commits.ite (fun hchanged => ?_) fun _ => ?_
  · refine Commits.bind ((writeFact_writes hactive fun f hf hkey hcomplete => ?_).mono
      fun _ t ht => ?_)
    · rw [hchanged, ← hkey, fact_eq_some hf] at hfinal
      simp [hcomplete] at hfinal
    · refine Leads.from (R := Auxiliaries) ?_ ht
      refine Leads.bind (requireFact_leads _ _) fun f => ?_
      exact Leads.bind (reviseBoundItem_writes toLowercase factKey f) fun persisted =>
        bindArrived_writes toLowercase factKey persisted
  · have hrest : Leads Auxiliaries
        (requireFact factKey s!"translation inbox {shownKey (canonicalKey input.key)}" >>=
          fun f => bindArrived toLowercase factKey ⟨f, none, none, none, false⟩) :=
      Leads.bind (requireFact_leads _ _) fun f => bindArrived_writes toLowercase factKey _
    exact hrest s

end Placing

end Lanes
end ZuTalk
