/-
# Waiting is given up at once

`mark_waiting_translation_variants_unavailable` goes through the waiting lanes of a session one by
one, and each goes the way of any lane: the row is looked up, the lane is decided on, written, and
the row shown.  In every state the store can be in none of this can fail, and what comes of it is
what one statement over the table of lanes would do.
-/

import ZuTalk.Lanes.Corrections

namespace ZuTalk
namespace Lanes

open Table UtteranceBody Transactions Machine

variable {s t w : CaptureStore} {u : Utterance} {v : Variant} {sessionId : String}
variable {selects selects' : I64 × Language → Bool}

/-! ### One statement -/

/-- A translation lane that waits. -/
def Variant.waits (v : Variant) : Bool := v.role = .translation && v.payload = .waiting

/-- A lane that is given up. -/
def Variant.givenUp (v : Variant) : Variant :=
  { v with payload := .unavailable, revision := v.revision + 1 }

/-- The row of a session with some of its waiting lanes given up. -/
def giveUp (sessionId : String) (selects : I64 × Language → Bool) (u : Utterance) : Utterance :=
  let selected := fun v : Variant => v.waits && selects (u.sequence, v.language)
  if u.sessionId = sessionId then
    { u with toUtteranceBody := u.setVariants selected Variant.givenUp }
  else u

/-- Some of the waiting lanes of a session are given up, and nothing else is. -/
structure GivesUp (sessionId : String) (selects : I64 × Language → Bool) (s t : CaptureStore) :
    Prop where
  utterances : t.utterances = s.utterances.map (giveUp sessionId selects)
  inbox : t.inbox = s.inbox
  runs : t.runs = s.runs
  sessionSpeakers : t.sessionSpeakers = s.sessionSpeakers
  overrides : t.overrides = s.overrides
  mutations : t.mutations = s.mutations
  purgeJobs : t.purgeJobs = s.purgeJobs

theorem setVariants_congr {selects selects' : Variant → Bool} {set : Variant → Variant}
    {b : UtteranceBody} (h : ∀ v ∈ b.variants, selects v = selects' v) :
    b.setVariants selects set = b.setVariants selects' set := by
  have hvariants : Table.update selects set b.variants = Table.update selects' set b.variants :=
    List.map_congr_left fun v hv => by rw [h v hv]
  unfold UtteranceBody.setVariants
  rw [hvariants]

theorem setVariants_eq_self {selects : Variant → Bool} {set : Variant → Variant}
    {b : UtteranceBody} (h : ∀ v ∈ b.variants, selects v = false) :
    b.setVariants selects set = b := by
  have hvariants : Table.update selects set b.variants = b.variants := by
    unfold Table.update
    refine (List.map_congr_left fun v hv => ?_).trans (List.map_id _)
    rw [h v hv]
    rfl
  unfold UtteranceBody.setVariants
  rw [hvariants]

theorem giveUp_eq_self (h : ∀ v ∈ u.variants, v.waits = true →
    selects (u.sequence, v.language) = false) : giveUp sessionId selects u = u := by
  unfold giveUp
  dsimp only
  split
  · rw [setVariants_eq_self fun v hv => ?_]
    cases hwaits : v.waits with
    | false => rfl
    | true => exact h v hv hwaits
  · rfl

/-- What is given up does not wait any more. -/
theorem giveUp_giveUp (u : Utterance) : giveUp sessionId selects' (giveUp sessionId selects u) =
    giveUp sessionId (fun e => selects e || selects' e) u := by
  unfold giveUp
  by_cases hsession : u.sessionId = sessionId
  · simp only [hsession, if_true]
    congr 1
    unfold UtteranceBody.setVariants Table.update
    dsimp only
    rw [List.map_map]
    congr 1
    refine List.map_congr_left fun v _ => ?_
    rw [Function.comp_apply]
    have hgone : v.givenUp.waits = false := by simp [Variant.waits, Variant.givenUp]
    by_cases hwaits : v.waits = true
    · by_cases hselects : selects (u.sequence, v.language) = true
      · simp [hwaits, hselects, hgone]
      · simp [hwaits, hselects]
    · simp [hwaits]
  · simp only [hsession, if_false]

theorem GivesUp.trans (hst : GivesUp sessionId selects s t) (htw : GivesUp sessionId selects' t w) :
    GivesUp sessionId (fun e => selects e || selects' e) s w where
  utterances := by
    rw [htw.utterances, hst.utterances, List.map_map]
    exact List.map_congr_left fun u _ => giveUp_giveUp u
  inbox := htw.inbox.trans hst.inbox
  runs := htw.runs.trans hst.runs
  sessionSpeakers := htw.sessionSpeakers.trans hst.sessionSpeakers
  overrides := htw.overrides.trans hst.overrides
  mutations := htw.mutations.trans hst.mutations
  purgeJobs := htw.purgeJobs.trans hst.purgeJobs

/-! ### One lane -/

/-- A lane that waits may be given up. -/
theorem laneDecision_of_waits (hu : Owned u.toUtteranceBody) (hv : v ∈ u.variants)
    (hwaits : v.waits = true) :
    (u.hasSourceLane && u.sourceLanguage = v.language) = false ∧
      laneDecision (u.variant v.language) .unavailable .finalIsImmutable = .write := by
  simp only [Variant.waits, Bool.and_eq_true, decide_eq_true_eq] at hwaits
  refine ⟨?_, ?_⟩
  · cases hlane : u.hasSourceLane with
    | false => rfl
    | true =>
        obtain ⟨x, hx, hrole⟩ := hu.exists_source hlane
        refine decide_eq_false fun hlanguage => ?_
        have hsame := eq_of_key_eq hu.languages hx hv ((hu.source x hx hrole).1.trans hlanguage)
        rw [hsame, hwaits.1] at hrole
        cases hrole
  · rw [hu.variant_eq_some hv]
    simp [laneDecision, hwaits, Variant.isFinalTranslation, Payload.isSettled]

/-- A lane that waits, written. -/
theorem upsertTranslation_eq_givenUp {b : UtteranceBody} (hb : Owned b) (hv : v ∈ b.variants)
    (hwaits : v.waits = true) : b.upsertTranslation v.language .unavailable =
      b.setVariants (fun w => w.waits && w.language = v.language) Variant.givenUp := by
  have hany : (b.variants.any fun w => w.language = v.language) = true :=
    List.any_eq_true.2 ⟨v, hv, decide_eq_true rfl⟩
  have hrole : v.role = .translation := by
    simp only [Variant.waits, Bool.and_eq_true, decide_eq_true_eq] at hwaits
    exact hwaits.1
  unfold UtteranceBody.upsertTranslation
  rw [if_pos hany]
  unfold UtteranceBody.setVariants Table.update
  congr 1
  refine List.map_congr_left fun w hw => ?_
  by_cases hlanguage : w.language = v.language
  · obtain rfl := eq_of_key_eq hb.languages hw hv hlanguage
    simp [hwaits, Variant.givenUp, hrole]
  · simp [hlanguage]

/-- The row of one lane that waits, written. -/
theorem editUtterance_eq_giveUp (hu : u ∈ s.utterances) (howned : Owned u.toUtteranceBody)
    (hv : v ∈ u.variants) (hwaits : v.waits = true) :
    (s.editUtterance u.id (·.upsertTranslation v.language .unavailable)).utterances =
      s.utterances.map (giveUp u.sessionId fun e => e = (u.sequence, v.language)) := by
  refine List.map_congr_left fun x hx => ?_
  by_cases hid : x.id = u.id
  · obtain rfl := eq_of_id_eq hx hu hid
    rw [if_pos (decide_eq_true rfl), giveUp, if_pos rfl]
    change ({ x with toUtteranceBody := x.upsertTranslation v.language .unavailable } :
      Utterance) = _
    rw [upsertTranslation_eq_givenUp howned hv hwaits]
    simp
  · rw [if_neg (by simpa using hid)]
    symm
    unfold giveUp
    dsimp only
    split
    · rename_i hsession
      rw [setVariants_eq_self fun y _ => ?_]
      refine Bool.and_eq_false_iff.2 (.inr (decide_eq_false fun heq => hid ?_))
      have hsequence : x.sequence = u.sequence := congrArg Prod.fst heq
      rw [eq_of_key_eq s.sequences hx hu (Prod.ext hsession hsequence)]
    · rfl

/-- **One lane that waits is given up**, without a way to fail. -/
theorem upsertTranslationVariant_eq_ok (hs : Sound s) (hu : u ∈ s.utterances) (hv : v ∈ u.variants)
    (hwaits : v.waits = true) :
    ∃ shown t, upsertTranslationVariant u.sessionId u.sequence v.language .unavailable
        .finalIsImmutable s = .ok shown t ∧
      Sound t ∧ GivesUp u.sessionId (fun e => e = (u.sequence, v.language)) s t := by
  obtain ⟨hnot, hdecision⟩ := laneDecision_of_waits (hs.1 u hu) hv hwaits
  have hedit := written_of_edit hu (·.upsertTranslation v.language .unavailable)
  have hwrite : Write none s
      (s.editUtterance u.id (·.upsertTranslation v.language .unavailable)) := by
    rw [hedit]
    exact .auxiliary (.row hu (.lane hnot hdecision))
  have hsound := hwrite.sound hs
  have hmem := mem_written hu (u.upsertTranslation v.language .unavailable) false
  rw [← hedit] at hmem
  have hlane : upsertTranslationVariant u.sessionId u.sequence v.language .unavailable
      .finalIsImmutable s = writeTranslation u v.language .unavailable s := by
    change (require (s.utteranceBySequence u.sessionId u.sequence) _ >>= _) s = _
    rw [require_bind_some (utteranceBySequence_of_mem hu), refuse_bind_false hnot, hdecision]
  have hshown := reloaded_eq_ok hmem (hsound.2.applyUtteranceOverrides hmem)
  exact ⟨_, _, hlane.trans hshown, hsound, editUtterance_eq_giveUp hu (hs.1 u hu) hv hwaits,
    rfl, rfl, rfl, rfl, rfl, rfl⟩

/-! ### The lanes of a session -/

theorem mem_waiting {e : I64 × Language} : e ∈ s.waiting sessionId ↔
    ∃ u ∈ s.utterances, u.sessionId = sessionId ∧ ∃ v ∈ u.variants, v.waits = true ∧
      (u.sequence, v.language) = e := by
  unfold CaptureStore.waiting
  rw [List.mem_mergeSort, List.mem_flatMap]
  constructor
  · rintro ⟨u, hu, he⟩
    obtain ⟨hu, hsession⟩ := List.mem_filter.1 hu
    obtain ⟨v, hv, heq⟩ := List.mem_map.1 he
    obtain ⟨hv, hwaits⟩ := List.mem_filter.1 hv
    exact ⟨u, hu, of_decide_eq_true hsession, v, hv, hwaits, heq⟩
  · rintro ⟨u, hu, hsession, v, hv, hwaits, heq⟩
    refine ⟨u, List.mem_filter.2 ⟨hu, decide_eq_true hsession⟩, List.mem_map.2 ⟨v, ?_, heq⟩⟩
    exact List.mem_filter.2 ⟨hv, hwaits⟩

/-- A lane is gone through once. -/
theorem nodup_waiting (hs : AllOwned s) (sessionId : String) : (s.waiting sessionId).Nodup := by
  unfold CaptureStore.waiting
  refine (List.mergeSort_perm _ _).nodup_iff.2 (List.nodup_flatMap.2 ⟨fun u hu => ?_, ?_⟩)
  · have hlanguages := (hs u (List.mem_filter.1 hu).1).languages
    refine List.Nodup.map_on (fun v hv w hw heq => ?_) ((List.Nodup.of_map _ hlanguages).filter _)
    exact eq_of_key_eq hlanguages (List.mem_filter.1 hv).1 (List.mem_filter.1 hw).1
      (congrArg Prod.snd heq)
  · refine List.Pairwise.imp_of_mem ?_ ((List.Nodup.of_map _ s.ids).filter _)
    intro u w hu hw hne e heu hew
    obtain ⟨hu, husession⟩ := List.mem_filter.1 hu
    obtain ⟨hw, hwsession⟩ := List.mem_filter.1 hw
    obtain ⟨v, -, rfl⟩ := List.mem_map.1 heu
    obtain ⟨x, -, heq⟩ := List.mem_map.1 hew
    refine hne (eq_of_key_eq s.sequences hu hw (Prod.ext ?_ (congrArg Prod.fst heq).symm))
    exact (of_decide_eq_true husession).trans (of_decide_eq_true hwsession).symm

/-- A lane that is not given up yet still waits. -/
theorem exists_waits_of_givesUp (h : GivesUp sessionId selects s t) {e : I64 × Language}
    (he : e ∈ s.waiting sessionId) (hselects : selects e = false) :
    ∃ u ∈ t.utterances, u.sessionId = sessionId ∧ ∃ v ∈ u.variants, v.waits = true ∧
      (u.sequence, v.language) = e := by
  obtain ⟨u, hu, hsession, v, hv, hwaits, rfl⟩ := mem_waiting.1 he
  have hmem : giveUp sessionId selects u ∈ t.utterances := by
    rw [h.utterances]
    exact List.mem_map_of_mem hu
  unfold giveUp at hmem
  rw [if_pos hsession] at hmem
  refine ⟨_, hmem, hsession, v, mem_setVariants.2 ⟨v, hv, ?_⟩, hwaits, rfl⟩
  rw [if_neg (by simp [hselects])]

theorem GivesUp.congr (h : GivesUp sessionId selects s t)
    (hsame : ∀ e ∈ s.waiting sessionId, selects e = selects' e) :
    GivesUp sessionId selects' s t := by
  refine ⟨h.utterances.trans (List.map_congr_left fun u hu => ?_), h.inbox, h.runs,
    h.sessionSpeakers, h.overrides, h.mutations, h.purgeJobs⟩
  unfold giveUp
  by_cases hsession : u.sessionId = sessionId
  · rw [if_pos hsession, if_pos hsession]
    refine congrArg (Utterance.mk u.toUtteranceKey) (setVariants_congr fun v hv => ?_)
    cases hwaits : v.waits with
    | false => rfl
    | true =>
        rw [hsame _ (mem_waiting.2 ⟨u, hu, hsession, v, hv, hwaits, rfl⟩)]
  · rw [if_neg hsession, if_neg hsession]

theorem GivesUp.none (s : CaptureStore) : GivesUp sessionId (fun _ => false) s s := by
  refine ⟨?_, rfl, rfl, rfl, rfl, rfl, rfl⟩
  refine ((List.map_congr_left fun u _ => ?_).trans (List.map_id _)).symm
  exact giveUp_eq_self fun _ _ _ => rfl

/-- On the way through the lanes that wait, what is left of them. -/
structure Left (sessionId : String) (s : CaptureStore) (rest : List (I64 × Language))
    (t : CaptureStore) : Prop where
  sound : Sound t
  nodup : rest.Nodup
  waiting : ∀ e ∈ rest, e ∈ s.waiting sessionId
  givesUp : GivesUp sessionId (fun e => !rest.contains e) s t

theorem left_waiting (hs : Sound s) (sessionId : String) :
    Left sessionId s (s.waiting sessionId) s where
  sound := hs
  nodup := nodup_waiting hs.1 sessionId
  waiting _ he := he
  givesUp := (GivesUp.none s).congr fun e he => by simp [he]

/-- One round of `mark_waiting_translation_variants_unavailable`. -/
def giveUpOne (sessionId : String) (entry : I64 × Language) : Tx PUnit := do
  let _ ← upsertTranslationVariant sessionId entry.1 entry.2 .unavailable .finalIsImmutable
  pure ⟨⟩

theorem Left.round {e : I64 × Language} {rest : List (I64 × Language)}
    (h : Left sessionId s (e :: rest) t) :
    ∃ w, giveUpOne sessionId e t = .ok PUnit.unit w ∧ Left sessionId s rest w := by
  obtain ⟨hnotin, hnodup⟩ := List.nodup_cons.1 h.nodup
  obtain ⟨hfirst, hrest⟩ := List.forall_mem_cons.1 h.waiting
  obtain ⟨u, hu, rfl, v, hv, hwaits, rfl⟩ := exists_waits_of_givesUp h.givesUp hfirst (by simp)
  obtain ⟨shown, w, hw, hsound, hgives⟩ := upsertTranslationVariant_eq_ok h.sound hu hv hwaits
  refine ⟨w, ?_, hsound, hnodup, hrest, (h.givesUp.trans hgives).congr fun e _ => ?_⟩
  · change EStateM.bind _ _ t = _
    rw [EStateM.bind, hw]
    rfl
  · by_cases heq : e = (u.sequence, v.language)
    · simp [heq, hnotin]
    · simp [heq]

/-- **Waiting is given up at once.**  In every state the store can be in, where the session has a
provenance, the call goes through and gives up all lanes of the session that wait, and it does
nothing else. -/
theorem waiting_is_given_up {toLowercase : Char → List Char} {ops : List Op}
    (h : run (step toLowercase) emptyStore ops = some s)
    (hsession : requireNonempty "session_id" sessionId = .ok ())
    (hprovenance : s.ensureRealtimeSessionProvenance sessionId = .ok ()) :
    ∃ t, markWaitingUnavailable sessionId s = .ok PUnit.unit t ∧
      GivesUp sessionId (fun _ => true) s t := by
  obtain ⟨t, ht, hleft⟩ := forM_eq_ok (I := Left sessionId s) (f := giveUpOne sessionId)
    (fun _ _ _ h => h.round) (left_waiting (sound_of_run h) sessionId)
  refine ⟨t, ?_, hleft.givesUp.congr fun e _ => by simp⟩
  unfold markWaitingUnavailable
  rw [checked_bind_ok hsession]
  change (check (s.ensureRealtimeSessionProvenance sessionId) >>= _) s = _
  rw [check_bind_ok hprovenance]
  exact ht

theorem waiting_is_given_up_heard : ∃ t,
    markWaitingUnavailable "n" heardStore = .ok PUnit.unit t ∧
      GivesUp "n" (fun _ => true) heardStore t :=
  waiting_is_given_up run_heard rfl (by decide +kernel)

end Lanes
end ZuTalk
