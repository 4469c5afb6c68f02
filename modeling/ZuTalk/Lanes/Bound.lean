/-
# Facts over whole runs

A translation fact is never lost while its session stands, and one that is Final says the same ever
after; only what row it is bound to may change.  A fact that is bound is bound to a row that is
there, of its own session and with the sequence it was bound to.
-/

import ZuTalk.Lanes.Rows

namespace ZuTalk
namespace Lanes

open Capture (UtteranceCompletion)
open Table Machine

variable {s t : CaptureStore} {u : Utterance} {f g : Fact}
variable {creates : Option String}

/-! ### One write -/

/-- A fact keeps its key, and what it says if it is Final. -/
structure FactGoes (f g : Fact) : Prop where
  key : g.toFactKey = f.toFactKey
  revision : f.revision ≤ g.revision
  final : f.completion = some .complete → { g with binding := f.binding } = f

theorem FactGoes.refl (f : Fact) : FactGoes f f := ⟨rfl, le_refl _, fun _ => rfl⟩

theorem FactGoes.trans {h : Fact} (hfg : FactGoes f g) (hgh : FactGoes g h) : FactGoes f h := by
  refine ⟨hgh.key.trans hfg.key, hfg.revision.trans hgh.revision, fun hcomplete => ?_⟩
  have hsame := hfg.final hcomplete
  have hgcomplete : g.completion = some .complete := by
    rw [← hsame] at hcomplete
    exact hcomplete
  have hsame' := hgh.final hgcomplete
  rw [← hsame'] at hsame
  exact hsame

/-- A statement that sets bindings, and nothing else. -/
theorem factGoes_editBindings (selects : Fact → Bool) (binding : Option (String × I64))
    (hf : f ∈ s.inbox) :
    ∃ g ∈ (s.editFacts selects fun body => { body with binding := binding }).inbox,
      FactGoes f g := by
  refine ⟨_, mem_update_of_mem hf, ?_⟩
  split
  · exact ⟨rfl, le_refl _, fun _ => rfl⟩
  · exact .refl f

theorem inbox_written (u : Utterance) (b : UtteranceBody) (projects : Bool) :
    (s.written u b projects).inbox = s.inbox := by
  unfold CaptureStore.written
  split <;> rfl

theorem factGoes_writtenFact {key : FactKey} {new : FactBody}
    (hincomplete : ∀ f ∈ s.inbox, f.toFactKey = key → f.completion ≠ some .complete)
    (hf : f ∈ s.inbox) : ∃ g ∈ (s.writtenFact key new).inbox, FactGoes f g := by
  unfold CaptureStore.writtenFact CaptureStore.upsertFact
  split
  · refine ⟨_, mem_update_of_mem hf, ?_⟩
    split
    · rename_i hkey
      exact ⟨rfl, Nat.le_succ _,
        fun hcomplete => absurd hcomplete (hincomplete f hf (of_decide_eq_true hkey))⟩
    · exact .refl f
  · exact ⟨f, List.mem_append_left _ hf, .refl f⟩

/-- **What becomes of a fact.** -/
theorem Write.factGoes (h : Write creates s t) (hf : f ∈ s.inbox) :
    ∃ g ∈ t.inbox, FactGoes f g := by
  have hsame : ∀ {w : CaptureStore}, w.inbox = s.inbox → ∃ g ∈ w.inbox, FactGoes f g :=
    fun hw => ⟨f, hw ▸ hf, .refl f⟩
  cases h with
  | auxiliary write =>
      cases write with
      | row mem write => exact hsame (inbox_written _ _ _)
      | collect mem empty unedited => exact factGoes_editBindings _ none hf
      | bind mem session => exact factGoes_editBindings _ _ hf
      | unbind => exact factGoes_editBindings _ none hf
      | fact active incomplete unbound => exact factGoes_writtenFact incomplete hf
  | row mem write => exact hsame (inbox_written _ _ _)
  | insert new inserted speaker active =>
      exact hsame ((inbox_written _ _ _).trans (insertUtterance_eq_ok inserted).2.2.1)
  | delete mem incomplete unread active => exact factGoes_editBindings _ none hf
  | capture created new inserted => exact hsame (insertRun_eq_ok inserted).inbox
  | stage | cancel | correct | runs | speak | jobs => exact hsame rfl

/-! ### Bindings -/

/-- A fact that is bound is bound to a row of its session. -/
def Bound (s : CaptureStore) : Prop :=
  ∀ f ∈ s.inbox, ∀ binding, f.binding = some binding →
    ∃ u ∈ s.utterances, u.toUtteranceKey = ⟨binding.1, f.sessionId, binding.2⟩

theorem exists_key_written {w : Utterance} (hu : u ∈ s.utterances) (hw : w ∈ s.utterances)
    (b : UtteranceBody) (projects : Bool) :
    ∃ v ∈ (s.written u b projects).utterances, v.toUtteranceKey = w.toUtteranceKey := by
  by_cases hid : w.id = u.id
  · obtain rfl := eq_of_id_eq hw hu hid
    exact ⟨_, mem_written hu b projects, rfl⟩
  · exact ⟨w, mem_written_of_ne hw hid, rfl⟩

/-- Rows that stay keep the facts that are bound to them. -/
theorem Bound.of_rows (hs : Bound s) (hinbox : t.inbox = s.inbox)
    (hrows : ∀ u ∈ s.utterances, ∃ v ∈ t.utterances, v.toUtteranceKey = u.toUtteranceKey) :
    Bound t := by
  intro f hf binding hbinding
  rw [hinbox] at hf
  obtain ⟨u, hu, hkey⟩ := hs f hf binding hbinding
  obtain ⟨v, hv, hvkey⟩ := hrows u hu
  exact ⟨v, hv, hvkey.trans hkey⟩

theorem Bound.of_same (hs : Bound s) (hinbox : t.inbox = s.inbox)
    (hrows : t.utterances = s.utterances) : Bound t :=
  hs.of_rows hinbox fun u hu => ⟨u, hrows ▸ hu, rfl⟩

/-- Facts whose bindings are set, in tables whose rows stay. -/
theorem Bound.editBindings (hs : Bound s) {selects : Fact → Bool} {binding : Option (String × I64)}
    (hset : ∀ f ∈ s.inbox, selects f = true → ∀ bound, binding = some bound →
      ∃ u ∈ s.utterances, u.toUtteranceKey = ⟨bound.1, f.sessionId, bound.2⟩) :
    Bound (s.editFacts selects fun body => { body with binding := binding }) := by
  intro f hf bound hbound
  obtain ⟨g, hg, ⟨hselects, rfl⟩ | ⟨-, rfl⟩⟩ := mem_update hf
  · exact hset g hg hselects bound hbound
  · exact hs f hg bound hbound

theorem Bound.deleteUtterance (hs : Bound s) (id : String) : Bound (s.deleteUtterance id) := by
  intro f hf binding hbinding
  obtain ⟨g, hg, ⟨-, rfl⟩ | ⟨hother, rfl⟩⟩ := mem_update hf
  · cases hbinding
  · obtain ⟨u, hu, hkey⟩ := hs f hg binding hbinding
    refine ⟨u, List.mem_filter.2 ⟨hu, ?_⟩, hkey⟩
    have hid : u.id = binding.1 := congrArg UtteranceKey.id hkey
    have hne : binding.1 ≠ id := by simpa [Fact.boundUtteranceId, hbinding] using hother
    simpa [hid] using hne

theorem Bound.writtenFact (hs : Bound s) {key : FactKey} {new : FactBody}
    (hunbound : new.binding = none) : Bound (s.writtenFact key new) := by
  intro f hf binding hbinding
  unfold CaptureStore.writtenFact CaptureStore.upsertFact at hf ⊢
  split at hf
  · rename_i hkey
    rw [dif_pos hkey]
    obtain ⟨g, hg, ⟨-, rfl⟩ | ⟨-, rfl⟩⟩ := mem_update hf
    · exact hs g hg binding hbinding
    · exact hs f hg binding hbinding
  · rename_i hkey
    rw [dif_neg hkey]
    rcases List.mem_append.1 hf with hold | hnew
    · exact hs f hold binding hbinding
    · rw [List.mem_singleton.1 hnew] at hbinding
      rw [hunbound] at hbinding
      cases hbinding

theorem Auxiliary.bound (h : Auxiliary s t) (hs : Bound s) : Bound t := by
  cases h with
  | row mem write =>
      exact hs.of_rows (inbox_written _ _ _) fun u hu => exists_key_written mem hu _ _
  | collect mem empty unedited => exact hs.deleteUtterance _
  | @bind key u mem session =>
      refine hs.editBindings fun f hf hselects bound hbound => ?_
      obtain rfl := Option.some.inj hbound
      obtain ⟨hkey, -⟩ := Bool.and_eq_true_iff.1 hselects
      have hfkey : f.toFactKey = key := of_decide_eq_true hkey
      refine ⟨u, mem, ?_⟩
      rw [hfkey, session]
  | unbind => exact hs.editBindings fun f hf hselects bound hbound => by cases hbound
  | fact active incomplete unbound => exact hs.writtenFact unbound

theorem Write.bound (h : Write creates s t) (hs : Bound s) : Bound t := by
  cases h with
  | auxiliary write => exact write.bound hs
  | row mem write =>
      exact hs.of_rows (inbox_written _ _ _) fun u hu => exists_key_written mem hu _ _
  | @insert input sequence startMs endMs u w new inserted speaker active =>
      obtain ⟨hrows, -, hinbox, -⟩ := insertUtterance_eq_ok inserted
      refine hs.of_rows ((inbox_written _ _ _).trans hinbox) fun v hv => ?_
      refine exists_key_written ?_ ?_ _ _
      · rw [hrows]
        exact List.mem_append_right _ (.head _)
      · rw [hrows]
        exact List.mem_append_left _ hv
  | delete mem incomplete unread active => exact hs.deleteUtterance _
  | capture created new inserted =>
      exact hs.of_same (insertRun_eq_ok inserted).inbox (insertRun_eq_ok inserted).utterances
  | stage | cancel => exact hs.of_same rfl rfl
  | correct mem id lane settled role utteranceRevision variantRevision edited =>
      exact hs.of_same rfl rfl
  | runs | speak | jobs => exact hs.of_same rfl rfl

theorem Bound.withoutSpeaker (hs : Bound s) (id : String) : Bound (s.withoutSpeaker id) := by
  refine hs.of_rows rfl fun u hu => ?_
  obtain ⟨v, hv, hkey, -⟩ := mem_of_withoutSpeaker hu id
  exact ⟨v, hv, hkey⟩

theorem Bound.withoutSession (hs : Bound s) (sessionId : String) :
    Bound (s.withoutSession sessionId) := by
  intro f hf binding hbinding
  have hf := List.mem_filter.1 hf
  obtain ⟨g, hg, ⟨-, rfl⟩ | ⟨-, rfl⟩⟩ := mem_update hf.1
  · cases hbinding
  · obtain ⟨u, hu, hkey⟩ := hs f hg binding hbinding
    have hsession : u.sessionId = f.sessionId := congrArg UtteranceKey.sessionId hkey
    exact ⟨u, List.mem_filter.2 ⟨hu, by simpa [hsession] using hf.2⟩, hkey⟩

/-! ### Every run -/

/-- The facts of a session stand, and go on. -/
def FactsStand (sessionId : String) (s t : CaptureStore) : Prop :=
  ∀ f ∈ s.inbox, f.sessionId = sessionId → ∃ g ∈ t.inbox, FactGoes f g

theorem FactsStand.refl (sessionId : String) (s : CaptureStore) : FactsStand sessionId s s :=
  fun f hf _ => ⟨f, hf, .refl f⟩

theorem FactsStand.trans {sessionId : String} {w : CaptureStore} (hst : FactsStand sessionId s t)
    (htw : FactsStand sessionId t w) : FactsStand sessionId s w := by
  intro f hf hsession
  obtain ⟨g, hg, hgoes⟩ := hst f hf hsession
  have hgsession : g.sessionId = sessionId := (congrArg FactKey.sessionId hgoes.key).trans hsession
  obtain ⟨h, hh, hgoes'⟩ := htw g hg hgsession
  exact ⟨h, hh, hgoes.trans hgoes'⟩

theorem factsStand_withoutSession {sessionId other : String} (hne : other ≠ sessionId) :
    FactsStand sessionId s (s.withoutSession other) := by
  intro f hf hsession
  obtain ⟨g, hg, hgoes⟩ := factGoes_editBindings (fun f => f.boundUtteranceId.any
    ((s.utterances.filter (·.sessionId = other)).map (·.id)).contains) none hf
  have hgsession : g.sessionId = sessionId := (congrArg FactKey.sessionId hgoes.key).trans hsession
  exact ⟨g, List.mem_filter.2 ⟨hg, by simpa [hgsession] using hne.symm⟩, hgoes⟩

section Runs

variable {toLowercase : Char → List Char} {ops more : List Op} {sessionId : String}

theorem step_factsStand {op : Op} (h : step toLowercase s op = some t)
    (hop : op.purges ≠ some sessionId) : FactsStand sessionId s t := by
  rcases step_cases toLowercase h with hwrites | ⟨id, -, rfl⟩ | ⟨other, hpurges, rfl⟩
  · clear h
    induction hwrites with
    | refl => exact .refl _ _
    | tail _ hlast ih => exact ih.trans fun f hf _ => hlast.factGoes hf
  · exact .refl sessionId s
  · refine factsStand_withoutSession fun hother => hop ?_
    rw [hpurges, hother]

/-- **What was heard stays heard**: through any calls that do not delete its session, a fact is
there under its key, and one that is Final says what it said; only its binding may be another. -/
theorem final_facts_stand (h : run (step toLowercase) s more = some t)
    (hkept : ∀ op ∈ more, op.purges ≠ some f.sessionId) (hf : f ∈ s.inbox) :
    ∃ g ∈ t.inbox, g.toFactKey = f.toFactKey ∧ f.revision ≤ g.revision ∧
      (f.completion = some .complete → { g with binding := f.binding } = f) := by
  have hstand : FactsStand f.sessionId s t :=
    (run_relation_of (I := fun _ => True) (P := fun op : Op => op.purges ≠ some f.sessionId)
      (fun s => FactsStand.refl f.sessionId s) (fun _ _ _ => FactsStand.trans)
      (fun _ _ _ _ hop hstep => ⟨trivial, step_factsStand hstep hop⟩) trivial hkept h).2
  obtain ⟨g, hg, hgoes⟩ := hstand f hf rfl
  exact ⟨g, hg, hgoes.key, hgoes.revision, hgoes.final⟩

theorem final_facts_stand_heard :
    ∃ f ∈ heardStore.inbox, ∃ g ∈ disputedStore.inbox, { g with binding := f.binding } = f := by
  obtain ⟨f, hf, hcomplete⟩ : ∃ f ∈ heardStore.inbox, f.completion = some .complete := by
    decide +kernel
  have hkept : ∀ op ∈ disputed, op.purges ≠ some f.sessionId := by simp [disputed, Op.purges]
  obtain ⟨g, hg, -, -, hsame⟩ := final_facts_stand run_disputed hkept hf
  exact ⟨f, hf, g, hg, hsame hcomplete⟩

theorem bound_of_run (h : run (step toLowercase) emptyStore ops = some t) : Bound t :=
  run_invariant_of_write (I := Bound) (fun _ hf => absurd hf List.not_mem_nil)
    (fun h => h.bound) (fun _ id hs => hs.withoutSpeaker id)
    (fun _ sessionId hs => hs.withoutSession sessionId) h

/-- **Bindings are sound**: in any state the store can be in, a fact that is bound is bound to the
one row with the sequence it was bound to, in its own session. -/
theorem bindings_are_sound (h : run (step toLowercase) emptyStore ops = some t) (hf : f ∈ t.inbox)
    {binding : String × I64} (hbinding : f.binding = some binding) :
    ∃ u ∈ t.utterances, t.utteranceById binding.1 = some u ∧
      t.utteranceBySequence f.sessionId binding.2 = some u := by
  obtain ⟨u, hu, hkey⟩ := bound_of_run h f hf binding hbinding
  have hid : u.id = binding.1 := congrArg UtteranceKey.id hkey
  have hsession : u.sessionId = f.sessionId := congrArg UtteranceKey.sessionId hkey
  have hsequence : u.sequence = binding.2 := congrArg UtteranceKey.sequence hkey
  refine ⟨u, hu, ?_, ?_⟩
  · rw [← hid]
    exact utteranceById_of_mem hu
  · rw [← hsession, ← hsequence]
    exact utteranceBySequence_of_mem hu

theorem bindings_are_sound_heard : ∃ f ∈ heardStore.inbox, ∃ binding, f.binding = some binding ∧
    ∃ u ∈ heardStore.utterances, heardStore.utteranceById binding.1 = some u := by
  obtain ⟨f, hf, hbound⟩ : ∃ f ∈ heardStore.inbox, f.binding.isSome = true := by decide +kernel
  obtain ⟨binding, hbinding⟩ := Option.isSome_iff_exists.1 hbound
  obtain ⟨u, hu, hid, -⟩ := bindings_are_sound run_heard hf hbinding
  exact ⟨f, hf, binding, hbinding, u, hu, hid⟩

end Runs

end Lanes
end ZuTalk
