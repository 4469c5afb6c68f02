/-
# A tombstone is final

A recording with a tombstone is in the tables only while its purge is still to come, and has a
document only while it is there or has a mark, which makes the next export forget it
(`Sound`).  That fails where a document is saved behind the tombstone, where a purge does not
begin or is lost in a crash, and where a document names another session than it is named after.
-/

import ZuTalk.Tombstones.Replica

namespace ZuTalk
namespace Tombstones

open Machine

/-- The export that comes before an import leaves a tombstone: the recording was deleted here. -/
def Replica.DeletesOnExport (replica : Replica) (doc : String) : Prop :=
  doc ∈ replica.pending ∧ replica.isExportable doc = true ∧ doc ∉ replica.present ∧
    (replica.docs doc).isSome = true

instance (replica : Replica) (doc : String) : Decidable (replica.DeletesOnExport doc) := by
  unfold Replica.DeletesOnExport
  infer_instance

/-- What a tombstone is final under: no update takes one away; no recording document is imported
that has one, before or by the export that comes first, unless the recording is still to be
purged, and none whose facts are of a session with one; a recording that gets one and has a
document is in the tables, or has a mark; every purge that an import leaves is begun, also
before the program ends. -/
def Allowed (replica : Replica) : Event → Prop
  | .recordingImported doc merged => ∀ content ∈ merged,
      (doc ∈ replica.tombstones ∨ replica.DeletesOnExport doc → doc ∈ replica.present) ∧
      (doc ∉ replica.tombstones →
        ∀ facts ∈ content.readRecording, facts.1 ∉ replica.tombstones)
  | .topicImported waiting => ∀ doc ∈ waiting, doc ∉ replica.tombstones →
      ∀ content ∈ replica.docs doc, ∀ facts ∈ content.readRecording, facts.1 ∉ replica.tombstones
  | .libraryImported added takenAway => (∀ session ∈ takenAway, session ∉ replica.tombstones) ∧
      ∀ session ∈ added, (replica.docs session).isSome = true →
        session ∈ replica.present ∨ session ∈ replica.pending
  | .purged session begins => begins = true ∨ session ∉ replica.present
  | .restarted => ∀ session ∈ replica.purges, session ∈ replica.present → session ∈ replica.jobs
  | _ => True

instance (replica : Replica) (event : Event) : Decidable (Allowed replica event) := by
  cases event <;> unfold Allowed <;> infer_instance

/-- The work on a recording is done: it has no mark, and no purge of it is begun or to come. -/
def Replica.Done (replica : Replica) (session : String) : Prop :=
  session ∉ replica.pending ∧ session ∉ replica.jobs ∧ session ∉ replica.purges

/-- What is kept for every recording with a tombstone. -/
structure Sound (replica : Replica) : Prop where
  present : ∀ session ∈ replica.tombstones, session ∈ replica.present →
    session ∈ replica.jobs ∨ session ∈ replica.purges
  docs : ∀ session ∈ replica.tombstones, (replica.docs session).isSome = true →
    session ∈ replica.present ∨ session ∈ replica.pending

/-- A step that gives no recording with a tombstone back, and takes no tombstone away. -/
def Keeps (replica replica' : Replica) : Prop :=
  replica.tombstones ⊆ replica'.tombstones ∧ ∀ session ∈ replica.tombstones,
    session ∉ replica.present → session ∉ replica'.present

theorem Keeps.refl (replica : Replica) : Keeps replica replica :=
  ⟨Finset.Subset.refl _, fun _ _ => id⟩

theorem Keeps.trans {a b c : Replica} (h : Keeps a b) (h' : Keeps b c) : Keeps a c := by
  refine ⟨h.1.trans h'.1, ?_⟩
  intro session hsession hnot
  exact h'.2 session (h.1 hsession) (h.2 session hsession hnot)

theorem Sound.done {replica : Replica} (h : Sound replica) {session : String}
    (hsession : session ∈ replica.tombstones) (hdone : replica.Done session) :
    session ∉ replica.present ∧ replica.docs session = none := by
  obtain ⟨hpending, hjobs, hpurges⟩ := hdone
  have hnot : session ∉ replica.present := by
    intro hpresent
    rcases h.present session hsession hpresent with hjob | hpurge
    · exact hjobs hjob
    · exact hpurges hpurge
  refine ⟨hnot, ?_⟩
  by_contra hdoc
  rcases h.docs session hsession (Option.isSome_iff_ne_none.2 hdoc) with hpresent | hmark
  · exact hnot hpresent
  · exact hpending hmark

section Steps

variable {replica : Replica} {doc : String}

/-! ### Exports -/

theorem tombstones_exportInto : replica.tombstones ⊆ (replica.exportInto doc).tombstones := by
  unfold Replica.exportInto
  split_ifs
  · exact Finset.Subset.refl _
  · exact Finset.Subset.refl _
  · split
    · exact Finset.subset_insert ..
    · exact Finset.Subset.refl _

@[simp] theorem present_exportInto : (replica.exportInto doc).present = replica.present := by
  unfold Replica.exportInto
  split_ifs
  · rfl
  · rfl
  · split <;> rfl

@[simp] theorem jobs_exportInto : (replica.exportInto doc).jobs = replica.jobs := by
  unfold Replica.exportInto
  split_ifs
  · rfl
  · rfl
  · split <;> rfl

@[simp] theorem purges_exportInto : (replica.exportInto doc).purges = replica.purges := by
  unfold Replica.exportInto
  split_ifs
  · rfl
  · rfl
  · split <;> rfl

theorem keeps_exportInto : Keeps replica (replica.exportInto doc) := by
  refine ⟨tombstones_exportInto, ?_⟩
  intro session _ hnot
  simpa using hnot

/-- An export of a recording that is gone forgets its document. -/
theorem Sound.exportInto (h : Sound replica) : Sound (replica.exportInto doc) := by
  by_cases hexportable : replica.isExportable doc = true
  · by_cases hpresent : doc ∈ replica.present
    · have heq : replica.exportInto doc = { replica with
          docs := (replica.exportInto doc).docs
          pending := replica.pending.erase doc } := by
        simp [Replica.exportInto, hexportable, hpresent]
      rw [heq]
      refine ⟨h.present, ?_⟩
      intro session hsession hdoc
      by_cases hsame : session = doc
      · subst hsame
        exact .inl hpresent
      · have hbefore : (replica.docs session).isSome = true := by
          simpa [Replica.exportInto, hexportable, hpresent, hsame] using hdoc
        rcases h.docs session hsession hbefore with hpresent | hmark
        · exact .inl hpresent
        · exact .inr (by simpa [hsame] using hmark)
    · cases hdoc : replica.docs doc with
      | none =>
          have heq : replica.exportInto doc =
              { replica with pending := replica.pending.erase doc } := by
            simp [Replica.exportInto, hexportable, hpresent, hdoc]
          rw [heq]
          refine ⟨h.present, ?_⟩
          intro session hsession hsome
          have hsame : session ≠ doc := by
            rintro rfl
            rw [hdoc] at hsome
            exact nomatch hsome
          simpa [hsame] using h.docs session hsession hsome
      | some content =>
          have heq : replica.exportInto doc = { replica with
              tombstones := insert doc replica.tombstones
              docs := Function.update replica.docs doc none
              pending := replica.pending.erase doc } := by
            simp [Replica.exportInto, hexportable, hpresent, hdoc]
          rw [heq]
          constructor
          · intro session hsession hin
            rcases Finset.mem_insert.1 hsession with rfl | hsession
            · exact absurd hin hpresent
            · exact h.present session hsession hin
          · intro session hsession hsome
            dsimp only at hsome
            have hsame : session ≠ doc := by
              rintro rfl
              simp at hsome
            have hbefore : session ∈ replica.tombstones := by simpa [hsame] using hsession
            rw [Function.update_of_ne hsame] at hsome
            simpa [hsame] using h.docs session hbefore hsome
  · have heq : replica.exportInto doc = replica := by simp [Replica.exportInto, hexportable]
    rw [heq]
    exact h

/-- An export that leaves no tombstone. -/
theorem tombstones_exportInto_eq (hpending : doc ∈ replica.pending)
    (hnot : ¬ replica.DeletesOnExport doc) :
    (replica.exportInto doc).tombstones = replica.tombstones := by
  unfold Replica.DeletesOnExport at hnot
  unfold Replica.exportInto
  split_ifs with hexportable hpresent
  · rfl
  · rfl
  · split
    · rename_i content hdoc
      exact absurd ⟨hpending, by simpa using hexportable, hpresent, by simp [hdoc]⟩ hnot
    · rfl

/-! ### Imports -/

/-- Materialising a document whose facts are of no session with a tombstone. -/
theorem Sound.materialize (h : Sound replica) {content : Doc}
    (hfacts : doc ∉ replica.tombstones →
      ∀ facts ∈ content.readRecording, facts.1 ∉ replica.tombstones) :
    Sound (replica.materialize doc content) ∧ Keeps replica (replica.materialize doc content) ∧
      (replica.materialize doc content).tombstones = replica.tombstones ∧
      (replica.materialize doc content).docs = replica.docs ∧
      replica.present ⊆ (replica.materialize doc content).present := by
  unfold Replica.materialize
  split
  · exact ⟨h, Keeps.refl replica, rfl, rfl, Finset.Subset.refl _⟩
  · rename_i hnot
    split
    · rename_i session origin hread
      split
      · exact ⟨h, Keeps.refl replica, rfl, rfl, Finset.Subset.refl _⟩
      · have hclean : session ∉ replica.tombstones := hfacts hnot _ hread
        refine ⟨⟨?_, ?_⟩, ⟨Finset.Subset.refl _, ?_⟩, rfl, rfl, Finset.subset_insert ..⟩
        · intro other hother hpresent
          rcases Finset.mem_insert.1 hpresent with rfl | hpresent
          · exact absurd hother hclean
          · exact h.present other hother hpresent
        · intro other hother hdoc
          have hne : other ≠ doc := by
            rintro rfl
            exact hnot hother
          rcases h.docs other hother hdoc with hpresent | hmark
          · exact .inl (Finset.mem_insert_of_mem hpresent)
          · exact .inr (Finset.mem_erase.2 ⟨hne, Finset.mem_insert_of_mem hmark⟩)
        · intro other hother hnotPresent hpresent
          rcases Finset.mem_insert.1 hpresent with rfl | hpresent
          · exact hclean hother
          · exact hnotPresent hpresent
    · exact ⟨h, Keeps.refl replica, rfl, rfl, Finset.Subset.refl _⟩

/-- A recording document is imported. -/
theorem Sound.importRecording (h : Sound replica) {merged : Option Doc}
    (hallowed : ∀ content ∈ merged,
      (doc ∈ replica.tombstones ∨ replica.DeletesOnExport doc → doc ∈ replica.present) ∧
      (doc ∉ replica.tombstones →
        ∀ facts ∈ content.readRecording, facts.1 ∉ replica.tombstones)) :
    Sound (replica.importRecording doc merged) ∧
      Keeps replica (replica.importRecording doc merged) := by
  unfold Replica.importRecording
  dsimp only
  set exported := if doc ∈ replica.pending then replica.exportInto doc else replica with hexported
  have hsound : Sound exported := by
    rw [hexported]
    split
    · exact h.exportInto
    · exact h
  have hkeeps : Keeps replica exported := by
    rw [hexported]
    split
    · exact keeps_exportInto
    · exact Keeps.refl replica
  cases merged with
  | none => exact ⟨hsound, hkeeps⟩
  | some content =>
      obtain ⟨hsaved, hfacts⟩ := hallowed content rfl
      have hpresent : exported.present = replica.present := by
        rw [hexported]
        split <;> simp
      have htombstones : exported.tombstones = replica.tombstones := by
        rw [hexported]
        split
        · rename_i hpending
          apply tombstones_exportInto_eq hpending
          -- it would be gone, and so it would have to be there
          intro hdeletes
          exact hdeletes.2.2.1 (hsaved (.inr hdeletes))
        · rfl
      obtain ⟨⟨hjobs, hdocs⟩, hkeeps', hsame, hsameDocs, hsubset⟩ :=
        hsound.materialize (htombstones ▸ hfacts : doc ∉ exported.tombstones →
          ∀ facts ∈ content.readRecording, facts.1 ∉ exported.tombstones)
      refine ⟨⟨hjobs, ?_⟩, hkeeps.trans hkeeps'⟩
      intro session hsession hdoc
      dsimp only at hsession hdoc ⊢
      by_cases heq : session = doc
      · subst heq
        rw [hsame, htombstones] at hsession
        exact .inl (hsubset (hpresent ▸ hsaved (.inl hsession)))
      · rw [Function.update_of_ne heq] at hdoc
        exact hdocs session hsession hdoc

/-- The recordings that waited for a topic are materialised one after the other. -/
theorem Sound.materializeWaiting (h : Sound replica) {waiting : List String}
    (hallowed : ∀ doc ∈ waiting, doc ∉ replica.tombstones →
      ∀ content ∈ replica.docs doc, ∀ facts ∈ content.readRecording,
        facts.1 ∉ replica.tombstones) :
    Sound (waiting.foldl Replica.materializeWaiting replica) ∧
      Keeps replica (waiting.foldl Replica.materializeWaiting replica) := by
  induction waiting generalizing replica with
  | nil => exact ⟨h, Keeps.refl replica⟩
  | cons doc waiting ih =>
      obtain ⟨hfirst, hrest⟩ := List.forall_mem_cons.1 hallowed
      rw [List.foldl_cons]
      unfold Replica.materializeWaiting
      cases hdoc : replica.docs doc with
      | none => exact ih h hrest
      | some content =>
          obtain ⟨hsound, hkeeps, hsame, hsameDocs, -⟩ :=
            h.materialize fun hnot => hfirst hnot content hdoc
          have hlater := ih hsound (by rwa [hsame, hsameDocs])
          exact ⟨hlater.1, hkeeps.trans hlater.2⟩

/-! ### Every step, and runs -/

/-- **An allowed step** keeps what is kept, and gives nothing back that has a tombstone. -/
theorem Sound.step (h : Sound replica) {event : Event} {replica' : Replica}
    (hallowed : Allowed replica event) (hstep : replica.step event = some replica') :
    Sound replica' ∧ Keeps replica replica' := by
  cases event with
  | recorded session =>
      unfold Replica.step at hstep
      dsimp only at hstep
      split at hstep
      · exact nomatch hstep
      · rename_i hfresh
        push Not at hfresh
        obtain rfl := Option.some.inj hstep
        refine ⟨⟨?_, ?_⟩, Finset.Subset.refl _, ?_⟩
        · intro other hother hpresent
          rcases Finset.mem_insert.1 hpresent with rfl | hpresent
          · exact absurd hother hfresh.2
          · exact h.present other hother hpresent
        · intro other hother hdoc
          rcases h.docs other hother hdoc with hpresent | hmark
          · exact .inl (Finset.mem_insert_of_mem hpresent)
          · exact .inr (Finset.mem_insert_of_mem hmark)
        · intro other hother hnot hpresent
          rcases Finset.mem_insert.1 hpresent with rfl | hpresent
          · exact hfresh.2 hother
          · exact hnot hpresent
  | stopped session | refused doc | gaveUp session =>
      obtain rfl := Option.some.inj hstep
      exact ⟨⟨h.present, h.docs⟩, Keeps.refl replica⟩
  | edited session =>
      unfold Replica.step at hstep
      dsimp only at hstep
      split at hstep
      · obtain rfl := Option.some.inj hstep
        refine ⟨⟨h.present, ?_⟩, Keeps.refl replica⟩
        intro other hother hdoc
        exact (h.docs other hother hdoc).imp id Finset.mem_insert_of_mem
      · exact nomatch hstep
  | purgeBegun session =>
      unfold Replica.step at hstep
      dsimp only at hstep
      split at hstep
      · exact nomatch hstep
      · obtain rfl := Option.some.inj hstep
        refine ⟨⟨?_, h.docs⟩, Keeps.refl replica⟩
        intro other hother hpresent
        exact (h.present other hother hpresent).imp Finset.mem_insert_of_mem id
  | rowsDeleted session =>
      unfold Replica.step at hstep
      dsimp only at hstep
      split at hstep
      · obtain rfl := Option.some.inj hstep
        refine ⟨⟨?_, ?_⟩, Finset.Subset.refl _, ?_⟩
        · intro other hother hpresent
          exact h.present other hother (Finset.mem_of_mem_erase hpresent)
        · intro other hother hdoc
          by_cases heq : other = session
          · exact .inr (heq ▸ Finset.mem_insert_self ..)
          · rcases h.docs other hother hdoc with hpresent | hmark
            · exact .inl (Finset.mem_erase.2 ⟨heq, hpresent⟩)
            · exact .inr (Finset.mem_insert_of_mem hmark)
        · intro other _ hnot hpresent
          exact hnot (Finset.mem_of_mem_erase hpresent)
      · exact nomatch hstep
  | purgeFinished session =>
      unfold Replica.step at hstep
      dsimp only at hstep
      split at hstep
      · rename_i hgone
        obtain rfl := Option.some.inj hstep
        refine ⟨⟨?_, h.docs⟩, Keeps.refl replica⟩
        intro other hother hpresent
        refine (h.present other hother hpresent).imp (fun hjob => ?_) id
        refine Finset.mem_erase.2 ⟨?_, hjob⟩
        rintro rfl
        exact hgone.2 hpresent
      · exact nomatch hstep
  | exported session =>
      unfold Replica.step at hstep
      dsimp only at hstep
      split at hstep
      · obtain rfl := Option.some.inj hstep
        exact ⟨h.exportInto, keeps_exportInto⟩
      · exact nomatch hstep
  | accepted doc =>
      unfold Replica.step at hstep
      dsimp only at hstep
      split at hstep
      · exact nomatch hstep
      · obtain rfl := Option.some.inj hstep
        exact ⟨⟨h.present, h.docs⟩, Keeps.refl replica⟩
  | recordingImported doc merged =>
      unfold Replica.step at hstep
      dsimp only at hstep
      split at hstep
      · obtain rfl := Option.some.inj hstep
        have haccepted : Sound { replica with accepted := replica.accepted.erase doc } :=
          ⟨h.present, h.docs⟩
        exact haccepted.importRecording hallowed
      · exact nomatch hstep
  | topicImported waiting =>
      obtain rfl := Option.some.inj hstep
      exact h.materializeWaiting hallowed
  | libraryImported added takenAway =>
      obtain ⟨hkept, hdocs⟩ := hallowed
      obtain rfl := Option.some.inj hstep
      refine ⟨⟨?_, ?_⟩, ?_, fun _ _ => id⟩
      · intro session hsession hpresent
        right
        exact Multiset.mem_add.2 (.inr (Finset.mem_inter.2 ⟨hsession, hpresent⟩))
      · intro session hsession hdoc
        rcases Finset.mem_union.1 (Finset.mem_sdiff.1 hsession).1 with hbefore | hadded
        · exact h.docs session hbefore hdoc
        · exact hdocs session hadded hdoc
      · intro session hsession
        refine Finset.mem_sdiff.2 ⟨Finset.mem_union_left _ hsession, ?_⟩
        exact fun htaken => hkept session htaken hsession
  | purged session begins =>
      unfold Replica.step at hstep
      dsimp only at hstep
      split at hstep
      · obtain rfl := Option.some.inj hstep
        refine ⟨⟨?_, h.docs⟩, Keeps.refl replica⟩
        intro other hother hpresent
        by_cases heq : other = session
        · subst heq
          have hbegins : begins = true := hallowed.resolve_right fun hnot => hnot hpresent
          left
          simp [hbegins]
        · rcases h.present other hother hpresent with hjob | hpurge
          · left
            split
            · exact Finset.mem_insert_of_mem hjob
            · exact hjob
          · exact .inr ((Multiset.mem_erase_of_ne heq).2 hpurge)
      · exact nomatch hstep
  | forgotten session =>
      unfold Replica.step at hstep
      dsimp only at hstep
      split at hstep
      · obtain rfl := Option.some.inj hstep
        refine ⟨⟨h.present, ?_⟩, Keeps.refl replica⟩
        intro other hother hdoc
        dsimp only at hdoc
        have hne : other ≠ session := by
          rintro rfl
          simp at hdoc
        rw [Function.update_of_ne hne] at hdoc
        exact (h.docs other hother hdoc).imp id fun hmark => Finset.mem_erase.2 ⟨hne, hmark⟩
      · exact nomatch hstep
  | restarted =>
      obtain rfl := Option.some.inj hstep
      refine ⟨⟨?_, h.docs⟩, Keeps.refl replica⟩
      intro session hsession hpresent
      left
      rcases h.present session hsession hpresent with hjob | hpurge
      · exact hjob
      · exact hallowed session hpurge hpresent

end Steps

end Tombstones
end ZuTalk
