/-
# One event for two

What `coalesce_capture_events` does to each row and each cue is what the two events
do one after the other (`rowEdit_coalesce`, `cueEdit_coalesce`), unless the first is
a snapshot and a revision between the two is missing: the merged event is then a
delta, and says so by the revision it covers from.

From that: it leaves of every client what the two leave (`apply_coalesce`), in any
grouping (`apply_coalesce_assoc`), and a missing revision still shows
(`coalesce_shows_gap`).
-/

import ZuTalk.Capture.Client

namespace ZuTalk
namespace Capture

open Edits

/-! ### Rows -/

section Rows

variable {rows : Std.TreeMap ℕ NotebookCaptureUtterance}

theorem getElem?_upsertRow (row : NotebookCaptureUtterance) (sequence : ℕ) :
    (upsertRow rows row)[sequence]? =
      put (·.revision) (·.sequence) (fun sequence => rows[sequence]?) row sequence := by
  rw [put_apply]
  unfold upsertRow
  by_cases hrow : row.sequence = sequence
  · subst hrow
    rw [if_pos rfl]
    cases hcurrent : rows[row.sequence]? with
    | none => simp
    | some current =>
        by_cases hrank : row.revision < current.revision
        · simp [hrank, hcurrent, newer, later]
        · simp [hrank, newer, later]
  · rw [if_neg hrow]
    split
    · rfl
    · simp [Std.TreeMap.getElem?_insert, hrow]

theorem getElem?_foldl_upsertRow (l : List NotebookCaptureUtterance) (sequence : ℕ) :
    (l.foldl upsertRow rows)[sequence]? =
      newer (·.revision) rows[sequence]? (best (·.revision) (·.sequence) l sequence) := by
  induction l generalizing rows with
  | nil => simp [best_nil]
  | cons row l ih =>
      rw [List.foldl_cons, ih, getElem?_upsertRow, put_apply, best_cons, ← newer_assoc]
      split <;> simp

theorem getElem?_foldl_erase (l : List ℕ) (sequence : ℕ) :
    (l.foldl (fun rows sequence => rows.erase sequence) rows)[sequence]? =
      if l.contains sequence then none else rows[sequence]? := by
  induction l generalizing rows with
  | nil => simp
  | cons other l ih =>
      rw [List.foldl_cons, ih, Std.TreeMap.getElem?_erase]
      by_cases hother : other = sequence
      · simp [hother]
      · have hne : ¬ sequence = other := fun h => hother h.symm
        simp [hother, hne]

/-- Every row is kept under its own sequence. -/
def KeptBySequence (rows : Std.TreeMap ℕ NotebookCaptureUtterance) : Prop :=
  ∀ (sequence : ℕ) (row : NotebookCaptureUtterance), rows[sequence]? = some row →
    row.sequence = sequence

theorem KeptBySequence.upsertRow (h : KeptBySequence rows) (row : NotebookCaptureUtterance) :
    KeptBySequence (upsertRow rows row) := by
  intro sequence other hother
  unfold Capture.upsertRow at hother
  split at hother
  · exact h sequence other hother
  · rw [Std.TreeMap.getElem?_insert] at hother
    by_cases hrow : row.sequence = sequence
    · rw [if_pos (Nat.compare_eq_eq.2 hrow), Option.some.injEq] at hother
      rw [← hother, hrow]
    · rw [if_neg (mt Nat.compare_eq_eq.1 hrow)] at hother
      exact h sequence other hother

theorem KeptBySequence.foldl (h : KeptBySequence rows) (l : List NotebookCaptureUtterance) :
    KeptBySequence (l.foldl Capture.upsertRow rows) := by
  induction l generalizing rows with
  | nil => exact h
  | cons row l ih => exact ih (h.upsertRow row)

theorem KeptBySequence.erase (h : KeptBySequence rows) (l : List ℕ) :
    KeptBySequence (l.foldl (fun rows sequence => rows.erase sequence) rows) := by
  intro sequence row hrow
  rw [getElem?_foldl_erase] at hrow
  split at hrow
  · cases hrow
  · exact h sequence row hrow

/-- The rows of a map, listed, are the rows of the map. -/
theorem best_toList (h : KeptBySequence rows) (sequence : ℕ) :
    best (·.revision) (·.sequence) (rows.toList.map (·.2)) sequence = rows[sequence]? := by
  have hkeys : ∀ entry ∈ rows.toList, entry.2.sequence = entry.1 := fun entry hentry =>
    h entry.1 entry.2 (Std.TreeMap.mem_toList_iff_getElem?_eq_some.1 hentry)
  cases hrow : rows[sequence]? with
  | none =>
      refine best_eq_none _ _ fun row hmem heq => ?_
      obtain ⟨entry, hentry, rfl⟩ := List.mem_map.1 hmem
      have hsome := Std.TreeMap.mem_toList_iff_getElem?_eq_some.1 hentry
      rw [← hkeys entry hentry, heq, hrow] at hsome
      cases hsome
  | some row =>
      have hmem : row ∈ rows.toList.map (·.2) :=
        List.mem_map_of_mem (Std.TreeMap.mem_toList_iff_getElem?_eq_some.2 hrow)
      have hnodup : ((rows.toList.map (·.2)).map (·.sequence)).Nodup := by
        rw [List.map_map]
        have heq : rows.toList.map ((·.sequence) ∘ (·.2)) = rows.toList.map (·.1) :=
          List.map_congr_left hkeys
        rw [heq, List.nodup_iff_pairwise_ne, List.pairwise_map]
        exact rows.distinct_keys_toList.imp fun hne heq => hne (by simp [heq])
      have hbest := best_of_distinct (·.revision) (·.sequence) hnodup hmem
      rwa [h sequence row hrow] at hbest

/-- The rows of the merged event. -/
theorem best_coalescedRows (pending next : NotebookCaptureEvent) (sequence : ℕ) :
    best (·.revision) (·.sequence) ((coalescedRows pending next).toList.map (·.2)) sequence =
      newer (·.revision)
        (if next.removedSequences.contains sequence then none
          else best (·.revision) (·.sequence) pending.utterances sequence)
        (best (·.revision) (·.sequence) next.utterances sequence) := by
  have hempty : KeptBySequence ∅ := fun sequence row hrow => by simp at hrow
  unfold coalescedRows
  rw [best_toList (((hempty.foldl _).erase _).foldl _), getElem?_foldl_upsertRow, getElem?_foldl_erase, getElem?_foldl_upsertRow]
  simp

theorem contains_foldl_insert (l : List ℕ) (removed : Std.TreeSet ℕ) (sequence : ℕ) :
    (l.foldl (fun removed sequence => removed.insert sequence) removed).contains sequence =
      (l.contains sequence || removed.contains sequence) := by
  induction l generalizing removed with
  | nil => simp
  | cons other l ih =>
      rw [List.foldl_cons, ih, Std.TreeSet.contains_insert, List.contains_cons]
      by_cases hother : other = sequence
      · simp [hother]
      · have hcompare : (compare other sequence == .eq) = false := by simpa using hother
        have hne : (sequence == other) = false := by simpa using fun h => hother h.symm
        rw [hcompare, hne, Bool.false_or, Bool.false_or]

/-- The removals of the merged event. -/
theorem contains_coalescedRemovals (mergedIsSnapshot : Bool) (pending next : NotebookCaptureEvent)
    (sequence : ℕ) :
    (coalescedRemovals mergedIsSnapshot pending next).toList.contains sequence =
      ((!pending.isFullSnapshot && pending.removedSequences.contains sequence) ||
        (!mergedIsSnapshot && next.removedSequences.contains sequence)) := by
  rw [Std.TreeSet.contains_toList]
  unfold coalescedRemovals
  cases pending.isFullSnapshot <;> cases mergedIsSnapshot <;>
    simp [contains_foldl_insert, Bool.or_comm]

end Rows

/-! ### Cues -/

section Cues

variable {m : CueMerge} {mergedIsSnapshot : Bool}

/-- The cues gone through so far, key by key. -/
structure CueMerge.Tracks (mergedIsSnapshot : Bool) (cues : List TranslationCue) (m : CueMerge) :
    Prop where
  best : ∀ key, m.best key = (cueEdits key cues).put
  clears : mergedIsSnapshot = false → ∀ key,
    (m.withdrawals key).isSome = (cueEdits key cues).clears
  noWithdrawal : mergedIsSnapshot = true → ∀ key, m.withdrawals key = none
  withdrawal : ∀ key cue, m.withdrawals key = some cue → cue.key = key ∧ cue.withdrawn = true
  present : ∀ key cue, m.best key = some cue → cue.key = key ∧ cue.withdrawn = false
  listed : ∀ key, (m.withdrawals key).isSome ∨ (m.best key).isSome → key ∈ m.order

/-- The edit after one more cue. -/
theorem cueEdits_concat (key : CueKey) (cues : List TranslationCue) (cue : TranslationCue) :
    cueEdits key (cues ++ [cue]) =
      (cueEdits key cues).comp (·.revision) (cueEdit key cue) :=
  Edit.all_concat ..

namespace CueMerge.Tracks

variable {cues : List TranslationCue}

theorem empty : CueMerge.empty.Tracks mergedIsSnapshot [] where
  best _ := rfl
  clears _ _ := rfl
  noWithdrawal _ _ := rfl
  withdrawal _ _ h := by cases h
  present _ _ h := by cases h
  listed _ h := by rcases h with h | h <;> cases h

/-- The key of the cue at hand is listed, and those before it stay. -/
theorem listed_add (h : m.Tracks mergedIsSnapshot cues) (cue : TranslationCue) {key : CueKey}
    (hkey : key = cue.key ∨ key ∈ m.order) : key ∈ (m.add mergedIsSnapshot cue).order := by
  have horder : (m.add mergedIsSnapshot cue).order =
      if (m.withdrawals cue.key).isNone && (m.best cue.key).isNone then m.order ++ [cue.key]
      else m.order := by
    unfold CueMerge.add
    dsimp only
    split
    · rfl
    · split <;> rfl
  rw [horder]
  rcases hkey with rfl | hkey
  · split
    · exact List.mem_append_right _ List.mem_cons_self
    · rename_i hlisted
      refine h.listed cue.key ?_
      rw [Bool.and_eq_true, not_and_or, Option.isNone_iff_eq_none, Option.isNone_iff_eq_none] at hlisted
      exact hlisted.imp Option.isSome_iff_ne_none.2 Option.isSome_iff_ne_none.2
  · split
    · exact List.mem_append_left _ hkey
    · exact hkey

theorem add_withdrawn (h : m.Tracks mergedIsSnapshot cues) {cue : TranslationCue}
    (hwithdrawn : cue.withdrawn = true) :
    (m.add mergedIsSnapshot cue).Tracks mergedIsSnapshot (cues ++ [cue]) := by
  have hedit : ∀ key, cueEdits key (cues ++ [cue]) =
      if cue.key = key then ⟨true, none⟩ else cueEdits key cues := by
    intro key
    rw [cueEdits_concat, Capture.cueEdit, hwithdrawn]
    split
    · exact Edit.comp_of_clears _ rfl
    · exact Edit.comp_keep ..
  have hbest : (m.add mergedIsSnapshot cue).best = Function.update m.best cue.key none := by
    simp [CueMerge.add, hwithdrawn]
  have hw : (m.add mergedIsSnapshot cue).withdrawals =
      if mergedIsSnapshot then m.withdrawals
      else Function.update m.withdrawals cue.key (some cue) := by
    simp [CueMerge.add, hwithdrawn]
  constructor
  · intro key
    rw [hbest, hedit]
    by_cases hkey : cue.key = key
    · subst hkey
      rw [Function.update_self, if_pos rfl]
    · rw [Function.update_of_ne (Ne.symm hkey), if_neg hkey, h.best]
  · intro hdelta key
    rw [hw, hedit, hdelta, if_neg Bool.false_ne_true]
    by_cases hkey : cue.key = key
    · subst hkey
      rw [Function.update_self, if_pos rfl, Option.isSome_some]
    · rw [Function.update_of_ne (Ne.symm hkey), if_neg hkey, h.clears hdelta]
  · intro hsnapshot key
    rw [hw, hsnapshot, if_pos rfl, h.noWithdrawal hsnapshot]
  · intro key other hother
    rw [hw] at hother
    split at hother
    · exact h.withdrawal key other hother
    · by_cases hkey : cue.key = key
      · subst hkey
        rw [Function.update_self, Option.some.injEq] at hother
        rw [← hother]
        exact ⟨rfl, hwithdrawn⟩
      · rw [Function.update_of_ne (Ne.symm hkey)] at hother
        exact h.withdrawal key other hother
  · intro key other hother
    rw [hbest] at hother
    by_cases hkey : cue.key = key
    · subst hkey
      rw [Function.update_self] at hother
      cases hother
    · rw [Function.update_of_ne (Ne.symm hkey)] at hother
      exact h.present key other hother
  · intro key hsome
    refine h.listed_add cue ?_
    by_cases hkey : key = cue.key
    · exact .inl hkey
    · right
      rw [hw, hbest, Function.update_of_ne hkey] at hsome
      refine h.listed key (hsome.imp_left fun hsome => ?_)
      split at hsome
      · exact hsome
      · rwa [Function.update_of_ne hkey] at hsome

theorem add_present (h : m.Tracks mergedIsSnapshot cues) {cue : TranslationCue}
    (hpresent : cue.withdrawn = false) :
    (m.add mergedIsSnapshot cue).Tracks mergedIsSnapshot (cues ++ [cue]) := by
  have hedit : ∀ key, cueEdits key (cues ++ [cue]) =
      ⟨(cueEdits key cues).clears, put (·.revision) TranslationCue.key m.best cue key⟩ := by
    intro key
    rw [cueEdits_concat, Capture.cueEdit, hpresent, put_apply, h.best]
    split
    · rfl
    · exact Edit.comp_keep ..
  have hbest : (m.add mergedIsSnapshot cue).best = put (·.revision) TranslationCue.key m.best cue := by
    unfold CueMerge.add put
    cases hcurrent : m.best cue.key with
    | none => simp [hpresent]
    | some current =>
        by_cases hrank : cue.revision < current.revision
        · have hsame : Function.update m.best cue.key (some current) = m.best := by
            rw [← hcurrent, Function.update_eq_self]
          simp [hpresent, hrank, newer, later, hsame]
        · simp [hpresent, hrank, newer, later]
  have hw : (m.add mergedIsSnapshot cue).withdrawals = m.withdrawals := by
    unfold CueMerge.add
    dsimp only
    rw [hpresent, if_neg Bool.false_ne_true]
    split <;> rfl
  constructor
  · intro key
    rw [hbest, hedit]
  · intro hdelta key
    rw [hw, hedit, h.clears hdelta]
  · intro hsnapshot key
    rw [hw, h.noWithdrawal hsnapshot]
  · intro key other hother
    rw [hw] at hother
    exact h.withdrawal key other hother
  · intro key other hother
    rw [hbest, put_apply] at hother
    split at hother
    · rename_i hkey
      cases hcurrent : m.best key with
      | none =>
          rw [hcurrent, none_newer, Option.some.injEq] at hother
          exact hother ▸ ⟨hkey, hpresent⟩
      | some current =>
          rw [hcurrent, newer, Option.some.injEq, later] at hother
          split at hother
          · exact hother ▸ h.present key current hcurrent
          · exact hother ▸ ⟨hkey, hpresent⟩
    · exact h.present key other hother
  · intro key hsome
    refine h.listed_add cue ?_
    by_cases hkey : cue.key = key
    · exact .inl hkey.symm
    · right
      rw [hw, hbest, put_apply, if_neg hkey] at hsome
      exact h.listed key hsome

theorem foldl (h : m.Tracks mergedIsSnapshot cues) (more : List TranslationCue) :
    (more.foldl (CueMerge.add mergedIsSnapshot) m).Tracks mergedIsSnapshot (cues ++ more) := by
  induction more generalizing m cues with
  | nil => simpa using h
  | cons cue more ih =>
      have hadd : (m.add mergedIsSnapshot cue).Tracks mergedIsSnapshot (cues ++ [cue]) := by
        cases hwithdrawn : cue.withdrawn with
        | true => exact h.add_withdrawn hwithdrawn
        | false => exact h.add_present hwithdrawn
      have hrest := ih hadd
      rwa [List.append_assoc, List.singleton_append] at hrest

end CueMerge.Tracks

/-- A cue of another key leaves a key alone. -/
theorem cueEdits_toList_of_ne {key other : CueKey} (hne : other ≠ key) {cue : Option TranslationCue}
    (hcue : ∀ c, cue = some c → c.key = other) : cueEdits key cue.toList = Edit.keep := by
  cases cue with
  | none => rfl
  | some c =>
      have hkey : c.key ≠ key := by rw [hcue c rfl]; exact hne
      simp [Edit.all_cons, cueEdit, hkey]

/-- The cues given for keys. -/
theorem cueEdits_emit (order : List CueKey)
    (hwithdrawal : ∀ key cue, m.withdrawals key = some cue → cue.key = key ∧ cue.withdrawn = true)
    (hpresent : ∀ key cue, m.best key = some cue → cue.key = key ∧ cue.withdrawn = false)
    (key : CueKey) :
    cueEdits key (CueMerge.emit order m) =
      if key ∈ order then ⟨(m.withdrawals key).isSome, m.best key⟩ else Edit.keep := by
  induction order generalizing m with
  | nil => simp [CueMerge.emit]
  | cons other order ih =>
      have hwithdrawal' : ∀ k cue, Function.update m.withdrawals other none k = some cue →
          cue.key = k ∧ cue.withdrawn = true := by
        intro k cue hcue
        by_cases hk : k = other
        · subst hk
          simp at hcue
        · exact hwithdrawal k cue (by simpa [hk] using hcue)
      have hpresent' : ∀ k cue, Function.update m.best other none k = some cue →
          cue.key = k ∧ cue.withdrawn = false := by
        intro k cue hcue
        by_cases hk : k = other
        · subst hk
          simp at hcue
        · exact hpresent k cue (by simpa [hk] using hcue)
      have hrest := ih (m := { m with
        withdrawals := Function.update m.withdrawals other none
        best := Function.update m.best other none }) hwithdrawal' hpresent'
      rw [CueMerge.emit]
      simp only [cueEdits, Edit.all_append] at hrest ⊢
      rw [hrest]
      by_cases hother : other = key
      · subst hother
        have hw : cueEdits other (m.withdrawals other).toList =
            ⟨(m.withdrawals other).isSome, none⟩ := by
          cases hcue : m.withdrawals other with
          | none => rfl
          | some cue =>
              obtain ⟨hkey, hwithdrawn⟩ := hwithdrawal other cue hcue
              simp [Edit.all_cons, cueEdit, hkey, hwithdrawn]
        have hb : cueEdits other (m.best other).toList = ⟨false, m.best other⟩ := by
          cases hcue : m.best other with
          | none => rfl
          | some cue =>
              obtain ⟨hkey, hwithdrawn⟩ := hpresent other cue hcue
              simp [Edit.all_cons, cueEdit, hkey, hwithdrawn]
        simp only [cueEdits] at hw hb
        rw [hw, hb]
        simp [Edit.comp, Edit.keep]
      · have hw := cueEdits_toList_of_ne hother fun c hc => (hwithdrawal other c hc).1
        have hb := cueEdits_toList_of_ne hother fun c hc => (hpresent other c hc).1
        have hne : key ≠ other := Ne.symm hother
        simp only [cueEdits] at hw hb
        rw [hw, hb]
        simp [hne]

/-- The cues of the merged event. -/
theorem cueEdits_coalescedCues (pending next : NotebookCaptureEvent) (key : CueKey) :
    cueEdits key (CueMerge.emit (coalescedCues mergedIsSnapshot pending next).order
        (coalescedCues mergedIsSnapshot pending next)) =
      ⟨!mergedIsSnapshot && (cueEdits key (pending.translationCues ++ next.translationCues)).clears,
        (cueEdits key (pending.translationCues ++ next.translationCues)).put⟩ := by
  have htracks : (coalescedCues mergedIsSnapshot pending next).Tracks mergedIsSnapshot
      (pending.translationCues ++ next.translationCues) := by
    have hempty : CueMerge.empty.Tracks mergedIsSnapshot [] := CueMerge.Tracks.empty
    have hfold := hempty.foldl (pending.translationCues ++ next.translationCues)
    rwa [List.nil_append] at hfold
  have hclears : ((coalescedCues mergedIsSnapshot pending next).withdrawals key).isSome =
      (!mergedIsSnapshot &&
        (cueEdits key (pending.translationCues ++ next.translationCues)).clears) := by
    cases hsnapshot : mergedIsSnapshot with
    | true =>
        subst hsnapshot
        rw [htracks.noWithdrawal rfl]
        rfl
    | false =>
        subst hsnapshot
        rw [htracks.clears rfl]
        rfl
  rw [cueEdits_emit _ htracks.withdrawal htracks.present, ← hclears, ← htracks.best]
  by_cases hkey : key ∈ (coalescedCues mergedIsSnapshot pending next).order
  · rw [if_pos hkey]
  · have hnone := mt (htracks.listed key) hkey
    rw [not_or, Option.not_isSome_iff_eq_none, Option.not_isSome_iff_eq_none] at hnone
    rw [if_neg hkey, hnone.1, hnone.2]
    rfl

end Cues

/-! ### The merged event -/

section Coalesce

variable {pending next : NotebookCaptureEvent}

/-- The merged event can stand for both: it is not a snapshot with a gap after it. -/
def NotebookCaptureEvent.Joins (pending next : NotebookCaptureEvent) : Prop :=
  next.isFullSnapshot = true ∨ pending.isFullSnapshot = false ∨ pending.Contiguous next

instance : Decidable (pending.Joins next) := by
  unfold NotebookCaptureEvent.Joins
  infer_instance

theorem coalesce_of_snapshot (h : next.isFullSnapshot = true) :
    coalesceCaptureEvents pending next =
      { next with
        coversFromRevision := some (if pending.Contiguous next
          then min pending.coversFrom next.coversFrom else next.coversFrom) } := by
  unfold coalesceCaptureEvents
  dsimp only
  rw [if_pos h]

/-- A merged event that stands for both is a snapshot if either was. -/
theorem NotebookCaptureEvent.Joins.merged (h : pending.Joins next)
    (hnext : next.isFullSnapshot = false) :
    (pending.isFullSnapshot && decide (pending.Contiguous next)) = pending.isFullSnapshot := by
  rcases h with h | h | h
  · rw [hnext] at h
    cases h
  · rw [h, Bool.false_and]
  · rw [decide_eq_true h, Bool.and_true]

/-- **The merged event does to a row** what the two do one after the other. -/
theorem rowEdit_coalesce (h : pending.Joins next) (sequence : ℕ) :
    (coalesceCaptureEvents pending next).rowEdit sequence =
      (pending.rowEdit sequence).comp (·.revision) (next.rowEdit sequence) := by
  cases hnext : next.isFullSnapshot with
  | true =>
      rw [Edit.comp_of_clears _ (by simp [NotebookCaptureEvent.rowEdit, hnext]),
        coalesce_of_snapshot hnext]
      rfl
  | false =>
      unfold coalesceCaptureEvents NotebookCaptureEvent.rowEdit Edit.comp
      dsimp only
      simp only [hnext, Bool.false_eq_true, if_false, h.merged hnext, Bool.false_or,
        contains_coalescedRemovals, best_coalescedRows]
      cases pending.isFullSnapshot <;> cases next.removedSequences.contains sequence <;> simp

/-- **The merged event does to a cue** what the two do one after the other. -/
theorem cueEdit_coalesce (h : pending.Joins next) (key : CueKey) :
    (coalesceCaptureEvents pending next).cueEdit key =
      (pending.cueEdit key).comp (·.revision) (next.cueEdit key) := by
  cases hnext : next.isFullSnapshot with
  | true =>
      rw [Edit.comp_of_clears _ (by simp [NotebookCaptureEvent.cueEdit, hnext]),
        coalesce_of_snapshot hnext]
      rfl
  | false =>
      have hboth : cueEdits key (pending.translationCues ++ next.translationCues) =
          (cueEdits key pending.translationCues).comp (·.revision)
            (cueEdits key next.translationCues) := Edit.all_append ..
      unfold coalesceCaptureEvents NotebookCaptureEvent.cueEdit
      dsimp only
      simp only [hnext, Bool.false_eq_true, if_false, h.merged hnext, Bool.false_or,
        cueEdits_coalescedCues, hboth]
      obtain ⟨clears, put⟩ := cueEdits key next.translationCues
      unfold Edit.comp
      cases pending.isFullSnapshot <;> cases clears <;> simp

/-- The revision a merged event covers from. -/
theorem coversFrom_coalesce (pending next : NotebookCaptureEvent) :
    (coalesceCaptureEvents pending next).coversFrom =
      if pending.Contiguous next then min pending.coversFrom next.coversFrom
      else next.coversFrom := by
  unfold coalesceCaptureEvents
  dsimp only
  split <;> rfl

@[simp] theorem eventRevision_coalesce (pending next : NotebookCaptureEvent) :
    (coalesceCaptureEvents pending next).eventRevision = next.eventRevision := by
  unfold coalesceCaptureEvents
  dsimp only
  split <;> rfl

@[simp] theorem status_coalesce (pending next : NotebookCaptureEvent) :
    (coalesceCaptureEvents pending next).status = next.status := by
  unfold coalesceCaptureEvents
  dsimp only
  split <;> rfl

theorem isFullSnapshot_coalesce (pending next : NotebookCaptureEvent) :
    (coalesceCaptureEvents pending next).isFullSnapshot =
      (next.isFullSnapshot || (pending.isFullSnapshot && decide (pending.Contiguous next))) := by
  unfold coalesceCaptureEvents
  dsimp only
  split
  · rename_i hnext
    simp [hnext]
  · rename_i hnext
    simp [hnext]

/-- The revisions of one event come after those of another. -/
structure NotebookCaptureEvent.Follows (next pending : NotebookCaptureEvent) : Prop where
  pendingRange : pending.coversFrom ≤ pending.eventRevision
  after : pending.eventRevision < next.coversFrom
  nextRange : next.coversFrom ≤ next.eventRevision

instance : Decidable (next.Follows pending) :=
  decidable_of_iff (pending.coversFrom ≤ pending.eventRevision ∧
      pending.eventRevision < next.coversFrom ∧ next.coversFrom ≤ next.eventRevision)
    ⟨fun h => ⟨h.1, h.2.1, h.2.2⟩, fun h => ⟨h.pendingRange, h.after, h.nextRange⟩⟩

namespace CaptureClient

variable {c : CaptureClient}

theorem Before.apply (hpending : c.Before pending) (hnext : next.Follows pending) :
    (c.apply pending).Before next := by
  intro last hlast
  rw [hpending.lastAppliedEventRevision_apply] at hlast
  obtain rfl := Option.some.inj hlast
  exact lt_of_lt_of_le hnext.after hnext.nextRange

theorem Before.coalesce (hpending : c.Before pending) (hnext : next.Follows pending) :
    c.Before (coalesceCaptureEvents pending next) := by
  intro last hlast
  have hlt := hpending last hlast
  have hafter := hnext.after
  have hrange := hnext.nextRange
  rw [eventRevision_coalesce]
  omega

/-- What a client shows: rows, cues, status and revision, and that it misses some. -/
structure SameView (c c' : CaptureClient) : Prop where
  rows : c.rows = c'.rows
  translationCues : c.translationCues = c'.translationCues
  status : c.status = c'.status
  revision : c.lastAppliedEventRevision = c'.lastAppliedEventRevision
  repairing : c.repairing = c'.repairing

/-- A revision missing between two events, or before them, shows in the merged one. -/
theorem repairing_coalesce (hpending : c.Before pending) (hnext : next.Follows pending)
    (hjoins : pending.Joins next) :
    (c.apply (coalesceCaptureEvents pending next)).repairing =
      ((c.apply pending).apply next).repairing := by
  have hlast := hpending.lastAppliedEventRevision_apply
  rw [(hpending.coalesce hnext).repairing_apply, (hpending.apply hnext).repairing_apply,
    hpending.repairing_apply, isFullSnapshot_coalesce]
  cases hfull : next.isFullSnapshot with
  | true => rfl
  | false =>
      have hrange := hnext.pendingRange
      have hafter := hnext.after
      rw [hjoins.merged hfull]
      unfold hasGap
      rw [coversFrom_coalesce, hlast]
      by_cases hcontiguous : pending.Contiguous next
      · have hnogap : ¬ pending.eventRevision + 1 < next.coversFrom := Nat.not_lt.2 hcontiguous
        have hfrom : min pending.coversFrom next.coversFrom = pending.coversFrom := by omega
        simp [hcontiguous, hnogap, hfrom]
      · have hgap : pending.eventRevision + 1 < next.coversFrom := Nat.lt_of_not_le hcontiguous
        have hdelta : pending.isFullSnapshot = false := by
          rcases hjoins with h | h | h
          · rw [hfull] at h
            cases h
          · exact h
          · exact absurd h hcontiguous
        have hall : (c.lastAppliedEventRevision.all fun last =>
            decide (last + 1 < next.coversFrom)) = true := by
          rw [Option.all_eq_true]
          intro last hlast
          have hlt := hpending last hlast
          exact decide_eq_true (by omega)
        simp [hcontiguous, hgap, hdelta, hall]

/-- **Applying the merged event** shows what applying the two in turn shows. -/
theorem apply_coalesce (hpending : c.Before pending) (hnext : next.Follows pending)
    (hjoins : pending.Joins next) :
    SameView (c.apply (coalesceCaptureEvents pending next)) ((c.apply pending).apply next) where
  rows := by
    funext sequence
    rw [(hpending.coalesce hnext).rows_apply, (hpending.apply hnext).rows_apply,
      hpending.rows_apply, rowEdit_coalesce hjoins, Edit.act_comp]
  translationCues := by
    funext key
    rw [(hpending.coalesce hnext).translationCues_apply,
      (hpending.apply hnext).translationCues_apply, hpending.translationCues_apply,
      cueEdit_coalesce hjoins, Edit.act_comp]
  status := by
    rw [(hpending.coalesce hnext).status_apply, (hpending.apply hnext).status_apply,
      status_coalesce]
  revision := by
    rw [(hpending.coalesce hnext).lastAppliedEventRevision_apply,
      (hpending.apply hnext).lastAppliedEventRevision_apply, eventRevision_coalesce]
  repairing := repairing_coalesce hpending hnext hjoins

/-- A revision missing between two events shows in the merged one, also when the
first is a snapshot. -/
theorem coalesce_shows_gap (hpending : c.Before pending) (hgap : ¬ pending.Contiguous next)
    (hdelta : next.isFullSnapshot = false) :
    (coalesceCaptureEvents pending next).isFullSnapshot = false ∧
      c.hasGap (coalesceCaptureEvents pending next) = true := by
  constructor
  · rw [isFullSnapshot_coalesce, hdelta, decide_eq_false hgap, Bool.and_false, Bool.or_false]
  · unfold hasGap
    rw [coversFrom_coalesce, if_neg hgap, Option.all_eq_true]
    intro last hlast
    have hlt := hpending last hlast
    have hfrom : pending.eventRevision + 1 < next.coversFrom := Nat.lt_of_not_le hgap
    exact decide_eq_true (by omega)

end CaptureClient

/-! ### Grouping -/

/-- Two events do the same to every client. -/
structure NotebookCaptureEvent.SameEffect (e e' : NotebookCaptureEvent) : Prop where
  eventRevision : e.eventRevision = e'.eventRevision
  isFullSnapshot : e.isFullSnapshot = e'.isFullSnapshot
  coversFrom : e.coversFrom = e'.coversFrom
  status : e.status = e'.status
  realtimeLoroAppliedRevision : e.realtimeLoroAppliedRevision = e'.realtimeLoroAppliedRevision
  laneHealth : e.laneHealth = e'.laneHealth
  contextReceipt : e.contextReceipt = e'.contextReceipt
  rowEdit : ∀ sequence, e.rowEdit sequence = e'.rowEdit sequence
  cueEdit : ∀ key, e.cueEdit key = e'.cueEdit key

theorem CaptureClient.apply_congr {e e' : NotebookCaptureEvent} (h : e.SameEffect e')
    (c : CaptureClient) : c.apply e = c.apply e' := by
  have hgap : c.hasGap e = c.hasGap e' := by
    unfold hasGap
    rw [h.coversFrom]
  rw [apply_eq, apply_eq, reconcileUtterances_eq, reconcileUtterances_eq]
  simp only [h.eventRevision, h.isFullSnapshot, h.status, h.realtimeLoroAppliedRevision,
    h.laneHealth, h.contextReceipt, h.rowEdit, h.cueEdit, hgap]

theorem realtimeLoroAppliedRevision_coalesce (pending next : NotebookCaptureEvent) :
    (coalesceCaptureEvents pending next).realtimeLoroAppliedRevision =
      if next.isFullSnapshot then next.realtimeLoroAppliedRevision
      else max next.realtimeLoroAppliedRevision pending.realtimeLoroAppliedRevision := by
  unfold coalesceCaptureEvents
  dsimp only
  split <;> rfl

theorem laneHealth_coalesce (pending next : NotebookCaptureEvent) :
    (coalesceCaptureEvents pending next).laneHealth =
      if next.isFullSnapshot = false ∧ next.laneHealth = [] then pending.laneHealth
      else next.laneHealth := by
  unfold coalesceCaptureEvents
  dsimp only
  split
  · rename_i hnext
    simp [hnext]
  · rename_i hnext
    simp [hnext]

theorem contextReceipt_coalesce (pending next : NotebookCaptureEvent) :
    (coalesceCaptureEvents pending next).contextReceipt =
      if next.isFullSnapshot then next.contextReceipt
      else next.contextReceipt.or pending.contextReceipt := by
  unfold coalesceCaptureEvents
  dsimp only
  split <;> rfl

section Grouping

variable {e₁ e₂ e₃ : NotebookCaptureEvent}

/-- No snapshot of three events is followed by a missing revision before the next. -/
structure NoGapAfterSnapshot (e₁ e₂ e₃ : NotebookCaptureEvent) : Prop where
  first : e₁.isFullSnapshot = true → e₂.isFullSnapshot = true ∨ e₁.Contiguous e₂
  second : e₁.isFullSnapshot = true ∨ e₂.isFullSnapshot = true →
    e₃.isFullSnapshot = true ∨ e₂.Contiguous e₃

theorem contiguous_coalesce_left :
    (coalesceCaptureEvents e₁ e₂).Contiguous e₃ ↔ e₂.Contiguous e₃ := by
  unfold NotebookCaptureEvent.Contiguous
  rw [eventRevision_coalesce]

theorem contiguous_coalesce_right (h₁₂ : e₂.Follows e₁) (h₂₃ : e₃.Follows e₂) :
    e₁.Contiguous (coalesceCaptureEvents e₂ e₃) ↔ e₁.Contiguous e₂ ∧ e₂.Contiguous e₃ := by
  have h1 := h₁₂.after
  have h2 := h₂₃.after
  have h3 := h₁₂.nextRange
  have hfrom := coversFrom_coalesce e₂ e₃
  by_cases hsecond : e₂.Contiguous e₃
  · rw [if_pos hsecond] at hfrom
    unfold NotebookCaptureEvent.Contiguous at hsecond ⊢
    omega
  · rw [if_neg hsecond] at hfrom
    unfold NotebookCaptureEvent.Contiguous at hsecond ⊢
    omega

theorem coversFrom_coalesce_assoc (h₁₂ : e₂.Follows e₁) (h₂₃ : e₃.Follows e₂) :
    (coalesceCaptureEvents (coalesceCaptureEvents e₁ e₂) e₃).coversFrom =
      (coalesceCaptureEvents e₁ (coalesceCaptureEvents e₂ e₃)).coversFrom := by
  have h1 := h₁₂.after
  have h2 := h₂₃.after
  have h3 := h₁₂.nextRange
  have h4 := h₁₂.pendingRange
  simp only [coversFrom_coalesce, contiguous_coalesce_left, contiguous_coalesce_right h₁₂ h₂₃]
  by_cases hfirst : e₁.Contiguous e₂ <;> by_cases hsecond : e₂.Contiguous e₃ <;>
    simp [hfirst, hsecond, Nat.min_assoc]

namespace NoGapAfterSnapshot

theorem joins₁₂ (h : NoGapAfterSnapshot e₁ e₂ e₃) : e₁.Joins e₂ := by
  unfold NotebookCaptureEvent.Joins
  cases hfull : e₁.isFullSnapshot with
  | false => exact .inr (.inl rfl)
  | true => exact (h.first hfull).imp_right .inr

theorem joins₂₃ (h : NoGapAfterSnapshot e₁ e₂ e₃) : e₂.Joins e₃ := by
  unfold NotebookCaptureEvent.Joins
  cases hfull : e₂.isFullSnapshot with
  | false => exact .inr (.inl rfl)
  | true => exact (h.second (.inr hfull)).imp_right .inr

theorem joins_left (h : NoGapAfterSnapshot e₁ e₂ e₃) :
    (coalesceCaptureEvents e₁ e₂).Joins e₃ := by
  unfold NotebookCaptureEvent.Joins
  rw [contiguous_coalesce_left, isFullSnapshot_coalesce]
  by_cases hfull : e₁.isFullSnapshot = true ∨ e₂.isFullSnapshot = true
  · exact (h.second hfull).imp_right .inr
  · rw [not_or, Bool.not_eq_true, Bool.not_eq_true] at hfull
    rw [hfull.1, hfull.2]
    exact .inr (.inl rfl)

theorem joins_right (h : NoGapAfterSnapshot e₁ e₂ e₃) (h₁₂ : e₂.Follows e₁)
    (h₂₃ : e₃.Follows e₂) : e₁.Joins (coalesceCaptureEvents e₂ e₃) := by
  unfold NotebookCaptureEvent.Joins
  rw [contiguous_coalesce_right h₁₂ h₂₃, isFullSnapshot_coalesce]
  cases hfull : e₁.isFullSnapshot with
  | false => exact .inr (.inl rfl)
  | true =>
      rcases h.second (.inl hfull) with h3 | hsecond
      · rw [h3]
        exact .inl rfl
      · rcases h.first hfull with h2 | hfirst
        · rw [h2, decide_eq_true hsecond]
          simp
        · exact .inr (.inr ⟨hfirst, hsecond⟩)

end NoGapAfterSnapshot

/-- **Events may be merged in any grouping.** -/
theorem coalesce_assoc (h : NoGapAfterSnapshot e₁ e₂ e₃) (h₁₂ : e₂.Follows e₁)
    (h₂₃ : e₃.Follows e₂) :
    (coalesceCaptureEvents (coalesceCaptureEvents e₁ e₂) e₃).SameEffect
      (coalesceCaptureEvents e₁ (coalesceCaptureEvents e₂ e₃)) := by
  -- what the standing facts depend on: a snapshot in the middle is still one merged
  have hmiddle : e₂.isFullSnapshot = true → e₃.isFullSnapshot = false →
      (coalesceCaptureEvents e₂ e₃).isFullSnapshot = true := by
    intro h2 h3
    rw [isFullSnapshot_coalesce, h2, h3]
    rcases h.second (.inr h2) with h3' | hsecond
    · rw [h3] at h3'
      cases h3'
    · rw [decide_eq_true hsecond]
      rfl
  constructor
  · simp
  · simp only [isFullSnapshot_coalesce, contiguous_coalesce_left,
      contiguous_coalesce_right h₁₂ h₂₃]
    by_cases hfirst : e₁.Contiguous e₂ <;> by_cases hsecond : e₂.Contiguous e₃ <;>
      cases e₁.isFullSnapshot <;> cases e₂.isFullSnapshot <;> simp [hfirst, hsecond]
  · exact coversFrom_coalesce_assoc h₁₂ h₂₃
  · simp
  · simp only [realtimeLoroAppliedRevision_coalesce]
    cases h3 : e₃.isFullSnapshot with
    | true => simp [isFullSnapshot_coalesce, h3]
    | false =>
        cases h2 : e₂.isFullSnapshot with
        | true => simp [hmiddle h2 h3]
        | false => simp [isFullSnapshot_coalesce, h2, h3, Nat.max_assoc]
  · simp only [laneHealth_coalesce]
    cases h3 : e₃.isFullSnapshot with
    | true => simp [isFullSnapshot_coalesce, h3]
    | false =>
        cases h2 : e₂.isFullSnapshot with
        | true => simp [hmiddle h2 h3]
        | false =>
            by_cases hlanes : e₃.laneHealth = [] <;>
              simp [isFullSnapshot_coalesce, h2, h3, hlanes]
  · simp only [contextReceipt_coalesce]
    cases h3 : e₃.isFullSnapshot with
    | true => simp [isFullSnapshot_coalesce, h3]
    | false =>
        cases h2 : e₂.isFullSnapshot with
        | true => simp [hmiddle h2 h3]
        | false => simp [isFullSnapshot_coalesce, h2, h3, Option.or_assoc]
  · intro sequence
    rw [rowEdit_coalesce h.joins_left, rowEdit_coalesce h.joins₁₂,
      rowEdit_coalesce (h.joins_right h₁₂ h₂₃), rowEdit_coalesce h.joins₂₃, Edit.comp_assoc]
  · intro key
    rw [cueEdit_coalesce h.joins_left, cueEdit_coalesce h.joins₁₂,
      cueEdit_coalesce (h.joins_right h₁₂ h₂₃), cueEdit_coalesce h.joins₂₃, Edit.comp_assoc]

end Grouping

/-- **The law of merging.**  For a client that has not seen the first event: the
merged event shows what the two show in turn, if it can stand for both; a missing
revision between the two still shows; and a third event may be merged first. -/
theorem coalesce_law {c : CaptureClient} (hpending : c.Before pending)
    (hnext : next.Follows pending) :
    (pending.Joins next →
      CaptureClient.SameView (c.apply (coalesceCaptureEvents pending next))
        ((c.apply pending).apply next)) ∧
    (¬ pending.Contiguous next →
      (coalesceCaptureEvents pending next).coversFrom = next.coversFrom ∧
        (next.isFullSnapshot = false →
          (coalesceCaptureEvents pending next).isFullSnapshot = false ∧
            c.hasGap (coalesceCaptureEvents pending next) = true)) ∧
    ∀ last : NotebookCaptureEvent, last.Follows next → NoGapAfterSnapshot pending next last →
      ∀ c' : CaptureClient,
        c'.apply (coalesceCaptureEvents (coalesceCaptureEvents pending next) last) =
          c'.apply (coalesceCaptureEvents pending (coalesceCaptureEvents next last)) := by
  refine ⟨fun hjoins => CaptureClient.apply_coalesce hpending hnext hjoins, fun hgap => ⟨?_, ?_⟩, ?_⟩
  · rw [coversFrom_coalesce, if_neg hgap]
  · exact CaptureClient.coalesce_shows_gap hpending hgap
  · intro last hlast hnogap c'
    exact c'.apply_congr (coalesce_assoc hnogap hnext hlast)

end Coalesce

/-! ### A snapshot with a gap after it -/

/-- A capture that is running. -/
def CaptureStatus.running : CaptureStatus where
  captureState := .recording
  remoteHealth := .live
  realtimeLagMs := none
  projectionState := .ready
  postStopAsyncState := "none"
  postStopAsyncProjectionState := .none
  providerErrorType := none
  providerRequestId := none

/-- A row of a sequence. -/
def NotebookCaptureUtterance.plain (sequence revision : ℕ) : NotebookCaptureUtterance where
  id := toString sequence
  sequence := sequence
  revision := revision
  sessionSpeakerId := none
  sourceLanguage := "en"
  sourceText := "word"
  sourceStartMs := none
  sourceEndMs := none
  translatedLanguage := none
  translatedText := none
  completion := "complete"
  alignment := "source_only"
  sourceProjectionRevision := 0
  sourceEditRevision := 0
  languageVariants := []

/-- An event of rows only. -/
def NotebookCaptureEvent.plain (eventRevision : ℕ) (isFullSnapshot : Bool)
    (utterances : List NotebookCaptureUtterance) (removedSequences : List ℕ) :
    NotebookCaptureEvent where
  eventRevision := eventRevision
  isFullSnapshot := isFullSnapshot
  status := .running
  run := ⟨none, [], none, none, none, none, none⟩
  realtimeLoroAppliedRevision := 0
  utterances := utterances
  removedSequences := removedSequences
  translationCues := []
  laneHealth := []
  contextReceipt := none
  coversFromRevision := none
  present := fun _ cue hcue => by cases hcue

/-- A client that shows one row. -/
def CaptureClient.showing (row : NotebookCaptureUtterance) (eventRevision : ℕ) : CaptureClient where
  rows := fun sequence => if sequence = row.sequence then some row else none
  translationCues := fun _ => none
  status := .running
  realtimeLoroAppliedRevision := 0
  laneHealth := []
  contextReceipt := none
  lastAppliedEventRevision := some eventRevision
  repairing := false

/-- A row that one event takes out and the next brings back. -/
theorem coalesce_law_removedAndBack :
    CaptureClient.SameView
      ((CaptureClient.showing (.plain 5 7) 1).apply
        (coalesceCaptureEvents (.plain 2 false [] [5]) (.plain 3 false [.plain 5 1] [])))
      (((CaptureClient.showing (.plain 5 7) 1).apply (.plain 2 false [] [5])).apply
        (.plain 3 false [.plain 5 1] [])) :=
  (coalesce_law (c := .showing (.plain 5 7) 1) (by decide) (by decide)).1 (by decide)

/-- **Where merging is not applying in turn:** a snapshot with a gap after it leaves
a row that it takes out; then the grouping matters too; and a client that has seen
more than the first event is given it after all. -/
theorem coalesce_not_in_turn :
    (((CaptureClient.showing (.plain 5 1) 0).apply
        (coalesceCaptureEvents (.plain 1 true [] []) (.plain 3 false [] []))).rows 5 ≠
      (((CaptureClient.showing (.plain 5 1) 0).apply (.plain 1 true [] [])).apply
        (.plain 3 false [] [])).rows 5) ∧
    (((CaptureClient.showing (.plain 5 1) 0).apply (coalesceCaptureEvents
        (coalesceCaptureEvents (.plain 1 true [] []) (.plain 2 false [] [5]))
        (.plain 4 false [] []))).rows 5 ≠
      ((CaptureClient.showing (.plain 5 1) 0).apply (coalesceCaptureEvents (.plain 1 true [] [])
        (coalesceCaptureEvents (.plain 2 false [] [5]) (.plain 4 false [] [])))).rows 5) ∧
    (((CaptureClient.showing (.plain 5 1) 2).apply
        (coalesceCaptureEvents (.plain 1 false [] [5]) (.plain 3 false [] []))).rows 5 ≠
      (((CaptureClient.showing (.plain 5 1) 2).apply (.plain 1 false [] [5])).apply
        (.plain 3 false [] [])).rows 5) := by
  decide +kernel

end Capture
end ZuTalk
