/-
# What a device says is what it has stored

While no transaction runs, `version_of` gives the version of the stored document and `roster`
the roster that the stored rows make (`said_is_stored`), under a condition on the steps
(`Allowed`).  A lookup is not noted that overlapped a transaction on its document or could not
read.  A transaction fails with what it changed out of memory or behind a digest, which then
stays until `drop_cache` has come, and with no roster saved.  It commits with no new document
left in memory unsaved, and no roster in memory whose document it forgot.  Without that a version
that was rolled back can stay in the digests for ever (`said_is_not_stored`).
-/

import ZuTalk.Caches.Replica

namespace ZuTalk
namespace Caches

open Machine Members

variable {D V : Type}

def DocRef.isRoster (doc : DocRef) : Bool := doc matches .roster _

namespace Replica

/-- The roster in memory, of a roster document. -/
def rosterOf (replica : Replica D V) : DocRef → Option Roster
  | .roster space => replica.rosters space
  | _ => none

/-- What is asked of the document is answered without a look at it. -/
def answered (replica : Replica D V) (doc : DocRef) : Bool :=
  (replica.digests doc).isSome && (!doc.isRoster || (replica.rosterOf doc).isSome)

/-- The document is out of memory, or what is asked of it is answered without a look at it. -/
def hidden (replica : Replica D V) (doc : DocRef) : Bool :=
  (replica.cache doc).isNone || replica.answered doc

end Replica

/-- **When a step is allowed.**  A transaction that fails has hidden what it changed, and saved no
roster; as long as memory has something of a failed transaction, its digest and its roster stay.
One that commits has left no new document in memory that it did not save, and no roster whose
document it forgot.  A lookup is noted only if no transaction changed its document meanwhile, and
a roster only if it was read. -/
def Allowed (replica : Replica D V) : Event D → Prop
  | .failed => ∀ tx ∈ replica.tx, (∀ doc ∈ tx.changed, replica.hidden doc = true) ∧
      ∀ doc ∈ tx.saved, doc.isRoster = false
  | .committed => ∀ tx ∈ replica.tx,
      (∀ doc ∈ tx.fresh, (tx.stored doc).isSome ∨ (replica.cache doc).isNone) ∧
      ∀ doc ∈ tx.forgotten, (replica.rosterOf doc).isNone
  | .digestsDropped => ∀ doc ∈ replica.polluted, (replica.cache doc).isNone
  | .undigested doc => doc ∈ replica.polluted → (replica.cache doc).isNone
  | .unrostered space => .roster space ∈ replica.polluted → (replica.cache (.roster space)).isNone
  | .noted lookup => ∀ found ∈ replica.lookups[lookup]?, found.overlapped = false
  | .rosterNoted lookup => ∀ found ∈ replica.rosterLookups[lookup]?,
      found.overlapped = false ∧ found.unread = false
  | _ => True

instance (replica : Replica D V) (event : Event D) : Decidable (Allowed replica event) := by
  cases event <;> unfold Allowed <;> infer_instance

namespace Replica

/-! ### What a transaction sees -/

/-- The rows, as the transaction that runs sees them. -/
def rows (replica : Replica D V) : DocRef → Option D := replica.tx.elim replica.stored Tx.stored

def removedRows (replica : Replica D V) : String → List String :=
  replica.tx.elim replica.removed Tx.removed

def fresh (replica : Replica D V) : List DocRef := replica.tx.elim [] Tx.fresh

def saved (replica : Replica D V) : List DocRef := replica.tx.elim [] Tx.saved

def forgotten (replica : Replica D V) : List DocRef := replica.tx.elim [] Tx.forgotten

def edited (replica : Replica D V) : Option (DocRef × D) := replica.tx.bind Tx.editing

/-- The document was saved or forgotten by the transaction that runs. -/
def Written (replica : Replica D V) (doc : DocRef) : Prop :=
  doc ∈ replica.saved ∨ doc ∈ replica.forgotten

/-- The document is being edited, or was saved or forgotten by the transaction that runs. -/
def Changed (replica : Replica D V) (doc : DocRef) : Prop :=
  replica.Written doc ∨ replica.edited.map Prod.fst = some doc

/-- A document as its row has it, or as it is if it is new. -/
def seen (loro : Loro D V) (replica : Replica D V) (doc : DocRef) : Option D :=
  (replica.rows doc).or (if doc ∈ replica.fresh then some loro.new else none)

/-- A document with what is edited of it. -/
def current (loro : Loro D V) (replica : Replica D V) (doc : DocRef) : Option D :=
  match replica.edited with
  | some (edited, content) => if edited = doc then some content else replica.seen loro doc
  | none => replica.seen loro doc

theorem current_of_ne {loro : Loro D V} {replica : Replica D V} {doc : DocRef}
    (h : replica.edited.map Prod.fst ≠ some doc) :
    replica.current loro doc = replica.seen loro doc := by
  unfold current
  cases hedited : replica.edited with
  | none => rfl
  | some entry => simp_all

theorem seen_congr {loro : Loro D V} {replica replica' : Replica D V} {doc : DocRef}
    (hrow : replica'.rows doc = replica.rows doc)
    (hfresh : doc ∈ replica'.fresh ↔ doc ∈ replica.fresh) :
    replica'.seen loro doc = replica.seen loro doc := by
  unfold seen
  rw [hrow, if_congr hfresh rfl rfl]

theorem current_of_idle {loro : Loro D V} {replica : Replica D V} (htx : replica.tx = none)
    {doc : DocRef} : replica.current loro doc = replica.stored doc := by
  simp [current, seen, edited, fresh, rows, htx]

theorem current_congr {loro : Loro D V} {replica replica' : Replica D V} {doc : DocRef}
    (hedited : replica'.edited = replica.edited)
    (hseen : replica'.seen loro doc = replica.seen loro doc) :
    replica'.current loro doc = replica.current loro doc := by
  unfold current
  rw [hedited, hseen]

/-- Memory has something of a failed transaction there, and no one sees it. -/
def Covered (replica : Replica D V) (doc : DocRef) : Prop :=
  doc ∈ replica.polluted ∧ replica.answered doc = true

theorem Covered.digest {replica : Replica D V} {doc : DocRef} (h : replica.Covered doc) :
    (replica.digests doc).isSome = true :=
  (Bool.and_eq_true_iff.1 h.2).1

theorem Covered.roster {replica : Replica D V} {space : String}
    (h : replica.Covered (.roster space)) : (replica.rosters space).isSome = true := by
  simpa [DocRef.isRoster, rosterOf] using (Bool.and_eq_true_iff.1 h.2).2

/-- What has more digests and rosters answers more. -/
theorem Covered.mono {replica replica' : Replica D V} {doc : DocRef} (h : replica.Covered doc)
    (hpolluted : doc ∈ replica'.polluted)
    (hdigest : (replica.digests doc).isSome = true → (replica'.digests doc).isSome = true)
    (hroster : ∀ space, doc = .roster space →
      (replica.rosters space).isSome = true → (replica'.rosters space).isSome = true) :
    replica'.Covered doc := by
  refine ⟨hpolluted, Bool.and_eq_true_iff.2 ⟨hdigest h.digest, ?_⟩⟩
  cases doc with
  | roster space => simpa [DocRef.isRoster, rosterOf] using hroster space rfl h.roster
  | recording | topic | library => rfl

end Replica

open Replica

/-- What is kept.  Rows a transaction has not written are the committed ones; a document in
memory is the row, or a new one, with what is edited of it, unless it is covered, and what
is edited is in memory as it is edited if at all; digests, and what lookups found that nothing
overlapped, are those of committed rows; and so for rosters, those of saved rosters being of
the rows the transaction sees. -/
structure Kept (loro : Loro D V) (replica : Replica D V) : Prop where
  rows : ∀ doc, ¬ replica.Written doc → replica.rows doc = replica.stored doc
  removed : ∀ space, ¬ replica.Changed (.roster space) →
    replica.removedRows space = replica.removed space
  cache : ∀ doc content, replica.cache doc = some content →
    replica.current loro doc = some content ∨ replica.Covered doc
  editing : ∀ entry ∈ replica.edited, ∀ content ∈ replica.cache entry.1, content = entry.2
  digests : ∀ doc version, replica.digests doc = some version → ¬ replica.Written doc ∧
    (replica.stored doc).map loro.oplogVv = some version
  lookups : ∀ lookup ∈ replica.lookups, lookup.overlapped = false →
    ∀ version ∈ lookup.read, ¬ replica.Changed lookup.doc ∧
      (replica.stored lookup.doc).map loro.oplogVv = some version
  rosters : ∀ space roster, replica.rosters space = some roster →
    (.roster space ∉ replica.saved →
      roster = loadRoster loro (replica.stored (.roster space)) (replica.removed space)) ∧
    (.roster space ∈ replica.saved → .roster space ∉ replica.forgotten →
      replica.edited.map Prod.fst ≠ some (.roster space) →
        roster = loadRoster loro (replica.rows (.roster space)) (replica.removedRows space))
  rosterLookups : ∀ lookup ∈ replica.rosterLookups, lookup.overlapped = false →
    lookup.unread = false → ¬ replica.Changed (.roster lookup.space) ∧
      lookup.roster = loadRoster loro (replica.stored (.roster lookup.space))
        (replica.removed lookup.space)

section Steps

variable {loro : Loro D V} {replica replica' : Replica D V} {tx : Tx D}

theorem kept_start (stored : DocRef → Option D) (removed : String → List String) :
    Kept loro (start stored removed) := by
  constructor <;> simp [start, Replica.rows, removedRows]

/-! ### While nothing runs -/

theorem not_changed_of_idle (htx : replica.tx = none) (doc : DocRef) : ¬ replica.Changed doc := by
  simp [Changed, Written, saved, forgotten, edited, htx]

/-- A document in memory is the row, unless it is covered. -/
theorem Kept.stored_of_idle (h : Kept loro replica) (htx : replica.tx = none) {doc : DocRef}
    {content : D} (hcache : replica.cache doc = some content) :
    replica.stored doc = some content ∨ replica.Covered doc := by
  rw [← current_of_idle htx]
  exact h.cache doc content hcache

/-- **While nothing runs**, what is said is what is stored. -/
theorem Kept.said (h : Kept loro replica) (htx : replica.tx = none) :
    (∀ doc, replica.versionOf loro doc = (replica.stored doc).map loro.oplogVv) ∧
    ∀ space, replica.roster loro space =
      loadRoster loro (replica.stored (.roster space)) (replica.removed space) := by
  have hfact : ∀ doc, ¬ replica.Covered doc →
      replica.factDoc replica.stored doc = replica.stored doc := by
    intro doc hcovered
    unfold factDoc
    cases hcache : replica.cache doc with
    | none => rfl
    | some content => exact ((h.stored_of_idle htx hcache).resolve_right hcovered).symm
  constructor
  · intro doc
    unfold versionOf
    cases hdigest : replica.digests doc with
    | none =>
        rw [hfact doc fun hcovered => by simpa [hdigest] using hcovered.digest]
        rfl
    | some version => exact (h.digests doc version hdigest).2.symm
  · intro space
    unfold Replica.roster
    cases hroster : replica.rosters space with
    | none =>
        rw [hfact _ fun hcovered => by simpa [hroster] using hcovered.roster]
        rfl
    | some roster => exact (h.rosters space roster hroster).1 (by simp [saved, htx])

/-! ### Memory -/

theorem Kept.cached (h : Kept loro replica) (doc : DocRef)
    (hdoc : replica.edited.map Prod.fst ≠ some doc) :
    Kept loro { replica with cache := replica.cached replica.rows doc } := by
  refine { h with cache := ?_, editing := ?_ }
  · intro other content hcached
    dsimp only [Replica.cached] at hcached
    by_cases heq : other = doc
    · subst heq
      rw [Function.update_self] at hcached
      unfold factDoc at hcached
      cases hcache : replica.cache other with
      | none =>
          rw [hcache, Option.none_or] at hcached
          left
          refine (current_of_ne hdoc).trans ?_
          unfold seen
          rw [show Replica.rows _ other = some content from hcached, Option.some_or]
      | some before =>
          rw [hcache, Option.some_or] at hcached
          obtain rfl := Option.some.inj hcached
          exact h.cache other before hcache
    · rw [Function.update_of_ne heq] at hcached
      exact h.cache other content hcached
  · intro entry hentry content hcached
    have hne : entry.1 ≠ doc := by
      rintro rfl
      exact hdoc (congrArg (Option.map Prod.fst) hentry)
    dsimp only [Replica.cached] at hcached
    rw [Function.update_of_ne hne] at hcached
    exact h.editing entry hentry content hcached

theorem mem_clean {doc other : DocRef} (hne : other ≠ doc) (hother : other ∈ replica.polluted) :
    other ∈ replica.clean doc :=
  List.mem_filter.2 ⟨hother, by simpa using hne⟩

theorem Kept.evicted (h : Kept loro replica) (doc : DocRef) :
    Kept loro { replica with
      cache := Function.update replica.cache doc none
      polluted := replica.clean doc } := by
  have hcache : ∀ other content, Function.update replica.cache doc none other = some content →
      other ≠ doc ∧ replica.cache other = some content := by
    intro other content hevicted
    by_cases heq : other = doc
    · subst heq
      simp at hevicted
    · exact ⟨heq, by rwa [Function.update_of_ne heq] at hevicted⟩
  refine { h with cache := ?_, editing := ?_ }
  · intro other content hevicted
    obtain ⟨hne, hbefore⟩ := hcache other content hevicted
    refine (h.cache other content hbefore).imp_right fun hcovered => ?_
    exact hcovered.mono (mem_clean hne hcovered.1) id fun _ _ => id
  · intro entry hentry content hevicted
    exact h.editing entry hentry content (hcache entry.1 content hevicted).2

/-- Digests are taken out that nothing in memory is behind. -/
theorem Kept.of_digests (h : Kept loro replica) {digests : DocRef → Option V}
    (hsub : ∀ doc version, digests doc = some version → replica.digests doc = some version)
    (hkept : ∀ doc, replica.Covered doc → (replica.cache doc).isSome = true →
      digests doc = replica.digests doc) :
    Kept loro { replica with digests := digests } := by
  refine { h with cache := ?_, digests := ?_ }
  · intro doc content hcache
    refine (h.cache doc content hcache).imp_right fun hcovered => ?_
    refine hcovered.mono hcovered.1 (fun hsome => ?_) fun _ _ => id
    rwa [show Replica.digests _ doc = replica.digests doc from
      hkept doc hcovered (by rw [hcache]; rfl)]
  · intro doc version hdigest
    exact h.digests doc version (hsub doc version hdigest)

theorem Kept.undigested (h : Kept loro replica) {doc : DocRef}
    (hdoc : doc ∈ replica.polluted → (replica.cache doc).isNone = true) :
    Kept loro { replica with digests := Function.update replica.digests doc none } := by
  apply h.of_digests
  · intro other version hdigest
    by_cases heq : other = doc
    · subst heq
      simp at hdigest
    · rwa [Function.update_of_ne heq] at hdigest
  · intro other hcovered hcache
    refine Function.update_of_ne ?_ _ _
    rintro rfl
    simp [Option.isNone_iff_eq_none.1 (hdoc hcovered.1)] at hcache

theorem Kept.digestsDropped (h : Kept loro replica)
    (hclean : ∀ doc ∈ replica.polluted, (replica.cache doc).isNone = true) :
    Kept loro { replica with digests := fun _ => none } := by
  apply h.of_digests
  · exact fun _ _ hdigest => nomatch hdigest
  · intro doc hcovered hcache
    simp [Option.isNone_iff_eq_none.1 (hclean doc hcovered.1)] at hcache

/-- A roster is taken out that nothing in memory is behind. -/
theorem Kept.unrostered (h : Kept loro replica) {space : String}
    (hspace : .roster space ∈ replica.polluted → (replica.cache (.roster space)).isNone = true) :
    Kept loro { replica with rosters := Function.update replica.rosters space none } := by
  refine { h with cache := ?_, rosters := ?_ }
  · intro doc content hcache
    refine (h.cache doc content hcache).imp_right fun hcovered => ?_
    refine hcovered.mono hcovered.1 id fun other hother hroster => ?_
    have hne : other ≠ space := by
      rintro rfl
      subst hother
      simp [Option.isNone_iff_eq_none.1 (hspace hcovered.1)] at hcache
    show (Function.update replica.rosters space none other).isSome = true
    rwa [Function.update_of_ne hne]
  · intro other roster hroster
    dsimp only at hroster
    by_cases heq : other = space
    · subst heq
      simp at hroster
    · rw [Function.update_of_ne heq] at hroster
      exact h.rosters other roster hroster

theorem Kept.dropped (h : Kept loro replica) :
    Kept loro { replica with cache := fun _ => none, polluted := [] } :=
  { h with
    cache := fun _ _ hcache => nomatch hcache
    editing := fun _ _ _ hcache => nomatch hcache }

/-! ### Lookups -/

/-- A lookup of the version is begun, or goes on. -/
theorem Kept.of_lookups (h : Kept loro replica) {lookups : List (Lookup V)}
    (hlookups : ∀ lookup ∈ lookups, lookup ∈ replica.lookups ∨ (lookup.overlapped = false →
      ∀ version ∈ lookup.read, ¬ replica.Changed lookup.doc ∧
        (replica.stored lookup.doc).map loro.oplogVv = some version)) :
    Kept loro { replica with lookups := lookups } := by
  refine { h with lookups := ?_ }
  intro lookup hlookup
  rcases hlookups lookup hlookup with hbefore | hfound
  · exact h.lookups lookup hbefore
  · exact hfound

theorem changed_iff {tx : Tx D} (htx : replica.tx = some tx) {doc : DocRef} :
    doc ∈ tx.changed ↔ doc ∈ tx.fresh ∨ replica.Changed doc := by
  unfold Tx.changed Tx.written Changed Written saved forgotten edited
  simp [htx, or_assoc]

/-- **What memory has of an untouched document** is what is stored, unless it is covered. -/
theorem Kept.stored_of_cache (h : Kept loro replica) {doc : DocRef} {content : D}
    (hchanged : ∀ tx ∈ replica.tx, doc ∉ tx.changed) (hcache : replica.cache doc = some content) :
    replica.stored doc = some content ∨ replica.Covered doc := by
  cases htx : replica.tx with
  | none => exact h.stored_of_idle htx hcache
  | some tx =>
      have hnot := hchanged tx htx
      rw [changed_iff htx, not_or, Changed, not_or] at hnot
      obtain ⟨hfresh, hwritten, hedited⟩ := hnot
      refine (h.cache doc content hcache).imp_left fun hcurrent => ?_
      rw [current_of_ne hedited] at hcurrent
      rw [← h.rows doc hwritten]
      simpa [seen, fresh, htx, hfresh] using hcurrent

theorem Kept.asked (h : Kept loro replica) {doc : DocRef}
    (hdigest : (replica.digests doc).isNone = true) :
    Kept loro { replica with
      lookups := ⟨doc, (replica.cache doc).map loro.oplogVv,
        decide (∃ tx ∈ replica.tx, doc ∈ tx.changed)⟩ :: replica.lookups } := by
  apply h.of_lookups
  intro lookup hlookup
  rcases List.mem_cons.1 hlookup with rfl | hlookup
  · right
    intro hoverlapped version hread
    have hnot := of_decide_eq_false hoverlapped
    push Not at hnot
    have hchanged : ¬ replica.Changed doc := by
      intro hchanged
      cases htx : replica.tx with
      | none => exact not_changed_of_idle htx doc hchanged
      | some tx => exact hnot tx htx ((changed_iff htx).2 (.inr hchanged))
    obtain ⟨content, hcache, rfl⟩ := Option.map_eq_some_iff.1 hread
    have hstored := (h.stored_of_cache hnot hcache).resolve_right fun hcovered => by
      simpa [Option.isNone_iff_eq_none.1 hdigest] using hcovered.digest
    rw [hstored]
    exact ⟨hchanged, rfl⟩
  · exact .inl hlookup

theorem Kept.noted (h : Kept loro replica) {i : ℕ} {found : Lookup V} {version : V}
    (hfound : replica.lookups[i]? = some found) (hoverlapped : found.overlapped = false)
    (hread : found.read = some version) :
    Kept loro { replica with
      digests := Function.update replica.digests found.doc (some version)
      lookups := replica.lookups.eraseIdx i } := by
  obtain ⟨hchanged, hversion⟩ :=
    h.lookups found (List.mem_of_getElem? hfound) hoverlapped version hread
  refine { h with cache := ?_, digests := ?_, lookups := ?_ }
  · intro doc content hcache
    refine (h.cache doc content hcache).imp_right fun hcovered => ?_
    refine hcovered.mono hcovered.1 (fun hsome => ?_) fun _ _ => id
    show (Function.update replica.digests found.doc (some version) doc).isSome = true
    by_cases heq : doc = found.doc
    · simp [heq]
    · rwa [Function.update_of_ne heq]
  · intro doc other hdigest
    dsimp only at hdigest
    by_cases heq : doc = found.doc
    · subst heq
      rw [Function.update_self] at hdigest
      obtain rfl := Option.some.inj hdigest
      exact ⟨fun hwritten => hchanged (.inl hwritten), hversion⟩
    · rw [Function.update_of_ne heq] at hdigest
      exact h.digests doc other hdigest
  · intro lookup hlookup
    exact h.lookups lookup (List.mem_of_mem_eraseIdx hlookup)

theorem Kept.rosterNoted (h : Kept loro replica) {i : ℕ} {found : RosterLookup}
    (hfound : replica.rosterLookups[i]? = some found) (hoverlapped : found.overlapped = false)
    (hunread : found.unread = false) :
    Kept loro { replica with
      rosters := Function.update replica.rosters found.space (some found.roster)
      rosterLookups := replica.rosterLookups.eraseIdx i } := by
  obtain ⟨hchanged, hroster⟩ :=
    h.rosterLookups found (List.mem_of_getElem? hfound) hoverlapped hunread
  refine { h with cache := ?_, rosters := ?_, rosterLookups := ?_ }
  · intro doc content hcache
    refine (h.cache doc content hcache).imp_right fun hcovered => ?_
    refine hcovered.mono hcovered.1 id fun space _ hsome => ?_
    show (Function.update replica.rosters found.space (some found.roster) space).isSome = true
    by_cases heq : space = found.space
    · simp [heq]
    · rwa [Function.update_of_ne heq]
  · intro space roster hnoted
    dsimp only at hnoted
    by_cases heq : space = found.space
    · subst heq
      rw [Function.update_self] at hnoted
      obtain rfl := Option.some.inj hnoted
      exact ⟨fun _ => hroster, fun hsaved => absurd (.inl (.inl hsaved)) hchanged⟩
    · rw [Function.update_of_ne heq] at hnoted
      exact h.rosters space roster hnoted
  · intro lookup hlookup
    exact h.rosterLookups lookup (List.mem_of_mem_eraseIdx hlookup)

/-- A lookup that has waited for the database reads what is committed. -/
theorem Kept.loaded (h : Kept loro replica) (htx : replica.tx = none) (i : ℕ) (doc : DocRef) :
    Kept loro { replica with
      lookups := match replica.stored doc with
        | some content => replica.lookups.set i ⟨doc, some (loro.oplogVv content), false⟩
        | none => replica.lookups.eraseIdx i } := by
  apply h.of_lookups
  intro lookup hlookup
  cases hstored : replica.stored doc with
  | none =>
      rw [hstored] at hlookup
      exact .inl (List.mem_of_mem_eraseIdx hlookup)
  | some content =>
      rw [hstored] at hlookup
      rcases List.mem_or_eq_of_mem_set hlookup with hlookup | rfl
      · exact .inl hlookup
      · right
        rintro - version hread
        obtain rfl := Option.some.inj hread
        refine ⟨not_changed_of_idle htx doc, ?_⟩
        rw [hstored]
        rfl

/-- A roster is read, by a lookup that will note it some time later. -/
theorem Kept.of_rosterLookup (h : Kept loro replica) {found : RosterLookup}
    (hfound : found.overlapped = false → found.unread = false →
      ¬ replica.Changed (.roster found.space) ∧ found.roster =
        loadRoster loro (replica.stored (.roster found.space)) (replica.removed found.space)) :
    Kept loro { replica with rosterLookups := found :: replica.rosterLookups } := by
  refine { h with rosterLookups := ?_ }
  intro lookup hlookup
  rcases List.mem_cons.1 hlookup with rfl | hlookup
  · exact hfound
  · exact h.rosterLookups lookup hlookup

theorem Kept.rosterLoaded (h : Kept loro replica) (htx : replica.tx = none) (space : String) :
    Kept loro { replica with
      cache := replica.cached replica.stored (.roster space)
      rosterLookups := ⟨space,
        loadRoster loro (replica.factDoc replica.stored (.roster space)) (replica.removed space),
        decide (.roster space ∈ replica.polluted), false⟩ :: replica.rosterLookups } := by
  have hrows : replica.rows = replica.stored := by simp [Replica.rows, htx]
  have hcached := h.cached (.roster space) (by simp [Replica.edited, htx])
  rw [hrows] at hcached
  refine hcached.of_rosterLookup fun hoverlapped _ => ⟨not_changed_of_idle htx _, ?_⟩
  have hclean := of_decide_eq_false hoverlapped
  dsimp only
  unfold factDoc
  cases hcache : replica.cache (.roster space) with
  | none => rfl
  | some content =>
      rw [(h.stored_of_idle htx hcache).resolve_right fun hcovered => hclean hcovered.1]
      rfl

/-! ### Transactions -/

theorem mem_lookups_overlap {doc : DocRef} {lookup : Lookup V}
    (hlookup : lookup ∈ (replica.overlap doc).lookups) (hoverlapped : lookup.overlapped = false) :
    lookup ∈ replica.lookups ∧ lookup.doc ≠ doc := by
  obtain ⟨before, hbefore, heq⟩ := List.mem_map.1 hlookup
  split at heq
  · subst heq
    exact nomatch hoverlapped
  · rename_i hne
    subst heq
    exact ⟨hbefore, hne⟩

theorem mem_rosterLookups_overlap {doc : DocRef} {lookup : RosterLookup}
    (hlookup : lookup ∈ (replica.overlap doc).rosterLookups)
    (hoverlapped : lookup.overlapped = false) :
    lookup ∈ replica.rosterLookups ∧ .roster lookup.space ≠ doc := by
  obtain ⟨before, hbefore, heq⟩ := List.mem_map.1 hlookup
  split at heq
  · subst heq
    exact nomatch hoverlapped
  · rename_i hne
    subst heq
    exact ⟨hbefore, hne⟩

/-- Lookups of a document that is being changed are not noted; of the others, what is changed of
other documents does not count. -/
theorem Kept.overlap (h : Kept loro replica) (doc : DocRef)
    (changed : DocRef → Prop) (hchanged : ∀ other, other ≠ doc → changed other →
      replica.Changed other) :
    (∀ lookup ∈ (replica.overlap doc).lookups, lookup.overlapped = false →
      ∀ version ∈ lookup.read, ¬ changed lookup.doc ∧
        (replica.stored lookup.doc).map loro.oplogVv = some version) ∧
    ∀ lookup ∈ (replica.overlap doc).rosterLookups, lookup.overlapped = false →
      lookup.unread = false → ¬ changed (.roster lookup.space) ∧
        lookup.roster = loadRoster loro (replica.stored (.roster lookup.space))
          (replica.removed lookup.space) := by
  constructor
  · intro lookup hlookup hoverlapped version hread
    obtain ⟨hlookup, hne⟩ := mem_lookups_overlap hlookup hoverlapped
    obtain ⟨hbefore, hversion⟩ := h.lookups lookup hlookup hoverlapped version hread
    exact ⟨fun hnow => hbefore (hchanged _ hne hnow), hversion⟩
  · intro lookup hlookup hoverlapped hunread
    obtain ⟨hlookup, hne⟩ := mem_rosterLookups_overlap hlookup hoverlapped
    obtain ⟨hbefore, hroster⟩ := h.rosterLookups lookup hlookup hoverlapped hunread
    exact ⟨fun hnow => hbefore (hchanged _ hne hnow), hroster⟩

/-- A new document is put in memory, which has no row. -/
theorem Kept.created (h : Kept loro replica) (htx : replica.tx = some tx) {doc : DocRef}
    (hediting : tx.editing.map Prod.fst ≠ some doc)
    (hnone : replica.factDoc tx.stored doc = none) :
    Kept loro { replica with
      cache := Function.update replica.cache doc (some loro.new)
      tx := some { tx with fresh := doc :: tx.fresh } } := by
  obtain ⟨stored, removed, cache, digests, rosters, before, polluted, lookups, rosterLookups⟩ :=
    replica
  obtain rfl : before = some tx := htx
  obtain ⟨-, hrow⟩ := Option.or_eq_none_iff.1 hnone
  refine { h with cache := ?_, editing := ?_ }
  · intro other content hcache
    by_cases heq : other = doc
    · subst heq
      left
      obtain rfl : loro.new = content := by simpa using hcache
      refine (current_of_ne hediting).trans ?_
      simp [seen, Replica.rows, fresh, hrow]
    · refine (h.cache other content (by simpa [heq] using hcache)).imp_left fun hcurrent => ?_
      have hmem : other ∈ doc :: tx.fresh ↔ other ∈ tx.fresh := by simp [heq]
      refine Eq.trans ?_ hcurrent
      exact current_congr rfl (seen_congr rfl hmem)
  · intro entry hentry content hcache
    have hne : entry.1 ≠ doc := by
      rintro rfl
      exact hediting (congrArg (Option.map Prod.fst) hentry)
    exact h.editing entry hentry content (by simpa [hne] using hcache)

/-- A document is edited, in memory too where it is there. -/
theorem Kept.edited (h : Kept loro replica) (htx : replica.tx = some tx) {doc : DocRef}
    (hediting : ∀ edited ∈ tx.editing.map Prod.fst, edited = doc) {content : D} {cached : Option D}
    (hcached : ∀ c ∈ cached, c = content) :
    Kept loro ({ replica with
      cache := Function.update replica.cache doc cached
      tx := some { tx with editing := some (doc, content) } }.overlap doc) := by
  obtain ⟨stored, removed, cache, digests, rosters, before, polluted, lookups, rosterLookups⟩ :=
    replica
  obtain rfl : before = some tx := htx
  -- nothing else was edited
  have hnot : ∀ other, other ≠ doc → tx.editing.map Prod.fst ≠ some other := by
    intro other hne hedited
    exact hne (hediting other hedited)
  obtain ⟨hlookups, hrosterLookups⟩ := h.overlap doc
    (fun other => other ∈ tx.saved ∨ other ∈ tx.forgotten ∨ some doc = some other)
    (by
      rintro other hne (hsaved | hforgotten | heq)
      · exact .inl (.inl hsaved)
      · exact .inl (.inr hforgotten)
      · exact absurd (Option.some.inj heq).symm hne)
  refine { rows := h.rows, digests := h.digests, removed := ?_, cache := ?_, editing := ?_,
           lookups := ?_, rosters := ?_, rosterLookups := ?_ }
  · intro space hspace
    refine h.removed space fun hbefore => hspace ?_
    rcases hbefore with hwritten | hedited
    · exact .inl hwritten
    · exact .inr (congrArg some (hediting _ hedited).symm)
  · intro other c hc
    by_cases heq : other = doc
    · subst heq
      left
      rw [hcached c (by simpa [Replica.overlap] using hc)]
      simp [current, Replica.edited, Replica.overlap]
    · have hbefore : cache other = some c := by simpa [Replica.overlap, heq] using hc
      refine (h.cache other c hbefore).imp_left fun hcurrent => ?_
      rw [current_of_ne (hnot other heq)] at hcurrent
      rw [current_of_ne (by simpa [Replica.edited, Replica.overlap] using Ne.symm heq)]
      exact hcurrent
  · intro entry hentry c hc
    obtain rfl := Option.some.inj hentry
    exact hcached c (by simpa [Replica.overlap] using hc)
  · intro lookup hlookup hoverlapped version hread
    refine (hlookups lookup hlookup hoverlapped version hread).imp_left fun hchanged hnow => ?_
    exact hchanged (or_assoc.1 hnow)
  · intro space roster hroster
    obtain ⟨hstored, hseen⟩ := h.rosters space roster hroster
    refine ⟨hstored, fun hsaved hforgotten hne => hseen hsaved hforgotten (hnot _ ?_)⟩
    intro heq
    exact hne (congrArg some heq.symm)
  · intro lookup hlookup hoverlapped hunread
    refine (hrosterLookups lookup hlookup hoverlapped hunread).imp_left fun hchanged hnow => ?_
    exact hchanged (or_assoc.1 hnow)

/-- What was edited is saved: the row is what was edited, there is no digest of it, and if it is
a roster the one in memory is that of the rows. -/
theorem Kept.saved (h : Kept loro replica) (htx : replica.tx = some tx) {doc : DocRef} {content : D}
    (hediting : tx.editing = some (doc, content)) (saidRosters : String → Option Roster)
    (hself : ∀ space roster, .roster space = doc → saidRosters space = some roster →
      roster = loadRoster loro (some content) (tx.removed space))
    (hother : ∀ space, .roster space ≠ doc → saidRosters space = replica.rosters space) :
    Kept loro { replica with
      digests := Function.update replica.digests doc none
      rosters := saidRosters
      polluted := replica.clean doc
      tx := some { tx with
        stored := Function.update tx.stored doc (some content)
        editing := none
        saved := doc :: tx.saved
        forgotten := tx.forgotten.filter (· ≠ doc) } } := by
  obtain ⟨stored, removed, cache, digests, rosters, before, polluted, lookups, rosterLookups⟩ :=
    replica
  obtain rfl : before = some tx := htx
  have hmem : ∀ other, other ≠ doc → (other ∈ tx.forgotten.filter (· ≠ doc) ↔
      other ∈ tx.forgotten) := by
    intro other hne
    simp [hne]
  have hwritten : ∀ other, (other ∈ doc :: tx.saved ∨ other ∈ tx.forgotten.filter (· ≠ doc)) ↔
      other = doc ∨ other ∈ tx.saved ∨ other ∈ tx.forgotten := by
    intro other
    by_cases heq : other = doc <;> simp [heq]
  have hchanged : ∀ other, ((other ∈ doc :: tx.saved ∨ other ∈ tx.forgotten.filter (· ≠ doc)) ∨
      none = some other) ↔ (other ∈ tx.saved ∨ other ∈ tx.forgotten) ∨
        tx.editing.map Prod.fst = some other := by
    intro other
    rw [hwritten, hediting]
    simp [or_comm, eq_comm]
  constructor
  · intro other hnot
    obtain ⟨hne, hnot⟩ := not_or.1 fun hnow => hnot ((hwritten other).2 hnow)
    exact (Function.update_of_ne hne _ _).trans (h.rows other hnot)
  · intro space hspace
    exact h.removed space fun hbefore => hspace ((hchanged _).2 hbefore)
  · intro other c hc
    by_cases heq : other = doc
    · subst heq
      left
      obtain rfl := h.editing (other, content) hediting c hc
      simp [current, seen, Replica.edited, Replica.rows]
    · refine (h.cache other c hc).imp (fun hcurrent => ?_) fun hcovered => ?_
      · have hne : tx.editing.map Prod.fst ≠ some other := by simp [hediting, Ne.symm heq]
        rw [current_of_ne hne] at hcurrent
        refine (current_of_ne (by simp [Replica.edited])).trans (Eq.trans ?_ hcurrent)
        exact seen_congr (Function.update_of_ne heq _ _) Iff.rfl
      · refine hcovered.mono (mem_clean heq hcovered.1) (fun hsome => ?_)
          fun space hspace hsome => ?_
        · simpa [Function.update_of_ne heq] using hsome
        · subst hspace
          rw [show Replica.rosters _ space = rosters space from hother space heq]
          exact hsome
  · exact fun entry hentry => nomatch hentry
  · intro other version hdigest
    have hne : other ≠ doc := by
      rintro rfl
      simp at hdigest
    obtain ⟨hnot, hversion⟩ := h.digests other version (by simpa [hne] using hdigest)
    exact ⟨fun hnow => hnot (((hwritten other).1 hnow).resolve_left hne), hversion⟩
  · intro lookup hlookup hoverlapped version hread
    refine (h.lookups lookup hlookup hoverlapped version hread).imp_left fun hbefore hnow => ?_
    exact hbefore ((hchanged _).1 hnow)
  · intro space roster hroster
    by_cases hspace : DocRef.roster space = doc
    · refine ⟨fun hnot => absurd (hspace ▸ List.mem_cons_self) hnot, fun _ _ _ => ?_⟩
      refine (hself space roster hspace hroster).trans ?_
      simp [Replica.rows, removedRows, hspace]
    · obtain ⟨hstored, hseen⟩ :=
        h.rosters space roster ((hother space hspace).symm.trans hroster)
      constructor
      · intro hnot
        exact hstored fun hbefore => hnot (List.mem_cons_of_mem doc hbefore)
      · intro hnow hforgotten _
        have hloaded := hseen ((List.mem_cons.1 hnow).resolve_left hspace)
          (fun hbefore => hforgotten ((hmem _ hspace).2 hbefore))
          (by simpa [Replica.edited, hediting] using Ne.symm hspace)
        refine hloaded.trans ?_
        simp [Replica.rows, removedRows, Function.update_of_ne hspace]
  · intro lookup hlookup hoverlapped hunread
    refine (h.rosterLookups lookup hlookup hoverlapped hunread).imp_left fun hbefore hnow => ?_
    exact hbefore ((hchanged _).1 hnow)

/-- A document is forgotten. -/
theorem Kept.forgotten (h : Kept loro replica) (htx : replica.tx = some tx)
    (hediting : tx.editing = none) (doc : DocRef) :
    Kept loro ({ replica with
      cache := Function.update replica.cache doc none
      digests := Function.update replica.digests doc none
      polluted := replica.clean doc
      tx := some { tx with
        stored := Function.update tx.stored doc none
        forgotten := doc :: tx.forgotten } }.overlap doc) := by
  obtain ⟨stored, removed, cache, digests, rosters, before, polluted, lookups, rosterLookups⟩ :=
    replica
  obtain rfl : before = some tx := htx
  have hidle : ∀ other, tx.editing.map Prod.fst ≠ some other := by simp [hediting]
  obtain ⟨hlookups, hrosterLookups⟩ := h.overlap doc
    (fun other => (other ∈ tx.saved ∨ other ∈ doc :: tx.forgotten) ∨
      tx.editing.map Prod.fst = some other)
    (by
      rintro other hne ((hsaved | hforgotten) | hedited)
      · exact .inl (.inl hsaved)
      · exact .inl (.inr ((List.mem_cons.1 hforgotten).resolve_left hne))
      · exact absurd hedited (hidle other))
  refine { lookups := hlookups, rosterLookups := hrosterLookups, rows := ?_, removed := ?_,
           cache := ?_, editing := ?_, digests := ?_, rosters := ?_ }
  · intro other hnot
    obtain ⟨hsaved, hforgotten⟩ := not_or.1 hnot
    obtain ⟨hne, hforgotten⟩ := not_or.1 fun hnow => hforgotten (List.mem_cons.2 hnow)
    exact (Function.update_of_ne hne _ _).trans (h.rows other (not_or.2 ⟨hsaved, hforgotten⟩))
  · intro space hspace
    refine h.removed space fun hbefore => hspace ?_
    rcases hbefore with (hsaved | hforgotten) | hedited
    · exact .inl (.inl hsaved)
    · exact .inl (.inr (List.mem_cons_of_mem doc hforgotten))
    · exact .inr hedited
  · intro other c hc
    have hne : other ≠ doc := by
      rintro rfl
      simp [Replica.overlap] at hc
    refine (h.cache other c (by simpa [Replica.overlap, hne] using hc)).imp
      (fun hcurrent => ?_) fun hcovered => ?_
    · rw [current_of_ne (hidle other)] at hcurrent
      refine (current_of_ne (hidle other)).trans (Eq.trans ?_ hcurrent)
      exact seen_congr (Function.update_of_ne hne _ _) Iff.rfl
    · refine hcovered.mono (mem_clean hne hcovered.1) (fun hsome => ?_) fun _ _ => id
      simpa [Replica.overlap, hne] using hsome
  · intro entry hentry
    exact nomatch hediting.symm.trans hentry
  · intro other version hdigest
    have hne : other ≠ doc := by
      rintro rfl
      simp [Replica.overlap] at hdigest
    obtain ⟨hnot, hversion⟩ :=
      h.digests other version (by simpa [Replica.overlap, hne] using hdigest)
    refine ⟨fun hnow => hnot (hnow.imp_right fun hforgotten => ?_), hversion⟩
    exact (List.mem_cons.1 hforgotten).resolve_left hne
  · intro space roster hroster
    obtain ⟨hstored, hseen⟩ := h.rosters space roster hroster
    refine ⟨hstored, fun hsaved hforgotten hne => ?_⟩
    obtain ⟨hspace, hforgotten⟩ := not_or.1 fun hnow => hforgotten (List.mem_cons.2 hnow)
    refine (hseen hsaved hforgotten hne).trans ?_
    simp [Replica.rows, removedRows, Replica.overlap, Function.update_of_ne hspace]

/-- A device is marked as removed while the roster is edited. -/
theorem Kept.markedRemoved (h : Kept loro replica) (htx : replica.tx = some tx) {space : String}
    {content : D} (hediting : tx.editing = some (.roster space, content)) (device : String) :
    Kept loro { replica with
      tx := some { tx with
        removed := Function.update tx.removed space (device :: tx.removed space) } } := by
  obtain ⟨stored, removed, cache, digests, rosters, before, polluted, lookups, rosterLookups⟩ :=
    replica
  obtain rfl : before = some tx := htx
  have hedited : tx.editing.map Prod.fst = some (.roster space) :=
    congrArg (Option.map Prod.fst) hediting
  refine { h with removed := ?_, rosters := ?_ }
  · intro other hother
    have hne : other ≠ space := by
      rintro rfl
      exact hother (.inr hedited)
    exact (Function.update_of_ne hne _ _).trans (h.removed other hother)
  · intro other roster hroster
    obtain ⟨hstored, hseen⟩ := h.rosters other roster hroster
    refine ⟨hstored, fun hsaved hforgotten hnotEdited => ?_⟩
    have hne : other ≠ space := by
      rintro rfl
      exact hnotEdited hedited
    refine (hseen hsaved hforgotten hnotEdited).trans ?_
    simp [Replica.rows, removedRows, Function.update_of_ne hne]

/-- A transaction begins with the committed rows. -/
theorem Kept.begun (h : Kept loro replica) (htx : replica.tx = none) :
    Kept loro { replica with
      tx := some ⟨replica.stored, replica.removed, none, [], [], []⟩ } := by
  obtain ⟨stored, removed, cache, digests, rosters, before, polluted, lookups, rosterLookups⟩ :=
    replica
  obtain rfl : before = none := htx
  exact { h with }

/-- A transaction commits when what it edited is saved. -/
theorem Kept.committed (h : Kept loro replica) (htx : replica.tx = some tx)
    (hediting : tx.editing = none)
    (hfresh : ∀ doc ∈ tx.fresh, (tx.stored doc).isSome ∨ (replica.cache doc).isNone)
    (hforgotten : ∀ doc ∈ tx.forgotten, (replica.rosterOf doc).isNone) :
    Kept loro { replica with stored := tx.stored, removed := tx.removed, tx := none } := by
  obtain ⟨stored, removed, cache, digests, rosters, before, polluted, lookups, rosterLookups⟩ :=
    replica
  obtain rfl : before = some tx := htx
  have hidle : ∀ doc, tx.editing.map Prod.fst ≠ some doc := by simp [hediting]
  have hnow : ∀ doc, ¬ ((doc ∈ ([] : List DocRef) ∨ doc ∈ ([] : List DocRef)) ∨
      (none : Option (DocRef × D)).map Prod.fst = some doc) := by simp
  -- what no transaction changed is in its rows as it was
  have hsame : ∀ doc, ¬ (doc ∈ tx.saved ∨ doc ∈ tx.forgotten) → tx.stored doc = stored doc :=
    h.rows
  have hremoved : ∀ space, ¬ (.roster space ∈ tx.saved ∨ .roster space ∈ tx.forgotten) →
      tx.removed space = removed space := by
    intro space hnot
    exact h.removed space (not_or.2 ⟨hnot, hidle _⟩)
  refine { rows := fun _ _ => rfl, removed := fun _ _ => rfl, cache := ?_, editing := ?_,
           digests := ?_, lookups := ?_, rosters := ?_, rosterLookups := ?_ }
  · intro doc content hcache
    refine (h.cache doc content hcache).imp_left fun hcurrent => ?_
    rw [current_of_ne (hidle doc)] at hcurrent
    rcases Option.or_eq_some_iff.1 hcurrent with hrow | ⟨hrow, hnew⟩
    · exact (current_of_idle rfl).trans hrow
    · -- a new document that was not saved is out of memory
      split at hnew
      · rename_i hmem
        have hrow' : tx.stored doc = none := hrow
        have hcache' : cache doc = some content := hcache
        rcases hfresh doc hmem with hsome | hnone
        · simp [hrow'] at hsome
        · simp [hcache'] at hnone
      · exact nomatch hnew
  · exact fun entry hentry => nomatch hentry
  · intro doc version hdigest
    obtain ⟨hnot, hversion⟩ := h.digests doc version hdigest
    exact ⟨fun hwritten => hnow doc (.inl hwritten), (congrArg _ (hsame doc hnot)).trans hversion⟩
  · intro lookup hlookup hoverlapped version hread
    obtain ⟨hbefore, hversion⟩ := h.lookups lookup hlookup hoverlapped version hread
    exact ⟨hnow _, (congrArg _ (hsame _ (not_or.1 hbefore).1)).trans hversion⟩
  · intro space roster hroster
    obtain ⟨hstored, hseen⟩ := h.rosters space roster hroster
    have hkept : .roster space ∉ tx.forgotten := by
      intro hmem
      have hroster' : rosters space = some roster := hroster
      have hnone : (rosters space).isNone = true := hforgotten _ hmem
      simp [hroster'] at hnone
    refine ⟨fun _ => ?_, fun hsaved => absurd hsaved List.not_mem_nil⟩
    by_cases hsaved : .roster space ∈ tx.saved
    · exact hseen hsaved hkept (hidle _)
    · have hnot := not_or.2 ⟨hsaved, hkept⟩
      show roster = loadRoster loro (tx.stored (.roster space)) (tx.removed space)
      rw [hremoved space hnot, hsame _ hnot]
      exact hstored hsaved
  · intro lookup hlookup hoverlapped hunread
    obtain ⟨hbefore, hroster⟩ := h.rosterLookups lookup hlookup hoverlapped hunread
    have hnot := (not_or.1 hbefore).1
    refine ⟨hnow _, ?_⟩
    show lookup.roster =
      loadRoster loro (tx.stored (.roster lookup.space)) (tx.removed lookup.space)
    rw [hremoved lookup.space hnot, hsame _ hnot]
    exact hroster

/-- A transaction that has hidden what it changed, and saved no roster, fails. -/
theorem Kept.failed (h : Kept loro replica) (htx : replica.tx = some tx)
    (hhidden : ∀ doc ∈ tx.changed, replica.hidden doc = true)
    (hrosters : ∀ doc ∈ tx.saved, doc.isRoster = false) :
    Kept loro { replica with tx := none, polluted := tx.changed ++ replica.polluted } := by
  have hnow : ∀ doc, ¬ ((doc ∈ ([] : List DocRef) ∨ doc ∈ ([] : List DocRef)) ∨
      (none : Option (DocRef × D)).map Prod.fst = some doc) := by simp
  refine { rows := fun _ _ => rfl, removed := fun _ _ => rfl, cache := ?_, editing := ?_,
           digests := ?_, lookups := ?_, rosters := ?_, rosterLookups := ?_ }
  · intro doc content hcache
    by_cases hchanged : doc ∈ tx.changed
    · right
      have hanswered := Bool.or_eq_true_iff.1 (hhidden doc hchanged)
      refine ⟨List.mem_append_left _ hchanged, hanswered.resolve_left fun hnone => ?_⟩
      have hcache' : replica.cache doc = some content := hcache
      simp [hcache'] at hnone
    · have hnot : ∀ other ∈ replica.tx, doc ∉ other.changed := by
        intro other hother
        obtain rfl := Option.some.inj (htx.symm.trans hother)
        exact hchanged
      refine (h.stored_of_cache hnot hcache).imp (current_of_idle rfl).trans fun hcovered => ?_
      exact hcovered.mono (List.mem_append_right _ hcovered.1) id fun _ _ => id
  · exact fun entry hentry => nomatch hentry
  · intro doc version hdigest
    exact ⟨fun hwritten => hnow doc (.inl hwritten), (h.digests doc version hdigest).2⟩
  · intro lookup hlookup hoverlapped version hread
    exact ⟨hnow _, (h.lookups lookup hlookup hoverlapped version hread).2⟩
  · intro space roster hroster
    refine ⟨fun _ => (h.rosters space roster hroster).1 fun hsaved => ?_,
      fun hsaved => absurd hsaved List.not_mem_nil⟩
    have hnot := hrosters (.roster space) (by simpa [Replica.saved, htx] using hsaved)
    exact nomatch hnot
  · intro lookup hlookup hoverlapped hunread
    exact ⟨hnow _, (h.rosterLookups lookup hlookup hoverlapped hunread).2⟩

/-! ### Every step, and runs -/

theorem Kept.stepTx (h : Kept loro replica) (htx : replica.tx = some tx) {event : Event D}
    (hallowed : Allowed replica event)
    (hstep : Replica.stepTx loro replica tx event = some replica') : Kept loro replica' := by
  have hrows : replica.rows = tx.stored := by simp [Replica.rows, htx]
  have hedited : replica.edited = tx.editing := by simp [Replica.edited, htx]
  unfold Replica.stepTx at hstep
  split at hstep
  · rename_i doc
    split at hstep
    · exact nomatch hstep
    · rename_i hne
      obtain rfl := Option.some.inj hstep
      exact hrows ▸ h.cached doc (hedited ▸ hne)
  · rename_i doc
    split at hstep
    · exact nomatch hstep
    · rename_i hnot
      obtain ⟨hne, hnone⟩ := not_or.1 hnot
      obtain rfl := Option.some.inj hstep
      exact h.created htx hne (Option.not_isSome_iff_eq_none.1 hnone)
  · rename_i doc content
    split at hstep
    · rename_i hediting
      obtain rfl := Option.some.inj hstep
      exact h.edited htx (by simp [hediting]) (by simp)
    · rename_i edited before hediting
      split at hstep
      · rename_i heq
        obtain rfl := Option.some.inj hstep
        exact h.edited htx (by simp [hediting, heq]) (by simp)
      · exact nomatch hstep
  · obtain ⟨⟨doc, content⟩, hediting, heq⟩ := Option.map_eq_some_iff.1 hstep
    cases doc with
    | roster space =>
        obtain rfl := heq
        -- the roster is read of what was saved
        have hfact : replica.factDoc
            (Function.update tx.stored (.roster space) (some content)) (.roster space) =
              some content := by
          unfold factDoc
          cases hcache : replica.cache (.roster space) with
          | none => simp
          | some c =>
              have hsame := h.editing (.roster space, content) (hedited.trans hediting) c hcache
              simp [hsame]
        dsimp only
        rw [hfact]
        refine (h.saved htx hediting (Function.update replica.rosters space
          (some (loadRoster loro (some content) (tx.removed space)))) ?_ ?_).cached
            (.roster space) (by simp [Replica.edited])
        · rintro other roster heq hroster
          obtain rfl := DocRef.roster.inj heq
          simpa using hroster.symm
        · intro other hne
          exact Function.update_of_ne (fun heq => hne (congrArg _ heq)) _ _
    | recording | topic | library =>
        obtain rfl := heq
        exact h.saved htx hediting replica.rosters (fun _ _ heq => nomatch heq) fun _ _ => rfl
  · rename_i doc
    split at hstep
    · rename_i hediting
      obtain rfl := Option.some.inj hstep
      exact h.forgotten htx (Option.isNone_iff_eq_none.1 hediting) doc
    · exact nomatch hstep
  · split at hstep
    · rename_i hediting
      obtain rfl := Option.some.inj hstep
      exact h.markedRemoved htx hediting _
    · exact nomatch hstep
  · split at hstep
    · rename_i hediting
      obtain rfl := Option.some.inj hstep
      obtain ⟨hfresh, hforgotten⟩ := hallowed tx htx
      exact h.committed htx (Option.isNone_iff_eq_none.1 hediting) hfresh hforgotten
    · exact nomatch hstep
  · obtain rfl := Option.some.inj hstep
    exact h.failed htx (hallowed tx htx).1 (hallowed tx htx).2
  · exact nomatch hstep

theorem Kept.stepIdle (h : Kept loro replica) (htx : replica.tx = none) {event : Event D}
    (hstep : Replica.stepIdle loro replica event = some replica') : Kept loro replica' := by
  have hrows : replica.rows = replica.stored := by simp [Replica.rows, htx]
  unfold Replica.stepIdle at hstep
  split at hstep
  · obtain rfl := Option.some.inj hstep
    exact h.begun htx
  · rename_i doc
    obtain rfl := Option.some.inj hstep
    have hidle : replica.edited.map Prod.fst ≠ some doc := by simp [Replica.edited, htx]
    exact hrows ▸ h.cached doc hidle
  · rename_i i
    obtain ⟨waiting, hwaiting, hloaded⟩ := Option.bind_eq_some_iff.1 hstep
    split at hloaded
    · obtain rfl := Option.some.inj hloaded
      exact h.loaded htx i waiting.doc
    · exact nomatch hloaded
  · rename_i space
    obtain rfl := Option.some.inj hstep
    exact h.rosterLoaded htx space
  · obtain rfl := Option.some.inj hstep
    exact h.of_rosterLookup fun _ hunread => nomatch hunread
  · exact nomatch hstep

/-- **Every allowed step keeps it.** -/
theorem Kept.step (h : Kept loro replica) {event : Event D} (hallowed : Allowed replica event)
    (hstep : Replica.step loro replica event = some replica') : Kept loro replica' := by
  unfold Replica.step at hstep
  split at hstep
  · obtain rfl := Option.some.inj hstep
    exact h.dropped
  · obtain rfl := Option.some.inj hstep
    exact h.digestsDropped hallowed
  · obtain rfl := Option.some.inj hstep
    exact h.evicted _
  · obtain rfl := Option.some.inj hstep
    exact h.undigested hallowed
  · obtain rfl := Option.some.inj hstep
    exact h.unrostered hallowed
  · split at hstep
    · rename_i hdigest
      obtain rfl := Option.some.inj hstep
      exact h.asked hdigest
    · obtain rfl := Option.some.inj hstep
      exact h
  · obtain ⟨found, hfound, hnoted⟩ := Option.bind_eq_some_iff.1 hstep
    obtain ⟨version, hread, rfl⟩ := Option.map_eq_some_iff.1 hnoted
    exact h.noted hfound (hallowed found hfound) hread
  · obtain ⟨found, hfound, rfl⟩ := Option.map_eq_some_iff.1 hstep
    exact h.rosterNoted hfound (hallowed found hfound).1 (hallowed found hfound).2
  · split at hstep
    · rename_i tx htx
      exact h.stepTx htx hallowed hstep
    · rename_i htx
      exact h.stepIdle htx hstep

end Steps

end Caches
end ZuTalk
