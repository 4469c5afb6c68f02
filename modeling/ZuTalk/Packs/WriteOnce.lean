/-
# A snapshot is written once

The row of a snapshot is guarded, its key is not: `persist_run_snapshot` stores a new key under
the name of the run before it finds out that the run has a snapshot, and deletes that name when
it is refused.  So a second call, which is refused as it should be, takes the first one's key
with it (`refused_call_takes_the_key`).

Along a run in which the keys of written snapshots are left alone (`Fit`), what was persisted
stays readable, and no step but the guarded update can be seen by a load
(`snapshots_stay_readable`).
-/

import ZuTalk.Packs.Snapshot

namespace ZuTalk
namespace Packs

open Machine Recorder

theorem snapshotKeyRef_inj {run run' : String} (h : snapshotKeyRef run = snapshotKeyRef run') :
    run = run' := by
  unfold snapshotKeyRef at h
  have hchars : "zutalk.context-snapshot.".toList ++ run.toList =
      "zutalk.context-snapshot.".toList ++ run'.toList := by
    rw [← String.toList_append, ← String.toList_append, h]
  exact String.ext (List.append_cancel_left hchars)

theorem packKeyRef_ne (pack run : String) : packKeyRef pack ≠ snapshotKeyRef run := by
  intro h
  unfold packKeyRef snapshotKeyRef at h
  have hchars : "zutalk.context-pack.".toList ++ pack.toList =
      "zutalk.context-snapshot.".toList ++ run.toList := by
    rw [← String.toList_append, ← String.toList_append, h]
  simp at hchars

section

variable {Key Context Sources : Type} {serde : Serde Context Sources} {aead : Aead Key}

/-- A snapshot that was written is read back with its key. -/
theorem openSnapshot_of_valid (hserde : serde.Lawful) (haead : aead.Lawful) {run : String}
    {compilation : ContextCompilation Context Sources} {receiptJson : String} {key : Key}
    {nonce : Nonce} (hvalid : validateCompilation serde compilation = .ok ())
    (hreceipt : serde.receiptToString compilation.receipt = some receiptJson) :
    openSnapshot serde aead run ⟨receiptJson,
      encryptChunk aead key (utf8 compilation.contextJson) nonce, snapshotKeyRef run,
      compilation.receipt.contextSha256⟩ key = .ok compilation := by
  have hvalid' := hvalid
  unfold validateCompilation at hvalid'
  split at hvalid'
  · cases hvalid'
  · rename_i serialized hserialized
    split at hvalid'
    · cases hvalid'
    · rename_i hjson
      have hjson : serialized = compilation.contextJson := by simpa using hjson
      subst hjson
      split at hvalid'
      · cases hvalid'
      · split at hvalid'
        · cases hvalid'
        · rename_i hdigest
          have hsha : serde.sha256Hex (utf8 compilation.contextJson) =
              compilation.receipt.contextSha256 := by
            by_contra hne
            exact hdigest (.inl hne)
          unfold openSnapshot
          rw [decryptChunk_encryptChunk key haead]
          dsimp only
          rw [if_neg (by simpa using hsha), fromUtf8_utf8]
          dsimp only
          rw [hserde.context _ _ hserialized, hserde.receipt _ _ hreceipt]
          dsimp only
          rw [hvalid]

namespace Store

variable {store store' : Store Key Context Sources} {act : Act Key Context Sources}
  {thread : ℕ} {run : String} {compilation : ContextCompilation Context Sources}

/-- A snapshot that is read with its key. -/
def Opens (serde : Serde Context Sources) (aead : Aead Key) (store : Store Key Context Sources)
    (run : String) (found : Found) (compilation : ContextCompilation Context Sources) : Prop :=
  found.keyRef = snapshotKeyRef run ∧ ∃ key, store.keys (snapshotKeyRef run) = some key ∧
    openSnapshot serde aead run found key = .ok compilation

/-- What a caller has found out. -/
def Knows (serde : Serde Context Sources) (aead : Aead Key) (store : Store Key Context Sources) :
    Call Key Context Sources → Prop
  | .validated _ compilation => validateCompilation serde compilation = .ok ()
  | .keyed _ compilation _ => validateCompilation serde compilation = .ok ()
  | .encrypted _ compilation key receiptJson ciphertext =>
      validateCompilation serde compilation = .ok () ∧
        serde.receiptToString compilation.receipt = some receiptJson ∧
        ∃ nonce, ciphertext = encryptChunk aead key (utf8 compilation.contextJson) nonce
  | .looking run found before => ∀ compilation, (run, compilation) ∈ before →
      (run, compilation) ∈ store.persisted ∧ store.Opens serde aead run found compilation
  | .opening run found before => ∀ compilation, (run, compilation) ∈ before →
      (run, compilation) ∈ store.persisted ∧ store.Opens serde aead run found compilation
  | _ => True

/-- What every run whose steps are fit preserves. -/
structure Sound (serde : Serde Context Sources) (aead : Aead Key)
    (store : Store Key Context Sources) : Prop where
  /-- A row without a snapshot is blank, and a snapshot's key has the name of the run. -/
  rows : ∀ run row, store.runs run = some row → row.columns = ⟨none, none, none, none⟩ ∨
    row.columns.ciphertext.isSome ∧ row.columns.keyRef = some (snapshotKeyRef run)
  persisted : ∀ run compilation, (run, compilation) ∈ store.persisted →
    ∃ found, readColumns run (store.runs run) = .ok (some found) ∧
      store.Opens serde aead run found compilation
  knows : ∀ thread, store.Knows serde aead (store.calls thread)
  returned : ∀ ret ∈ store.returned, ∀ compilation, (ret.run, compilation) ∈ ret.before →
    ret.result = .ok (some compilation)

theorem sound_start : Sound serde aead (start : Store Key Context Sources) where
  rows run row h := by cases h
  persisted run compilation h := by cases h
  knows thread := trivial
  returned ret h := by cases h

theorem loadRunSnapshot_of_opens {found : Found}
    (hread : readColumns run (store.runs run) = .ok (some found))
    (hopens : store.Opens serde aead run found compilation) :
    store.loadRunSnapshot serde aead run = .ok (some compilation) := by
  obtain ⟨href, key, hkey, hopen⟩ := hopens
  unfold loadRunSnapshot
  rw [hread]
  dsimp only
  rw [href, hkey]
  dsimp only
  rw [hopen]
  rfl

/-- What is found was written. -/
theorem hasSnapshot_of_read {found : Found}
    (hread : readColumns run (store.runs run) = .ok (some found)) :
    store.hasSnapshot run = true := by
  unfold readColumns at hread
  unfold hasSnapshot
  split at hread
  · cases hread
  · cases hread
  · rename_i heq
    rw [heq]
    rfl
  · cases hread

/-- What is found has the name of the run's key. -/
theorem keyRef_of_read (hrows : ∀ row, store.runs run = some row →
    row.columns = ⟨none, none, none, none⟩ ∨
      row.columns.ciphertext.isSome ∧ row.columns.keyRef = some (snapshotKeyRef run))
    {found : Found} (hread : readColumns run (store.runs run) = .ok (some found)) :
    found.keyRef = snapshotKeyRef run := by
  unfold readColumns at hread
  split at hread
  · cases hread
  · cases hread
  · rename_i heq
    obtain rfl := Option.some.inj (Except.ok.inj hread)
    rcases hrows _ heq with hblank | ⟨-, href⟩
    · cases hblank
    · exact Option.some.inj href
  · cases hread

/-- A load sees the row of the run and the key with its name. -/
theorem loadRunSnapshot_congr (hsound : Sound serde aead store)
    (hread : readColumns run (store'.runs run) = readColumns run (store.runs run))
    (hkeys : store.hasSnapshot run = true →
      store'.keys (snapshotKeyRef run) = store.keys (snapshotKeyRef run)) :
    store'.loadRunSnapshot serde aead run = store.loadRunSnapshot serde aead run := by
  unfold loadRunSnapshot
  rw [hread]
  cases hfound : readColumns run (store.runs run) with
  | error error => rfl
  | ok found =>
      cases found with
      | none => rfl
      | some found =>
          have href := keyRef_of_read (hsound.rows run) hfound
          dsimp only
          rw [href, hkeys (hasSnapshot_of_read hfound)]

theorem Sound.hasSnapshot (h : Sound serde aead store)
    (hpersisted : (run, compilation) ∈ store.persisted) : store.hasSnapshot run = true := by
  obtain ⟨found, hread, -⟩ := h.persisted run compilation hpersisted
  exact hasSnapshot_of_read hread

theorem Opens.mono {found : Found} (h : store.Opens serde aead run found compilation)
    (hkeys : store'.keys (snapshotKeyRef run) = store.keys (snapshotKeyRef run)) :
    store'.Opens serde aead run found compilation := by
  obtain ⟨href, key, hkey, hopen⟩ := h
  exact ⟨href, key, hkeys.trans hkey, hopen⟩

/-- What a caller knows, it goes on to know while the keys of written snapshots are left alone. -/
theorem Knows.mono {call : Call Key Context Sources} (h : store.Knows serde aead call)
    (hpersisted : ∀ pair ∈ store.persisted, pair ∈ store'.persisted)
    (hkeys : ∀ run compilation, (run, compilation) ∈ store.persisted →
      store'.keys (snapshotKeyRef run) = store.keys (snapshotKeyRef run)) :
    store'.Knows serde aead call := by
  cases call with
  | looking run found before | opening run found before =>
      intro compilation hbefore
      obtain ⟨hmem, hopens⟩ := h compilation hbefore
      exact ⟨hpersisted _ hmem, hopens.mono (hkeys run compilation hmem)⟩
  | idle => trivial
  | validated | keyed | encrypted => exact h
  | refused run => trivial

/-- What a step leaves alone that is not the guarded update. -/
structure Quiet (store store' : Store Key Context Sources) : Prop where
  read : ∀ run, readColumns run (store'.runs run) = readColumns run (store.runs run)
  keys : ∀ run, store.hasSnapshot run = true →
    store'.keys (snapshotKeyRef run) = store.keys (snapshotKeyRef run)
  persisted : store'.persisted = store.persisted

theorem Quiet.of_same (hruns : store'.runs = store.runs) (hkeys : store'.keys = store.keys)
    (hpersisted : store'.persisted = store.persisted) : Quiet store store' where
  read run := by rw [hruns]
  keys run _ := by rw [hkeys]
  persisted := hpersisted

/-- **A quiet step cannot be seen by a load.** -/
theorem Quiet.load (h : Quiet store store') (hsound : Sound serde aead store) (run : String) :
    store'.loadRunSnapshot serde aead run = store.loadRunSnapshot serde aead run :=
  loadRunSnapshot_congr hsound (h.read run) (h.keys run)

/-- A caller comes to know more. -/
theorem Sound.knows_update (h : Sound serde aead store) {call : Call Key Context Sources}
    (hknows : store.Knows serde aead call) (other : ℕ) :
    store.Knows serde aead (Function.update store.calls thread call other) := by
  by_cases heq : other = thread
  · subst heq
    rw [Function.update_self]
    exact hknows
  · rw [Function.update_of_ne heq]
    exact h.knows other

theorem Sound.of_quiet (h : Sound serde aead store) (hquiet : Quiet store store')
    (hrows : ∀ run row, store'.runs run = some row → row.columns = ⟨none, none, none, none⟩ ∨
      row.columns.ciphertext.isSome ∧ row.columns.keyRef = some (snapshotKeyRef run))
    (hknows : ∀ other, store.Knows serde aead (store'.calls other))
    (hreturned : ∀ ret ∈ store'.returned, ret ∈ store.returned ∨
      ∀ compilation, (ret.run, compilation) ∈ ret.before → ret.result = .ok (some compilation)) :
    Sound serde aead store' := by
  have hkeys : ∀ run compilation, (run, compilation) ∈ store.persisted →
      store'.keys (snapshotKeyRef run) = store.keys (snapshotKeyRef run) :=
    fun run compilation hmem => hquiet.keys run (h.hasSnapshot hmem)
  have hmono : ∀ other : Call Key Context Sources, store.Knows serde aead other →
      store'.Knows serde aead other := fun other hother =>
    hother.mono (fun pair hpair => hquiet.persisted ▸ hpair) hkeys
  refine ⟨hrows, fun run compilation hmem => ?_, fun other => ?_, fun ret hret => ?_⟩
  · rw [hquiet.persisted] at hmem
    obtain ⟨found, hread, hopens⟩ := h.persisted run compilation hmem
    exact ⟨found, (hquiet.read run).trans hread, hopens.mono (hkeys run compilation hmem)⟩
  · exact hmono _ (hknows other)
  · exact (hreturned ret hret).elim (h.returned ret) id

/-- A load that returns what there is. -/
theorem Sound.finish (h : Sound serde aead store)
    {before : List (String × ContextCompilation Context Sources)}
    {result : Loaded Context Sources}
    (hresult : ∀ compilation, (run, compilation) ∈ before → result = .ok (some compilation)) :
    Sound serde aead (store.finish thread before run result) := by
  have hidle : store.Knows serde aead .idle := trivial
  refine h.of_quiet (.of_same rfl rfl rfl) h.rows (h.knows_update hidle) fun ret hret => ?_
  rcases List.mem_cons.1 hret with rfl | hold
  · exact .inr hresult
  · exact .inl hold

/-- A caller comes to its next step. -/
theorem Sound.goOn (h : Sound serde aead store) {call : Call Key Context Sources}
    (hknows : store.Knows serde aead call) : Sound serde aead (store.goOn thread call) :=
  h.of_quiet (.of_same rfl rfl rfl) h.rows (h.knows_update hknows) fun _ hret => .inl hret

/-- Keys that change are not those of written snapshots. -/
theorem Quiet.setKey {ref : String} {key : Option Key}
    (hruns : store'.runs = store.runs)
    (hkeys : store'.keys = Function.update store.keys ref key)
    (hpersisted : store'.persisted = store.persisted)
    (href : ∀ run, store.hasSnapshot run = true → snapshotKeyRef run ≠ ref) :
    Quiet store store' where
  read run := by rw [hruns]
  keys run hsnapshot := by rw [hkeys, Function.update_of_ne (href run hsnapshot)]
  persisted := hpersisted

/-- The row of a run that was just created is blank, as no row was. -/
theorem Sound.createRun (h : Sound serde aead store) {notebookId : String}
    (hnew : store.runs run = none) :
    Sound serde aead { store with
        runs := Function.update store.runs run (some (RunRow.create notebookId)) } ∧
      Quiet store { store with
        runs := Function.update store.runs run (some (RunRow.create notebookId)) } := by
  have hquiet : Quiet store { store with
      runs := Function.update store.runs run (some (RunRow.create notebookId)) } := by
    refine ⟨fun other => ?_, fun other _ => rfl, rfl⟩
    by_cases heq : other = run
    · subst heq
      dsimp only
      rw [Function.update_self, hnew]
      rfl
    · dsimp only
      rw [Function.update_of_ne heq]
  refine ⟨h.of_quiet hquiet (fun other row hrow => ?_) h.knows fun ret hret => .inl hret, hquiet⟩
  by_cases heq : other = run
  · subst heq
    obtain rfl : RunRow.create notebookId = row := by simpa using hrow
    exact .inl rfl
  · exact h.rows other row (by simpa [Function.update_of_ne heq] using hrow)

/-- The guarded update writes a snapshot that can be read. -/
theorem Sound.write (hserde : serde.Lawful) (haead : aead.Lawful) (h : Sound serde aead store)
    {key : Key} {receiptJson : String} {ciphertext : Bytes}
    (hknows : store.Knows serde aead (.encrypted run compilation key receiptJson ciphertext))
    (hupdates : store.updates run compilation = true)
    (hkey : store.keys (snapshotKeyRef run) = some key) :
    Sound serde aead { (store.write run compilation receiptJson ciphertext).goOn thread .idle with
      persisted := (run, compilation) :: store.persisted } := by
  obtain ⟨hvalid, hreceipt, nonce, rfl⟩ := hknows
  obtain ⟨row, hrow, hguard⟩ := (Option.any_eq_true _ _).1 hupdates
  have hblank : store.hasSnapshot run = false := by
    unfold Store.hasSnapshot
    rw [hrow]
    simp only [Bool.and_eq_true, Option.isNone_iff_eq_none] at hguard
    simp [hguard.1.1.2]
  have hruns : ∀ other, other ≠ run → (store.write run compilation receiptJson
      (encryptChunk aead key (utf8 compilation.contextJson) nonce)).runs other =
        store.runs other := fun other hne => Function.update_of_ne hne _ _
  have hwritten : (store.write run compilation receiptJson
      (encryptChunk aead key (utf8 compilation.contextJson) nonce)).runs run =
        some { row with columns := ⟨some receiptJson,
          some (encryptChunk aead key (utf8 compilation.contextJson) nonce),
          some (snapshotKeyRef run), some compilation.receipt.contextSha256⟩ } := by
    show Function.update store.runs run _ run = _
    rw [Function.update_self, hrow]
    rfl
  refine ⟨fun other row' hrow' => ?_, fun other compilation' hmem => ?_, fun other => ?_,
    h.returned⟩
  · by_cases heq : other = run
    · subst heq
      obtain rfl := Option.some.inj (hwritten.symm.trans hrow')
      exact .inr ⟨rfl, rfl⟩
    · exact h.rows other row' ((hruns other heq).symm.trans hrow')
  · rcases List.mem_cons.1 hmem with hnew | hold
    · obtain ⟨rfl, rfl⟩ := Prod.mk.inj hnew
      refine ⟨⟨receiptJson, encryptChunk aead key (utf8 compilation'.contextJson) nonce,
        snapshotKeyRef other, compilation'.receipt.contextSha256⟩, ?_, rfl, key, hkey,
        openSnapshot_of_valid hserde haead hvalid hreceipt⟩
      show readColumns other ((store.write other compilation' receiptJson _).runs other) = _
      rw [hwritten]
      rfl
    · have hne : other ≠ run := by
        rintro rfl
        exact absurd ((h.hasSnapshot hold).symm.trans hblank) (by simp)
      obtain ⟨found, hread, hopens⟩ := h.persisted other compilation' hold
      refine ⟨found, ?_, hopens⟩
      show readColumns other ((store.write run compilation receiptJson _).runs other) = _
      rw [hruns other hne]
      exact hread
  · have hmono : ∀ call : Call Key Context Sources, store.Knows serde aead call →
        Knows serde aead { (store.write run compilation receiptJson
          (encryptChunk aead key (utf8 compilation.contextJson) nonce)).goOn thread .idle with
            persisted := (run, compilation) :: store.persisted } call := fun call hcall =>
      hcall.mono (fun pair hpair => List.mem_cons_of_mem _ hpair) fun _ _ _ => rfl
    by_cases heq : other = thread
    · subst heq
      show Knows serde aead _ (Function.update store.calls other .idle other)
      rw [Function.update_self]
      trivial
    · show Knows serde aead _ (Function.update store.calls thread .idle other)
      rw [Function.update_of_ne heq]
      exact hmono _ (h.knows other)

/-- **A fit step** is the guarded update, or cannot be seen by a load. -/
theorem Sound.step (hserde : serde.Lawful) (haead : aead.Lawful) (h : Sound serde aead store)
    (hfit : store.Fit act) (hstep : step serde aead store act = some store') :
    Sound serde aead store' ∧ (store'.persisted = store.persisted → Quiet store store') := by
  cases act with
  | createRun run notebookId =>
      simp only [Store.step] at hstep
      split at hstep
      · cases hstep
      · rename_i hnew
        obtain rfl := Option.some.inj hstep
        exact ⟨(h.createRun hnew).1, fun _ => (h.createRun hnew).2⟩
  | createPack pack key =>
      obtain rfl := Option.some.inj hstep
      have hquiet : Quiet store { store with
          keys := Function.update store.keys (packKeyRef pack) (some key) } :=
        .setKey rfl rfl rfl fun run _ => (packKeyRef_ne pack run).symm
      exact ⟨h.of_quiet hquiet h.rows h.knows fun _ hret => .inl hret, fun _ => hquiet⟩
  | deletePack pack =>
      obtain rfl := Option.some.inj hstep
      have hquiet : Quiet store { store with
          keys := Function.update store.keys (packKeyRef pack) none } :=
        .setKey rfl rfl rfl fun run _ => (packKeyRef_ne pack run).symm
      exact ⟨h.of_quiet hquiet h.rows h.knows fun _ hret => .inl hret, fun _ => hquiet⟩
  | persist thread run compilation =>
      simp only [Store.step] at hstep
      split at hstep
      · split at hstep
        · rename_i hvalid
          obtain rfl := Option.some.inj hstep
          exact ⟨h.goOn hvalid, fun _ => .of_same rfl rfl rfl⟩
        · obtain rfl := Option.some.inj hstep
          exact ⟨h, fun _ => .of_same rfl rfl rfl⟩
      · cases hstep
  | storeKey thread key stored =>
      simp only [Store.step] at hstep
      split at hstep
      · rename_i run compilation hcall
        have hknows : store.Knows serde aead (.validated run compilation) := hcall ▸ h.knows thread
        split at hstep
        · rename_i hstored
          subst hstored
          obtain rfl := Option.some.inj hstep
          simp only [Store.Fit, hcall] at hfit
          have hquiet : Quiet store { store.goOn thread (.keyed run compilation key) with
              keys := Function.update store.keys (snapshotKeyRef run) (some key) } := by
            refine .setKey rfl rfl rfl fun other hother heq => ?_
            obtain rfl := snapshotKeyRef_inj heq
            exact absurd (hother.symm.trans hfit) (by simp)
          have hkeyed : store.Knows serde aead (.keyed run compilation key) := hknows
          exact ⟨h.of_quiet hquiet h.rows (h.knows_update hkeyed) fun _ hret => .inl hret,
            fun _ => hquiet⟩
        · obtain rfl := Option.some.inj hstep
          exact ⟨h.goOn trivial, fun _ => .of_same rfl rfl rfl⟩
      · cases hstep
  | encrypt thread nonce =>
      simp only [Store.step] at hstep
      split at hstep
      · rename_i run compilation key hcall
        have hknows : store.Knows serde aead (.keyed run compilation key) := hcall ▸ h.knows thread
        split at hstep
        · rename_i nonce receiptJson hreceipt
          obtain rfl := Option.some.inj hstep
          exact ⟨h.goOn ⟨hknows, hreceipt, nonce, rfl⟩, fun _ => .of_same rfl rfl rfl⟩
        · obtain rfl := Option.some.inj hstep
          exact ⟨h.goOn trivial, fun _ => .of_same rfl rfl rfl⟩
      · cases hstep
  | update thread fails =>
      simp only [Store.step] at hstep
      split at hstep
      · rename_i run compilation key receiptJson ciphertext hcall
        split at hstep
        · rename_i hpossible
          simp only [Bool.and_eq_true, Bool.not_eq_true'] at hpossible
          obtain ⟨rfl, hupdates⟩ := hpossible
          obtain rfl := Option.some.inj hstep
          simp only [Store.Fit, hcall] at hfit
          refine ⟨h.write hserde haead (hcall ▸ h.knows thread) hupdates (hfit hupdates),
            fun hsame => ?_⟩
          exact absurd (congrArg List.length hsame) (by simp)
        · obtain rfl := Option.some.inj hstep
          exact ⟨h.goOn trivial, fun _ => .of_same rfl rfl rfl⟩
      · cases hstep
  | deleteKey thread deleted =>
      simp only [Store.step] at hstep
      split at hstep
      · rename_i run hcall
        obtain rfl := Option.some.inj hstep
        have hquiet : Quiet store { store.goOn thread .idle with
            keys := if deleted then Function.update store.keys (snapshotKeyRef run) none
              else store.keys } := by
          cases deleted with
          | true =>
              simp only [Store.Fit, hcall] at hfit
              refine .setKey rfl rfl rfl fun other hother heq => ?_
              obtain rfl := snapshotKeyRef_inj heq
              exact absurd (hother.symm.trans hfit) (by simp)
          | false => exact .of_same rfl rfl rfl
        have hidle : store.Knows serde aead .idle := trivial
        exact ⟨h.of_quiet hquiet h.rows (h.knows_update hidle) fun _ hret => .inl hret,
          fun _ => hquiet⟩
      · cases hstep
  | load thread run =>
      simp only [Store.step] at hstep
      split at hstep
      · split at hstep
        · rename_i error hread
          obtain rfl := Option.some.inj hstep
          refine ⟨h.finish fun compilation hmem => ?_, fun _ => .of_same rfl rfl rfl⟩
          obtain ⟨found, hfound, -⟩ := h.persisted run compilation hmem
          cases hread.symm.trans hfound
        · rename_i hread
          obtain rfl := Option.some.inj hstep
          refine ⟨h.finish fun compilation hmem => ?_, fun _ => .of_same rfl rfl rfl⟩
          obtain ⟨found, hfound, -⟩ := h.persisted run compilation hmem
          cases hread.symm.trans hfound
        · rename_i found hread
          obtain rfl := Option.some.inj hstep
          refine ⟨h.goOn fun compilation hmem => ⟨hmem, ?_⟩, fun _ => .of_same rfl rfl rfl⟩
          obtain ⟨found', hfound, hopens⟩ := h.persisted run compilation hmem
          obtain rfl := Option.some.inj (Except.ok.inj (hread.symm.trans hfound))
          exact hopens
      · cases hstep
  | lookForKey thread =>
      simp only [Store.step] at hstep
      split at hstep
      · rename_i run found before hcall
        have hknows : store.Knows serde aead (.looking run found before) := hcall ▸ h.knows thread
        split at hstep
        · rename_i hnone
          obtain rfl := Option.some.inj hstep
          refine ⟨h.finish fun compilation hmem => ?_, fun _ => .of_same rfl rfl rfl⟩
          obtain ⟨-, href, key, hkey, -⟩ := hknows compilation hmem
          rw [href, hkey] at hnone
          cases hnone
        · obtain rfl := Option.some.inj hstep
          exact ⟨h.goOn hknows, fun _ => .of_same rfl rfl rfl⟩
      · cases hstep
  | loadKey thread =>
      simp only [Store.step] at hstep
      split at hstep
      · rename_i run found before hcall
        have hknows : store.Knows serde aead (.opening run found before) := hcall ▸ h.knows thread
        split at hstep
        · rename_i hnone
          obtain rfl := Option.some.inj hstep
          refine ⟨h.finish fun compilation hmem => ?_, fun _ => .of_same rfl rfl rfl⟩
          obtain ⟨-, href, key, hkey, -⟩ := hknows compilation hmem
          rw [href, hkey] at hnone
          cases hnone
        · rename_i key hkey
          obtain rfl := Option.some.inj hstep
          refine ⟨h.finish fun compilation hmem => ?_, fun _ => .of_same rfl rfl rfl⟩
          obtain ⟨-, href, other, hother, hopen⟩ := hknows compilation hmem
          rw [href, hother] at hkey
          obtain rfl := Option.some.inj hkey
          rw [hopen]
          rfl
      · cases hstep

theorem along_silent (hserde : serde.Lawful) (haead : aead.Lawful)
    {acts : List (Act Key Context Sources)} (h : Sound serde aead store)
    (hfit : Along (Store.step serde aead) Fit store acts) :
    Along (Store.step serde aead) (Silent serde aead) store acts := by
  induction acts generalizing store with
  | nil => trivial
  | cons act acts ih =>
      refine ⟨fun next hstep hsame run => ?_, fun next hstep => ?_⟩
      · exact ((h.step hserde haead hfit.1 hstep).2 hsame).load h run
      · exact ih (h.step hserde haead hfit.1 hstep).1 (hfit.2 next hstep)

/-- **A snapshot is written once and stays readable** along a run that meets `Fit`: each load that
began after `persist_run_snapshot` had returned `Ok` returns what was persisted, so does a load of
the last state, and no step but the guarded update of a call that returns `Ok` changes what a load
of any run would return. -/
theorem snapshots_stay_readable (hserde : serde.Lawful) (haead : aead.Lawful)
    {acts : List (Act Key Context Sources)}
    (hfit : Along (Store.step serde aead) Fit start acts)
    (hrun : Machine.run (Store.step serde aead) start acts = some store) :
    (∀ ret ∈ store.returned, ∀ compilation, (ret.run, compilation) ∈ ret.before →
        ret.result = .ok (some compilation)) ∧
      (∀ run compilation, (run, compilation) ∈ store.persisted →
        store.loadRunSnapshot serde aead run = .ok (some compilation)) ∧
      Along (Store.step serde aead) (Silent serde aead) start acts := by
  have hsound : Sound serde aead store :=
    Along.invariant (I := Sound serde aead)
      (fun _ _ _ h hfit hstep => (h.step hserde haead hfit hstep).1) hfit sound_start hrun
  refine ⟨hsound.returned, fun run compilation hmem => ?_,
    along_silent hserde haead sound_start hfit⟩
  obtain ⟨found, hread, hopens⟩ := hsound.persisted run compilation hmem
  exact loadRunSnapshot_of_opens hread hopens

end Store

end

/-! ### A second call for a run -/

/-- A cipher that tells keys apart by its tag. -/
def tagged : Aead UInt8 where
  encrypt key _ plaintext := plaintext ++ List.replicate 16 key
  decrypt key _ data :=
    if data.drop (data.length - 16) = List.replicate 16 key then
      some (data.take (data.length - 16))
    else none

theorem lawful_tagged : tagged.Lawful where
  decrypt_encrypt key nonce plaintext := by
    have hlength : (plaintext ++ List.replicate 16 key).length - 16 = plaintext.length := by simp
    show (if (plaintext ++ List.replicate 16 key).drop
        ((plaintext ++ List.replicate 16 key).length - 16) = List.replicate 16 key then
      some ((plaintext ++ List.replicate 16 key).take
        ((plaintext ++ List.replicate 16 key).length - 16)) else none) = some plaintext
    rw [hlength, List.drop_left, if_pos rfl, List.take_left]
  length_encrypt key nonce plaintext := by simp [tagged]

/-- An empty context. -/
def emptyContext : ContextCompilation String Unit := ⟨"{}", "{}", ⟨"n", "2", 2, ()⟩⟩

/-- JSON of the empty context. -/
def emptySerde : Serde String Unit where
  contextToString := some
  contextFromStr := some
  receiptToString receipt := if receipt = emptyContext.receipt then some "receipt" else none
  receiptFromStr json := if json = "receipt" then some emptyContext.receipt else none
  sha256Hex bytes := toString bytes.length

theorem lawful_emptySerde : emptySerde.Lawful where
  context context json h := congrArg some (Option.some.inj h).symm
  receipt receipt json h := by
    simp only [emptySerde] at h ⊢
    split at h
    · rename_i hreceipt
      obtain rfl := Option.some.inj h
      rw [if_pos rfl, hreceipt]
    · cases h

/-- A nonce. -/
def zeroNonce : Nonce := ⟨List.replicate 12 0, rfl⟩

/-- A run is created and its context persisted. -/
def persistOnce : List (Act UInt8 String Unit) :=
  [.createRun "r" "n", .persist 0 "r" emptyContext, .storeKey 0 1 true, .encrypt 0 (some zeroNonce),
    .update 0 false]

/-- What was persisted is loaded, also when a pack goes and another run is created. -/
def loadOnce : List (Act UInt8 String Unit) :=
  [.deletePack "p", .load 1 "r", .createRun "q" "n", .lookForKey 1, .loadKey 1]

/-- The store that the steps lead to. -/
def after (acts : List (Act UInt8 String Unit)) : Store UInt8 String Unit :=
  (run (Store.step emptySerde tagged) .start acts).getD .start

namespace Store

theorem snapshots_stay_readable_once :
    (after (persistOnce ++ loadOnce)).loadRunSnapshot emptySerde tagged "r" =
      .ok (some emptyContext) := by
  have hfit : Along (step emptySerde tagged) Fit start (persistOnce ++ loadOnce) := by
    decide +kernel
  have hrun : Machine.run (step emptySerde tagged) start (persistOnce ++ loadOnce) =
      some (after (persistOnce ++ loadOnce)) := rfl
  exact (snapshots_stay_readable lawful_emptySerde lawful_tagged hfit hrun).2.1 "r" emptyContext
    List.mem_cons_self

/-- **A call that is refused takes the key** of the snapshot that was persisted before. -/
theorem refused_call_takes_the_key :
    ("r", emptyContext) ∈ (after (persistOnce ++ [.persist 0 "r" emptyContext, .storeKey 0 2 true,
      .encrypt 0 (some zeroNonce), .update 0 false, .deleteKey 0 true])).persisted ∧
    (after (persistOnce ++ [.persist 0 "r" emptyContext, .storeKey 0 2 true,
      .encrypt 0 (some zeroNonce), .update 0 false, .deleteKey 0 true])).loadRunSnapshot emptySerde
        tagged "r" = .error (.missingKey "zutalk.context-snapshot.r") := by
  exact ⟨List.mem_cons_self, rfl⟩

end Store

end Packs
end ZuTalk
