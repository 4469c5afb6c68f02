/-
# Context snapshots of runs

`crates/vt-store/src/context_pack_store.rs`: `persist_run_snapshot` and `load_run_snapshot`,
with the columns of a run in the database and the key provider as `FileKeyStore` is one, which
have no transaction in common.  Each call is its steps between which other callers may run.

JSON, the hash and the cipher are parameters.  Of a receipt only what is read here is named;
its sources and omissions stand in one type.  What packs are edited to shows in the compilation
that is persisted next; a pack has a key of its own, which is stored when it is created and
deleted with it.
-/

import ZuTalk.Library.Machine
import ZuTalk.Recorder.Journal

namespace ZuTalk
namespace Packs

open Recorder

/-- `SONIOX_CONTEXT_MAX_SCALARS`. -/
def sonioxContextMaxScalars : ℕ := 8000

/-- `ContextReceipt`. -/
structure ContextReceipt (Sources : Type) where
  notebookId : String
  contextSha256 : String
  serializedScalars : ℕ
  sources : Sources
  deriving DecidableEq

/-- `ContextCompilation`. -/
structure ContextCompilation (Context Sources : Type) where
  context : Context
  contextJson : String
  receipt : ContextReceipt Sources
  deriving DecidableEq

/-- `ContextPackStoreError`, as far as snapshots raise it. -/
inductive ContextPackStoreError
  | sqlite
  | crypto (message : String)
  | json
  | validation (message : String)
  | missingKey (keyRef : String)
  | conflict (message : String)
  | corruptData (message : String)
  deriving DecidableEq, Repr

/-- What JSON and the hash do. -/
structure Serde (Context Sources : Type) where
  contextToString : Context → Option String
  contextFromStr : String → Option Context
  receiptToString : ContextReceipt Sources → Option String
  receiptFromStr : String → Option (ContextReceipt Sources)
  sha256Hex : Bytes → String

/-- What is known of JSON: it gives back what it was given. -/
structure Serde.Lawful {Context Sources : Type} (serde : Serde Context Sources) : Prop where
  context : ∀ context json, serde.contextToString context = some json →
    serde.contextFromStr json = some context
  receipt : ∀ receipt json, serde.receiptToString receipt = some json →
    serde.receiptFromStr json = some receipt

/-- The bytes of a text. -/
def utf8 (text : String) : Bytes := text.toByteArray.data.toList

/-- `String::from_utf8`. -/
def fromUtf8 (bytes : Bytes) : Option String := String.fromUTF8? ⟨bytes.toArray⟩

theorem fromUtf8_utf8 (text : String) : fromUtf8 (utf8 text) = some text := by
  unfold fromUtf8 utf8 String.fromUTF8?
  rw [Array.toArray_toList]
  exact dif_pos text.isValidUTF8

section Snapshot

variable {Key Context Sources : Type} (serde : Serde Context Sources)

/-- `validate_compilation`. -/
def validateCompilation (compilation : ContextCompilation Context Sources) :
    Except ContextPackStoreError Unit :=
  match serde.contextToString compilation.context with
  | none => .error .json
  | some serialized =>
      if serialized ≠ compilation.contextJson then
        .error (.validation "Context compilation JSON does not match its structured value")
      else if sonioxContextMaxScalars < serialized.length then
        .error (.validation "Context compilation exceeds 8,000 Unicode scalars")
      else if serde.sha256Hex (utf8 serialized) ≠ compilation.receipt.contextSha256 ∨
          compilation.receipt.serializedScalars ≠ serialized.length then
        .error (.validation "Context compilation does not match its receipt")
      else .ok ()

/-- The columns of a snapshot in a row of `notebook_capture_runs`. -/
structure Columns where
  receiptJson : Option String
  ciphertext : Option Bytes
  keyRef : Option String
  sha256 : Option String
  deriving DecidableEq

/-- A row of `notebook_capture_runs`. -/
structure RunRow where
  notebookId : String
  columns : Columns
  deriving DecidableEq

/-- The row of a run that was just created. -/
def RunRow.create (notebookId : String) : RunRow := ⟨notebookId, ⟨none, none, none, none⟩⟩

/-- The name of the key of a run's snapshot. -/
def snapshotKeyRef (run : String) : String := "zutalk.context-snapshot." ++ run

/-- The name of the key of a pack. -/
def packKeyRef (pack : String) : String := "zutalk.context-pack." ++ pack

/-- What is read of a whole snapshot. -/
structure Found where
  receiptJson : String
  ciphertext : Bytes
  keyRef : String
  digest : String
  deriving DecidableEq

/-- What `load_run_snapshot` makes of the row: nothing, an error, or a snapshot whose key is
looked for. -/
def readColumns (run : String) (row : Option RunRow) :
    Except ContextPackStoreError (Option Found) :=
  match row with
  | none => .ok none
  | some ⟨_, ⟨none, none, none, none⟩⟩ => .ok none
  | some ⟨_, ⟨some receiptJson, some ciphertext, some keyRef, some digest⟩⟩ =>
      .ok (some ⟨receiptJson, ciphertext, keyRef, digest⟩)
  | some _ => .error (.corruptData ("run " ++ run ++ " has a partial Context snapshot"))

variable (aead : Aead Key)

/-- What it makes of a snapshot and its key. -/
def openSnapshot (run : String) (found : Found) (key : Key) :
    Except ContextPackStoreError (ContextCompilation Context Sources) :=
  match decryptChunk aead key found.ciphertext with
  | .error message => .error (.crypto message)
  | .ok plaintext =>
      if serde.sha256Hex plaintext ≠ found.digest then
        .error (.corruptData ("run " ++ run ++ " Context snapshot digest mismatch"))
      else
        match fromUtf8 plaintext with
        | none => .error (.corruptData ("run " ++ run ++ " Context snapshot is not UTF-8"))
        | some contextJson =>
            match serde.contextFromStr contextJson, serde.receiptFromStr found.receiptJson with
            | some context, some receipt =>
                let compilation := ⟨context, contextJson, receipt⟩
                match validateCompilation serde compilation with
                | .error error => .error error
                | .ok () => .ok compilation
            | _, _ => .error .json

/-- What a load returns. -/
abbrev Loaded (Context Sources : Type) :=
  Except ContextPackStoreError (Option (ContextCompilation Context Sources))

/-- How far a caller has come. -/
inductive Call (Key Context Sources : Type)
  | idle
  /-- `persist_run_snapshot` has validated the compilation, -/
  | validated (run : String) (compilation : ContextCompilation Context Sources)
  /-- stored its key, -/
  | keyed (run : String) (compilation : ContextCompilation Context Sources) (key : Key)
  /-- encrypted the compilation, -/
  | encrypted (run : String) (compilation : ContextCompilation Context Sources) (key : Key)
      (receiptJson : String) (ciphertext : Bytes)
  /-- or was refused, and deletes the key. -/
  | refused (run : String)
  /-- `load_run_snapshot` has read the row, -/
  | looking (run : String) (found : Found)
      (before : List (String × ContextCompilation Context Sources))
  /-- and found that its key exists. -/
  | opening (run : String) (found : Found)
      (before : List (String × ContextCompilation Context Sources))

/-- A load that has returned: what had been persisted when it began, the run, and the result. -/
structure Return (Context Sources : Type) where
  before : List (String × ContextCompilation Context Sources)
  run : String
  result : Loaded Context Sources

/-- The database, the keys and the callers. -/
structure Store (Key Context Sources : Type) where
  runs : String → Option RunRow
  keys : String → Option Key
  calls : ℕ → Call Key Context Sources
  /-- The calls of `persist_run_snapshot` that have returned `Ok`. -/
  persisted : List (String × ContextCompilation Context Sources)
  /-- The calls of `load_run_snapshot` that have returned. -/
  returned : List (Return Context Sources)

/-- An empty database, and no keys. -/
def Store.start : Store Key Context Sources :=
  ⟨fun _ => none, fun _ => none, fun _ => .idle, [], []⟩

/-- What can happen. -/
inductive Act (Key Context Sources : Type)
  | createRun (run notebookId : String)
  /-- A pack is created, and its key stored. -/
  | createPack (pack : String) (key : Key)
  /-- The key of a pack is deleted with it, or when it could not be created. -/
  | deletePack (pack : String)
  /-- A caller enters `persist_run_snapshot`. -/
  | persist (thread : ℕ) (run : String) (compilation : ContextCompilation Context Sources)
  /-- The key that was generated is stored, or cannot be. -/
  | storeKey (thread : ℕ) (key : Key) (stored : Bool)
  /-- The nonce that was drawn, or none if the encryption fails. -/
  | encrypt (thread : ℕ) (nonce : Option Nonce)
  | update (thread : ℕ) (fails : Bool)
  | deleteKey (thread : ℕ) (deleted : Bool)
  /-- A caller enters `load_run_snapshot`, -/
  | load (thread : ℕ) (run : String)
  /-- looks for the key, -/
  | lookForKey (thread : ℕ)
  /-- and loads it. -/
  | loadKey (thread : ℕ)

namespace Store

variable (store : Store Key Context Sources)

/-- A caller comes to its next step. -/
def goOn (thread : ℕ) (call : Call Key Context Sources) : Store Key Context Sources :=
  { store with calls := Function.update store.calls thread call }

/-- A load returns. -/
def finish (thread : ℕ) (before : List (String × ContextCompilation Context Sources))
    (run : String) (result : Loaded Context Sources) : Store Key Context Sources :=
  { store.goOn thread .idle with returned := ⟨before, run, result⟩ :: store.returned }

/-- Whether the guarded update of a run finds its row. -/
def updates (run : String) (compilation : ContextCompilation Context Sources) : Bool :=
  (store.runs run).any fun row =>
    row.notebookId = compilation.receipt.notebookId && row.columns.ciphertext.isNone &&
      row.columns.keyRef.isNone && row.columns.sha256.isNone

/-- What the update writes. -/
def write (run : String) (compilation : ContextCompilation Context Sources) (receiptJson : String)
    (ciphertext : Bytes) : Store Key Context Sources :=
  { store with
    runs := Function.update store.runs run ((store.runs run).map fun row =>
      { row with columns := ⟨some receiptJson, some ciphertext, some (snapshotKeyRef run),
        some compilation.receipt.contextSha256⟩ }) }

/-- One step. -/
def step (store : Store Key Context Sources) :
    Act Key Context Sources → Option (Store Key Context Sources)
  | .createRun run notebookId =>
      match store.runs run with
      | some _ => none
      | none => some { store with
          runs := Function.update store.runs run (some (RunRow.create notebookId)) }
  | .createPack pack key =>
      some { store with keys := Function.update store.keys (packKeyRef pack) (some key) }
  | .deletePack pack =>
      some { store with keys := Function.update store.keys (packKeyRef pack) none }
  | .persist thread run compilation =>
      match store.calls thread with
      | .idle =>
          match validateCompilation serde compilation with
          | .ok () => some (store.goOn thread (.validated run compilation))
          | .error _ => some store
      | _ => none
  | .storeKey thread key stored =>
      match store.calls thread with
      | .validated run compilation =>
          if stored then
            some { store.goOn thread (.keyed run compilation key) with
              keys := Function.update store.keys (snapshotKeyRef run) (some key) }
          else some (store.goOn thread .idle)
      | _ => none
  | .encrypt thread nonce =>
      match store.calls thread with
      | .keyed run compilation key =>
          match nonce, serde.receiptToString compilation.receipt with
          | some nonce, some receiptJson =>
              some (store.goOn thread (.encrypted run compilation key receiptJson
                (encryptChunk aead key (utf8 compilation.contextJson) nonce)))
          | _, _ => some (store.goOn thread .idle)
      | _ => none
  | .update thread fails =>
      match store.calls thread with
      | .encrypted run compilation _ receiptJson ciphertext =>
          if !fails && store.updates run compilation then
            some { (store.write run compilation receiptJson ciphertext).goOn thread .idle with
              persisted := (run, compilation) :: store.persisted }
          else some (store.goOn thread (.refused run))
      | _ => none
  | .deleteKey thread deleted =>
      match store.calls thread with
      | .refused run =>
          some { store.goOn thread .idle with
            keys := if deleted then Function.update store.keys (snapshotKeyRef run) none
              else store.keys }
      | _ => none
  | .load thread run =>
      match store.calls thread with
      | .idle =>
          match readColumns run (store.runs run) with
          | .error error => some (store.finish thread store.persisted run (.error error))
          | .ok none => some (store.finish thread store.persisted run (.ok none))
          | .ok (some found) => some (store.goOn thread (.looking run found store.persisted))
      | _ => none
  | .lookForKey thread =>
      match store.calls thread with
      | .looking run found before =>
          match store.keys found.keyRef with
          | none => some (store.finish thread before run (.error (.missingKey found.keyRef)))
          | some _ => some (store.goOn thread (.opening run found before))
      | _ => none
  | .loadKey thread =>
      match store.calls thread with
      | .opening run found before =>
          match store.keys found.keyRef with
          | none => some (store.finish thread before run
              (.error (.crypto ("key not found: " ++ found.keyRef))))
          | some key => some (store.finish thread before run
              ((openSnapshot serde aead run found key).map some))
      | _ => none

/-- What a load would return that runs at once. -/
def loadRunSnapshot (run : String) : Loaded Context Sources :=
  match readColumns run (store.runs run) with
  | .error error => .error error
  | .ok none => .ok none
  | .ok (some found) =>
      match store.keys found.keyRef with
      | none => .error (.missingKey found.keyRef)
      | some key => (openSnapshot serde aead run found key).map some

/-- Whether a snapshot was written to the row of a run. -/
def hasSnapshot (run : String) : Bool :=
  (store.runs run).any fun row => row.columns.ciphertext.isSome

/-- What the steps of a run meet: the key of a run that has a snapshot is neither replaced nor
deleted, and a snapshot is written only while the key it was encrypted with is the one stored. -/
def Fit (store : Store Key Context Sources) : Act Key Context Sources → Prop
  | .storeKey thread _ true =>
      match store.calls thread with
      | .validated run _ => store.hasSnapshot run = false
      | _ => True
  | .update thread false =>
      match store.calls thread with
      | .encrypted run compilation key _ _ => store.updates run compilation = true →
          store.keys (snapshotKeyRef run) = some key
      | _ => True
  | .deleteKey thread true =>
      match store.calls thread with
      | .refused run => store.hasSnapshot run = false
      | _ => True
  | _ => True

instance [DecidableEq Key] (store : Store Key Context Sources) (act : Act Key Context Sources) :
    Decidable (store.Fit act) := by
  unfold Fit
  split
  · split
    · infer_instance
    · infer_instance
  · split
    · infer_instance
    · infer_instance
  · split
    · infer_instance
    · infer_instance
  · infer_instance

/-- A step of anything but a `persist_run_snapshot` that returns `Ok` changes nothing that a load
of any run can see. -/
def Silent (store : Store Key Context Sources) (act : Act Key Context Sources) : Prop :=
  ∀ store', step serde aead store act = some store' → store'.persisted = store.persisted →
    ∀ run, store'.loadRunSnapshot serde aead run = store.loadRunSnapshot serde aead run

end Store

end Snapshot

end Packs
end ZuTalk
