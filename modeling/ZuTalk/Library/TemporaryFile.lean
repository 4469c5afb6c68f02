/-
# A file that is replaced by renaming

A file is replaced by writing another one beside it, which has one name for all writers, and
renaming that one.  Names lead to inodes.  A writer keeps the inode it opened, wherever another
writer renames it to, so that the writes of two that have one inode open run into each other,
and a rename takes what the temporary file is at that time.

What every text that is written is, while the temporary file is open, the file is after a rename
(`Written.read_rename`).
-/

import Mathlib.Data.Nat.Notation
import Mathlib.Logic.Function.Basic
import Mathlib.Tactic.Common

variable {α : Type*}

/-- What an inode holds: nothing, what one writer wrote, or something else. -/
inductive Contents (α : Type*)
  | empty
  | text (value : α)
  | garbled
  deriving DecidableEq

/-- What is read of it. -/
def Contents.value : Contents α → Option α
  | .text value => some value
  | _ => none

/-- The inodes, and those the two names lead to, where they are there. -/
structure TemporaryFile (α : Type*) where
  contents : ℕ → Contents α
  next : ℕ
  temporary : Option ℕ
  file : Option ℕ
  temporary_lt : ∀ inode, temporary = some inode → inode < next
  file_lt : ∀ inode, file = some inode → inode < next
  apart : ∀ inode, temporary = some inode → file ≠ some inode

namespace TemporaryFile

/-- Neither is there. -/
def absent : TemporaryFile α where
  contents := fun _ => .empty
  next := 0
  temporary := none
  file := none
  temporary_lt := fun _ h => by cases h
  file_lt := fun _ h => by cases h
  apart := fun _ h => by cases h

section

variable (files : TemporaryFile α)

/-- What is read of the file. -/
def read : Option α := files.file.bind fun inode => (files.contents inode).value

/-- The inode that is opened as the temporary file, a new one if it is not there. -/
def inode : ℕ := files.temporary.getD files.next

theorem inode_lt : files.inode < files.next + 1 := by
  unfold inode
  cases htemporary : files.temporary with
  | none => exact Nat.lt_succ_self _
  | some inode => exact Nat.lt_succ_of_lt (files.temporary_lt inode htemporary)

/-- It is not that of the file. -/
theorem file_ne_inode : files.file ≠ some files.inode := by
  unfold inode
  intro hfile
  cases htemporary : files.temporary with
  | none =>
      rw [htemporary] at hfile
      exact absurd (files.file_lt _ hfile) (Nat.lt_irrefl _)
  | some inode =>
      rw [htemporary] at hfile
      exact files.apart inode htemporary hfile

/-- The temporary file is opened, made if it is not there, and cut to nothing. -/
def openTemporary : TemporaryFile α where
  contents := Function.update files.contents files.inode .empty
  next := files.next + 1
  temporary := some files.inode
  file := files.file
  temporary_lt := fun _ h => Option.some.inj h ▸ files.inode_lt
  file_lt := fun inode h => Nat.lt_succ_of_lt (files.file_lt inode h)
  apart := fun _ h => Option.some.inj h ▸ files.file_ne_inode

/-- An inode holds something else. -/
def setContents (inode : ℕ) (contents : Contents α) : TemporaryFile α :=
  { files with contents := Function.update files.contents inode contents }

/-- A writer writes to the inode it has opened.  Where another one has written since, the new
text covers the old one, or the end of that stays behind it. -/
def write (inode : ℕ) (value : α) (covers : Bool) : TemporaryFile α :=
  files.setContents inode
    (match files.contents inode with
    | .empty => .text value
    | _ => if covers then .text value else .garbled)

/-- A part of a text is written. -/
def spoil (inode : ℕ) : TemporaryFile α := files.setContents inode .garbled

/-- The temporary file is removed, if it is there. -/
def unlink : TemporaryFile α :=
  { files with
    temporary := none
    temporary_lt := fun _ h => by cases h
    apart := fun _ h => by cases h }

/-- The temporary file is renamed to the file, if it is there. -/
def rename : Option (TemporaryFile α) :=
  if h : files.temporary.isSome then
    some
      { files.unlink with
        file := some (files.temporary.get h)
        file_lt := fun inode hinode => by
          obtain rfl := Option.some.inj hinode
          exact files.temporary_lt _ (Option.some_get h).symm
        apart := fun _ h => by cases h }
  else none

end

variable {files files' : TemporaryFile α} {inode : ℕ} {value : α} {covers : Bool}

@[simp] theorem temporary_openTemporary : files.openTemporary.temporary = some files.inode := rfl

@[simp] theorem file_openTemporary : files.openTemporary.file = files.file := rfl

@[simp] theorem contents_openTemporary :
    files.openTemporary.contents = Function.update files.contents files.inode .empty := rfl

@[simp] theorem temporary_setContents (contents : Contents α) :
    (files.setContents inode contents).temporary = files.temporary := rfl

@[simp] theorem file_setContents (contents : Contents α) :
    (files.setContents inode contents).file = files.file := rfl

@[simp] theorem contents_setContents (contents : Contents α) :
    (files.setContents inode contents).contents =
      Function.update files.contents inode contents := rfl

@[simp] theorem read_unlink : files.unlink.read = files.read := rfl

theorem read_setContents (contents : Contents α) : (files.setContents inode contents).read =
    if files.file = some inode then contents.value else files.read := by
  unfold read
  rw [file_setContents, contents_setContents]
  cases files.file with
  | none => rfl
  | some other =>
      by_cases heq : other = inode
      · simp [heq]
      · simp [heq]

/-- What is written to another inode than the file's leaves the file. -/
theorem read_setContents_of_ne {contents : Contents α} (h : files.file ≠ some inode) :
    (files.setContents inode contents).read = files.read := by
  rw [read_setContents, if_neg h]

/-- What is read of the file when an inode is spoilt was there. -/
theorem read_spoil (h : (files.spoil inode).read = some value) : files.read = some value := by
  unfold spoil at h
  rw [read_setContents] at h
  split at h
  · cases h
  · exact h

@[simp] theorem read_openTemporary : files.openTemporary.read = files.read := by
  have hread : files.openTemporary.read = (files.setContents files.inode .empty).read := rfl
  rw [hread, read_setContents, if_neg files.file_ne_inode]

/-- What is read after a write was there, or is what was written. -/
theorem read_write (h : (files.write inode value covers).read = some value') :
    files.file ≠ some inode ∧ files.read = some value' ∨
      files.file = some inode ∧ value' = value := by
  unfold write at h
  rw [read_setContents] at h
  split at h
  · rename_i hfile
    refine .inr ⟨hfile, ?_⟩
    split at h
    · exact (Option.some.inj h).symm
    · split at h
      · exact (Option.some.inj h).symm
      · cases h
  · rename_i hfile
    exact .inl ⟨hfile, h⟩

theorem read_write_of_ne (h : files.file ≠ some inode) :
    (files.write inode value covers).read = files.read := read_setContents_of_ne h

/-- After a rename the file is what the temporary file was. -/
theorem rename_eq_some (h : files.rename = some files') : ∃ inode,
    files.temporary = some inode ∧ files'.read = (files.contents inode).value ∧
      files'.temporary = none := by
  unfold rename at h
  split at h
  · rename_i hsome
    obtain rfl := Option.some.inj h
    exact ⟨_, (Option.some_get hsome).symm, rfl, rfl⟩
  · cases h

theorem read_rename (htemporary : files.temporary = some inode)
    (hcontents : files.contents inode = .text value) (h : files.rename = some files') :
    files'.read = some value := by
  obtain ⟨other, hother, hread, -⟩ := rename_eq_some h
  obtain rfl := Option.some.inj (htemporary.symm.trans hother)
  rw [hread, hcontents]
  rfl

/-! ### What is in the temporary file -/

/-- A text in the temporary file is of some kind. -/
def Written (P : α → Prop) (files : TemporaryFile α) : Prop :=
  ∀ inode value, files.temporary = some inode → files.contents inode = .text value → P value

variable {P : α → Prop}

theorem written_openTemporary : files.openTemporary.Written P := by
  intro inode value htemporary hcontents
  obtain rfl := Option.some.inj htemporary
  rw [contents_openTemporary, Function.update_self] at hcontents
  cases hcontents

theorem Written.setContents (h : files.Written P) {contents : Contents α}
    (hcontents : ∀ value, contents = .text value → P value) :
    (files.setContents inode contents).Written P := by
  intro other value htemporary hother
  rw [contents_setContents] at hother
  by_cases heq : other = inode
  · subst heq
    rw [Function.update_self] at hother
    exact hcontents value hother
  · rw [Function.update_of_ne heq] at hother
    exact h other value htemporary hother

theorem Written.write (h : files.Written P) (hvalue : P value) :
    (files.write inode value covers).Written P := by
  refine h.setContents fun other hother => ?_
  split at hother
  · exact Contents.text.inj hother ▸ hvalue
  · split at hother
    · exact Contents.text.inj hother ▸ hvalue
    · cases hother

theorem written_unlink : files.unlink.Written P := fun _ _ h => by cases h

theorem written_rename (h : files.rename = some files') : files'.Written P := by
  obtain ⟨-, -, -, hnone⟩ := rename_eq_some h
  intro inode value htemporary
  rw [hnone] at htemporary
  cases htemporary

/-- **What is in the temporary file is in the file** after a rename. -/
theorem Written.read_rename (h : files.Written P) (hrename : files.rename = some files')
    (hread : files'.read = some value) : P value := by
  obtain ⟨inode, htemporary, hfile, -⟩ := rename_eq_some hrename
  rw [hfile] at hread
  cases hcontents : files.contents inode with
  | text other =>
      rw [hcontents] at hread
      exact Option.some.inj hread ▸ h inode other htemporary hcontents
  | empty =>
      rw [hcontents] at hread
      cases hread
  | garbled =>
      rw [hcontents] at hread
      cases hread

end TemporaryFile
