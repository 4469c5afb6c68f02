/-
# Registers that messages write

A message writes some registers and leaves the others as they are: `writes message key` is
what it writes to one of them.  After several messages a register holds what the last of
them wrote to it, so a message may be left out when later ones write all that it wrote
(`putAll_cons_of_overwritten`).
-/

import Mathlib.Data.List.Induction

namespace Registers

variable {ι κ β : Type*} (writes : ι → κ → Option β)

/-- The registers after a message. -/
def put (registers : κ → β) (message : ι) : κ → β := fun key =>
  (writes message key).getD (registers key)

/-- The registers after messages, one after the other. -/
def putAll (registers : κ → β) (messages : List ι) : κ → β := messages.foldl (put writes) registers

variable {writes} {registers registers' : κ → β} {messages messages' : List ι} {message : ι}
  {key : κ}

@[simp] theorem putAll_nil : putAll writes registers [] = registers := rfl

theorem putAll_cons : putAll writes registers (message :: messages) =
    putAll writes (put writes registers message) messages := rfl

theorem putAll_append : putAll writes registers (messages ++ messages') =
    putAll writes (putAll writes registers messages) messages' := List.foldl_append

theorem putAll_concat : putAll writes registers (messages ++ [message]) key =
    (writes message key).getD (putAll writes registers messages key) := by
  rw [putAll_append]
  rfl

/-- A register is written the same whatever the others hold. -/
theorem putAll_congr (h : registers key = registers' key) (messages : List ι) :
    putAll writes registers messages key = putAll writes registers' messages key := by
  induction messages generalizing registers registers' with
  | nil => exact h
  | cons message messages ih =>
      refine ih ?_
      unfold put
      rw [h]

/-- A register no message writes. -/
theorem putAll_of_none (h : ∀ message ∈ messages, writes message key = none) :
    putAll writes registers messages key = registers key := by
  induction messages generalizing registers with
  | nil => rfl
  | cons message messages ih =>
      rw [putAll_cons, ih fun other hother => h other (List.mem_cons_of_mem message hother)]
      unfold put
      rw [h message List.mem_cons_self]
      rfl

theorem putAll_map {ι' : Type*} (f : ι' → ι) (messages : List ι') :
    putAll writes registers (messages.map f) =
      putAll (fun message => writes (f message)) registers messages := List.foldl_map

/-- Messages that write the same to a register. -/
theorem putAll_writes_congr {writes' : ι → κ → Option β}
    (h : ∀ message ∈ messages, writes message key = writes' message key) :
    putAll writes registers messages key = putAll writes' registers messages key := by
  induction messages using List.reverseRecOn with
  | nil => rfl
  | append_singleton messages message ih =>
      rw [putAll_concat, putAll_concat, h message (by simp),
        ih fun other hother => h other (List.mem_append_left _ hother)]

/-- A register that is written forgets what it held. -/
theorem putAll_of_written (h : ∃ message ∈ messages, (writes message key).isSome) :
    putAll writes registers messages key = putAll writes registers' messages key := by
  induction messages generalizing registers registers' with
  | nil =>
      obtain ⟨message, hmem, -⟩ := h
      cases hmem
  | cons message messages ih =>
      rw [putAll_cons, putAll_cons]
      cases hwrites : writes message key with
      | some value =>
          refine putAll_congr ?_ messages
          unfold put
          rw [hwrites]
          rfl
      | none =>
          obtain ⟨other, hother, hsome⟩ := h
          rcases List.mem_cons.1 hother with rfl | hrest
          · rw [hwrites] at hsome
            cases hsome
          · exact ih ⟨other, hrest, hsome⟩

/-- **A message may be left out** when later ones write what it wrote. -/
theorem putAll_cons_of_overwritten
    (h : (writes message key).isSome → ∃ other ∈ messages, (writes other key).isSome) :
    putAll writes registers (message :: messages) key = putAll writes registers messages key := by
  rw [putAll_cons]
  cases hwrites : writes message key with
  | some value => exact putAll_of_written (h (by rw [hwrites]; rfl))
  | none =>
      refine putAll_congr ?_ messages
      unfold put
      rw [hwrites]
      rfl

/-- A register holds what it held or what a message wrote. -/
theorem putAll_eq (registers : κ → β) (messages : List ι) (key : κ) :
    (putAll writes registers messages key = registers key ∧
        ∀ message ∈ messages, writes message key = none) ∨
      ∃ message ∈ messages, writes message key = some (putAll writes registers messages key) := by
  induction messages using List.reverseRecOn with
  | nil => exact .inl ⟨rfl, fun message hmem => by cases hmem⟩
  | append_singleton messages message ih =>
      rw [putAll_concat]
      cases hwrites : writes message key with
      | some value => exact .inr ⟨message, by simp, by rw [hwrites]; rfl⟩
      | none =>
          rcases ih with ⟨hsame, hnone⟩ | ⟨other, hother, hwrote⟩
          · refine .inl ⟨hsame, fun other hother => ?_⟩
            rcases List.mem_append.1 hother with hold | hnew
            · exact hnone other hold
            · exact List.mem_singleton.1 hnew ▸ hwrites
          · exact .inr ⟨other, List.mem_append_left _ hother, hwrote⟩

end Registers
