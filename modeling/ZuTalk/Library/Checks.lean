/-
# Checks

Steps that may fail, one after the other: what it means that all went well, and that the same steps
elsewhere go the same way.
-/

import Mathlib.Tactic.Common

namespace ZuTalk
namespace Checks

variable {ε : Type*}

/-- A result of a step of an `Except` action that went well. -/
theorem bind_eq_ok {α β : Type} {x : Except ε α} {f : α → Except ε β} {b : β} :
    x >>= f = .ok b ↔ ∃ a, x = .ok a ∧ f a = .ok b := by
  cases x with
  | error e => simp [bind, Except.bind]
  | ok a => simp [bind, Except.bind]

/-- All checks go well when each does. -/
theorem forM_eq_ok {α : Type} {check : α → Except ε Unit} {l : List α} :
    l.forM check = .ok () ↔ ∀ a ∈ l, check a = .ok () := by
  induction l with
  | nil => exact iff_of_true rfl fun a h => absurd h List.not_mem_nil
  | cons a l ih =>
      rw [List.forall_mem_cons]
      change (check a >>= fun _ => l.forM check) = .ok () ↔ _
      cases hcheck : check a with
      | error e => simp [bind, Except.bind]
      | ok u => simpa [bind, Except.bind] using ih

/-- Steps that do the same to what is seen through a function. -/
theorem foldlM_map {α β γ : Type} {step : α → γ → Except ε α} {step' : β → γ → Except ε β}
    {g : β → α}
    (h : ∀ b c, step (g b) c = (step' b c).map g) (b : β) (l : List γ) :
    l.foldlM step (g b) = (l.foldlM step' b).map g := by
  induction l generalizing b with
  | nil => rfl
  | cons c l ih =>
      rw [List.foldlM_cons, List.foldlM_cons, h]
      cases step' b c with
      | error e => rfl
      | ok b' => exact ih b'

/-- What every step keeps, the steps keep. -/
theorem foldlM_invariant {α γ : Type} {step : α → γ → Except ε α} {P : α → Prop} {l : List γ}
    (hstep : ∀ a c a', c ∈ l → P a → step a c = .ok a' → P a') {a a' : α} (h : P a)
    (hrun : l.foldlM step a = .ok a') : P a' := by
  induction l generalizing a with
  | nil => exact Except.ok.inj hrun ▸ h
  | cons c l ih =>
      rw [List.foldlM_cons] at hrun
      obtain ⟨mid, hmid, hrest⟩ := bind_eq_ok.1 hrun
      exact ih (fun a c a' hc => hstep a c a' (List.mem_cons_of_mem _ hc))
        (hstep a c mid List.mem_cons_self h hmid) hrest

end Checks
end ZuTalk
