/-
# Transactions and savepoints

An action of type `EStateM ε σ α` that stops leaves what it had written so far.  A transaction
(`transaction x`) that stops leaves the state it started from, and so does a savepoint whose error
is a value (`attempt x`).

`Commits Q x s` says that `Q` holds of the value and the state if `x` goes through from `s`;
`Leads R x` that `x` relates the state it starts from to the one it goes through to.  The rules
follow the structure of a `do` block; for a reflexive and transitive `R` an attempt that was undone
counts as no step at all (`Leads.attempt`).
-/

import ZuTalk.Library.Machine

namespace Transactions

open Machine

variable {ε σ α β : Type}

/-- `BEGIN` and `COMMIT` around `x`, `ROLLBACK` where it stops. -/
def transaction (x : EStateM ε σ α) : EStateM ε σ α := fun s =>
  match x s with
  | .ok a t => .ok a t
  | .error e _ => .error e s

/-- `SAVEPOINT` and `RELEASE` around `x`, `ROLLBACK TO` where it stops; the error is a value. -/
def attempt (x : EStateM ε σ α) : EStateM ε σ (Except ε α) := fun s =>
  match x s with
  | .ok a t => .ok (.ok a) t
  | .error e _ => .ok (.error e) s

/-- A result as an action. -/
def check (x : Except ε α) : EStateM ε σ α := fun s =>
  match x with
  | .ok a => .ok a s
  | .error e => .error e s

/-- `ok_or`. -/
def require (x : Option α) (e : ε) : EStateM ε σ α := check (x.elim (.error e) .ok)

/-- Stops with an error under a condition. -/
def refuse (c : Bool) (e : ε) : EStateM ε σ Unit := check (if c then .error e else .ok ())

/-- A transaction that stops changes nothing. -/
theorem transaction_error {x : EStateM ε σ α} {s t : σ} {e : ε}
    (h : transaction x s = .error e t) : t = s := by
  unfold transaction at h
  split at h
  · cases h
  · cases h
    rfl

/-! ### Evaluation -/

theorem transaction_ok {x : EStateM ε σ α} {s t : σ} {a : α} (h : x s = .ok a t) :
    transaction x s = .ok a t := by
  unfold transaction
  rw [h]

/-- A check that is passed. -/
theorem check_bind_ok {y : Except ε α} {f : α → EStateM ε σ β} {a : α} {s : σ} (h : y = .ok a) :
    (check y >>= f) s = f a s := by
  rw [h]
  rfl

theorem require_bind_some {y : Option α} {e : ε} {f : α → EStateM ε σ β} {a : α} {s : σ}
    (h : y = some a) : (require y e >>= f) s = f a s := by
  rw [h]
  rfl

/-- Nothing to refuse. -/
theorem refuse_bind_false {c : Bool} {e : ε} {f : Unit → EStateM ε σ β} {s : σ} (h : c = false) :
    (refuse c e >>= f) s = f () s := by
  rw [h]
  rfl

/-- **A loop goes through** if each round does and takes the invariant to what is left. -/
theorem forM_eq_ok {I : List α → σ → Prop} {f : α → EStateM ε σ PUnit}
    (hround : ∀ a rest s, I (a :: rest) s → ∃ t, f a s = .ok PUnit.unit t ∧ I rest t) :
    ∀ {as : List α} {s : σ}, I as s → ∃ t, as.forM f s = .ok PUnit.unit t ∧ I [] t
  | [], s, hs => ⟨s, rfl, hs⟩
  | a :: rest, s, hs => by
      obtain ⟨t, ht, hrest⟩ := hround a rest s hs
      obtain ⟨u, hu, hnil⟩ := forM_eq_ok hround hrest
      refine ⟨u, ?_, hnil⟩
      change EStateM.bind (f a) _ s = _
      rw [EStateM.bind, ht]
      exact hu

section Commits

variable {Q Q' : α → σ → Prop} {x : EStateM ε σ α} {s : σ}

/-- If `x` goes through from `s`, then `Q`. -/
def Commits (Q : α → σ → Prop) (x : EStateM ε σ α) (s : σ) : Prop :=
  Ends Q (fun _ _ => True) (x s)

theorem Commits.of_ok (h : Commits Q x s) {a : α} {t : σ} (hx : x s = .ok a t) : Q a t := by
  unfold Commits at h
  rw [hx] at h
  exact h

theorem commits_iff : Commits Q x s ↔ ∀ a t, x s = .ok a t → Q a t := by
  constructor
  · exact fun h a t => h.of_ok
  · intro h
    unfold Commits
    cases hx : x s with
    | ok a t => exact h a t hx
    | error e t => exact trivial

theorem Commits.mono (h : Commits Q x s) (hQ : ∀ a t, Q a t → Q' a t) : Commits Q' x s :=
  Ends.mono h hQ fun _ _ h => h

theorem Commits.bind {Q : β → σ → Prop} {f : α → EStateM ε σ β}
    (h : Commits (fun a t => Commits Q (f a) t) x s) : Commits Q (x >>= f) s := Ends.bind h

theorem Commits.pure {a : α} (h : Q a s) : Commits Q (Pure.pure a : EStateM ε σ α) s := h

theorem Commits.throw {e : ε} : Commits Q (MonadExcept.throw e : EStateM ε σ α) s := trivial

theorem Commits.get_bind {Q : β → σ → Prop} {f : σ → EStateM ε σ β} (h : Commits Q (f s) s) :
    Commits Q (MonadState.get >>= f) s := h

theorem Commits.modify_bind {Q : β → σ → Prop} {edit : σ → σ} {f : PUnit → EStateM ε σ β}
    (h : Commits Q (f PUnit.unit) (edit s)) :
    Commits Q ((modify edit : EStateM ε σ PUnit) >>= f) s := h

theorem Commits.modify {Q : PUnit → σ → Prop} {edit : σ → σ} (h : Q PUnit.unit (edit s)) :
    Commits Q (modify edit : EStateM ε σ PUnit) s := h

theorem Commits.map {Q : β → σ → Prop} {f : α → β} (h : Commits (fun a t => Q (f a) t) x s) :
    Commits Q (f <$> x) s := Commits.bind (f := fun a => Pure.pure (f a)) h

theorem Commits.ite {c : Prop} [Decidable c] {y : EStateM ε σ α} (hx : c → Commits Q x s)
    (hy : ¬c → Commits Q y s) : Commits Q (if c then x else y) s := by
  split
  · exact hx ‹_›
  · exact hy ‹_›

theorem commits_check {y : Except ε α} (h : ∀ a, y = .ok a → Q a s) : Commits Q (check y) s := by
  cases y with
  | ok a => exact h a rfl
  | error e => exact trivial

theorem Commits.check_bind {Q : β → σ → Prop} {y : Except ε α} {f : α → EStateM ε σ β}
    (h : ∀ a, y = .ok a → Commits Q (f a) s) : Commits Q (check y >>= f) s :=
  Commits.bind (commits_check h)

theorem Commits.require_bind {Q : β → σ → Prop} {y : Option α} {e : ε} {f : α → EStateM ε σ β}
    (h : ∀ a, y = some a → Commits Q (f a) s) : Commits Q (require y e >>= f) s := by
  refine Commits.check_bind fun a ha => h a ?_
  cases y with
  | none => cases ha
  | some b => exact congrArg some (Except.ok.inj ha)

theorem Commits.refuse_bind {Q : β → σ → Prop} {c : Bool} {e : ε} {f : Unit → EStateM ε σ β}
    (h : c = false → Commits Q (f ()) s) : Commits Q (refuse c e >>= f) s := by
  refine Commits.check_bind fun _ ha => h ?_
  cases c with
  | false => rfl
  | true => cases ha

theorem Commits.transaction (h : Commits Q x s) : Commits Q (transaction x) s := by
  refine commits_iff.2 fun a t hx => ?_
  unfold Transactions.transaction at hx
  split at hx
  · rename_i b u hxu
    cases hx
    exact h.of_ok hxu
  · cases hx

/-- A transaction that does not go through changes nothing. -/
theorem Commits.finalState {Q : σ → Prop} (h : Commits (fun _ t => Q t) x s) :
    finalState (Transactions.transaction x s) = s ∨
      Q (finalState (Transactions.transaction x s)) := by
  cases hx : Transactions.transaction x s with
  | ok a t => exact .inr (h.transaction.of_ok hx)
  | error e t => exact .inl (transaction_error hx)

end Commits

section Leads

variable {R : σ → σ → Prop} {x : EStateM ε σ α}

/-- Where `x` goes through, it relates the state before to the one after. -/
def Leads (R : σ → σ → Prop) (x : EStateM ε σ α) : Prop := ∀ s, Commits (fun _ t => R s t) x s

/-- An action that goes on along `R` from where one got along `R`. -/
theorem Leads.from [IsTrans σ R] (h : Leads R x) {s t : σ} (hst : R s t) :
    Commits (fun _ u => R s u) x t := (h t).mono fun _ _ htu => IsTrans.trans _ _ _ hst htu

theorem Leads.mono {R' : σ → σ → Prop} (h : Leads R x) (hR : ∀ s t, R s t → R' s t) : Leads R' x :=
  fun s => (h s).mono fun _ _ => hR s _

theorem Leads.bind [IsTrans σ R] {f : α → EStateM ε σ β} (hx : Leads R x)
    (hf : ∀ a, Leads R (f a)) : Leads R (x >>= f) :=
  fun s => Commits.bind ((hx s).mono fun a _ h => (hf a).from h)

theorem Leads.pure [Std.Refl R] (a : α) : Leads R (Pure.pure a : EStateM ε σ α) :=
  fun s => Std.Refl.refl s

theorem Leads.throw (e : ε) : Leads R (MonadExcept.throw e : EStateM ε σ α) := fun _ => trivial

theorem Leads.get [Std.Refl R] : Leads R (MonadState.get : EStateM ε σ σ) :=
  fun s => Std.Refl.refl s

theorem Leads.modify {edit : σ → σ} (h : ∀ s, R s (edit s)) :
    Leads R (modify edit : EStateM ε σ PUnit) := h

theorem Leads.map {f : α → β} (h : Leads R x) : Leads R (f <$> x) := fun s => by
  exact Commits.map (Q := fun _ t => R s t) (h s)

theorem Leads.check [Std.Refl R] (y : Except ε α) : Leads R (check y : EStateM ε σ α) :=
  fun s => commits_check fun _ _ => Std.Refl.refl s

theorem Leads.require [Std.Refl R] (y : Option α) (e : ε) : Leads R (require y e : EStateM ε σ α) :=
  Leads.check _

theorem Leads.refuse [Std.Refl R] (c : Bool) (e : ε) : Leads R (refuse c e : EStateM ε σ Unit) :=
  Leads.check _

theorem Leads.ite {c : Prop} [Decidable c] {y : EStateM ε σ α} (hx : Leads R x) (hy : Leads R y) :
    Leads R (if c then x else y) := fun s => Commits.ite (fun _ => hx s) fun _ => hy s

theorem Leads.attempt [Std.Refl R] (h : Leads R x) : Leads R (attempt x) := by
  refine fun s => commits_iff.2 fun a t hx => ?_
  unfold Transactions.attempt at hx
  split at hx
  · rename_i b u hxu
    cases hx
    exact (h s).of_ok hxu
  · cases hx
    exact Std.Refl.refl s

theorem Leads.forM [Std.Refl R] [IsTrans σ R] {f : β → EStateM ε σ PUnit} (hf : ∀ b, Leads R (f b))
    (bs : List β) : Leads R (bs.forM f) := by
  induction bs with
  | nil => exact Leads.pure _
  | cons b bs ih => exact Leads.bind (hf b) fun _ => ih

/-- A transaction that goes through or stops. -/
theorem finalState_transaction [Std.Refl R] (h : Leads R x) (s : σ) :
    R s (finalState (Transactions.transaction x s)) := by
  rcases (h s).finalState with hsame | hleads
  · rw [hsame]
    exact Std.Refl.refl s
  · exact hleads

end Leads

end Transactions
