/-
# Runs of a partial step function, and actions that stop early

Two notions any model of a stateful program rests on.

A machine is a function `step : σ → ι → Option σ`: `none` where the input is
not possible in the state.  `run step s is` feeds the inputs `is` one after the
other; `run_induction` is induction along such a run with the whole prefix in
hand, `run_invariant` its special case for a predicate of the state alone.

An action of type `EStateM ε σ α` reads and writes a state and may stop early
with an `ε`, keeping the state it had reached.  `Within R x` says that `x`
relates the state it started from to the one it ends in, whether it finishes or
stops; for a reflexive and transitive `R` the rules below follow the structure
of a `do` block.
-/

import Mathlib.Data.List.Induction
import Mathlib.Order.Defs.Unbundled

namespace Machine

section Runs

variable {σ ι : Type*} {step : σ → ι → Option σ}

/-- The state after the inputs `is`, if every one of them was possible. -/
def run (step : σ → ι → Option σ) (s : σ) (is : List ι) : Option σ := is.foldlM step s

@[simp] theorem run_nil (s : σ) : run step s [] = some s := rfl

@[simp] theorem run_cons (s : σ) (i : ι) (is : List ι) :
    run step s (i :: is) = (step s i).bind fun t => run step t is := rfl

theorem run_append (s : σ) (is js : List ι) :
    run step s (is ++ js) = (run step s is).bind fun t => run step t js := by
  simp [run, List.foldlM_append]

theorem run_concat (s : σ) (is : List ι) (i : ι) :
    run step s (is ++ [i]) = (run step s is).bind fun t => step t i := by
  rw [run_append]
  congr 1
  funext t
  simp

/-- A run of `is ++ [i]` is a run of `is` followed by one step. -/
theorem run_concat_eq_some {s u : σ} {is : List ι} {i : ι} :
    run step s (is ++ [i]) = some u ↔ ∃ t, run step s is = some t ∧ step t i = some u := by
  rw [run_concat, Option.bind_eq_some_iff]

/-- A run of `is ++ js` is a run of `is` followed by a run of `js`. -/
theorem run_append_eq_some {s u : σ} {is js : List ι} :
    run step s (is ++ js) = some u ↔ ∃ t, run step s is = some t ∧ run step t js = some u := by
  rw [run_append, Option.bind_eq_some_iff]

/-- **Induction along a run**, the last step last. -/
theorem run_induction {s : σ} {P : List ι → σ → Prop} (nil : P [] s)
    (snoc : ∀ is t i u, run step s is = some t → P is t → step t i = some u → P (is ++ [i]) u)
    {is : List ι} {t : σ} (h : run step s is = some t) : P is t := by
  induction is using List.reverseRecOn generalizing t with
  | nil =>
      obtain rfl := Option.some.inj h
      exact nil
  | append_singleton is i ih =>
      obtain ⟨u, hu, hstep⟩ := run_concat_eq_some.1 h
      exact snoc is u i t hu (ih hu) hstep

/-- **What every step preserves, every run preserves.** -/
theorem run_invariant {I : σ → Prop} (hstep : ∀ s i t, I s → step s i = some t → I t)
    {s : σ} (hs : I s) {is : List ι} {t : σ} (h : run step s is = some t) : I t :=
  run_induction (P := fun _ u => I u) hs (fun _ u i v _ hu hv => hstep u i v hu hv) h

variable (step) in
/-- Every step of the run of `is` from `s` is taken under `P`. -/
def Along (P : σ → ι → Prop) : σ → List ι → Prop
  | _, [] => True
  | s, i :: is => P s i ∧ ∀ t, step s i = some t → Along P t is

instance {P : σ → ι → Prop} [∀ s i, Decidable (P s i)] :
    ∀ (is : List ι) (s : σ), Decidable (Along step P s is)
  | [], _ => isTrue trivial
  | i :: is, s =>
      match hp : (inferInstance : Decidable (P s i)), h : step s i with
      | isFalse hn, _ => isFalse fun halong => hn halong.1
      | isTrue hy, none => isTrue ⟨hy, fun t ht => by rw [h] at ht; cases ht⟩
      | isTrue hy, some t =>
          match instDecidableAlong is t with
          | isTrue hrest => isTrue ⟨hy, fun u hu => by rw [h] at hu; cases hu; exact hrest⟩
          | isFalse hn => isFalse fun halong => hn (halong.2 t h)

/-- The invariant rule for runs whose steps are all taken under `P`. -/
theorem Along.invariant {P : σ → ι → Prop} {I : σ → Prop}
    (hstep : ∀ s i t, I s → P s i → step s i = some t → I t) :
    ∀ {is : List ι} {s t : σ}, Along step P s is → I s → run step s is = some t → I t
  | [], _, _, _, hs, h => Option.some.inj h ▸ hs
  | i :: _, s, _, halong, hs, h => by
      obtain ⟨u, hu, hrest⟩ := Option.bind_eq_some_iff.1 (run_cons s i _ ▸ h)
      exact (halong.2 u hu).invariant hstep (hstep s i u hs halong.1 hu) hrest

/-- **Where a predicate of the state stands or falls with one of each step**, it holds in every
state a run reaches exactly if every step is taken under it. -/
theorem forall_prefix_iff_along {P : σ → ι → Prop} {I : σ → Prop}
    (hstep : ∀ s i t, I s → step s i = some t → (I t ↔ P s i))
    (hnone : ∀ s i, step s i = none → P s i) :
    ∀ {is : List ι} {s : σ}, I s →
      ((∀ js, js <+: is → ∀ t, run step s js = some t → I t) ↔ Along step P s is)
  | [], s, hs => by
      refine iff_of_true (fun js hjs t ht => ?_) trivial
      obtain rfl := List.prefix_nil.1 hjs
      exact Option.some.inj ht ▸ hs
  | i :: is, s, hs => by
      constructor
      · intro hall
        cases hi : step s i with
        | none => exact ⟨hnone s i hi, fun t ht => by rw [hi] at ht; cases ht⟩
        | some u =>
            have hu : I u := hall [i] (List.prefix_append [i] is) u (by simp [hi])
            refine ⟨(hstep s i u hs hi).1 hu, fun t ht => ?_⟩
            obtain rfl := Option.some.inj (hi.symm.trans ht)
            refine (forall_prefix_iff_along hstep hnone hu).1 fun js hjs t ht => ?_
            exact hall (i :: js) ((List.prefix_cons_inj i).2 hjs) t (by simp [hi, ht])
      · rintro ⟨hP, halong⟩ js hjs t ht
        cases js with
        | nil => exact Option.some.inj ht ▸ hs
        | cons j js =>
            obtain ⟨rfl, hjs'⟩ := List.cons_prefix_cons.1 hjs
            obtain ⟨u, hu, hrest⟩ := Option.bind_eq_some_iff.1 (run_cons s j js ▸ ht)
            have hI : I u := (hstep s j u hs hu).2 hP
            exact (forall_prefix_iff_along hstep hnone hI).2 (halong u hu) js hjs' t hrest

/-- What holds of a step in every state holds along every run. -/
theorem Along.of_forall {P : σ → ι → Prop} : ∀ {is : List ι} {s : σ},
    (∀ i ∈ is, ∀ t, P t i) → Along step P s is
  | [], _, _ => trivial
  | i :: _, s, h => ⟨h i List.mem_cons_self s, fun _ _ =>
      Along.of_forall fun j hj => h j (List.mem_cons_of_mem i hj)⟩

theorem Along.and {P Q : σ → ι → Prop} : ∀ {is : List ι} {s : σ}, Along step P s is →
    Along step Q s is → Along step (fun s i => P s i ∧ Q s i) s is
  | [], _, _, _ => trivial
  | _ :: _, _, hp, hq => ⟨⟨hp.1, hq.1⟩, fun t ht => (hp.2 t ht).and (hq.2 t ht)⟩

theorem Along.of_append {P : σ → ι → Prop} : ∀ {is js : List ι} {s : σ},
    Along step P s (is ++ js) →
      Along step P s is ∧ ∀ t, run step s is = some t → Along step P t js
  | [], _, _, h => ⟨trivial, fun _ ht => Option.some.inj ht ▸ h⟩
  | i :: _, _, s, h => by
      refine ⟨⟨h.1, fun t ht => (h.2 t ht).of_append.1⟩, fun u hu => ?_⟩
      obtain ⟨t, ht, hrest⟩ := Option.bind_eq_some_iff.1 (run_cons s i _ ▸ hu)
      exact (h.2 t ht).of_append.2 u hrest

theorem Along.of_imp {c : Prop} {P : σ → ι → Prop} : ∀ {is : List ι} {s : σ},
    (c → Along step P s is) → Along step (fun s i => c → P s i) s is
  | [], _, _ => trivial
  | _ :: _, _, h => ⟨fun hc => (h hc).1, fun t ht => Along.of_imp fun hc => (h hc).2 t ht⟩

/-- Along a run that goes through, what is asked of the steps that are possible is asked of
all. -/
theorem along_iff_of_run {P : σ → ι → Prop} : ∀ {is : List ι} {s t : σ}, run step s is = some t →
    (Along step (fun s i => step s i ≠ none → P s i) s is ↔ Along step P s is)
  | [], _, _, _ => Iff.rfl
  | i :: _, s, _, h => by
      obtain ⟨u, hu, hrest⟩ := Option.bind_eq_some_iff.1 (run_cons s i _ ▸ h)
      have hpossible : step s i ≠ none := fun hnone => by rw [hnone] at hu; cases hu
      refine and_congr ⟨fun hP => hP hpossible, fun hP _ => hP⟩ (forall_congr' fun v => ?_)
      refine imp_congr_right fun hv => ?_
      obtain rfl := Option.some.inj (hu.symm.trans hv)
      exact along_iff_of_run hrest

/-- What every step relates, on inputs of some kind and in states that have an invariant, a run
relates from its first state to its last. -/
theorem run_relation_of {I : σ → Prop} {P : ι → Prop} {R : σ → σ → Prop} (refl : ∀ s, R s s)
    (trans : ∀ s t u, R s t → R t u → R s u)
    (hstep : ∀ s i t, I s → P i → step s i = some t → I t ∧ R s t) {s : σ} {is : List ι} {t : σ}
    (hs : I s) (his : ∀ i ∈ is, P i) (h : run step s is = some t) : I t ∧ R s t := by
  induction is generalizing s with
  | nil =>
      obtain rfl := Option.some.inj h
      exact ⟨hs, refl s⟩
  | cons i is ih =>
      obtain ⟨u, hu, hrest⟩ := Option.bind_eq_some_iff.1 (run_cons s i is ▸ h)
      obtain ⟨hi, his⟩ := List.forall_mem_cons.1 his
      obtain ⟨hI, hR⟩ := hstep s i u hs hi hu
      obtain ⟨hlast, hrest⟩ := ih hI his hrest
      exact ⟨hlast, trans s u t hR hrest⟩

/-- What inputs of some kind keep, runs on such inputs keep. -/
theorem run_invariant_of {I : σ → Prop} {P : ι → Prop}
    (hstep : ∀ s i t, I s → P i → step s i = some t → I t) {s : σ} {is : List ι} {t : σ}
    (hs : I s) (his : ∀ i ∈ is, P i) (h : run step s is = some t) : I t :=
  (run_relation_of (R := fun _ _ => True) (fun _ => trivial) (fun _ _ _ _ _ => trivial)
    (fun s i t hs hi hstep' => ⟨hstep s i t hs hi hstep', trivial⟩) hs his h).1

end Runs

section Actions

variable {ε σ α β : Type} {R : σ → σ → Prop}

/-- `x`, if the condition holds. -/
def when (c : Bool) (x : EStateM ε σ PUnit) : EStateM ε σ PUnit := if c then x else pure ()

@[simp] theorem when_true (x : EStateM ε σ PUnit) : when true x = x := rfl

@[simp] theorem when_false (x : EStateM ε σ PUnit) : when false x = pure () := rfl

/-- The state an action leaves behind, whether it finished or stopped. -/
def finalState : EStateM.Result ε σ α → σ
  | .ok _ s => s
  | .error _ s => s

@[simp] theorem finalState_ok (a : α) (s : σ) :
    finalState (EStateM.Result.ok a s : EStateM.Result ε σ α) = s := rfl

@[simp] theorem finalState_error (e : ε) (s : σ) :
    finalState (EStateM.Result.error e s : EStateM.Result ε σ α) = s := rfl

/-- Where an action ends: `Q` holds of its value and state if it finishes, `E`
of the exception and the state if it stops. -/
def Ends (Q : α → σ → Prop) (E : ε → σ → Prop) : EStateM.Result ε σ α → Prop
  | .ok a s => Q a s
  | .error e s => E e s

theorem Ends.mono {Q Q' : α → σ → Prop} {E E' : ε → σ → Prop} {r : EStateM.Result ε σ α}
    (h : Ends Q E r) (hQ : ∀ a s, Q a s → Q' a s) (hE : ∀ e s, E e s → E' e s) : Ends Q' E' r := by
  cases r with
  | ok a s => exact hQ a s h
  | error e s => exact hE e s h

theorem Ends.and {Q Q' : α → σ → Prop} {E E' : ε → σ → Prop} {r : EStateM.Result ε σ α}
    (h : Ends Q E r) (h' : Ends Q' E' r) :
    Ends (fun a s => Q a s ∧ Q' a s) (fun e s => E e s ∧ E' e s) r := by
  cases r with
  | ok a s => exact ⟨h, h'⟩
  | error e s => exact ⟨h, h'⟩

theorem Ends.bind {Q : β → σ → Prop} {E : ε → σ → Prop} {x : EStateM ε σ α}
    {f : α → EStateM ε σ β} {s : σ} (h : Ends (fun a t => Ends Q E (f a t)) E (x s)) :
    Ends Q E ((x >>= f) s) := by
  change Ends Q E (EStateM.bind x f s)
  unfold EStateM.bind
  cases hx : x s with
  | ok a t =>
      rw [hx] at h
      exact h
  | error e t =>
      rw [hx] at h
      exact h

theorem Ends.get_bind {Q : α → σ → Prop} {E : ε → σ → Prop} {f : σ → EStateM ε σ α} {s : σ}
    (h : Ends Q E (f s s)) : Ends Q E ((MonadState.get >>= f : EStateM ε σ α) s) := h

theorem Ends.modify_bind {Q : α → σ → Prop} {E : ε → σ → Prop} {g : σ → σ}
    {f : PUnit → EStateM ε σ α} {s : σ} (h : Ends Q E (f PUnit.unit (g s))) :
    Ends Q E ((MonadStateOf.modifyGet (fun s => (PUnit.unit, g s)) >>= f : EStateM ε σ α) s) := h

/-- What an action relates its first state to, it ends in. -/
theorem Ends.of_finalState {P : σ → Prop} {r : EStateM.Result ε σ α} (h : P (finalState r)) :
    Ends (fun _ s => P s) (fun _ s => P s) r := by
  cases r with
  | ok a s => exact h
  | error e s => exact h

/-- The action `x` only ever moves the state along `R`. -/
def Within (R : σ → σ → Prop) (x : EStateM ε σ α) : Prop := ∀ s, R s (finalState (x s))

theorem Within.and {R' : σ → σ → Prop} {x : EStateM ε σ α} (hx : Within R x) (hx' : Within R' x) :
    Within (fun s t => R s t ∧ R' s t) x := fun s => ⟨hx s, hx' s⟩

theorem Within.ends {x : EStateM ε σ α} (hx : Within R x) (s : σ) :
    Ends (fun _ t => R s t) (fun _ t => R s t) (x s) := Ends.of_finalState (P := R s) (hx s)

theorem Within.of_eq {x : EStateM ε σ α} (hx : Within R x) {s : σ} {r : EStateM.Result ε σ α}
    (h : x s = r) : R s (finalState r) := h ▸ hx s

theorem Within.modify {f : σ → σ} (h : ∀ s, R s (f s)) :
    Within R (MonadStateOf.modifyGet fun s => (PUnit.unit, f s) : EStateM ε σ PUnit) := h

theorem Within.modifyGet {f : σ → α × σ} (h : ∀ s, R s (f s).2) :
    Within R (MonadStateOf.modifyGet f : EStateM ε σ α) := h

theorem Within.ite {p : Prop} [Decidable p] {x y : EStateM ε σ α} (hx : Within R x)
    (hy : Within R y) : Within R (if p then x else y) := by
  split
  · exact hx
  · exact hy

theorem Within.pure [Std.Refl R] (a : α) : Within R (Pure.pure a : EStateM ε σ α) :=
  fun s => Std.Refl.refl s

theorem Within.get [Std.Refl R] : Within R (MonadState.get : EStateM ε σ σ) :=
  fun s => Std.Refl.refl s

/-- What follows a `get` may use the state it read. -/
theorem Within.get_bind {f : σ → EStateM ε σ α} (h : ∀ s, R s (finalState (f s s))) :
    Within R (MonadState.get >>= f) := h

/-- The same for one state. -/
theorem Within.get_bind_at {f : σ → EStateM ε σ α} {s : σ} (h : R s (finalState (f s s))) :
    R s (finalState ((MonadState.get >>= f : EStateM ε σ α) s)) := h

theorem Within.throw [Std.Refl R] (e : ε) : Within R (MonadExcept.throw e : EStateM ε σ α) :=
  fun s => Std.Refl.refl s

theorem Within.when [Std.Refl R] {c : Bool} {x : EStateM ε σ PUnit} (hx : Within R x) :
    Within R (when c x) := Within.ite hx (Within.pure _)

theorem Within.optionForM [Std.Refl R] {f : β → EStateM ε σ PUnit} :
    ∀ {o : Option β}, (∀ b ∈ o, Within R (f b)) → Within R (o.forM f)
  | none, _ => Within.pure _
  | some b, hf => hf b rfl

theorem Within.bind [IsTrans σ R] {x : EStateM ε σ α} {f : α → EStateM ε σ β}
    (hx : Within R x) (hf : ∀ a, Within R (f a)) : Within R (x >>= f) := by
  intro s
  change R s (finalState (EStateM.bind x f s))
  have h := hx s
  unfold EStateM.bind
  cases hxs : x s with
  | ok a t =>
      rw [hxs] at h
      exact IsTrans.trans _ _ _ h (hf a t)
  | error e t =>
      rw [hxs] at h
      exact h

theorem Within.forM [Std.Refl R] [IsTrans σ R] {f : β → EStateM ε σ PUnit}
    (hf : ∀ b, Within R (f b)) (bs : List β) : Within R (bs.forM f) := by
  induction bs with
  | nil => exact Within.pure _
  | cons b bs ih => exact Within.bind (hf b) fun _ => ih

end Actions

end Machine
