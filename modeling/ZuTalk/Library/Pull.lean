/-
# Pulling what the other side has

One side asks the other for the contents it hears of.  Contents are joined, a content is
known by its digest, and the answer to a version is what that version lacks (`Crdt`).  A
content that was heard of is compared with one's own, then wanted, asked for, answered and
taken in; meanwhile both sides go on growing.

`Awaited` says that a content is held already or comes in with something under way.  No
move loses it (`Move.awaited`), provided that there is one answer on its way for each
document that is asked for (`Sound`).
-/

import Mathlib.Data.Multiset.Count
import Mathlib.Data.Multiset.MapFold
import Mathlib.Logic.Relation
import Mathlib.Order.BoundedOrder.Lattice

namespace Pull

/-- Contents that are joined, as a side keeps and sends them. -/
structure Crdt (C D B : Type*) [SemilatticeSup C] [OrderBot C] where
  digest : C → D
  version : C → List B
  updatesSince : C → List B → Option (List B)
  apply : C → List B → C
  digest_injective : Function.Injective digest
  version_bot : version ⊥ = []
  nothing_missing : ∀ held given, (updatesSince given (version held)).getD [] = [] → given ≤ held
  apply_updates : ∀ held given now, (updatesSince given (version held)).getD [] ≠ [] → held ≤ now →
    apply now ((updatesSince given (version held)).getD []) = now ⊔ given

section Contents

variable {C D B : Type*} [SemilatticeSup C] [OrderBot C] (crdt : Crdt C D B)

/-- What is sent to a side that has a version: nothing, if it lacks nothing. -/
def Crdt.answer (given : C) (version : List B) : List B :=
  (crdt.updatesSince given version).getD []

/-- An answer taken in, if there is anything in it. -/
def Crdt.take (now : C) (update : List B) : C :=
  if update.isEmpty then now else crdt.apply now update

variable {crdt}

/-- An answer brings all that there was. -/
theorem Crdt.take_answer {held given now : C} (h : held ≤ now) :
    crdt.take now (crdt.answer given (crdt.version held)) = now ⊔ given := by
  unfold Crdt.take
  split
  · rename_i hnothing
    have hle := crdt.nothing_missing held given (List.isEmpty_iff.1 hnothing)
    exact (sup_eq_left.2 (hle.trans h)).symm
  · rename_i hsome
    exact crdt.apply_updates held given now (fun hnil => hsome (List.isEmpty_iff.2 hnil)) h

end Contents

/-- What is under way from one side, `theirs`, to the other, `mine`. -/
@[ext]
structure State (Doc C D B : Type*) where
  theirs : Doc → C
  mine : Doc → C
  heard : Multiset (Doc × D)
  wanted : Multiset Doc
  pending : Doc → Option Bool
  asked : Multiset Doc
  wants : Multiset (Doc × List B)
  answers : Multiset (Doc × List B)

variable {Doc C D B : Type*} [DecidableEq Doc] [SemilatticeSup C] [OrderBot C]

/-- What may happen.  A document that is heard of is passed over only if it is not `kept`. -/
inductive Move (crdt : Crdt C D B) (kept : Doc → Prop) :
    State Doc C D B → State Doc C D B → Prop
  | grow {s theirs mine} (htheirs : ∀ doc, s.theirs doc ≤ theirs doc)
      (hmine : ∀ doc, s.mine doc ≤ mine doc) :
      Move crdt kept s { s with theirs := theirs, mine := mine }
  | hear {s} (docs : Multiset (Doc × D)) : Move crdt kept s { s with heard := docs + s.heard }
  | know {s doc rest} (h : s.heard = (doc, crdt.digest (s.mine doc)) ::ₘ rest) :
      Move crdt kept s { s with heard := rest }
  | decline {s doc digest rest} (h : s.heard = (doc, digest) ::ₘ rest) (hkept : ¬ kept doc) :
      Move crdt kept s { s with heard := rest }
  | want {s doc digest rest} (h : s.heard = (doc, digest) ::ₘ rest) :
      Move crdt kept s { s with heard := rest, wanted := doc ::ₘ s.wanted }
  | again {s doc stale rest} (h : s.wanted = doc ::ₘ rest) (hpending : s.pending doc = some stale) :
      Move crdt kept s
        { s with wanted := rest, pending := Function.update s.pending doc (some true) }
  | ask {s doc rest} (h : s.wanted = doc ::ₘ rest) (hpending : s.pending doc = none) :
      Move crdt kept s
        { s with
          wanted := rest
          pending := Function.update s.pending doc (some false)
          asked := doc ::ₘ s.asked }
  | send {s doc rest held} (h : s.asked = doc ::ₘ rest) (hheld : held ≤ s.mine doc) :
      Move crdt kept s { s with asked := rest, wants := (doc, crdt.version held) ::ₘ s.wants }
  | serve {s doc version rest} (h : s.wants = (doc, version) ::ₘ rest) :
      Move crdt kept s
        { s with
          wants := rest
          answers := (doc, crdt.answer (s.theirs doc) version) ::ₘ s.answers }
  | take {s doc update rest} (h : s.answers = (doc, update) ::ₘ rest)
      (hpending : s.pending doc = some false) :
      Move crdt kept s
        { s with
          mine := Function.update s.mine doc (crdt.take (s.mine doc) update)
          pending := Function.update s.pending doc none
          answers := rest }
  | takeStale {s doc update rest} (h : s.answers = (doc, update) ::ₘ rest)
      (hpending : s.pending doc = some true) :
      Move crdt kept s
        { s with
          mine := Function.update s.mine doc (crdt.take (s.mine doc) update)
          pending := Function.update s.pending doc (some false)
          asked := doc ::ₘ s.asked
          answers := rest }

/-- The questions for a document, at whatever stage. -/
def State.asks (s : State Doc C D B) (doc : Doc) : ℕ :=
  s.asked.count doc + (s.wants.map Prod.fst).count doc + (s.answers.map Prod.fst).count doc

/-- Every document that is pending is asked for once, versions are not ahead of what is held,
and answers are not ahead of what was there to give. -/
structure Sound (crdt : Crdt C D B) (s : State Doc C D B) : Prop where
  once : ∀ doc, s.asks doc = (s.pending doc).elim 0 fun _ => 1
  wants : ∀ want ∈ s.wants, ∃ held ≤ s.mine want.1, want.2 = crdt.version held
  answers : ∀ answer ∈ s.answers, ∃ held ≤ s.mine answer.1, ∃ given ≤ s.theirs answer.1,
    answer.2 = crdt.answer given (crdt.version held)

/-- A content that is held already, or comes in with something under way. -/
inductive Awaited (crdt : Crdt C D B) (s : State Doc C D B) (doc : Doc) (target : C) : Prop
  | held (h : target ≤ s.mine doc)
  | heard (content : C) (h : target ≤ content ⊔ s.mine doc)
      (hmem : (doc, crdt.digest content) ∈ s.heard)
  | wanted (h : doc ∈ s.wanted)
  | stale (h : s.pending doc = some true)
  | asked (h : doc ∈ s.asked)
  | sent (version : List B) (h : (doc, version) ∈ s.wants)
  | answered (held given : C) (hheld : held ≤ s.mine doc) (h : target ≤ given ⊔ s.mine doc)
      (hmem : (doc, crdt.answer given (crdt.version held)) ∈ s.answers)

section Sound

variable {crdt : Crdt C D B} {kept : Doc → Prop} {s t : State Doc C D B}

/-- An answer on its way is waited for. -/
theorem Sound.pending_of_answer (h : Sound crdt s) {doc : Doc} {update : List B}
    (hmem : (doc, update) ∈ s.answers) : s.pending doc ≠ none := by
  intro hnone
  have honce := h.once doc
  rw [hnone, Option.elim_none] at honce
  unfold State.asks at honce
  have hmap : doc ∈ s.answers.map Prod.fst := Multiset.mem_map.2 ⟨_, hmem, rfl⟩
  have hcount := Multiset.count_pos.2 hmap
  omega

/-- An answer that is taken in brings what it was made of. -/
theorem Sound.take_eq (h : Sound crdt s) {doc : Doc} {update : List B}
    (hmem : (doc, update) ∈ s.answers) :
    ∃ given ≤ s.theirs doc, crdt.take (s.mine doc) update = s.mine doc ⊔ given := by
  obtain ⟨held, hheld, given, hgiven, hupdate⟩ := h.answers _ hmem
  dsimp only at hupdate
  exact ⟨given, hgiven, hupdate ▸ Crdt.take_answer hheld⟩

theorem le_take (h : Sound crdt s) {doc : Doc} {update : List B}
    (hmem : (doc, update) ∈ s.answers) (other : Doc) :
    s.mine other ≤ Function.update s.mine doc (crdt.take (s.mine doc) update) other := by
  by_cases heq : other = doc
  · subst heq
    obtain ⟨given, -, htake⟩ := h.take_eq hmem
    rw [Function.update_self, htake]
    exact le_sup_left
  · rw [Function.update_of_ne heq]

/-- Both sides only grow. -/
theorem Move.le (hmove : Move crdt kept s t) (h : Sound crdt s) (doc : Doc) :
    s.theirs doc ≤ t.theirs doc ∧ s.mine doc ≤ t.mine doc := by
  cases hmove with
  | grow htheirs hmine => exact ⟨htheirs doc, hmine doc⟩
  | take hanswers => exact ⟨le_rfl, le_take h (hanswers ▸ Multiset.mem_cons_self _ _) doc⟩
  | takeStale hanswers => exact ⟨le_rfl, le_take h (hanswers ▸ Multiset.mem_cons_self _ _) doc⟩
  | _ => exact ⟨le_rfl, le_rfl⟩

/-- Versions and answers stay good while both sides grow. -/
theorem Sound.grown (h : Sound crdt s) (hle : ∀ doc, s.theirs doc ≤ t.theirs doc ∧
    s.mine doc ≤ t.mine doc) (honce : ∀ doc, t.asks doc = (t.pending doc).elim 0 fun _ => 1)
    (hwants : ∀ want ∈ t.wants, want ∈ s.wants ∨
      ∃ held ≤ t.mine want.1, want.2 = crdt.version held)
    (hanswers : ∀ answer ∈ t.answers, answer ∈ s.answers ∨ ∃ held ≤ t.mine answer.1,
      ∃ given ≤ t.theirs answer.1, answer.2 = crdt.answer given (crdt.version held)) :
    Sound crdt t where
  once := honce
  wants := by
    intro want hwant
    rcases hwants want hwant with hold | hnew
    · obtain ⟨held, hheld, hversion⟩ := h.wants want hold
      exact ⟨held, hheld.trans (hle want.1).2, hversion⟩
    · exact hnew
  answers := by
    intro answer hanswer
    rcases hanswers answer hanswer with hold | hnew
    · obtain ⟨held, hheld, given, hgiven, hupdate⟩ := h.answers answer hold
      exact ⟨held, hheld.trans (hle answer.1).2, given, hgiven.trans (hle answer.1).1, hupdate⟩
    · exact hnew

/-- **One answer on its way for each document that is pending**, after every move. -/
theorem Move.sound (hmove : Move crdt kept s t) (h : Sound crdt s) : Sound crdt t := by
  refine h.grown (hmove.le h) (fun other => ?_) (fun want hwant => ?_) fun answer hanswer => ?_
  · have honce := h.once other
    unfold State.asks at honce ⊢
    cases hmove with
    | again hwanted hpending =>
        rename_i doc stale rest
        dsimp only
        by_cases heq : other = doc
        · rw [heq, hpending] at honce
          rw [heq, Function.update_self]
          exact honce
        · rw [Function.update_of_ne heq]
          exact honce
    | ask hwanted hpending =>
        rename_i doc rest
        dsimp only
        by_cases heq : other = doc
        · rw [heq, hpending, Option.elim_none] at honce
          rw [heq, Function.update_self, Multiset.count_cons_self, Option.elim_some]
          omega
        · rw [Function.update_of_ne heq, Multiset.count_cons_of_ne heq]
          exact honce
    | send hasked hheld =>
        rw [hasked, Multiset.count_cons] at honce
        dsimp only at honce ⊢
        rw [Multiset.map_cons, Multiset.count_cons, ← honce]
        dsimp only
        omega
    | serve hwants =>
        rw [hwants, Multiset.map_cons, Multiset.count_cons] at honce
        dsimp only at honce ⊢
        rw [Multiset.map_cons, Multiset.count_cons, ← honce]
        dsimp only
        omega
    | take hanswers hpending =>
        rename_i doc update rest
        rw [hanswers, Multiset.map_cons] at honce
        dsimp only at honce ⊢
        by_cases heq : other = doc
        · rw [heq, hpending, Multiset.count_cons_self, Option.elim_some] at honce
          rw [heq, Function.update_self, Option.elim_none]
          omega
        · rw [Multiset.count_cons_of_ne heq] at honce
          rw [Function.update_of_ne heq]
          exact honce
    | takeStale hanswers hpending =>
        rename_i doc update rest
        rw [hanswers, Multiset.map_cons] at honce
        dsimp only at honce ⊢
        by_cases heq : other = doc
        · rw [heq, hpending, Multiset.count_cons_self, Option.elim_some] at honce
          rw [heq, Function.update_self, Multiset.count_cons_self, Option.elim_some]
          omega
        · rw [Multiset.count_cons_of_ne heq] at honce
          rw [Function.update_of_ne heq, Multiset.count_cons_of_ne heq]
          exact honce
    | _ => exact honce
  · cases hmove with
    | send hasked hheld =>
        rcases Multiset.mem_cons.1 hwant with rfl | hold
        · exact .inr ⟨_, hheld, rfl⟩
        · exact .inl hold
    | serve hwants => exact .inl (hwants ▸ Multiset.mem_cons_of_mem hwant)
    | _ => exact .inl hwant
  · cases hmove with
    | serve hwants =>
        rename_i doc version rest
        rcases Multiset.mem_cons.1 hanswer with rfl | hold
        · have hwant : (doc, version) ∈ s.wants := hwants ▸ Multiset.mem_cons_self _ _
          obtain ⟨held, hheld, hversion⟩ := h.wants _ hwant
          exact .inr ⟨held, hheld, _, le_rfl, congrArg (crdt.answer _) hversion⟩
        · exact .inl hold
    | take hanswers | takeStale hanswers => exact .inl (hanswers ▸ Multiset.mem_cons_of_mem hanswer)
    | _ => exact .inl hanswer

/-- **No move loses what is awaited.** -/
theorem Move.awaited (hmove : Move crdt kept s t) (h : Sound crdt s) {doc : Doc} {target : C}
    (hkept : kept doc) (htarget : target ≤ s.theirs doc) (hawaited : Awaited crdt s doc target) :
    Awaited crdt t doc target := by
  have hle := (hmove.le h doc).2
  cases hawaited with
  | held hheld => exact .held (hheld.trans hle)
  | heard content hcontent hmem =>
      have hgrown := hcontent.trans (sup_le_sup_left hle content)
      cases hmove with
      | hear docs => exact .heard content hgrown (Multiset.mem_add.2 (.inr hmem))
      | know hheard =>
          rcases Multiset.mem_cons.1 (hheard ▸ hmem) with heq | hrest
          · -- compared equal, so that nothing is missing
            obtain ⟨rfl, hdigest⟩ := Prod.mk.inj heq
            have hsame := crdt.digest_injective hdigest
            rw [hsame, sup_idem] at hcontent
            exact .held hcontent
          · exact .heard content hgrown hrest
      | decline hheard hnot =>
          rcases Multiset.mem_cons.1 (hheard ▸ hmem) with heq | hrest
          · obtain ⟨rfl, -⟩ := Prod.mk.inj heq
            exact absurd hkept hnot
          · exact .heard content hgrown hrest
      | want hheard =>
          rcases Multiset.mem_cons.1 (hheard ▸ hmem) with heq | hrest
          · obtain ⟨rfl, -⟩ := Prod.mk.inj heq
            exact .wanted (Multiset.mem_cons_self _ _)
          · exact .heard content hgrown hrest
      | _ => exact .heard content hgrown hmem
  | wanted hwanted =>
      cases hmove with
      | want hheard => exact .wanted (Multiset.mem_cons_of_mem hwanted)
      | again hold hpending =>
          rcases Multiset.mem_cons.1 (hold ▸ hwanted) with rfl | hrest
          · exact .stale (Function.update_self ..)
          · exact .wanted hrest
      | ask hold hpending =>
          rcases Multiset.mem_cons.1 (hold ▸ hwanted) with rfl | hrest
          · exact .asked (Multiset.mem_cons_self _ _)
          · exact .wanted hrest
      | _ => exact .wanted hwanted
  | stale hstale =>
      cases hmove with
      | again hold hpending =>
          rename_i other _ _
          by_cases heq : doc = other
          · exact .stale (heq ▸ Function.update_self ..)
          · exact .stale ((Function.update_of_ne heq ..).trans hstale)
      | ask hold hpending =>
          rename_i other _
          have hne : doc ≠ other := by
            rintro rfl
            rw [hpending] at hstale
            cases hstale
          exact .stale ((Function.update_of_ne hne ..).trans hstale)
      | take hanswers hpending =>
          rename_i other _ _
          have hne : doc ≠ other := by
            rintro rfl
            rw [hpending] at hstale
            cases hstale
          exact .stale ((Function.update_of_ne hne ..).trans hstale)
      | takeStale hanswers hpending =>
          rename_i other _ _
          by_cases heq : doc = other
          · exact .asked (heq ▸ Multiset.mem_cons_self _ _)
          · exact .stale ((Function.update_of_ne heq ..).trans hstale)
      | _ => exact .stale hstale
  | asked hasked =>
      cases hmove with
      | ask hold hpending => exact .asked (Multiset.mem_cons_of_mem hasked)
      | send hold hheld =>
          rcases Multiset.mem_cons.1 (hold ▸ hasked) with rfl | hrest
          · exact .sent _ (Multiset.mem_cons_self _ _)
          · exact .asked hrest
      | takeStale hanswers hpending => exact .asked (Multiset.mem_cons_of_mem hasked)
      | _ => exact .asked hasked
  | sent version hsent =>
      cases hmove with
      | send hold hheld => exact .sent version (Multiset.mem_cons_of_mem hsent)
      | serve hold =>
          rcases Multiset.mem_cons.1 (hold ▸ hsent) with heq | hrest
          · -- answered with what is there now
            obtain ⟨rfl, rfl⟩ := Prod.mk.inj heq
            obtain ⟨held, hheld, hversion⟩ := h.wants _ hsent
            dsimp only at hversion
            subst hversion
            exact .answered held _ hheld (htarget.trans le_sup_left) (Multiset.mem_cons_self _ _)
          · exact .sent version hrest
      | _ => exact .sent version hsent
  | answered held given hheld hgiven hmem =>
      have hheld' := hheld.trans hle
      have hgiven' := hgiven.trans (sup_le_sup_left hle given)
      cases hmove with
      | serve hold => exact .answered held given hheld' hgiven' (Multiset.mem_cons_of_mem hmem)
      | take hanswers hpending =>
          rcases Multiset.mem_cons.1 (hanswers ▸ hmem) with heq | hrest
          · obtain ⟨rfl, rfl⟩ := Prod.mk.inj heq
            refine .held ?_
            dsimp only
            rw [Function.update_self, Crdt.take_answer hheld, sup_comm]
            exact hgiven
          · exact .answered held given hheld' hgiven' hrest
      | takeStale hanswers hpending =>
          rcases Multiset.mem_cons.1 (hanswers ▸ hmem) with heq | hrest
          · obtain ⟨rfl, rfl⟩ := Prod.mk.inj heq
            exact .asked (Multiset.mem_cons_self _ _)
          · exact .answered held given hheld' hgiven' hrest
      | _ => exact .answered held given hheld' hgiven' hmem

omit [DecidableEq Doc] in
/-- Less is awaited with more. -/
theorem Awaited.mono {doc : Doc} {target part : C} (h : Awaited crdt s doc target)
    (hpart : part ≤ target) : Awaited crdt s doc part := by
  cases h with
  | held hheld => exact .held (hpart.trans hheld)
  | heard content hcontent hmem => exact .heard content (hpart.trans hcontent) hmem
  | wanted hwanted => exact .wanted hwanted
  | stale hstale => exact .stale hstale
  | asked hasked => exact .asked hasked
  | sent version hsent => exact .sent version hsent
  | answered held given hheld hgiven hmem =>
      exact .answered held given hheld (hpart.trans hgiven) hmem

omit [DecidableEq Doc] in
/-- What the other side takes in from here is not missing here. -/
theorem Awaited.sup {doc : Doc} {target added : C} (h : Awaited crdt s doc target)
    (hadded : added ≤ s.mine doc) : Awaited crdt s doc (target ⊔ added) := by
  cases h with
  | held hheld => exact .held (sup_le hheld hadded)
  | heard content hcontent hmem =>
      exact .heard content (sup_le hcontent (hadded.trans le_sup_right)) hmem
  | wanted hwanted => exact .wanted hwanted
  | stale hstale => exact .stale hstale
  | asked hasked => exact .asked hasked
  | sent version hsent => exact .sent version hsent
  | answered held given hheld hgiven hmem =>
      exact .answered held given hheld (sup_le hgiven (hadded.trans le_sup_right)) hmem

/-- When nothing is under way, what is awaited is held. -/
theorem Awaited.held_of_idle (h : Sound crdt s) {doc : Doc} {target : C}
    (hawaited : Awaited crdt s doc target) (hheard : s.heard = 0) (hwanted : s.wanted = 0)
    (hpending : s.pending doc = none) : target ≤ s.mine doc := by
  have honce := h.once doc
  rw [hpending, Option.elim_none] at honce
  unfold State.asks at honce
  cases hawaited with
  | held hheld => exact hheld
  | heard content hcontent hmem =>
      rw [hheard] at hmem
      exact absurd hmem (Multiset.notMem_zero _)
  | wanted hmem =>
      rw [hwanted] at hmem
      exact absurd hmem (Multiset.notMem_zero _)
  | stale hstale =>
      rw [hpending] at hstale
      cases hstale
  | asked hasked =>
      have hcount := Multiset.count_pos.2 hasked
      omega
  | sent version hsent =>
      have hmap : doc ∈ s.wants.map Prod.fst := Multiset.mem_map.2 ⟨_, hsent, rfl⟩
      have hcount := Multiset.count_pos.2 hmap
      omega
  | answered held given hheld hgiven hmem =>
      exact absurd hpending (h.pending_of_answer hmem)

/-- Several moves, one after the other. -/
abbrev Moves (crdt : Crdt C D B) (kept : Doc → Prop) :
    State Doc C D B → State Doc C D B → Prop := Relation.ReflTransGen (Move crdt kept)

/-- What moves keep. -/
theorem Moves.spec (hmoves : Moves crdt kept s t) (h : Sound crdt s) :
    Sound crdt t ∧ (∀ doc, s.theirs doc ≤ t.theirs doc ∧ s.mine doc ≤ t.mine doc) ∧
      ∀ doc target, kept doc → target ≤ s.theirs doc → Awaited crdt s doc target →
        Awaited crdt t doc target := by
  induction hmoves with
  | refl => exact ⟨h, fun _ => ⟨le_rfl, le_rfl⟩, fun _ _ _ _ hawaited => hawaited⟩
  | tail _ hmove ih =>
      obtain ⟨hsound, hle, hkeep⟩ := ih
      refine ⟨hmove.sound hsound, fun doc => ?_, fun doc target hkept htarget hawaited => ?_⟩
      · exact ⟨(hle doc).1.trans (hmove.le hsound doc).1, (hle doc).2.trans (hmove.le hsound doc).2⟩
      · exact hmove.awaited hsound hkept (htarget.trans (hle doc).1)
          (hkeep doc target hkept htarget hawaited)

end Sound

end Pull
