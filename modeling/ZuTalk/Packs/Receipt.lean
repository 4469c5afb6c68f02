/-
# What a receipt says

The passes of `compile_notebook_context_with_limit` as logs: an entry for each candidate with what
was decided about it (`Accounts`).  A decision is what it had to be after those before it, the
context is what the logs take, and the receipt is their tally, so every candidate is counted once,
a text that is cut once more for the part that is left out (`compile_accounts`).

A candidate is a duplicate of one that came before it, whatever became of that one: it may be that
neither is in the context (`cut_counts_twice`).
-/

import Mathlib.Algebra.BigOperators.Group.List.Basic
import Mathlib.Algebra.GroupWithZero.Nat
import Mathlib.Data.List.Forall2
import ZuTalk.Library.Delimited
import ZuTalk.Packs.Compile

namespace ZuTalk
namespace Packs

open Selection Recorder

/-! ### Entries -/

/-- A candidate of a log, as the receipt has it. -/
structure Entry where
  origin : CandidateOrigin
  kind : ContextContentKind
  scalars : ℕ
  decision : Decision

namespace Entry

/-- The scalars of an entry that are in the context, if some are. -/
def inclusion (entry : Entry) : Option ℕ :=
  match entry.decision with
  | .included => some entry.scalars
  | .cut kept => some kept
  | _ => none

/-- Why something of an entry is not in the context, and how many scalars. -/
def omission (entry : Entry) : Option (ContextOmissionReason × ℕ) :=
  match entry.decision with
  | .duplicate => some (.duplicate, entry.scalars)
  | .exceeded => some (.budgetExceeded, entry.scalars)
  | .cut kept => some (.truncated, entry.scalars - kept)
  | .included => none

/-- An entry is cut. -/
def isCut (entry : Entry) : Bool :=
  match entry.decision with
  | .cut _ => true
  | _ => false

/-- An entry goes into the receipt. -/
def post (compiling : Compiling) (entry : Entry) : Compiling :=
  let compiling := match entry.inclusion with
    | some scalars => compiling.included entry.origin scalars
    | none => compiling
  match entry.omission with
  | some (reason, scalars) => compiling.omitted entry.origin entry.kind reason scalars
  | none => compiling

theorem post_sources (compiling : Compiling) (entry : Entry) :
    (entry.post compiling).sources = match entry.inclusion with
      | some scalars => recordIncluded entry.origin 1 scalars compiling.sources
      | none => compiling.sources := by
  unfold post
  cases entry.inclusion <;> cases entry.omission <;> rfl

theorem post_omissions (compiling : Compiling) (entry : Entry) :
    (entry.post compiling).omissions = match entry.omission with
      | some (reason, scalars) =>
          recordOmission entry.origin entry.kind reason 1 scalars compiling.omissions
      | none => compiling.omissions := by
  unfold post
  cases entry.inclusion <;> cases entry.omission <;> rfl

@[simp] theorem post_context (compiling : Compiling) (entry : Entry) :
    (entry.post compiling).context = compiling.context := by
  unfold post
  cases entry.inclusion <;> cases entry.omission <;> rfl

theorem post_setContext (compiling : Compiling) (entry : Entry) (context : SonioxContext) :
    entry.post { compiling with context := context } =
      { entry.post compiling with context := context } := by
  unfold post
  cases entry.inclusion <;> cases entry.omission <;> rfl

end Entry

/-! ### Tallies -/

/-- The entries of a source. -/
def entriesOf (origin : CandidateOrigin) (entries : List Entry) : List Entry :=
  entries.filter fun entry => entry.origin = origin

/-- What is included of a source. -/
def inclusionsOf (origin : CandidateOrigin) (entries : List Entry) : List ℕ :=
  (entriesOf origin entries).filterMap Entry.inclusion

/-- A receipt of a source with what is included of it. -/
def tallied (entries : List Entry) (source : ContextReceiptSource) : ContextReceiptSource :=
  { source with
    includedItems := source.includedItems + (inclusionsOf source.origin entries).length
    includedScalars := source.includedScalars + (inclusionsOf source.origin entries).sum }

/-- What is left out, of those for which `p` holds of origin, kind and reason. -/
def omissionsOf (p : CandidateOrigin → ContextContentKind → ContextOmissionReason → Bool)
    (entries : List Entry) : List ℕ :=
  entries.filterMap fun entry => (entry.omission.filter fun omission =>
    p entry.origin entry.kind omission.1).map Prod.snd

/-- The rows for which `p` holds of origin, kind and reason. -/
def rowsOf (p : CandidateOrigin → ContextContentKind → ContextOmissionReason → Bool)
    (omissions : List ContextOmission) : List ContextOmission :=
  omissions.filter fun omission => p omission.origin omission.kind omission.reason

/-- The source of a candidate gets what is included of it. -/
theorem recordIncluded_eq (origin : CandidateOrigin) (items scalars : ℕ)
    {sources : List ContextReceiptSource}
    (h : (sources.map ContextReceiptSource.origin).Nodup) :
    recordIncluded origin items scalars sources = sources.map fun source =>
      if source.origin = origin then
        { source with
          includedItems := source.includedItems + items
          includedScalars := source.includedScalars + scalars }
      else source := by
  induction sources with
  | nil => rfl
  | cons source sources ih =>
      rw [List.map_cons, List.nodup_cons] at h
      rw [recordIncluded, List.map_cons]
      split
      · next horigin =>
          have hothers : ∀ other ∈ sources, other.origin ≠ origin := fun other hother hsame =>
            h.1 (horigin ▸ hsame ▸ List.mem_map_of_mem hother)
          rw [List.map_congr_left fun other hother => if_neg (hothers other hother), List.map_id']
      · rw [ih h.2]

/-- **The receipts of the sources are tallies** of the entries. -/
theorem foldl_post_sources (entries : List Entry) (compiling : Compiling)
    (h : (compiling.sources.map ContextReceiptSource.origin).Nodup) :
    (entries.foldl Entry.post compiling).sources = compiling.sources.map (tallied entries) := by
  induction entries generalizing compiling with
  | nil => exact (List.map_id'' (fun source => rfl) compiling.sources).symm
  | cons entry entries ih =>
      have hpost : (entry.post compiling).sources =
          compiling.sources.map (tallied [entry]) := by
        rw [entry.post_sources]
        cases hinclusion : entry.inclusion with
        | none =>
            refine (List.map_id'' (fun source => ?_) compiling.sources).symm
            by_cases horigin : entry.origin = source.origin <;>
              simp [tallied, inclusionsOf, entriesOf, horigin, hinclusion]
        | some scalars =>
            simp only
            rw [recordIncluded_eq _ _ _ h]
            refine List.map_congr_left fun source _ => ?_
            by_cases horigin : source.origin = entry.origin
            · simp [tallied, inclusionsOf, entriesOf, horigin, hinclusion]
            · simp [tallied, inclusionsOf, entriesOf, horigin, Ne.symm horigin]
      have horigins : ((entry.post compiling).sources.map ContextReceiptSource.origin) =
          compiling.sources.map ContextReceiptSource.origin := by
        rw [hpost, List.map_map]
        rfl
      rw [List.foldl_cons, ih _ (by rw [horigins]; exact h), hpost, List.map_map]
      refine List.map_congr_left fun source _ => ?_
      have hcons : inclusionsOf source.origin (entry :: entries) =
          inclusionsOf source.origin [entry] ++ inclusionsOf source.origin entries := by
        simp only [inclusionsOf, entriesOf, ← List.filterMap_append, ← List.filter_append,
          List.singleton_append]
      simp only [Function.comp, tallied, hcons, List.length_append, List.sum_append, Nat.add_assoc]

/-- A row more, or more in a row: in the sums it is the same. -/
theorem sum_recordOmission (measure : ContextOmission → ℕ) {origin : CandidateOrigin}
    {kind : ContextContentKind} {reason : ContextOmissionReason} {items scalars amount : ℕ}
    (hnew : measure ⟨origin, kind, reason, items, scalars⟩ = amount)
    (hmore : ∀ omission : ContextOmission, measure { omission with
      omittedItems := omission.omittedItems + items
      omittedScalars := omission.omittedScalars + scalars } = measure omission + amount)
    (p : CandidateOrigin → ContextContentKind → ContextOmissionReason → Bool)
    (omissions : List ContextOmission) :
    ((rowsOf p (recordOmission origin kind reason items scalars omissions)).map measure).sum =
      ((rowsOf p omissions).map measure).sum + if p origin kind reason then amount else 0 := by
  induction omissions with
  | nil =>
      rw [recordOmission]
      unfold rowsOf
      by_cases hp : p origin kind reason <;> simp [hp, hnew]
  | cons omission omissions ih =>
      unfold rowsOf at ih ⊢
      rw [recordOmission]
      split
      · next hsame =>
          obtain ⟨rfl, rfl, rfl⟩ := hsame
          by_cases hp : p omission.origin omission.kind omission.reason
          · simp [hp, hmore]
            omega
          · simp [hp]
      · by_cases hp : p omission.origin omission.kind omission.reason
        · simp [hp, ih]
          omega
        · simp [hp, ih]

/-- **The rows of omissions are tallies** of the entries. -/
theorem foldl_post_omissions (entries : List Entry) (compiling : Compiling)
    (p : CandidateOrigin → ContextContentKind → ContextOmissionReason → Bool) :
    ((rowsOf p (entries.foldl Entry.post compiling).omissions).map
        ContextOmission.omittedItems).sum =
      ((rowsOf p compiling.omissions).map ContextOmission.omittedItems).sum +
        (omissionsOf p entries).length ∧
    ((rowsOf p (entries.foldl Entry.post compiling).omissions).map
        ContextOmission.omittedScalars).sum =
      ((rowsOf p compiling.omissions).map ContextOmission.omittedScalars).sum +
        (omissionsOf p entries).sum := by
  induction entries generalizing compiling with
  | nil => exact ⟨rfl, rfl⟩
  | cons entry entries ih =>
      obtain ⟨hitems, hscalars⟩ := ih (entry.post compiling)
      have hcons : omissionsOf p (entry :: entries) = ((entry.omission.filter fun omission =>
          p entry.origin entry.kind omission.1).map Prod.snd).toList ++ omissionsOf p entries := by
        unfold omissionsOf
        rw [List.filterMap_cons]
        cases (entry.omission.filter fun omission =>
          p entry.origin entry.kind omission.1).map Prod.snd <;> rfl
      rw [List.foldl_cons, hitems, hscalars, hcons, entry.post_omissions]
      cases homission : entry.omission with
      | none => simp
      | some omission =>
          obtain ⟨reason, scalars⟩ := omission
          simp only
          rw [sum_recordOmission _ rfl fun _ => rfl, sum_recordOmission _ rfl fun _ => rfl]
          by_cases hp : p entry.origin entry.kind reason
          · simp [Option.filter, hp, Nat.add_assoc, Nat.add_comm 1]
          · simp [Option.filter, hp]

/-- What a row of omissions is about. -/
def ContextOmission.subject (omission : ContextOmission) :
    CandidateOrigin × ContextContentKind × ContextOmissionReason :=
  (omission.origin, omission.kind, omission.reason)

theorem mem_recordOmission {origin : CandidateOrigin} {kind : ContextContentKind}
    {reason : ContextOmissionReason} {items scalars : ℕ} {omissions : List ContextOmission}
    {row : ContextOmission} (h : row ∈ recordOmission origin kind reason items scalars omissions) :
    row.subject = (origin, kind, reason) ∨
      ∃ omission ∈ omissions, omission.subject = row.subject := by
  induction omissions with
  | nil => exact .inl (by rw [List.mem_singleton.1 h]; rfl)
  | cons omission omissions ih =>
      rw [recordOmission] at h
      split at h
      · rcases List.mem_cons.1 h with rfl | h
        · exact .inr ⟨omission, List.mem_cons_self .., rfl⟩
        · exact .inr ⟨row, List.mem_cons_of_mem _ h, rfl⟩
      · rcases List.mem_cons.1 h with rfl | h
        · exact .inr ⟨row, List.mem_cons_self .., rfl⟩
        · rcases ih h with hnew | ⟨other, hother, hsame⟩
          · exact .inl hnew
          · exact .inr ⟨other, List.mem_cons_of_mem _ hother, hsame⟩

/-- There is one row for a subject. -/
theorem nodup_recordOmission (origin : CandidateOrigin) (kind : ContextContentKind)
    (reason : ContextOmissionReason) (items scalars : ℕ) {omissions : List ContextOmission}
    (h : (omissions.map ContextOmission.subject).Nodup) :
    ((recordOmission origin kind reason items scalars omissions).map
      ContextOmission.subject).Nodup := by
  induction omissions with
  | nil => exact List.pairwise_singleton _ _
  | cons omission omissions ih =>
      rw [List.map_cons, List.nodup_cons] at h
      rw [recordOmission]
      split
      · exact List.nodup_cons.2 h
      · next hother =>
          refine List.nodup_cons.2 ⟨fun hmem => ?_, ih h.2⟩
          obtain ⟨row, hrow, hsame⟩ := List.mem_map.1 hmem
          rcases mem_recordOmission hrow with hnew | ⟨other, hmem', hsubject⟩
          · rw [hsame] at hnew
            exact hother ⟨congrArg Prod.fst hnew, congrArg (·.2.1) hnew, congrArg (·.2.2) hnew⟩
          · exact h.1 (hsame ▸ hsubject ▸ List.mem_map_of_mem hmem')

theorem foldl_post_nodup (entries : List Entry) {compiling : Compiling}
    (h : (compiling.omissions.map ContextOmission.subject).Nodup) :
    ((entries.foldl Entry.post compiling).omissions.map ContextOmission.subject).Nodup := by
  induction entries generalizing compiling with
  | nil => exact h
  | cons entry entries ih =>
      refine ih ?_
      rw [entry.post_omissions]
      cases entry.omission with
      | none => exact h
      | some omission => exact nodup_recordOmission _ _ _ _ _ h

/-- The variables of the passes with a context. -/
def Compiling.withContext (compiling : Compiling) (context : SonioxContext) : Compiling :=
  { compiling with context := context }

theorem Compiling.withContext_withContext (compiling : Compiling)
    (context context' : SonioxContext) :
    (compiling.withContext context).withContext context' = compiling.withContext context' := rfl

theorem foldl_post_withContext (entries : List Entry) (compiling : Compiling)
    (context : SonioxContext) : entries.foldl Entry.post (compiling.withContext context) =
      (entries.foldl Entry.post compiling).withContext context := by
  induction entries generalizing compiling with
  | nil => rfl
  | cons entry entries ih =>
      rw [List.foldl_cons, List.foldl_cons, ← ih]
      exact congrArg (List.foldl Entry.post · entries) (Entry.post_setContext ..)

/-! ### Verdicts -/

/-- The candidates of a pass with what is decided about them. -/
abbrev Log (α : Type) := List (Candidate α × Decision)

variable {α : Type}

/-- The values that are included. -/
def taken (log : Log α) : List α :=
  (log.filter fun entry => entry.2 = .included).map fun entry => entry.1.value

/-- What is in the context of a text. -/
def chunk (entry : Candidate (List Char) × Decision) : Option (List Char) :=
  match entry.2 with
  | .included => some entry.1.value
  | .cut kept => some (entry.1.value.take kept)
  | _ => none

/-- The texts that are included, those that are cut as far as they are. -/
def chunks (log : Log (List Char)) : List (List Char) := log.filterMap chunk

/-- A value came before. -/
def Seen (log : Log α) (value : α) : Prop := ∃ entry ∈ log, entry.1.value = value

/-- **What is decided about an item**: it is a duplicate of an item before it, or it is included and
fits with those included before it, or it does not fit. -/
def ItemVerdict (size : List α → ℕ) (maxScalars : ℕ) (before : Log α)
    (entry : Candidate α × Decision) : Prop :=
  match entry.2 with
  | .duplicate => Seen before entry.1.value
  | .included => ¬ Seen before entry.1.value ∧
      size (taken before ++ [entry.1.value]) ≤ maxScalars
  | .exceeded => ¬ Seen before entry.1.value ∧
      maxScalars < size (taken before ++ [entry.1.value])
  | .cut _ => False

/-- **What is decided about a text**: it is a duplicate of a text before it, or it is included and
fits with what is included before it, or it is cut to the longest part that does, or no part of it
fits. -/
def TextVerdict (size : List (List Char) → ℕ) (maxScalars : ℕ) (before : Log (List Char))
    (entry : Candidate (List Char) × Decision) : Prop :=
  match entry.2 with
  | .duplicate => Seen before entry.1.value
  | .included => ¬ Seen before entry.1.value ∧
      size (chunks before ++ [entry.1.value]) ≤ maxScalars
  | .exceeded => ¬ Seen before entry.1.value ∧ ∀ n, 0 < n → n ≤ entry.1.value.length →
      maxScalars < size (chunks before ++ [entry.1.value.take n])
  | .cut kept => ¬ Seen before entry.1.value ∧ 0 < kept ∧ kept < entry.1.value.length ∧
      size (chunks before ++ [entry.1.value.take kept]) ≤ maxScalars ∧
      ∀ n, kept < n → n ≤ entry.1.value.length →
        maxScalars < size (chunks before ++ [entry.1.value.take n])

/-- The entries of a log. -/
def Log.entries (kind : ContextContentKind) (scalars : α → ℕ) (log : Log α) : List Entry :=
  log.map fun entry => ⟨entry.1.origin, kind, scalars entry.1.value, entry.2⟩

@[simp] theorem taken_append (log log' : Log α) :
    taken (log ++ log') = taken log ++ taken log' := by
  simp [taken]

@[simp] theorem Log.entries_append (kind : ContextContentKind) (scalars : α → ℕ)
    (log log' : Log α) : Log.entries kind scalars (log ++ log') =
      Log.entries kind scalars log ++ Log.entries kind scalars log' := List.map_append

theorem seen_concat {log : Log α} {entry : Candidate α × Decision} {value : α} :
    Seen (log ++ [entry]) value ↔ Seen log value ∨ entry.1.value = value := by
  unfold Seen
  simp only [List.mem_append, List.mem_singleton, or_and_right, exists_or, exists_eq_left]

/-- **What is included is so once.** -/
theorem nodup_taken {size : List α → ℕ} {maxScalars : ℕ} {log : Log α}
    (h : Settled (ItemVerdict size maxScalars) log) : (taken log).Nodup := by
  have hapart : Settled (fun before entry => ∀ other ∈ before,
      other.2 = .included → entry.2 = .included → other.1.value ≠ entry.1.value) log := by
    refine h.imp fun before entry hverdict other hother _ hincluded => ?_
    rw [ItemVerdict, hincluded] at hverdict
    exact fun hsame => hverdict.1 ⟨other, hother, hsame⟩
  refine List.pairwise_map.2 (List.pairwise_filter.2
    (hapart.pairwise.imp fun h hother hentry => ?_))
  exact h (by simpa using hother) (by simpa using hentry)

/-! ### Passes -/

/-- What a pass did, `place` being the context for what a log has put into it. -/
structure PassOf (kind : ContextContentKind) (place : Log α → SonioxContext) (scalars : α → ℕ)
    (verdict : Log α → Candidate α × Decision → Prop) (maxScalars : ℕ) (start : Compiling)
    (log : Log α) (pass : List α × Compiling) : Prop where
  seen : ∀ value, value ∈ pass.1 ↔ Seen log value
  compiling : pass.2 = ((log.entries kind scalars).foldl Entry.post start).withContext (place log)
  settled : Settled verdict log
  fits : serializedScalarCount (place log) ≤ maxScalars

section PassOf

variable {kind : ContextContentKind} {place : Log α → SonioxContext} {scalars : α → ℕ}
  {verdict : Log α → Candidate α × Decision → Prop} {maxScalars : ℕ} {start : Compiling}
  {log : Log α} {pass : List α × Compiling} {candidate : Candidate α}

theorem PassOf.context (h : PassOf kind place scalars verdict maxScalars start log pass) :
    pass.2.context = place log := by
  rw [h.compiling]
  rfl

/-- What a pass did with an entry more. -/
theorem PassOf.concat (h : PassOf kind place scalars verdict maxScalars start log pass)
    {decision : Decision} {seen : List α} (hverdict : verdict log (candidate, decision))
    (hseen : ∀ value, value ∈ seen ↔ value ∈ pass.1 ∨ candidate.value = value)
    (hfits : serializedScalarCount (place (log ++ [(candidate, decision)])) ≤ maxScalars) :
    PassOf kind place scalars verdict maxScalars start (log ++ [(candidate, decision)])
      (seen, Entry.post { pass.2 with context := place (log ++ [(candidate, decision)]) }
        ⟨candidate.origin, kind, scalars candidate.value, decision⟩) where
  seen value := by rw [hseen, h.seen, seen_concat]
  compiling := by
    rw [Log.entries_append, List.foldl_append, h.compiling]
    exact Entry.post_setContext ((log.entries kind scalars).foldl Entry.post start)
      ⟨candidate.origin, kind, scalars candidate.value, decision⟩ _
  settled := h.settled.concat hverdict
  fits := hfits

/-- A duplicate changes nothing but the receipt. -/
theorem PassOf.duplicate (h : PassOf kind place scalars verdict maxScalars start log pass)
    (hplace : place (log ++ [(candidate, .duplicate)]) = place log)
    (hverdict : Seen log candidate.value → verdict log (candidate, .duplicate))
    (hseen : candidate.value ∈ pass.1) :
    PassOf kind place scalars verdict maxScalars start (log ++ [(candidate, .duplicate)])
      (pass.1, pass.2.omitted candidate.origin kind .duplicate (scalars candidate.value)) := by
  have hsame : pass.2 = { pass.2 with context := place (log ++ [(candidate, .duplicate)]) } := by
    rw [hplace, ← h.context]
  rw [hsame]
  refine h.concat (hverdict ((h.seen _).1 hseen)) (fun value => ?_) (hplace ▸ h.fits)
  exact ⟨.inl, fun hor => hor.elim id fun heq => heq ▸ hseen⟩

end PassOf

/-- A step of a pass over items adds an entry to its log. -/
theorem placeItem_passOf [DecidableEq α] {kind : ContextContentKind}
    {put : List α → SonioxContext} {add : SonioxContext → α → SonioxContext} {scalars : α → ℕ}
    {maxScalars : ℕ} {start : Compiling} {log : Log α} {pass : List α × Compiling}
    (hadd : ∀ items item, add (put items) item = put (items ++ [item]))
    (h : PassOf kind (fun log => put (taken log)) scalars
      (ItemVerdict (fun items => serializedScalarCount (put items)) maxScalars) maxScalars start
      log pass) (candidate : Candidate α) :
    ∃ decision, PassOf kind (fun log => put (taken log)) scalars
      (ItemVerdict (fun items => serializedScalarCount (put items)) maxScalars) maxScalars start
      (log ++ [(candidate, decision)]) (placeItem kind add scalars maxScalars pass candidate) := by
  have hcons : ∀ value, value ∈ candidate.value :: pass.1 ↔
      value ∈ pass.1 ∨ candidate.value = value := fun value => by
    rw [List.mem_cons, or_comm, eq_comm]
  unfold placeItem
  by_cases hseen : candidate.value ∈ pass.1
  · rw [if_pos hseen]
    exact ⟨.duplicate, h.duplicate (by simp [taken]) id hseen⟩
  · have hunseen : ¬ Seen log candidate.value := fun hs => hseen ((h.seen _).2 hs)
    have hcontext : add pass.2.context candidate.value =
        put (taken log ++ [candidate.value]) := by
      rw [h.context, hadd]
    rw [if_neg hseen]
    simp only [hcontext]
    by_cases hmax : maxScalars < serializedScalarCount (put (taken log ++ [candidate.value]))
    · rw [if_pos hmax]
      have hplace : put (taken (log ++ [(candidate, .exceeded)])) = put (taken log) := by
        simp [taken]
      have hsame : pass.2 =
          { pass.2 with context := put (taken (log ++ [(candidate, .exceeded)])) } := by
        rw [hplace, ← h.context]
      rw [hsame]
      exact ⟨.exceeded, h.concat ⟨hunseen, hmax⟩ hcons (hplace ▸ h.fits)⟩
    · rw [if_neg hmax]
      have hplace : put (taken (log ++ [(candidate, .included)])) =
          put (taken log ++ [candidate.value]) := by
        simp [taken]
      rw [← hplace]
      exact ⟨.included, h.concat ⟨hunseen, Nat.not_lt.1 hmax⟩ hcons
        (hplace ▸ Nat.not_lt.1 hmax)⟩

/-- A pass over candidates, step by step. -/
theorem foldl_passOf {kind : ContextContentKind} {place : Log α → SonioxContext} {scalars : α → ℕ}
    {verdict : Log α → Candidate α × Decision → Prop} {maxScalars : ℕ} {start : Compiling}
    {step : List α × Compiling → Candidate α → List α × Compiling}
    (keeps : Candidate α → Bool)
    (hstep : ∀ log pass candidate,
      PassOf kind place scalars verdict maxScalars start log pass → keeps candidate →
      ∃ decision, PassOf kind place scalars verdict maxScalars start
        (log ++ [(candidate, decision)]) (step pass candidate))
    (hskip : ∀ pass candidate, keeps candidate = false → step pass candidate = pass)
    (candidates : List (Candidate α)) {log : Log α} {pass : List α × Compiling}
    (h : PassOf kind place scalars verdict maxScalars start log pass) :
    ∃ log', PassOf kind place scalars verdict maxScalars start log' (candidates.foldl step pass) ∧
      log'.map Prod.fst = log.map Prod.fst ++ candidates.filter keeps := by
  induction candidates generalizing log pass with
  | nil => exact ⟨log, h, by simp⟩
  | cons candidate candidates ih =>
      rw [List.foldl_cons, List.filter_cons]
      cases hkeeps : keeps candidate with
      | true =>
          obtain ⟨decision, hnext⟩ := hstep log pass candidate h hkeeps
          obtain ⟨log', hlog', hmap⟩ := ih hnext
          exact ⟨log', hlog', by simp [hmap]⟩
      | false =>
          rw [hskip pass candidate hkeeps]
          exact ih h

/-! ### Texts -/

/-- The text of a context: paragraphs. -/
def joined (paragraphs : List (List Char)) : List Char := ['\n', '\n'].intercalate paragraphs

/-- A paragraph more is what the pass over texts writes. -/
theorem joined_concat {paragraphs : List (List Char)} (h : ∀ text ∈ paragraphs, text ≠ [])
    (text : List Char) : joined (paragraphs ++ [text]) =
      joined paragraphs ++ (if joined paragraphs = [] then [] else ['\n', '\n']) ++ text := by
  cases paragraphs with
  | nil => simp [joined]
  | cons first rest =>
      have hne : joined (first :: rest) ≠ [] := by
        have hfirst := h first (List.mem_cons_self ..)
        cases rest <;> simp [joined, hfirst]
      rw [if_neg hne]
      unfold joined
      rw [Delimited.intercalate_append (List.cons_ne_nil _ _) (by simp), List.intercalate_singleton]

/-- How long an object is with a member more. -/
theorem length_jsonObject_concat (members : List (List Char × List Char)) (key value : List Char) :
    (jsonObject (members ++ [(key, value)])).length =
      (jsonObject (members ++ [(key, [])])).length + value.length := by
  unfold jsonObject
  cases members with
  | nil => simp; omega
  | cons member members =>
      rw [List.map_append, List.map_append,
        Delimited.intercalate_append (by simp) (by simp),
        Delimited.intercalate_append (by simp) (by simp)]
      simp
      omega

/-- A longer text takes more room. -/
theorem serializedScalarCount_mono (context : SonioxContext) {text more : List Char}
    (htext : text ≠ []) :
    serializedScalarCount { context with text := text } ≤
      serializedScalarCount { context with text := text ++ more } := by
  have hcount : ∀ text : List Char, text ≠ [] →
      serializedScalarCount { context with text := text } =
        (jsonObject (context.members ++ [(['t', 'e', 'x', 't'], [])])).length +
          (jsonString text).length := fun text hne => by
    unfold serializedScalarCount SonioxContext.toJson
    rw [if_neg hne]
    exact length_jsonObject_concat context.members _ _
  rw [hcount text htext, hcount (text ++ more) (by simp [htext])]
  simp [jsonString]

theorem chunks_concat (log : Log (List Char)) (entry : Candidate (List Char) × Decision) :
    chunks (log ++ [entry]) = chunks log ++ (chunk entry).toList := by
  unfold chunks
  rw [List.filterMap_append]
  cases hchunk : chunk entry <;> simp [hchunk]

/-- A text that is not empty is included, cut or left out, and so there is something in every part
of it. -/
def FilledVerdict (size : List (List Char) → ℕ) (maxScalars : ℕ) (before : Log (List Char))
    (entry : Candidate (List Char) × Decision) : Prop :=
  entry.1.value ≠ [] ∧ TextVerdict size maxScalars before entry

theorem chunks_ne_nil {size : List (List Char) → ℕ} {maxScalars : ℕ} {log : Log (List Char)}
    (h : Settled (FilledVerdict size maxScalars) log) : ∀ text ∈ chunks log, text ≠ [] := by
  intro text htext
  obtain ⟨entry, hentry, hchunk⟩ := List.mem_filterMap.1 htext
  obtain ⟨before, rest, heq⟩ := List.append_of_mem hentry
  obtain ⟨hne, hverdict⟩ := h before entry rest heq
  unfold chunk at hchunk
  unfold TextVerdict at hverdict
  split at hchunk
  · obtain rfl := Option.some.inj hchunk
    exact hne
  · next kept hdecision =>
      rw [hdecision] at hverdict
      obtain rfl := Option.some.inj hchunk
      obtain ⟨-, hkept, -⟩ := hverdict
      rw [Ne, List.take_eq_nil_iff]
      exact fun hnil => hnil.elim (by omega) hne
  · cases hchunk

/-- A step of the pass over texts adds an entry to its log. -/
theorem placeText_passOf {context : SonioxContext} {maxScalars : ℕ} {start : Compiling}
    {log : Log (List Char)} {pass : List (List Char) × Compiling}
    (h : PassOf .text (fun log => { context with text := joined (chunks log) }) List.length
      (FilledVerdict (fun texts =>
        serializedScalarCount { context with text := joined texts }) maxScalars) maxScalars start
      log pass) (candidate : Candidate (List Char)) (hne : candidate.value ≠ []) :
    ∃ decision, PassOf .text (fun log => { context with text := joined (chunks log) }) List.length
      (FilledVerdict (fun texts =>
        serializedScalarCount { context with text := joined texts }) maxScalars) maxScalars start
      (log ++ [(candidate, decision)]) (placeText maxScalars pass candidate) := by
  have hcons : ∀ value, value ∈ candidate.value :: pass.1 ↔
      value ∈ pass.1 ∨ candidate.value = value := fun value => by
    rw [List.mem_cons, or_comm, eq_comm]
  unfold placeText
  rw [if_neg hne]
  by_cases hseen : candidate.value ∈ pass.1
  · rw [if_pos hseen]
    exact ⟨.duplicate, h.duplicate (by rw [chunks_concat]; simp [chunk]) (fun hs => ⟨hne, hs⟩)
      hseen⟩
  · have hunseen : ¬ Seen log candidate.value := fun hs => hseen ((h.seen _).2 hs)
    have hput : ∀ text, pass.2.context.text ++
        (if pass.2.context.text = [] then [] else ['\n', '\n']) ++ text =
          joined (chunks log ++ [text]) := fun text => by
      rw [h.context, joined_concat (chunks_ne_nil h.settled)]
    have hwith : ∀ text, { pass.2.context with text := joined text } =
        ({ context with text := joined text } : SonioxContext) := fun text => by
      rw [h.context]
    have hplace : ∀ decision, ({ context with
        text := joined (chunks log ++ (chunk (candidate, decision)).toList) } : SonioxContext) =
          { context with text := joined (chunks (log ++ [(candidate, decision)])) } :=
      fun decision => by rw [chunks_concat]
    have hexceeded : ({ context with
        text := joined (chunks (log ++ [(candidate, .exceeded)])) } : SonioxContext) =
          { context with text := joined (chunks log) } := by
      rw [chunks_concat, chunk, Option.toList_none, List.append_nil]
    have hsame : pass.2 = { pass.2 with context :=
        { context with text := joined (chunks (log ++ [(candidate, .exceeded)])) } } := by
      rw [hexceeded, ← h.context]
    rw [if_neg hseen]
    simp only [largestTextPrefixThatFits, hput, hwith]
    by_cases hfits : serializedScalarCount
        { context with text := joined (chunks log ++ [candidate.value]) } ≤ maxScalars
    · rw [if_pos hfits]
      refine ⟨.included, ?_⟩
      have hincluded := hplace .included
      simp only [chunk, Option.toList_some] at hincluded
      rw [hincluded]
      exact h.concat ⟨hne, hunseen, hfits⟩ hcons (hincluded ▸ hfits)
    · rw [if_neg hfits]
      have hanti : ∀ m n, 0 < m → m ≤ n →
          decide (serializedScalarCount { context with
            text := joined (chunks log ++ [candidate.value.take n]) } ≤ maxScalars) = true →
          decide (serializedScalarCount { context with
            text := joined (chunks log ++ [candidate.value.take m]) } ≤ maxScalars) = true := by
        intro m n hm hmn hn
        have htake : candidate.value.take n =
            candidate.value.take m ++ (candidate.value.take n).drop m := by
          have hsplit := List.take_append_drop m (candidate.value.take n)
          rw [List.take_take, Nat.min_eq_left hmn] at hsplit
          exact hsplit.symm
        have hnonempty : candidate.value.take m ≠ [] := fun hnil => by
          rcases List.take_eq_nil_iff.1 hnil with h0 | h0
          · omega
          · exact hne h0
        rw [decide_eq_true_eq] at hn ⊢
        rw [← hput, htake, ← List.append_assoc] at hn
        rw [← hput]
        exact Nat.le_trans (serializedScalarCount_mono _ (by simp [hnonempty])) hn
      obtain ⟨-, hle, hlow, hall⟩ := longest_spec hanti (Nat.zero_le candidate.value.length)
        (fun h0 => absurd h0 (Nat.lt_irrefl 0)) fun n hn hn' => absurd hn (Nat.not_lt.2 hn')
      generalize longest _ 0 candidate.value.length = kept at hle hlow hall ⊢
      simp only [decide_eq_true_eq, decide_eq_false_iff_not, Nat.not_le] at hlow hall
      by_cases hzero : kept = 0
      · subst hzero
        simp only [if_true]
        rw [hsame]
        exact ⟨.exceeded, h.concat ⟨hne, hunseen, fun n hn hn' => hall n hn hn'⟩ hcons
          (hexceeded ▸ h.fits)⟩
      · have hkept : 0 < kept := Nat.pos_of_ne_zero hzero
        have hlt : kept < candidate.value.length := by
          refine Nat.lt_of_le_of_ne hle fun heq => hfits ?_
          have hwhole := hlow hkept
          rwa [heq, List.take_length] at hwhole
        rw [if_neg hzero, if_neg hzero, if_pos hlt]
        have hcut := hplace (.cut kept)
        simp only [chunk, Option.toList_some] at hcut
        rw [hcut]
        refine ⟨.cut kept, h.concat ⟨hne, hunseen, hkept, hlt, hlow hkept, hall⟩ hcons ?_⟩
        exact hcut ▸ hlow hkept

/-! ### Compilations -/

/-- What the passes did. -/
structure Logs where
  translations : Log SonioxTranslationTerm
  terms : Log (List Char)
  general : Log SonioxGeneralContext
  texts : Log (List Char)

namespace Logs

variable (logs : Logs)

def entries : List Entry :=
  logs.translations.entries .translationTerms translationScalars ++
    logs.terms.entries .terms List.length ++
    logs.general.entries .general generalScalars ++
    logs.texts.entries .text List.length

/-- The context with what the logs took, but for the terms. -/
def withTranslations (translations : List SonioxTranslationTerm) : SonioxContext :=
  { translationTerms := translations }

def withTerms (terms : List (List Char)) : SonioxContext :=
  { withTranslations (taken logs.translations) with terms := terms }

def withGeneral (pairs : List SonioxGeneralContext) : SonioxContext :=
  { logs.withTerms (taken logs.terms) with general := pairs }

def withTexts (texts : List (List Char)) : SonioxContext :=
  { logs.withGeneral (taken logs.general) with text := joined texts }

/-- The context with what the logs took. -/
def context : SonioxContext := logs.withTexts (chunks logs.texts)

/-- Every decision is as it had to be. -/
structure Decided (maxScalars : ℕ) : Prop where
  translations : Settled (ItemVerdict (fun items =>
    serializedScalarCount (withTranslations items)) maxScalars) logs.translations
  terms : Settled (ItemVerdict (fun items =>
    serializedScalarCount (logs.withTerms items)) maxScalars) logs.terms
  general : Settled (ItemVerdict (fun items =>
    serializedScalarCount (logs.withGeneral items)) maxScalars) logs.general
  texts : Settled (TextVerdict (fun texts =>
    serializedScalarCount (logs.withTexts texts)) maxScalars) logs.texts

end Logs

/-- Before a pass its log is empty. -/
theorem PassOf.nil {α : Type} {kind : ContextContentKind} {place : Log α → SonioxContext}
    {scalars : α → ℕ} {verdict : Log α → Candidate α × Decision → Prop} {maxScalars : ℕ}
    {start : Compiling} (hcontext : start.context = place [])
    (hfits : serializedScalarCount start.context ≤ maxScalars) :
    PassOf kind place scalars verdict maxScalars start [] ([], start) where
  seen value := by simp [Seen]
  compiling := by rw [← hcontext]; rfl
  settled := Settled.nil _
  fits := hcontext ▸ hfits

/-- A pass over items has a log. -/
theorem exists_log_of_items {α : Type} [DecidableEq α] (kind : ContextContentKind)
    (put : List α → SonioxContext) (add : SonioxContext → α → SonioxContext) (scalars : α → ℕ)
    (start : Compiling) {maxScalars : ℕ}
    (hadd : ∀ items item, add (put items) item = put (items ++ [item]))
    (hcontext : start.context = put []) (hfits : serializedScalarCount start.context ≤ maxScalars)
    (candidates : List (Candidate α)) :
    ∃ log : Log α, log.map Prod.fst = candidates ∧
      PassOf kind (fun log => put (taken log)) scalars
        (ItemVerdict (fun items => serializedScalarCount (put items)) maxScalars) maxScalars start
        log (candidates.foldl (placeItem kind add scalars maxScalars) ([], start)) := by
  obtain ⟨log, hlog, hmap⟩ := foldl_passOf (fun _ => true)
    (fun log pass candidate h _ => placeItem_passOf hadd h candidate)
    (fun _ _ h => Bool.noConfusion h) candidates (PassOf.nil hcontext hfits)
  exact ⟨log, by simpa using hmap, hlog⟩

/-- The pass over texts has a log. -/
theorem exists_log_of_texts (context : SonioxContext) (start : Compiling) {maxScalars : ℕ}
    (hcontext : start.context = { context with text := [] })
    (hfits : serializedScalarCount start.context ≤ maxScalars)
    (candidates : List (Candidate (List Char))) :
    ∃ log : Log (List Char),
      log.map Prod.fst = candidates.filter (fun candidate => candidate.value ≠ []) ∧
      PassOf .text (fun log => { context with text := joined (chunks log) }) List.length
        (FilledVerdict (fun texts =>
          serializedScalarCount { context with text := joined texts }) maxScalars) maxScalars start
        log (candidates.foldl (placeText maxScalars) ([], start)) := by
  obtain ⟨log, hlog, hmap⟩ := foldl_passOf
    (fun candidate : Candidate (List Char) => decide (candidate.value ≠ []))
    (fun log pass candidate h hne => placeText_passOf h candidate (by simpa using hne))
    (fun pass candidate h => by rw [placeText, if_pos (by simpa using h)]) candidates
    (PassOf.nil hcontext hfits)
  exact ⟨log, by simpa using hmap, hlog⟩

/-- **What the passes do**: they decide about all candidates one after the other, and post what
they decide. -/
theorem compile_eq (found : Candidates) {maxScalars : ℕ} (hmax : 2 ≤ maxScalars) :
    ∃ logs : Logs,
      logs.translations.map Prod.fst = found.translations ∧
      logs.terms.map Prod.fst = found.terms ∧
      logs.general.map Prod.fst = found.general ∧
      logs.texts.map Prod.fst = found.texts.filter (fun candidate => candidate.value ≠ []) ∧
      logs.Decided maxScalars ∧
      serializedScalarCount logs.context ≤ maxScalars ∧
      found.compile maxScalars =
        (logs.entries.foldl Entry.post ⟨{}, found.sources, []⟩).withContext logs.context := by
  obtain ⟨translations, htranslations, hfirst⟩ := exists_log_of_items .translationTerms
    Logs.withTranslations addTranslation translationScalars ⟨{}, found.sources, []⟩
    (fun _ _ => rfl) rfl hmax found.translations
  obtain ⟨terms, hterms, hsecond⟩ := exists_log_of_items .terms
    (Logs.withTerms ⟨translations, [], [], []⟩) addTerm List.length _
    (fun _ _ => rfl) hfirst.context (hfirst.context ▸ hfirst.fits) found.terms
  obtain ⟨general, hgeneral, hthird⟩ := exists_log_of_items .general
    (Logs.withGeneral ⟨translations, terms, [], []⟩) addGeneral generalScalars _
    (fun _ _ => rfl) hsecond.context (hsecond.context ▸ hsecond.fits) found.general
  obtain ⟨texts, htexts, hfourth⟩ := exists_log_of_texts
    (Logs.withGeneral ⟨translations, terms, general, []⟩ (taken general)) _
    hthird.context (hthird.context ▸ hthird.fits) found.texts
  refine ⟨⟨translations, terms, general, texts⟩, htranslations, hterms, hgeneral, htexts,
    ⟨hfirst.settled, hsecond.settled, hthird.settled,
      hfourth.settled.imp fun _ _ hverdict => hverdict.2⟩, hfourth.fits, ?_⟩
  unfold Candidates.compile Logs.entries
  simp only
  rw [hfourth.compiling, hthird.compiling, hsecond.compiling, hfirst.compiling]
  simp only [foldl_post_withContext, Compiling.withContext_withContext, List.foldl_append]
  rfl

/-! ### Sources that are trusted -/

/-- A source that is trusted and can be read, as it was when it was imported. -/
structure TrustedSource
    (objectFromStr : List Char → Option (List (List Char × Option (List Char)))) where
  source : ContextSource
  content : Content
  trusted : source.trusted = true
  reads : readContent objectFromStr source = .ok content

namespace TrustedSource

variable {objectFromStr : List Char → Option (List (List Char × Option (List Char)))}
  (trusted : TrustedSource objectFromStr)

def origin : CandidateOrigin := trusted.source.origin

/-- Both directions of each pair of terms. -/
def translations : List (Candidate SonioxTranslationTerm) :=
  match trusted.content with
  | .translationTerms rows => rows.flatMap fun pair =>
      [⟨trusted.origin, ⟨pair.1, pair.2⟩⟩, ⟨trusted.origin, ⟨pair.2, pair.1⟩⟩]
  | _ => []

def terms : List (Candidate (List Char)) :=
  match trusted.content with
  | .terms terms => terms.map (⟨trusted.origin, ·⟩)
  | _ => []

def general : List (Candidate SonioxGeneralContext) :=
  match trusted.content with
  | .general pairs => pairs.map (⟨trusted.origin, ·⟩)
  | _ => []

/-- The text, if there is something in it. -/
def texts : List (Candidate (List Char)) :=
  match trusted.content with
  | .text text => if text = [] then [] else [⟨trusted.origin, text⟩]
  | _ => []

/-- How many candidates a source has. -/
def items : ℕ :=
  trusted.translations.length + trusted.terms.length + trusted.general.length +
    trusted.texts.length

end TrustedSource

/-- Sources of different origin. -/
structure TrustedSources
    (objectFromStr : List Char → Option (List (List Char × Option (List Char)))) where
  list : List (TrustedSource objectFromStr)
  distinct : (list.map TrustedSource.origin).Nodup

variable {objectFromStr : List Char → Option (List (List Char × Option (List Char)))}

/-- What is found in sources that can be read. -/
theorem foldlM_readSource (sources : List (TrustedSource objectFromStr)) (found : Candidates) :
    ∃ found', (sources.map TrustedSource.source).foldlM (readSource objectFromStr) found =
        .ok found' ∧
      found'.translations = found.translations ++ sources.flatMap TrustedSource.translations ∧
      found'.terms = found.terms ++ sources.flatMap TrustedSource.terms ∧
      found'.general = found.general ++ sources.flatMap TrustedSource.general ∧
      found'.texts.filter (fun candidate => candidate.value ≠ []) =
        found.texts.filter (fun candidate => candidate.value ≠ []) ++
          sources.flatMap TrustedSource.texts ∧
      found'.sources = found.sources ++ sources.map fun trusted => trusted.source.receipt := by
  induction sources generalizing found with
  | nil => exact ⟨found, rfl, by simp⟩
  | cons trusted sources ih =>
      obtain ⟨found', hfold, htranslations, hterms, hgeneral, htexts, hsources⟩ :=
        ih (found.add trusted.source trusted.content)
      refine ⟨found', ?_, ?_, ?_, ?_, ?_, ?_⟩
      · rw [List.map_cons, List.foldlM_cons, readSource, if_pos trusted.trusted, trusted.reads]
        exact hfold
      · rw [htranslations, List.flatMap_cons, ← List.append_assoc]
        congr 1
        unfold TrustedSource.translations
        cases trusted.content <;> simp [Candidates.add, TrustedSource.origin]
      · rw [hterms, List.flatMap_cons, ← List.append_assoc]
        congr 1
        unfold TrustedSource.terms
        cases trusted.content <;> simp [Candidates.add, TrustedSource.origin]
      · rw [hgeneral, List.flatMap_cons, ← List.append_assoc]
        congr 1
        unfold TrustedSource.general
        cases trusted.content <;> simp [Candidates.add, TrustedSource.origin]
      · rw [htexts, List.flatMap_cons, ← List.append_assoc]
        congr 1
        unfold TrustedSource.texts
        cases trusted.content with
        | text text => by_cases htext : text = [] <;>
            simp [Candidates.add, TrustedSource.origin, htext]
        | _ => simp [Candidates.add]
      · rw [hsources, List.map_cons]
        cases trusted.content <;> simp [Candidates.add]

/-- What is of the origin of a source is what the source has. -/
theorem filter_flatMap_origin {α : Type} {sources : List (TrustedSource objectFromStr)}
    (hdistinct : (sources.map TrustedSource.origin).Nodup)
    {items : TrustedSource objectFromStr → List (Candidate α)}
    (horigin : ∀ trusted, ∀ candidate ∈ items trusted, candidate.origin = trusted.origin)
    {trusted : TrustedSource objectFromStr} (h : trusted ∈ sources) :
    (sources.flatMap items).filter (fun candidate => candidate.origin = trusted.origin) =
      items trusted := by
  induction sources with
  | nil => cases h
  | cons first sources ih =>
      rw [List.map_cons, List.nodup_cons] at hdistinct
      rw [List.flatMap_cons, List.filter_append]
      rcases List.mem_cons.1 h with rfl | h
      · rw [List.filter_eq_self.2 fun candidate hmem => by simpa using horigin _ candidate hmem,
          List.filter_eq_nil_iff.2 fun candidate hmem hsame => ?_, List.append_nil]
        obtain ⟨other, hother, hcandidate⟩ := List.mem_flatMap.1 hmem
        rw [decide_eq_true_eq, horigin other candidate hcandidate] at hsame
        exact hdistinct.1 (hsame ▸ List.mem_map_of_mem hother)
      · rw [ih hdistinct.2 h, List.filter_eq_nil_iff.2 fun candidate hmem hsame => ?_,
          List.nil_append]
        rw [decide_eq_true_eq, horigin first candidate hmem] at hsame
        exact hdistinct.1 (hsame ▸ List.mem_map_of_mem h)

/-! ### Accounts -/

/-- The entries of a source are as many as the candidates of its origin. -/
theorem length_entriesOf {α : Type} (origin : CandidateOrigin) (kind : ContextContentKind)
    (scalars : α → ℕ) (log : Log α) : (entriesOf origin (log.entries kind scalars)).length =
      ((log.map Prod.fst).filter fun candidate => candidate.origin = origin).length := by
  unfold entriesOf Log.entries
  rw [List.filter_map, List.filter_map, List.length_map, List.length_map]
  rfl

/-- **An entry is counted once**, and once more where it is cut. -/
theorem counted_entries (origin : CandidateOrigin) (entries : List Entry) :
    (inclusionsOf origin entries).length +
        (omissionsOf (fun other _ _ => other = origin) entries).length =
      (entriesOf origin entries).length + (entriesOf origin entries).countP Entry.isCut := by
  induction entries with
  | nil => rfl
  | cons entry entries ih =>
      unfold inclusionsOf omissionsOf entriesOf at ih ⊢
      by_cases horigin : entry.origin = origin
      · cases hdecision : entry.decision <;>
          simp [horigin, Entry.inclusion, Entry.omission, Entry.isCut, hdecision,
            Option.filter] at ih ⊢ <;> omega
      · simpa [horigin] using ih

/-- **The scalars of an entry are included or left out.** -/
theorem counted_scalars (origin : CandidateOrigin) {entries : List Entry}
    (h : ∀ entry ∈ entries, ∀ kept, entry.decision = .cut kept → kept ≤ entry.scalars) :
    (inclusionsOf origin entries).sum +
        (omissionsOf (fun other _ _ => other = origin) entries).sum =
      ((entriesOf origin entries).map Entry.scalars).sum := by
  induction entries with
  | nil => rfl
  | cons entry entries ih =>
      obtain ⟨hentry, hrest⟩ := List.forall_mem_cons.1 h
      have hsum := ih hrest
      unfold inclusionsOf omissionsOf entriesOf at hsum ⊢
      by_cases horigin : entry.origin = origin
      · cases hdecision : entry.decision with
        | cut kept =>
            have hkept := hentry kept hdecision
            simp [horigin, Entry.inclusion, Entry.omission, hdecision, Option.filter] at hsum ⊢
            omega
        | _ =>
            simp [horigin, Entry.inclusion, Entry.omission, hdecision, Option.filter] at hsum ⊢
            omega
      · simpa [horigin] using hsum

/-- An item is not cut, and a text is cut within its length. -/
theorem cut_le {logs : Logs} {maxScalars : ℕ} (h : logs.Decided maxScalars) :
    ∀ entry ∈ logs.entries, ∀ kept, entry.decision = .cut kept → kept ≤ entry.scalars := by
  have hitems : ∀ {α : Type} {size : List α → ℕ} {log : Log α} (kind : ContextContentKind)
      (scalars : α → ℕ), Settled (ItemVerdict size maxScalars) log →
      ∀ entry ∈ log.entries kind scalars, ∀ kept, entry.decision = .cut kept →
        kept ≤ entry.scalars := by
    intro α size log kind scalars hsettled entry hentry kept hcut
    obtain ⟨item, hitem, rfl⟩ := List.mem_map.1 hentry
    obtain ⟨before, rest, heq⟩ := List.append_of_mem hitem
    have hverdict := hsettled before item rest heq
    rw [ItemVerdict, show item.2 = .cut kept from hcut] at hverdict
    exact hverdict.elim
  refine List.forall_mem_append.2 ⟨List.forall_mem_append.2 ⟨List.forall_mem_append.2
    ⟨hitems _ _ h.translations, hitems _ _ h.terms⟩, hitems _ _ h.general⟩, ?_⟩
  intro entry hentry kept hcut
  obtain ⟨text, htext, rfl⟩ := List.mem_map.1 hentry
  obtain ⟨before, rest, heq⟩ := List.append_of_mem htext
  have hverdict := h.texts before text rest heq
  rw [TextVerdict, show text.2 = .cut kept from hcut] at hverdict
  exact Nat.le_of_lt hverdict.2.2.1

/-- **A compilation accounts for its sources**: there is an entry for each candidate, decided as it
had to be; the context is what the entries took, each value once, and stays within the budget; the
receipt is the tally of the entries, in which every candidate is counted once, and a text that is
cut once more. -/
structure Accounts (sources : TrustedSources objectFromStr) (maxScalars : ℕ) (logs : Logs)
    (compilation : ContextCompilation SonioxContext Accounting) : Prop where
  translations : logs.translations.map Prod.fst =
    sources.list.flatMap TrustedSource.translations
  terms : logs.terms.map Prod.fst = sources.list.flatMap TrustedSource.terms
  general : logs.general.map Prod.fst = sources.list.flatMap TrustedSource.general
  texts : logs.texts.map Prod.fst = sources.list.flatMap TrustedSource.texts
  decided : logs.Decided maxScalars
  context : compilation.context = logs.context
  nodup : (taken logs.translations).Nodup ∧ (taken logs.terms).Nodup ∧ (taken logs.general).Nodup
  json : compilation.contextJson = String.ofList compilation.context.toJson
  fits : compilation.contextJson.length ≤ maxScalars
  receipts : compilation.receipt.sources.sources =
    sources.list.map fun trusted => tallied logs.entries trusted.source.receipt
  omissions : ∀ p, ((rowsOf p compilation.receipt.sources.omissions).map
      ContextOmission.omittedItems).sum = (omissionsOf p logs.entries).length ∧
    ((rowsOf p compilation.receipt.sources.omissions).map
      ContextOmission.omittedScalars).sum = (omissionsOf p logs.entries).sum
  rows : (compilation.receipt.sources.omissions.map ContextOmission.subject).Nodup
  counted : ∀ trusted ∈ sources.list,
    (tallied logs.entries trusted.source.receipt).includedItems +
      ((rowsOf (fun origin _ _ => origin = trusted.origin)
        compilation.receipt.sources.omissions).map ContextOmission.omittedItems).sum =
    trusted.items + (entriesOf trusted.origin logs.entries).countP Entry.isCut
  countedScalars : ∀ trusted ∈ sources.list,
    (tallied logs.entries trusted.source.receipt).includedScalars +
      ((rowsOf (fun origin _ _ => origin = trusted.origin)
        compilation.receipt.sources.omissions).map ContextOmission.omittedScalars).sum =
    ((entriesOf trusted.origin logs.entries).map Entry.scalars).sum

namespace TrustedSource

variable (trusted : TrustedSource objectFromStr)

theorem origin_of_translations :
    ∀ candidate ∈ trusted.translations, candidate.origin = trusted.origin := by
  unfold translations
  split
  · rw [List.forall_mem_flatMap]
    intro pair _
    simp
  · exact List.forall_mem_nil _

theorem origin_of_terms : ∀ candidate ∈ trusted.terms, candidate.origin = trusted.origin := by
  unfold terms
  split
  · exact List.forall_mem_map.2 fun _ _ => rfl
  · exact List.forall_mem_nil _

theorem origin_of_general : ∀ candidate ∈ trusted.general, candidate.origin = trusted.origin := by
  unfold general
  split
  · exact List.forall_mem_map.2 fun _ _ => rfl
  · exact List.forall_mem_nil _

theorem origin_of_texts : ∀ candidate ∈ trusted.texts, candidate.origin = trusted.origin := by
  unfold texts
  split
  · split
    · exact List.forall_mem_nil _
    · exact List.forall_mem_singleton.2 rfl
  · exact List.forall_mem_nil _

end TrustedSource

/-- A source has as many entries as candidates. -/
theorem length_entriesOf_source {sources : TrustedSources objectFromStr} {logs : Logs}
    (htranslations : logs.translations.map Prod.fst =
      sources.list.flatMap TrustedSource.translations)
    (hterms : logs.terms.map Prod.fst = sources.list.flatMap TrustedSource.terms)
    (hgeneral : logs.general.map Prod.fst = sources.list.flatMap TrustedSource.general)
    (htexts : logs.texts.map Prod.fst = sources.list.flatMap TrustedSource.texts)
    {trusted : TrustedSource objectFromStr} (h : trusted ∈ sources.list) :
    (entriesOf trusted.origin logs.entries).length = trusted.items := by
  have happend : entriesOf trusted.origin logs.entries =
      entriesOf trusted.origin (logs.translations.entries .translationTerms translationScalars) ++
        entriesOf trusted.origin (logs.terms.entries .terms List.length) ++
        entriesOf trusted.origin (logs.general.entries .general generalScalars) ++
        entriesOf trusted.origin (logs.texts.entries .text List.length) := by
    simp only [entriesOf, Logs.entries, List.filter_append]
  rw [happend, List.length_append, List.length_append, List.length_append, length_entriesOf,
    length_entriesOf, length_entriesOf, length_entriesOf, htranslations, hterms, hgeneral, htexts,
    filter_flatMap_origin sources.distinct TrustedSource.origin_of_translations h,
    filter_flatMap_origin sources.distinct TrustedSource.origin_of_terms h,
    filter_flatMap_origin sources.distinct TrustedSource.origin_of_general h,
    filter_flatMap_origin sources.distinct TrustedSource.origin_of_texts h]
  rfl

/-- **Every compilation accounts for its sources.** -/
theorem compile_accounts (sha256Hex : Bytes → String) (notebookId : String)
    (sources : TrustedSources objectFromStr) {maxScalars : ℕ} (hmax : 2 ≤ maxScalars) :
    ∃ compilation logs,
      compileNotebookContextWithLimit objectFromStr sha256Hex notebookId
        (sources.list.map TrustedSource.source) maxScalars = .ok compilation ∧
      Accounts sources maxScalars logs compilation := by
  obtain ⟨found, hfold, htranslations, hterms, hgeneral, htexts, hsources⟩ :=
    foldlM_readSource sources.list ⟨[], [], [], [], []⟩
  simp only [List.nil_append, List.filter_nil] at htranslations hterms hgeneral htexts hsources
  obtain ⟨logs, hlogTranslations, hlogTerms, hlogGeneral, hlogTexts, hdecided, hfits, hcompile⟩ :=
    compile_eq found hmax
  rw [htranslations] at hlogTranslations
  rw [hterms] at hlogTerms
  rw [hgeneral] at hlogGeneral
  rw [htexts] at hlogTexts
  have horigins : (found.sources.map ContextReceiptSource.origin).Nodup := by
    rw [hsources, List.map_map]
    exact sources.distinct
  have hreceipts : (found.compile maxScalars).sources =
      sources.list.map fun trusted => tallied logs.entries trusted.source.receipt := by
    have hposted := foldl_post_sources logs.entries ⟨{}, found.sources, []⟩ horigins
    rw [hcompile]
    refine hposted.trans ?_
    rw [hsources, List.map_map]
    rfl
  let compilation := (found.compile maxScalars).finish sha256Hex notebookId
  have homissions : ∀ p, ((rowsOf p compilation.receipt.sources.omissions).map
        ContextOmission.omittedItems).sum = (omissionsOf p logs.entries).length ∧
      ((rowsOf p compilation.receipt.sources.omissions).map
        ContextOmission.omittedScalars).sum = (omissionsOf p logs.entries).sum := fun p => by
    have hposted := foldl_post_omissions logs.entries ⟨{}, found.sources, []⟩ p
    simp only [rowsOf, List.filter_nil, List.map_nil, List.sum_nil, Nat.zero_add] at hposted
    change ((rowsOf p (found.compile maxScalars).omissions).map _).sum = _ ∧
      ((rowsOf p (found.compile maxScalars).omissions).map _).sum = _
    rw [hcompile]
    exact hposted
  refine ⟨compilation, logs, ?_, ?_⟩
  · unfold compileNotebookContextWithLimit
    rw [if_neg (Nat.not_lt.2 hmax), hfold]
    rfl
  · have hcontext : (found.compile maxScalars).context = logs.context := by
      rw [hcompile]
      rfl
    refine ⟨hlogTranslations, hlogTerms, hlogGeneral, hlogTexts, hdecided, hcontext,
      ⟨nodup_taken hdecided.translations, nodup_taken hdecided.terms,
        nodup_taken hdecided.general⟩, rfl, ?_, hreceipts, homissions, ?_, ?_, ?_⟩
    · have hlength : (String.ofList (found.compile maxScalars).context.toJson).length =
          serializedScalarCount logs.context := by
        rw [String.length_ofList, hcontext]
        rfl
      exact hlength ▸ hfits
    · change ((found.compile maxScalars).omissions.map ContextOmission.subject).Nodup
      rw [hcompile]
      exact foldl_post_nodup logs.entries List.Pairwise.nil
    · intro trusted htrusted
      have hcounted := counted_entries trusted.origin logs.entries
      rw [length_entriesOf_source hlogTranslations hlogTerms hlogGeneral hlogTexts htrusted]
        at hcounted
      have hincluded : (tallied logs.entries trusted.source.receipt).includedItems =
          (inclusionsOf trusted.origin logs.entries).length := Nat.zero_add _
      rw [hincluded, (homissions _).1, hcounted]
    · intro trusted htrusted
      have hincluded : (tallied logs.entries trusted.source.receipt).includedScalars =
          (inclusionsOf trusted.origin logs.entries).sum := Nat.zero_add _
      rw [hincluded, (homissions _).2, counted_scalars trusted.origin (cut_le hdecided)]

/-! ### Runs -/

/-- A source of one kind. -/
def sourceOf (contentKind : ContextContentKind) (text : List Char) : ContextSource where
  origin := ⟨"pack", "source"⟩
  packScope := .ownPack
  title := "notes"
  revision := 1
  plaintextSha256 := ""
  trusted := true
  contentKind := contentKind
  text := text

/-- A notebook with a source of each kind: a pair of terms, a term that is there twice, a general
entry and a text. -/
def mixedSources : TrustedSources fun _ => none where
  list :=
    [⟨{ sourceOf .translationTerms ['e', 'n', ',', 'f', 'r', '\n', 'a', ',', 'b'] with
          origin := ⟨"pack", "pairs"⟩ }, .translationTerms [(['a'], ['b'])], rfl, rfl⟩,
      ⟨{ sourceOf .terms ['a', '\n', 'b', '\n', 'a'] with origin := ⟨"pack", "terms"⟩ },
        .terms [['a'], ['b'], ['a']], rfl, rfl⟩,
      ⟨{ sourceOf .general ['k', '=', 'v'] with origin := ⟨"pack", "general"⟩ },
        .general [⟨['k'], ['v']⟩], rfl, rfl⟩,
      ⟨sourceOf .text ['a', 'b', 'c'], .text ['a', 'b', 'c'], rfl, rfl⟩]
  distinct := by decide +kernel

/-- In its budget the term is left out the second time, the general entry does not fit, and the
text is cut. -/
theorem mixedSources_accounts :
    ((compileNotebookContextWithLimit (fun _ => none) (fun _ => "") "notebook"
        (mixedSources.list.map TrustedSource.source) 109).toOption.map fun compilation =>
      compilation.receipt.sources.omissions.map ContextOmission.reason) =
        some [.duplicate, .budgetExceeded, .truncated] ∧
      ∃ compilation logs,
        compileNotebookContextWithLimit (fun _ => none) (fun _ => "") "notebook"
          (mixedSources.list.map TrustedSource.source) 109 = .ok compilation ∧
        Accounts mixedSources 109 logs compilation :=
  ⟨by decide +kernel, compile_accounts _ _ mixedSources (by decide)⟩

/-- A text of a notebook. -/
def textSources : TrustedSources fun _ => none where
  list := [⟨sourceOf .text ['a', 'b', 'c'], .text ['a', 'b', 'c'], rfl, rfl⟩]
  distinct := List.pairwise_singleton _ _

/-- A text that is cut counts as an item that is included and as one that is not, though it is one
candidate; and of two equal terms that do not fit the second is a duplicate, though the context is
empty. -/
theorem cut_counts_twice :
    (textSources.list.map TrustedSource.items).sum = 1 ∧
      ((compileNotebookContextWithLimit (fun _ => none) (fun _ => "") "notebook"
          (textSources.list.map TrustedSource.source) 13).toOption.map fun compilation =>
        (compilation.context, compilation.receipt.sources)) =
      some ({ text := ['a', 'b'] },
        ⟨[⟨⟨"pack", "source"⟩, .ownPack, "notes", 1, "", 1, 2⟩],
          [⟨⟨"pack", "source"⟩, .text, .truncated, 1, 1⟩]⟩) ∧
      ((compileNotebookContextWithLimit (fun _ => none) (fun _ => "") "notebook"
          [sourceOf .terms ['a', '\n', 'a']] 2).toOption.map fun compilation =>
        (compilation.context, compilation.receipt.sources)) =
      some ({},
        ⟨[⟨⟨"pack", "source"⟩, .ownPack, "notes", 1, "", 0, 0⟩],
          [⟨⟨"pack", "source"⟩, .terms, .budgetExceeded, 1, 1⟩,
            ⟨⟨"pack", "source"⟩, .terms, .duplicate, 1, 1⟩]⟩) := by
  decide +kernel

end Packs
end ZuTalk
