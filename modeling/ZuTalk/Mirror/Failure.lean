/-
# What a failed `set_state` leaves

`crates/vt-mirror/src/mirror.rs`.

The state is only replaced once the document has been written, so a call that fails leaves it.
The document has no way back: the changes are applied and committed, the first that fails ends
it, and what went before stays (`call_error`).  Moves of a movable list are computed against the
old list, so deletions before them can push one out of range (`board_left_behind`).
-/

import ZuTalk.Mirror.Write

namespace ZuTalk
namespace Mirror

variable {σ : Type}

/-! ### Steps one after the other -/

section Steps

variable {α β ε : Type*} {step : α → β → Except ε α}

theorem applyEach_append_ok {a a' : α} {done rest : List β}
    (h : applyEach step a done = (a', none)) :
    applyEach step a (done ++ rest) = applyEach step a' rest := by
  induction done generalizing a with
  | nil =>
      obtain rfl := (Prod.mk.inj h).1
      rfl
  | cons b done ih =>
      rw [applyEach] at h
      rw [List.cons_append, applyEach]
      cases hstep : step a b with
      | ok a₁ =>
          rw [hstep] at h
          exact ih h
      | error e =>
          rw [hstep] at h
          cases h

/-- What fails, fails at one step; those before it are done. -/
theorem applyEach_error {a a' : α} {bs : List β} {e : ε}
    (h : applyEach step a bs = (a', some e)) :
    ∃ done b rest, bs = done ++ b :: rest ∧ applyEach step a done = (a', none) ∧
      step a' b = .error e := by
  induction bs generalizing a with
  | nil => cases h
  | cons b bs ih =>
      rw [applyEach] at h
      cases hstep : step a b with
      | ok a₁ =>
          rw [hstep] at h
          obtain ⟨done, b', rest, rfl, hdone, hfail⟩ := ih h
          refine ⟨b :: done, b', rest, rfl, ?_, hfail⟩
          rw [applyEach, hstep]
          exact hdone
      | error e' =>
          rw [hstep] at h
          obtain ⟨rfl, he⟩ := Prod.mk.inj h
          obtain rfl := Option.some.inj he
          exact ⟨[], b, bs, rfl, rfl, hstep⟩

end Steps

/-! ### The containers of a document -/

namespace Node

mutual

/-- A number for each container, from `n` on. -/
theorem ids_number (n : ℕ) : ∀ node : Node σ,
    (node.number n).ids = (List.range' n node.ids.length).map .numbered
  | .value _ => rfl
  | .map _ _ entries => by
      rw [number, ids, ids, entryIds_number, List.length_cons, List.range'_succ, List.map_cons]
  | .list _ _ items | .movableList _ _ items => by
      rw [number, ids, ids, itemIds_number, List.length_cons, List.range'_succ, List.map_cons]
  | .text _ _ _ => rfl

theorem itemIds_number (n : ℕ) : ∀ items : List (Node σ),
    itemIds (numberItems n items) = (List.range' n (itemIds items).length).map .numbered
  | [] => rfl
  | item :: items => by
      rw [numberItems, itemIds, itemIds, ids_number, itemIds_number, List.length_append,
        ← List.map_append, ← List.range'_append, Nat.one_mul]

theorem entryIds_number (n : ℕ) : ∀ entries : List (String × Node σ),
    entryIds (numberEntries n entries) = (List.range' n (entryIds entries).length).map .numbered
  | [] => rfl
  | (_, node) :: entries => by
      rw [numberEntries, entryIds, entryIds, ids_number, entryIds_number, List.length_append,
        ← List.map_append, ← List.range'_append, Nat.one_mul]

end

theorem nodup_entryIds_number (n : ℕ) (entries : List (String × Node σ)) :
    (entryIds (numberEntries n entries)).Nodup := by
  rw [entryIds_number]
  exact List.Nodup.map (fun a b h => ContainerId.numbered.inj h) List.nodup_range'

mutual

/-- Numbers do not show. -/
theorem deepValue_number (n : ℕ) : ∀ node : Node σ, (node.number n).deepValue = node.deepValue
  | .value _ => rfl
  | .map _ _ entries => congrArg Value.object (deepEntries_number (n + 1) entries)
  | .list _ _ items => congrArg Value.array (deepItems_number (n + 1) items)
  | .movableList _ _ items => congrArg Value.array (deepItems_number (n + 1) items)
  | .text _ _ _ => rfl

theorem deepItems_number (n : ℕ) : ∀ items : List (Node σ),
    deepItems (numberItems n items) = deepItems items
  | [] => rfl
  | item :: items => by
      rw [numberItems, deepItems, deepItems, deepValue_number, deepItems_number]

theorem deepEntries_number (n : ℕ) : ∀ entries : List (String × Node σ),
    deepEntries (numberEntries n entries) = deepEntries entries
  | [] => rfl
  | (_, node) :: entries => by
      rw [numberEntries, deepEntries, deepEntries, deepValue_number, deepEntries_number]

end

theorem find?_self {id : ContainerId} {node : Node σ} (h : node.ids.head? = some id) :
    node.find? id = some node := by
  cases node with
  | value v => cases h
  | map own schema entries | list own schema items | movableList own schema items
    | text own schema content => exact if_pos (Option.some.inj h)

section Modify

variable {id : ContainerId} {f : Node σ → Node σ}

mutual

/-- A changed container is found where it was. -/
theorem find?_modify (hf : ∀ node, node.ids.head? = some id → (f node).ids.head? = some id) :
    ∀ node : Node σ, (node.modify id f).find? id = (node.find? id).map f
  | .value _ => rfl
  | .map own schema entries => by
      by_cases hown : own = id
      · rw [modify, find?, if_pos hown, if_pos hown]
        exact find?_self (hf _ (congrArg some hown))
      · rw [modify, find?, if_neg hown, if_neg hown, find?, if_neg hown]
        exact findInEntries?_modify hf entries
  | .list own schema items | .movableList own schema items => by
      by_cases hown : own = id
      · rw [modify, find?, if_pos hown, if_pos hown]
        exact find?_self (hf _ (congrArg some hown))
      · rw [modify, find?, if_neg hown, if_neg hown, find?, if_neg hown]
        exact findItem?_modify hf items
  | .text own schema content => by
      by_cases hown : own = id
      · rw [modify, find?, if_pos hown, if_pos hown]
        exact find?_self (hf _ (congrArg some hown))
      · rw [modify, find?, if_neg hown, if_neg hown, find?, if_neg hown]
        rfl

theorem findItem?_modify (hf : ∀ node, node.ids.head? = some id → (f node).ids.head? = some id) :
    ∀ items : List (Node σ), findItem? id (modifyItems id f items) = (findItem? id items).map f
  | [] => rfl
  | item :: items => by
      rw [modifyItems, findItem?, findItem?, find?_modify hf item, findItem?_modify hf items,
        Option.map_or]

theorem findInEntries?_modify
    (hf : ∀ node, node.ids.head? = some id → (f node).ids.head? = some id) :
    ∀ entries : List (String × Node σ),
      findInEntries? id (modifyEntries id f entries) = (findInEntries? id entries).map f
  | [] => rfl
  | (_, node) :: entries => by
      rw [modifyEntries, findInEntries?, findInEntries?, find?_modify hf node,
        findInEntries?_modify hf entries, Option.map_or]

end

mutual

/-- Where ids are told apart, a change that leaves the container found leaves all. -/
theorem modify_eq_self_of_find? : ∀ {node : Node σ}, node.ids.Nodup →
    (∀ n, node.find? id = some n → f n = n) → node.modify id f = node
  | .value _, _, _ => rfl
  | .map own schema entries, hnodup, hf => by
      rw [modify]
      by_cases hown : own = id
      · rw [if_pos hown]
        exact hf _ (if_pos hown)
      · rw [find?, if_neg hown] at hf
        rw [if_neg hown, modifyEntries_eq_self_of_find? (List.nodup_cons.1 hnodup).2 hf]
  | .list own schema items, hnodup, hf | .movableList own schema items, hnodup, hf => by
      rw [modify]
      by_cases hown : own = id
      · rw [if_pos hown]
        exact hf _ (if_pos hown)
      · rw [find?, if_neg hown] at hf
        rw [if_neg hown, modifyItems_eq_self_of_find? (List.nodup_cons.1 hnodup).2 hf]
  | .text own schema content, _, hf => by
      rw [modify]
      by_cases hown : own = id
      · rw [if_pos hown]
        exact hf _ (if_pos hown)
      · rw [if_neg hown]

theorem modifyItems_eq_self_of_find? : ∀ {items : List (Node σ)}, (itemIds items).Nodup →
    (∀ n, findItem? id items = some n → f n = n) → modifyItems id f items = items
  | [], _, _ => rfl
  | item :: items, hnodup, hf => by
      rw [itemIds] at hnodup
      obtain ⟨hitem, hitems, hdisjoint⟩ := List.nodup_append'.1 hnodup
      have hfirst : item.modify id f = item := modify_eq_self_of_find? hitem fun n hn =>
        hf n (by rw [findItem?, hn, Option.some_or])
      have hrest : modifyItems id f items = items := by
        by_cases hmem : id ∈ item.ids
        · exact modifyItems_eq_self (hdisjoint hmem)
        · refine modifyItems_eq_self_of_find? hitems fun n hn => hf n ?_
          rw [findItem?, find?_eq_none hmem, hn, Option.none_or]
      rw [modifyItems, hfirst, hrest]

theorem modifyEntries_eq_self_of_find? : ∀ {entries : List (String × Node σ)},
    (entryIds entries).Nodup → (∀ n, findInEntries? id entries = some n → f n = n) →
      modifyEntries id f entries = entries
  | [], _, _ => rfl
  | (key, node) :: entries, hnodup, hf => by
      rw [entryIds] at hnodup
      obtain ⟨hnode, hentries, hdisjoint⟩ := List.nodup_append'.1 hnodup
      have hfirst : node.modify id f = node := modify_eq_self_of_find? hnode fun n hn =>
        hf n (by rw [findInEntries?, hn, Option.some_or])
      have hrest : modifyEntries id f entries = entries := by
        by_cases hmem : id ∈ node.ids
        · exact modifyEntries_eq_self (hdisjoint hmem)
        · refine modifyEntries_eq_self_of_find? hentries fun n hn => hf n ?_
          rw [findInEntries?, find?_eq_none hmem, hn, Option.none_or]
      rw [modifyEntries, hfirst, hrest]

end

end Modify

end Node

/-! ### Changes that fail -/

section Apply

variable {S : Schemas σ} {options : InferContainerOptions} {rootSchema : Option σ}

theorem ids_applyContainerChanges (changes : List Change) (node : Node σ) :
    (applyContainerChanges S options changes node).1.ids.head? = node.ids.head? := by
  cases node <;> rfl

/-- A container whose changes fail is as those before the failing one make it. -/
theorem applyContainerChanges_error {changes : List Change} {node node' : Node σ}
    {e : MirrorError} (h : applyContainerChanges S options changes node = (node', some e)) :
    ∃ done change rest, changes = done ++ change :: rest ∧
      applyContainerChanges S options done node = (node', none) ∧
      applyContainerChanges S options [change] node' = (node', some e) := by
  cases node with
  | value v => cases h
  | text id schema content => cases h
  | map id schema entries | list id schema items | movableList id schema items =>
      obtain ⟨rfl, herror⟩ := Prod.mk.inj h
      obtain ⟨done, change, rest, hchanges, hdone, hfail⟩ := applyEach_error (Prod.ext rfl herror)
      refine ⟨done, change, rest, hchanges, ?_, ?_⟩
      · rw [applyContainerChanges, hdone]
      · rw [applyContainerChanges, applyEach, hfail]

/-- The root a change is about. -/
def Change.rootKey (change : Change) : String :=
  match change.key with
  | .prop key => key
  | .index i => toString i

variable (S options rootSchema) in
/-- What the changes of one container leave where one of them fails: the changes before it, and
nothing else. -/
inductive GroupStopped (roots : List (String × Node σ)) :
    Option ContainerId × List Change → MirrorError → List (String × Node σ) → Prop
  /-- The container is not there. -/
  | gone {id : ContainerId} {changes : List Change} (h : Node.findInEntries? id roots = none) :
      GroupStopped roots (some id, changes) .containerInsertFailed roots
  /-- A change of a container fails. -/
  | container {id : ContainerId} {done rest : List Change} {change : Change} {e : MirrorError}
      {n n' : Node σ} {f : Node σ → Node σ} (hfound : Node.findInEntries? id roots = some n)
      (hdone : applyContainerChanges S options done n = (n', none))
      (hfail : applyContainerChanges S options [change] n' = (n', some e)) (hchanged : f n = n')
      (hleft : Node.findInEntries? id (Node.modifyEntries id f roots) = some n') :
      GroupStopped roots (some id, done ++ change :: rest) e (Node.modifyEntries id f roots)
  /-- A root fails; the other roots are not touched. -/
  | root {done rest : List Change} {change : Change} {e : MirrorError}
      {mid left : List (String × Node σ)}
      (hdone : applyRootChanges S options rootSchema roots done = (mid, none))
      (hfail : applyRootChange S options rootSchema mid change = (left, some e))
      (hothers : ∀ key, key ≠ change.rootKey → left.lookup key = mid.lookup key) :
      GroupStopped roots (none, done ++ change :: rest) e left

theorem lookup_insertEntry_of_ne {α : Type*} {key other : String} (value : α)
    (entries : List (String × α)) (h : other ≠ key) :
    (insertEntry key value entries).lookup other = entries.lookup other := by
  have hbeq : (other == key) = false := beq_false_of_ne h
  induction entries with
  | nil => rw [insertEntry, List.lookup_cons, hbeq]
  | cons entry rest ih =>
      obtain ⟨k, v⟩ := entry
      rw [insertEntry]
      split
      · rename_i heq
        rw [List.lookup_cons, List.lookup_cons, ← heq, hbeq]
      · split
        · rw [List.lookup_cons, hbeq]
        · rw [List.lookup_cons, List.lookup_cons, ih]

/-- A change of a root leaves the other roots. -/
theorem lookup_applyRootChange {roots left : List (String × Node σ)} {change : Change}
    {error : Option MirrorError} {key : String} (hkey : key ≠ change.rootKey)
    (h : applyRootChange S options rootSchema roots change = (left, error)) :
    left.lookup key = roots.lookup key := by
  unfold applyRootChange at h
  dsimp only at h
  split at h
  · rw [← (Prod.mk.inj h).1]
  · rw [← (Prod.mk.inj h).1]
    exact lookup_insertEntry_of_ne _ _ hkey

theorem applyRootChanges_error {roots left : List (String × Node σ)} {changes : List Change}
    {e : MirrorError}
    (h : applyRootChanges S options rootSchema roots changes = (left, some e)) :
    GroupStopped S options rootSchema roots (none, changes) e left := by
  induction changes generalizing roots with
  | nil => cases h
  | cons change rest ih =>
      rw [applyRootChanges] at h
      rcases hchange : applyRootChange S options rootSchema roots change with ⟨mid, error⟩
      rw [hchange] at h
      cases error with
      | some e' =>
          obtain ⟨rfl, he⟩ := Prod.mk.inj h
          obtain rfl := Option.some.inj he
          have hnil : applyRootChanges S options rootSchema roots [] = (roots, none) := rfl
          have hstopped : GroupStopped S options rootSchema roots (none, [] ++ change :: rest) e'
              mid := .root hnil hchange fun key hkey => lookup_applyRootChange hkey hchange
          exact hstopped
      | none =>
          have hrest := ih h
          cases hrest with
          | @root done rest change' _ mid' _ hdone hfail hothers =>
              have hall : applyRootChanges S options rootSchema roots (change :: done) =
                  (mid', none) := by
                rw [applyRootChanges, hchange]
                exact hdone
              have hstopped : GroupStopped S options rootSchema roots
                  (none, (change :: done) ++ change' :: rest) e left := .root hall hfail hothers
              exact hstopped

/-- What one container's failing changes leave. -/
theorem applyGroupToRoots_error {roots left : List (String × Node σ)}
    {group : Option ContainerId × List Change} {e : MirrorError}
    (h : applyGroupToRoots S options rootSchema roots group = (left, some e)) :
    GroupStopped S options rootSchema roots group e left := by
  obtain ⟨container, changes⟩ := group
  cases container with
  | none => exact applyRootChanges_error h
  | some id =>
      rw [applyGroupToRoots] at h
      split at h
      · rename_i hgone
        obtain ⟨rfl, he⟩ := Prod.mk.inj h
        obtain rfl := Option.some.inj he
        exact .gone hgone
      · rename_i n hfound
        obtain ⟨hleft, herror⟩ := Prod.mk.inj h
        obtain ⟨done, change, rest, rfl, hdone, hfail⟩ :=
          applyContainerChanges_error (Prod.ext rfl herror)
        rw [← hleft]
        refine .container hfound hdone hfail rfl ?_
        rw [Node.findInEntries?_modify, hfound]
        · rfl
        · exact fun node hnode => (ids_applyContainerChanges _ node).trans hnode

/-- **What failing changes leave**: the containers before the one that fails in full, and of that
one what comes before the failing change. -/
theorem applyGroups_error {roots left : List (String × Node σ)}
    {groups : List (Option ContainerId × List Change)} {e : MirrorError}
    (h : applyGroups S options rootSchema roots groups = (left, some e)) :
    ∃ before group after mid, groups = before ++ group :: after ∧
      applyGroups S options rootSchema roots before = (mid, none) ∧
      GroupStopped S options rootSchema mid group e left := by
  induction groups generalizing roots with
  | nil => cases h
  | cons group groups ih =>
      rw [applyGroups] at h
      rcases hgroup : applyGroupToRoots S options rootSchema roots group with ⟨mid, error⟩
      rw [hgroup] at h
      cases error with
      | some e' =>
          obtain ⟨rfl, he⟩ := Prod.mk.inj h
          obtain rfl := Option.some.inj he
          exact ⟨[], group, groups, roots, rfl, rfl, applyGroupToRoots_error hgroup⟩
      | none =>
          obtain ⟨before, group', after, mid', rfl, hbefore, hstopped⟩ := ih h
          refine ⟨group :: before, group', after, mid', rfl, ?_, hstopped⟩
          rw [applyGroups, hgroup]
          exact hbefore

/-- Where the first change of all fails, nothing is left behind. -/
theorem applyGroups_first {roots left : List (String × Node σ)}
    {groups : List (Option ContainerId × List Change)} {id : ContainerId} {change : Change}
    {rest : List Change} {n : Node σ} {e e' : MirrorError}
    (hnodup : (Node.entryIds roots).Nodup) (hfound : Node.findInEntries? id roots = some n)
    (hfirst : (applyContainerChanges S options [change] n).2 = some e')
    (h : applyGroups S options rootSchema roots ((some id, change :: rest) :: groups) =
      (left, some e)) : left = roots := by
  have hfail : applyContainerChanges S options (change :: rest) n = (n, some e') := by
    cases n with
    | value v => cases hfirst
    | text own schema content => cases hfirst
    | map own schema entries | list own schema items | movableList own schema items =>
        rw [applyContainerChanges, applyEach] at hfirst ⊢
        split at hfirst
        · cases hfirst
        · exact congrArg (Prod.mk _) hfirst
  rw [applyGroups, applyGroupToRoots, hfound] at h
  dsimp only at h
  rw [hfail] at h
  rw [← (Prod.mk.inj h).1]
  refine Node.modifyEntries_eq_self_of_find? hnodup fun n' hn' => ?_
  obtain rfl := Option.some.inj (hfound.symm.trans hn')
  rw [hfail]

end Apply

/-! ### The calls -/

/-- `shallow_assign`. -/
def shallowAssign (target source : Value) : Value :=
  match source with
  | .object entries =>
      .object (entries.foldl (fun target entry => insertEntry entry.1 entry.2 target)
        target.objectEntries)
  | _ => target

/-- `set_state` and `set_state_merge`. -/
inductive StateCall
  | setState (updater : Value → Value)
  | setStateMerge (part : Value)

/-- The state a call asks for. -/
def StateCall.newState : StateCall → Value → Value
  | .setState updater, state => updater state
  | .setStateMerge part, state => shallowAssign state part

namespace Inner

variable (c : MirrorConfig σ)

/-- A call of `set_state` or `set_state_merge`. -/
def call (m : Inner σ) (request : StateCall) : Inner σ × Option MirrorError :=
  m.setState c (request.newState m.state)

/-- Whether the new state is rejected by validation. -/
def rejects (newState : Value) : Bool :=
  c.validateUpdates && !(validateSchema c.schemas newState c.schema).isEmpty

/-- The changes `update_loro` computes. -/
def changes (m : Inner σ) (newState : Value) : Except DiffError (List Change) :=
  if !m.state.isObjectLike || !newState.isObjectLike || c.schemas.kind c.schema ≠ .root then
    .error .rootStateNotObjects
  else
    diffMap c.schemas c.inferOptions none
      (fun key type => (rootContainer m.roots key type).differ c.schemas c.inferOptions)
      (some c.schema) m.state newState

theorem updateLoro_eq (m : Inner σ) (newState : Value) : m.updateLoro c newState =
    match m.changes c newState with
    | .error e => (m.roots, some (.diff e))
    | .ok changes =>
        applyGroups c.schemas c.inferOptions (some c.schema) m.roots (byContainer changes) := by
  unfold updateLoro changes
  dsimp only
  split
  · rfl
  · rfl

/-- A state is written unless it is rejected. -/
theorem setState_eq (m : Inner σ) (newState : Value) : m.setState c newState =
    if rejects c newState then
      (m, some (.validationFailed (String.intercalate ", "
        (validateSchema c.schemas newState c.schema))))
    else
      match m.updateLoro c newState with
      | (roots, some e) => ({ m with roots := Node.numberEntries 0 roots }, some e)
      | (roots, none) => (⟨Node.numberEntries 0 roots, newState⟩, none) := by
  unfold setState rejects
  cases c.validateUpdates with
  | false => rfl
  | true =>
      cases validateSchema c.schemas newState c.schema with
      | nil => rfl
      | cons error errors => rfl

/-- The mirrors there can be: of any document, opened or imported into, and after any calls. -/
inductive Reached : Inner σ → Prop
  | opened (roots : List (String × Node σ)) (state : Value) : Reached (.opened c roots state)
  | call {m : Inner σ} (request : StateCall) (h : Reached m) : Reached (m.call c request).1

/-- The containers of a document are told apart. -/
theorem Reached.nodup {m : Inner σ} (h : Reached c m) : (Node.entryIds m.roots).Nodup := by
  induction h with
  | opened roots state => exact Node.nodup_entryIds_number 0 _
  | call request h ih =>
      rw [Inner.call, setState_eq]
      split_ifs
      · exact ih
      · split
        · exact Node.nodup_entryIds_number 0 _
        · exact Node.nodup_entryIds_number 0 _

/-- What a failed call leaves. -/
structure Left (m : Inner σ) (newState : Value) (e : MirrorError) (m' : Inner σ) : Prop where
  /-- The state is as it was. -/
  state : m'.state = m.state
  /-- A state that is rejected does not reach the document. -/
  rejected : rejects c newState = true → m'.deepValue = m.deepValue
  /-- Nor does one whose changes cannot be computed. -/
  undiffed : ∀ error, m.changes c newState = .error error → m'.deepValue = m.deepValue
  /-- Nor one whose very first change, in a container that is there, cannot be applied. -/
  first : ∀ changes id change rest groups n error, m.changes c newState = .ok changes →
    byContainer changes = (some id, change :: rest) :: groups →
      Node.findInEntries? id m.roots = some n →
        (applyContainerChanges c.schemas c.inferOptions [change] n).2 = some error →
          m'.deepValue = m.deepValue
  /-- Otherwise the changes before the failing one stay. -/
  stopped : rejects c newState = false → ∀ changes, m.changes c newState = .ok changes →
    ∃ before group after mid left, byContainer changes = before ++ group :: after ∧
      applyGroups c.schemas c.inferOptions (some c.schema) m.roots before = (mid, none) ∧
      GroupStopped c.schemas c.inferOptions (some c.schema) mid group e left ∧
      m'.deepValue = .object (Node.deepEntries left)

theorem deepValue_numbered (roots : List (String × Node σ)) (state : Value) :
    deepValue (⟨Node.numberEntries 0 roots, state⟩ : Inner σ) =
      .object (Node.deepEntries roots) :=
  congrArg Value.object (Node.deepEntries_number 0 roots)

/-- **What a failed call leaves**: the state as it was, and the document as the changes before
the failing one make it. -/
theorem call_error {m m' : Inner σ} (hm : Reached c m) (request : StateCall) {e : MirrorError}
    (h : m.call c request = (m', some e)) :
    Left c m (request.newState m.state) e m' := by
  unfold call at h
  generalize request.newState m.state = newState at h ⊢
  rw [setState_eq] at h
  split_ifs at h with hrejects
  · obtain ⟨rfl, -⟩ := Prod.mk.inj h
    exact ⟨rfl, fun _ => rfl, fun _ _ => rfl, fun _ _ _ _ _ _ _ _ _ _ _ => rfl,
      fun hnot => absurd hrejects (by rw [hnot]; exact Bool.false_ne_true)⟩
  · rw [updateLoro_eq] at h
    cases hchanges : m.changes c newState with
    | error error =>
        rw [hchanges] at h
        dsimp only at h
        obtain ⟨rfl, -⟩ := Prod.mk.inj h
        have hdeep := deepValue_numbered m.roots m.state
        exact ⟨rfl, fun hyes => absurd hyes hrejects, fun _ _ => hdeep,
          fun _ _ _ _ _ _ _ _ _ _ _ => hdeep, fun _ _ hok => (nomatch hchanges.symm.trans hok)⟩
    | ok changes =>
        rw [hchanges] at h
        dsimp only at h
        split at h
        · rename_i left error hleft
          obtain ⟨rfl, he⟩ := Prod.mk.inj h
          obtain rfl := Option.some.inj he
          have hdeep := deepValue_numbered left m.state
          refine ⟨rfl, fun hyes => absurd hyes hrejects, fun _ herror =>
            (nomatch hchanges.symm.trans herror), ?_, ?_⟩
          · intro changes' id change rest groups n error hok hgroups hfound hfail
            obtain rfl := Except.ok.inj (hchanges.symm.trans hok)
            rw [hgroups] at hleft
            rw [hdeep, applyGroups_first hm.nodup hfound hfail hleft]
            rfl
          · intro _ changes' hok
            obtain rfl := Except.ok.inj (hchanges.symm.trans hok)
            obtain ⟨before, group, after, mid, hgroups, hbefore, hstopped⟩ :=
              applyGroups_error hleft
            exact ⟨before, group, after, mid, left, hgroups, hbefore, hstopped, hdeep⟩
        · cases h

end Inner

/-! ### A list of names, with one less and one moved -/

/-- The schemas of a document with a movable list of names. -/
inductive BoardSchema
  | board | names | name
  deriving DecidableEq, Repr

/-- `root` with a field of `loro_movable_list` of `string`, each its own id. -/
def boardSchemas : Schemas BoardSchema where
  kind schema := match schema with
    | .board => .root
    | .names => .movableList
    | .name => .plainString
  fields schema := match schema with
    | .board => [("names", .names)]
    | .names | .name => []
  item schema := match schema with
    | .names => some .name
    | .board | .name => none
  idSelector schema := match schema with
    | .names => some Value.asStr
    | .board | .name => none
  required _ := false

/-- A mirror with these schemas. -/
def boardConfig : MirrorConfig BoardSchema := ⟨boardSchemas, .board, true, .default⟩

/-- The state with some names. -/
def boardState (names : List String) : Value := .object [("names", .array (names.map .string))]

/-- The mirror of an empty document, after it has been given the names a, b, c and d. -/
def board : Inner BoardSchema :=
  ((Inner.opened boardConfig [] (.object [])).call boardConfig
    (.setState fun _ => boardState ["a", "b", "c", "d"])).1

theorem board_reached : Inner.Reached boardConfig board := .call _ (.opened [] (.object []))

/-- **What a failed call leaves behind**: a is to go and d to come first.  The deletion of a is
applied and committed, and the move of d, from the place it had before, is out of range. -/
theorem board_left_behind :
    board.deepValue = boardState ["a", "b", "c", "d"] ∧
      board.state = boardState ["a", "b", "c", "d"] ∧
      (board.call boardConfig (.setState fun _ => boardState ["d", "b", "c"])).2 =
        some .containerInsertFailed ∧
      (board.call boardConfig (.setState fun _ => boardState ["d", "b", "c"])).1.deepValue =
        boardState ["b", "c", "d"] ∧
      boardState ["b", "c", "d"] ≠ board.deepValue := by
  decide +kernel

/-- What the failed call leaves of this mirror. -/
theorem call_error_board :
    Inner.Left boardConfig board (boardState ["d", "b", "c"]) .containerInsertFailed
      (board.call boardConfig (.setState fun _ => boardState ["d", "b", "c"])).1 :=
  Inner.call_error boardConfig board_reached (.setState fun _ => boardState ["d", "b", "c"])
    (Prod.ext rfl (by decide +kernel))

end Mirror
end ZuTalk
