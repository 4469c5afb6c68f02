/-
# The fields of a map

What `diff_map` makes of one entry, by the schema of its field: a plain string is set, a text and
a map take their own changes, or a new one is put in their place (`writes_plain`, `writes_text`,
`writes_mapField`).  It rests on containers that are what their schema says (`Node.Fits`), which
changes keep (`fits_patch`), for every new container is made by the schema of its place.
-/

import ZuTalk.Mirror.Written

namespace ZuTalk
namespace Mirror

variable {σ : Type}

section Fits

variable (S : Schemas σ)

/-- The schema a container under a key of a map has. -/
def Schemas.mapChild (schema : Option σ) (key : String) : Option σ :=
  (S.mapField schema key).filter (S.isContainerSchema ·)

/-- The schema a container in a list has. -/
def Schemas.listChild (schema : Option σ) : Option σ :=
  (S.listItem schema).filter (S.isContainerSchema ·)

/-- A container with this schema is of this type. -/
def Schemas.Is (type : ContainerType) (schema : Option σ) : Prop :=
  ∀ s ∈ schema, S.isContainerSchema s = true ∧ S.containerType s = some type

mutual

/-- Where the schema has a container, one that is there is registered with it and is of its
type. -/
def Node.Fits (schema : Option σ) : Node σ → Prop
  | .value _ => True
  | .map _ own entries =>
      schema.isSome → own = schema ∧ S.Is .map schema ∧ Node.FitEntries schema entries
  | .list _ own items =>
      schema.isSome → own = schema ∧ S.Is .list schema ∧ Node.FitItems (S.listChild schema) items
  | .movableList _ own items =>
      schema.isSome →
        own = schema ∧ S.Is .movableList schema ∧ Node.FitItems (S.listChild schema) items
  | .text _ own _ => schema.isSome → own = schema ∧ S.Is .text schema

/-- The same of list items. -/
def Node.FitItems (schema : Option σ) : List (Node σ) → Prop
  | [] => True
  | item :: items => item.Fits schema ∧ Node.FitItems schema items

/-- The same of map entries. -/
def Node.FitEntries (schema : Option σ) : List (String × Node σ) → Prop
  | [] => True
  | (key, node) :: entries => node.Fits (S.mapChild schema key) ∧ Node.FitEntries schema entries

end

variable {S} {options : InferContainerOptions}

theorem Node.fitItems_iff {schema : Option σ} {items : List (Node σ)} :
    Node.FitItems S schema items ↔ ∀ item ∈ items, item.Fits S schema := by
  induction items with
  | nil => simp [Node.FitItems]
  | cons item items ih => rw [Node.FitItems, ih, List.forall_mem_cons]

theorem Node.fitEntries_iff {schema : Option σ} {entries : List (String × Node σ)} :
    Node.FitEntries S schema entries ↔
      ∀ entry ∈ entries, entry.2.Fits S (S.mapChild schema entry.1) := by
  induction entries with
  | nil => simp [Node.FitEntries]
  | cons entry entries ih => rw [Node.FitEntries, ih, List.forall_mem_cons]

/-- A schema that is asked for its container type is one of a container or gives none. -/
theorem Schemas.filter_of_bind {schema : Option σ} {type : ContainerType}
    (h : (schema.bind fun s => if S.isContainerSchema s then S.containerType s else none) =
      some type) :
    schema.filter (S.isContainerSchema ·) = schema ∧ S.Is type schema := by
  obtain ⟨s, rfl, hs⟩ := Option.bind_eq_some_iff.1 h
  split at hs
  · rename_i hcontainer
    refine ⟨?_, fun t ht => ?_⟩
    · rw [Option.filter_some, if_pos hcontainer]
    · obtain rfl := Option.some.inj ht
      exact ⟨hcontainer, hs⟩
  · cases hs

mutual

/-- A new container fits the schema it is made by. -/
theorem Node.fits_build : ∀ {v : Value} {type : ContainerType} {schema : Option σ},
    S.Is type schema → (Node.build S v type schema).Fits S schema
  | .object entries, type, schema, h => by
      cases type with
      | map => exact fun _ => ⟨rfl, h, Node.fits_buildEntries⟩
      | list | movableList => exact fun _ => ⟨rfl, h, trivial⟩
      | text => exact fun _ => ⟨rfl, h⟩
  | .array items, type, schema, h => by
      cases type with
      | map => exact fun _ => ⟨rfl, h, trivial⟩
      | list | movableList => exact fun _ => ⟨rfl, h, Node.fits_buildItems⟩
      | text => exact fun _ => ⟨rfl, h⟩
  | .null, type, schema, h | .bool _, type, schema, h | .number _, type, schema, h
    | .string _, type, schema, h => by
      cases type with
      | map | list | movableList => exact fun _ => ⟨rfl, h, trivial⟩
      | text => exact fun _ => ⟨rfl, h⟩

theorem Node.fits_buildItems : ∀ {items : List Value} {schema : Option σ},
    Node.FitItems S (schema.filter (S.isContainerSchema ·)) (Node.buildItems S items schema)
  | [], _ => trivial
  | item :: items, schema => by
      refine ⟨?_, Node.fits_buildItems⟩
      split
      · rename_i type htype
        obtain ⟨hfilter, his⟩ := Schemas.filter_of_bind htype
        split
        · rw [hfilter]
          exact Node.fits_build his
        · trivial
      · trivial

theorem Node.fits_buildEntries : ∀ {entries : List (String × Value)} {schema : Option σ},
    Node.FitEntries S schema (Node.buildEntries S entries schema)
  | [], _ => trivial
  | (key, v) :: entries, schema => by
      refine ⟨?_, Node.fits_buildEntries⟩
      split
      · rename_i type htype
        obtain ⟨hfilter, his⟩ := Schemas.filter_of_bind htype
        split
        · rw [Schemas.mapChild, hfilter]
          exact Node.fits_build his
        · trivial
      · trivial

end

/-- A container made for a place fits it. -/
theorem Node.fits_newContainer {schema : Option σ} {v : Value} {node : Node σ}
    (h : newContainer S options (schema.filter (S.isContainerSchema ·)) v = .ok node) :
    node.Fits S (schema.filter (S.isContainerSchema ·)) := by
  unfold newContainer at h
  split at h
  · rename_i type htype
    obtain rfl := Except.ok.inj h
    refine Node.fits_build fun s hs => ?_
    have hcontainer : S.isContainerSchema s = true := (Option.mem_filter_iff.1 hs).2
    refine ⟨hcontainer, ?_⟩
    have hs' : schema.filter (S.isContainerSchema ·) = some s := hs
    rw [hs', Option.bind_some] at htype
    cases hkind : S.containerType s with
    | some own =>
        rw [hkind, Option.some_or] at htype
        exact htype
    | none =>
        exfalso
        unfold Schemas.containerType at hkind
        unfold Schemas.isContainerSchema at hcontainer
        cases hk : S.kind s <;> rw [hk] at hkind hcontainer <;> simp_all [SchemaKind.containerType]
  · cases h

theorem Schemas.Is.kind {type : ContainerType} {s : σ} (h : S.Is type (some s)) :
    S.kind s = match type with
      | .map => .map
      | .list => .list
      | .movableList => .movableList
      | .text => .text := by
  obtain ⟨hcontainer, htype⟩ := h s rfl
  unfold Schemas.containerType at htype
  unfold Schemas.isContainerSchema at hcontainer
  cases hk : S.kind s <;> rw [hk] at htype hcontainer <;> cases type <;>
    simp_all [SchemaKind.containerType]

/-- The schema of what is under a key is that of the field. -/
theorem schemaForChild_eq {schema : Option σ} (h : S.Is .map schema) (key : String) :
    schemaForChild S schema key = S.mapField schema key := by
  cases schema with
  | none => rfl
  | some s => simp [schemaForChild, Schemas.mapField, h.kind]

theorem fits_applyMapChange {schema : Option σ} {entries entries' : List (String × Node σ)}
    {change : Change} (his : S.Is .map schema) (hfits : Node.FitEntries S schema entries)
    (h : applyMapChange S options schema entries change = .ok entries') :
    Node.FitEntries S schema entries' := by
  rw [Node.fitEntries_iff] at hfits ⊢
  rintro ⟨key, node⟩ hentry
  rcases mem_applyMapChange h hentry with hold | ⟨v, rfl⟩ | hnew
  · exact hfits _ hold
  · trivial
  · rw [schemaForChild_eq his] at hnew
    exact Node.fits_newContainer hnew

theorem fits_applyListChange {movable : Bool} {schema : Option σ} {items items' : List (Node σ)}
    {change : Change} (hfits : Node.FitItems S (S.listChild schema) items)
    (h : applyListChange S options movable schema items change = .ok items') :
    Node.FitItems S (S.listChild schema) items' := by
  rw [Node.fitItems_iff] at hfits ⊢
  intro item hitem
  rcases mem_applyListChange h hitem with hold | ⟨v, rfl⟩ | hnew
  · exact hfits item hold
  · trivial
  · exact Node.fits_newContainer hnew

/-- What every step keeps, the steps keep. -/
theorem applyEach_invariant {α β ε : Type*} {step : α → β → Except ε α} {P : α → Prop}
    (hstep : ∀ a b a', P a → step a b = .ok a' → P a') {a : α} (h : P a) (bs : List β) :
    P (applyEach step a bs).1 := by
  induction bs generalizing a with
  | nil => exact h
  | cons b bs ih =>
      rw [applyEach]
      cases hb : step a b with
      | ok a' => exact ih (hstep a b a' h hb)
      | error e => exact h

/-- A container's own changes keep to its schema. -/
theorem fits_applyContainerChanges {changes : List Change} {schema : Option σ} {node : Node σ}
    (h : node.Fits S schema) :
    (applyContainerChanges S options changes node).1.Fits S schema := by
  cases node with
  | value v => trivial
  | text id own content => exact h
  | map id own entries =>
      intro hsome
      obtain ⟨rfl, his, hfits⟩ := h hsome
      exact ⟨rfl, his, applyEach_invariant (fun _ _ _ ha hb => fits_applyMapChange his ha hb)
        hfits changes⟩
  | list id own items | movableList id own items =>
      intro hsome
      obtain ⟨rfl, his, hfits⟩ := h hsome
      exact ⟨rfl, his, applyEach_invariant (fun _ _ _ ha hb => fits_applyListChange ha hb)
        hfits changes⟩

mutual

/-- Changes keep a node to its schema. -/
theorem fits_patch {changes : List Change} : ∀ {node : Node σ} {schema : Option σ},
    node.Fits S schema → (node.patch S options changes).Fits S schema
  | .value _, _, _ => trivial
  | .text _ _ _, _, h => h
  | .map _ _ _, _, h => fits_applyContainerChanges fun hsome =>
      ⟨(h hsome).1, (h hsome).2.1, fits_patchEntries (h hsome).2.2⟩
  | .list _ _ _, _, h => fits_applyContainerChanges fun hsome =>
      ⟨(h hsome).1, (h hsome).2.1, fits_patchItems (h hsome).2.2⟩
  | .movableList _ _ _, _, h => fits_applyContainerChanges fun hsome =>
      ⟨(h hsome).1, (h hsome).2.1, fits_patchItems (h hsome).2.2⟩

theorem fits_patchItems {changes : List Change} : ∀ {items : List (Node σ)} {schema : Option σ},
    Node.FitItems S schema items →
      Node.FitItems S schema (Node.patchItems S options changes items)
  | [], _, _ => trivial
  | _ :: _, _, h => ⟨fits_patch h.1, fits_patchItems h.2⟩

theorem fits_patchEntries {changes : List Change} :
    ∀ {entries : List (String × Node σ)} {schema : Option σ},
      Node.FitEntries S schema entries →
        Node.FitEntries S schema (Node.patchEntries S options changes entries)
  | [], _, _ => trivial
  | (_, _) :: _, _, h => ⟨fits_patch h.1, fits_patchEntries h.2⟩

end

mutual

/-- Nor do numbers change that. -/
theorem fits_number (n : ℕ) : ∀ {node : Node σ} {schema : Option σ}, node.Fits S schema →
    (node.number n).Fits S schema
  | .value _, _, _ => trivial
  | .text _ _ _, _, h => h
  | .map _ _ _, _, h => fun hsome =>
      ⟨(h hsome).1, (h hsome).2.1, fits_numberEntries (n + 1) (h hsome).2.2⟩
  | .list _ _ _, _, h => fun hsome =>
      ⟨(h hsome).1, (h hsome).2.1, fits_numberItems (n + 1) (h hsome).2.2⟩
  | .movableList _ _ _, _, h => fun hsome =>
      ⟨(h hsome).1, (h hsome).2.1, fits_numberItems (n + 1) (h hsome).2.2⟩

theorem fits_numberItems (n : ℕ) : ∀ {items : List (Node σ)} {schema : Option σ},
    Node.FitItems S schema items → Node.FitItems S schema (Node.numberItems n items)
  | [], _, _ => trivial
  | item :: _, _, h => ⟨fits_number n h.1, fits_numberItems (n + item.ids.length) h.2⟩

theorem fits_numberEntries (n : ℕ) : ∀ {entries : List (String × Node σ)} {schema : Option σ},
    Node.FitEntries S schema entries → Node.FitEntries S schema (Node.numberEntries n entries)
  | [], _, _ => trivial
  | (_, node) :: _, _, h => ⟨fits_number n h.1, fits_numberEntries (n + node.ids.length) h.2⟩

end

end Fits

/-! ### One entry of a map -/

section Entry

variable (S : Schemas σ) (options : InferContainerOptions)

/-- `diff_map`, one entry of the new state. -/
def diffEntry (container : Option ContainerId)
    (child : String → ContainerType → Option (Differ σ)) (schema : Option σ) (oldState : Value)
    (entry : String × Value) : Except DiffError (List Change) :=
  let childSchema := schema.bind fun s =>
    if S.kind s = .map ∨ S.kind s = .root then S.field s entry.1 else none
  let type := (childSchema.bind S.containerType).or (tryInferContainerType entry.2 options)
  let oldItem := oldState.objectGet entry.1
  if Value.isFalsy oldItem then
    .ok [⟨container, .prop entry.1, some entry.2, type.elim .insert .insertContainer⟩]
  else
    match oldItem with
    | none => .ok []
    | some oldItem =>
        if oldItem = entry.2 then .ok []
        else
          match type.filter fun type =>
            isValueOfContainerType type entry.2 && isValueOfContainerType type oldItem with
          | some type =>
              match child entry.1 type with
              | some differ => differ childSchema oldItem entry.2
              | none => .ok [insertChildToMap container entry.1 entry.2]
          | none => .ok [insertChildToMap container entry.1 entry.2]

/-- The keys `diff_map` deletes. -/
def deletedKeys (oldState newState : Value) : List String :=
  (oldState.objectEntries.filter fun (key, _) => (newState.objectGet key).isNone).map Prod.fst

variable {S options}

theorem mapM_eq_ok {α β ε : Type*} {f : α → Except ε β} {g : α → β} {l : List α}
    (h : ∀ a ∈ l, f a = .ok (g a)) : l.mapM f = .ok (l.map g) := by
  induction l with
  | nil => rfl
  | cons a l ih =>
      obtain ⟨ha, hl⟩ := List.forall_mem_cons.1 h
      rw [List.mapM_cons, ha, ih hl]
      rfl

theorem diffMap_eq_ok {container : Option ContainerId}
    {child : String → ContainerType → Option (Differ σ)} {schema : Option σ}
    {oldState newState : Value} {updates : String × Value → List Change}
    (h : ∀ entry ∈ newState.objectEntries,
      diffEntry S options container child schema oldState entry = .ok (updates entry)) :
    diffMap S options container child schema oldState newState =
      .ok ((deletedKeys oldState newState).map
        (fun key => ⟨container, .prop key, none, .delete⟩) ++
          newState.objectEntries.flatMap updates) := by
  have hrun : diffMap S options container child schema oldState newState =
      (newState.objectEntries.mapM (diffEntry S options container child schema oldState)) >>=
        fun updates => pure ((oldState.objectEntries.filter fun (key, _) =>
          (newState.objectGet key).isNone).map (fun (key, _) =>
            Change.mk container (.prop key) none .delete) ++ updates.flatten) := rfl
  rw [hrun, mapM_eq_ok h, deletedKeys, List.map_map, List.flatMap_def]
  rfl

theorem lookup_entryDiffers (entries : List (String × Node σ)) (key : String) :
    (Node.entryDiffers S options entries).lookup key =
      (entries.lookup key).map (Node.differ S options) := by
  induction entries with
  | nil => rfl
  | cons entry rest ih =>
      obtain ⟨k, node⟩ := entry
      rw [Node.entryDiffers, List.lookup_cons, List.lookup_cons, ih]
      cases key == k <;> rfl

theorem objectGet_deepEntries (entries : List (String × Node σ)) (key : String) :
    (Value.object (Node.deepEntries entries)).objectGet key =
      (entries.lookup key).map Node.deepValue := by
  rw [Value.objectGet, Node.deepEntries_eq, lookup_map]

variable (S options) in
/-- `diff_map` makes an entry what it is to be. -/
def FieldWrites (id : ContainerId) (schema : σ) (entries : List (String × Node σ))
    (key : String) (v : Value) : Prop :=
  ∃ updates, diffEntry S options (some id)
      (fun key _ => ((Node.entryDiffers S options entries).lookup key).bind fun d => d)
      (some schema) (.object (Node.deepEntries entries)) (key, v) = .ok updates ∧
    EntryWrites S options id (some schema) entries key v updates

section Sets

variable {id : ContainerId} {schema : σ} {entries : List (String × Node σ)} {key : String}

/-- A key is set to a plain value. -/
theorem sets_insert (hkey : key ≠ "") (v : Value) :
    Sets S options id (some schema) key v ⟨some id, .prop key, some v, .insert⟩ where
  container := rfl
  applies := ⟨.value v, rfl, nofun, fun entries => by simp [applyMapChange, hkey]⟩

/-- A key is set to a new container. -/
theorem sets_insertContainer (hkey : key ≠ "") {v : Value} {node : Node σ} (type : ContainerType)
    (his : S.Is .map (some schema))
    (hnode : newContainer S options (S.mapChild (some schema) key) v = .ok node)
    (hvalue : node.deepValue = v) :
    Sets S options id (some schema) key v
      ⟨some id, .prop key, some v, .insertContainer type⟩ where
  container := rfl
  applies := by
    refine ⟨node, hvalue, ids_newContainer hnode, fun entries => ?_⟩
    have hchild : newContainer S options ((schemaForChild S (some schema) key).filter
        (S.isContainerSchema ·)) v = .ok node := by
      rw [schemaForChild_eq his]
      exact hnode
    simp only [applyMapChange, if_neg hkey, Option.getD_some, hchild]
    rfl

theorem fieldSchema_eq (his : S.Is .map (some schema)) :
    (if S.kind schema = .map ∨ S.kind schema = .root then S.field schema key else none) =
      S.mapField (some schema) key := by
  simp [Schemas.mapField, his.kind]

/-- A plain field takes a plain value. -/
theorem writes_plain (his : S.Is .map (some schema)) (hkey : key ≠ "") {v : Value}
    (hfield : (S.mapField (some schema) key).bind S.containerType = none)
    (hinfer : tryInferContainerType v options = none) :
    FieldWrites S options id schema entries key v := by
  have hplain : insertChildToMap (some id) key v = ⟨some id, .prop key, some v, .insert⟩ := by
    unfold insertChildToMap
    cases v <;> first | rfl | cases hinfer
  unfold FieldWrites diffEntry
  rw [Option.bind_some, fieldSchema_eq his, objectGet_deepEntries]
  simp only [hfield, hinfer, Option.or_none, Option.filter_none, Option.elim_none]
  split
  · exact ⟨_, rfl, .fresh (sets_insert hkey v)⟩
  · cases hlookup : entries.lookup key with
    | none => simp_all [Value.isFalsy]
    | some node =>
        simp only [Option.map_some]
        split
        · rename_i heq
          exact ⟨_, rfl, .same hlookup heq⟩
        · rw [hplain]
          exact ⟨_, rfl, .fresh (sets_insert hkey v)⟩

/-- A text field takes a string. -/
theorem writes_textField (his : S.Is .map (some schema)) (hkey : key ≠ "") {field : σ}
    (hfield : S.mapField (some schema) key = some field) (hkind : S.Is .text (some field))
    (newText : String) : FieldWrites S options id schema entries key (.string newText) := by
  have htype : S.containerType field = some .text := (hkind field rfl).2
  have hchild : S.mapChild (some schema) key = some field := by
    rw [Schemas.mapChild, hfield, Option.filter_some, if_pos (hkind field rfl).1]
  have hnew : newContainer S options (S.mapChild (some schema) key) (.string newText) =
      .ok (.text .created (some field) newText) := by
    rw [hchild]
    simp [newContainer, htype, Node.build]
  have hinsert : EntryWrites S options id (some schema) entries key (.string newText)
      [insertChildToMap (some id) key (.string newText)] :=
    .fresh (sets_insert hkey _)
  unfold FieldWrites diffEntry
  rw [Option.bind_some, fieldSchema_eq his, objectGet_deepEntries, hfield]
  simp only [Option.bind_some, htype, Option.some_or, Option.elim_some]
  split
  · exact ⟨_, rfl, .fresh (sets_insertContainer hkey .text his hnew rfl)⟩
  · cases hlookup : entries.lookup key with
    | none => simp_all [Value.isFalsy]
    | some node =>
        simp only [Option.map_some]
        split
        · rename_i heq
          exact ⟨_, rfl, .same hlookup heq⟩
        · rw [lookup_entryDiffers, hlookup, Option.map_some, Option.bind_some, Option.filter_some]
          cases node with
          | text j own content =>
              refine ⟨diffText j content newText, ?_, .child hlookup (writes_text j own _ _)⟩
              simp [isValueOfContainerType, Value.isString, Node.deepValue, Node.differ,
                diffTextContainer, hkind.kind]
          | value v =>
              refine ⟨_, ?_, hinsert⟩
              split
              · rfl
              · rfl
          | map j own inner | list j own inner | movableList j own inner =>
              exact ⟨_, rfl, hinsert⟩

/-- A map field takes an object, if the map that is there does. -/
theorem writes_mapField (his : S.Is .map (some schema)) (hkey : key ≠ "") {field : σ}
    (hfield : S.mapField (some schema) key = some field) (hkind : S.Is .map (some field))
    (hfits : Node.FitEntries S (some schema) entries) {newEntries : List (String × Value)}
    (hbuild : (Node.build S (.object newEntries) .map (some field)).deepValue =
      .object newEntries)
    (hchild : ∀ j inner, entries.lookup key = some (.map j (some field) inner) →
      ∃ changes, diffMapContainer S options j
          (fun key _ => ((Node.entryDiffers S options inner).lookup key).bind fun d => d)
          (some field) (.object (Node.deepEntries inner)) (.object newEntries) = .ok changes ∧
        Writes S options changes (.map j (some field) inner) (.object newEntries)) :
    FieldWrites S options id schema entries key (.object newEntries) := by
  have htype : S.containerType field = some .map := (hkind field rfl).2
  have hmapChild : S.mapChild (some schema) key = some field := by
    rw [Schemas.mapChild, hfield, Option.filter_some, if_pos (hkind field rfl).1]
  have hnew : newContainer S options (S.mapChild (some schema) key) (.object newEntries) =
      .ok (Node.build S (.object newEntries) .map (some field)) := by
    rw [hmapChild]
    simp [newContainer, htype]
  have hinsert : EntryWrites S options id (some schema) entries key (.object newEntries)
      [insertChildToMap (some id) key (.object newEntries)] :=
    .fresh (sets_insertContainer hkey .map his hnew hbuild)
  unfold FieldWrites diffEntry
  rw [Option.bind_some, fieldSchema_eq his, objectGet_deepEntries, hfield]
  simp only [Option.bind_some, htype, Option.some_or, Option.elim_some]
  split
  · exact ⟨_, rfl, .fresh (sets_insertContainer hkey .map his hnew hbuild)⟩
  · cases hlookup : entries.lookup key with
    | none => simp_all [Value.isFalsy]
    | some node =>
        have hnode := (Node.fitEntries_iff.1 hfits) _ (Entries.mem_of_lookup hlookup)
        simp only [Option.map_some]
        split
        · rename_i heq
          exact ⟨_, rfl, .same hlookup heq⟩
        · rw [lookup_entryDiffers, hlookup, Option.map_some, Option.bind_some, Option.filter_some]
          cases node with
          | map j own inner =>
              rw [hmapChild] at hnode
              obtain rfl := (hnode rfl).1
              obtain ⟨changes, hchanges, hwrites⟩ := hchild j inner hlookup
              refine ⟨changes, ?_, .child hlookup hwrites⟩
              simp only [Node.deepValue, Node.differ]
              exact hchanges
          | value v =>
              refine ⟨_, ?_, hinsert⟩
              split
              · rfl
              · rfl
          | text j own content => exact ⟨_, rfl, hinsert⟩
          | list j own inner | movableList j own inner =>
              rw [hmapChild] at hnode
              have := ((hnode rfl).2.1 field rfl).2
              rw [htype] at this
              cases this

end Sets

section Map

variable {id : ContainerId} {schema : σ} {entries : List (String × Node σ)}
  {newEntries : List (String × Value)}

theorem mem_deletedKeys {key : String} :
    key ∈ deletedKeys (.object (Node.deepEntries entries)) (.object newEntries) ↔
      key ∈ entries.map Prod.fst ∧ newEntries.lookup key = none := by
  unfold deletedKeys
  rw [Value.objectEntries, Node.deepEntries_eq]
  constructor
  · intro h
    obtain ⟨entry, hentry, rfl⟩ := List.mem_map.1 h
    obtain ⟨hmem, hnone⟩ := List.mem_filter.1 hentry
    obtain ⟨old, hold, rfl⟩ := List.mem_map.1 hmem
    exact ⟨List.mem_map_of_mem hold, Option.isNone_iff_eq_none.1 hnone⟩
  · rintro ⟨h, hnone⟩
    obtain ⟨entry, hentry, rfl⟩ := List.mem_map.1 h
    refine List.mem_map.2 ⟨(entry.1, entry.2.deepValue), List.mem_filter.2 ⟨?_, ?_⟩, rfl⟩
    · exact List.mem_map_of_mem hentry
    · exact Option.isNone_iff_eq_none.2 hnone

/-- **A map takes an object**, if each of its entries is made what it is to be. -/
theorem writes_diffMapContainer (his : S.Is .map (some schema)) (hsorted : Sorted entries)
    (hnodup : (Node.map id (some schema) entries).ids.Nodup)
    (hnumbered : ∀ i ∈ (Node.map id (some schema) entries).ids, i ≠ .created)
    (hnew : Sorted newEntries) (hdeletes : ∀ key ∈ entries.map Prod.fst, key ≠ "")
    (hfields : ∀ entry ∈ newEntries, FieldWrites S options id schema entries entry.1 entry.2) :
    ∃ changes, diffMapContainer S options id
        (fun key _ => ((Node.entryDiffers S options entries).lookup key).bind fun d => d)
        (some schema) (.object (Node.deepEntries entries)) (.object newEntries) = .ok changes ∧
      Writes S options changes (.map id (some schema) entries) (.object newEntries) := by
  have hex : ∀ entry : String × Value, ∃ updates, entry ∈ newEntries →
      diffEntry S options (some id)
        (fun key _ => ((Node.entryDiffers S options entries).lookup key).bind fun d => d)
        (some schema) (.object (Node.deepEntries entries)) entry = .ok updates ∧
      EntryWrites S options id (some schema) entries entry.1 entry.2 updates := by
    intro entry
    by_cases hentry : entry ∈ newEntries
    · obtain ⟨updates, hupdates⟩ := hfields entry hentry
      exact ⟨updates, fun _ => hupdates⟩
    · exact ⟨[], fun h => absurd h hentry⟩
  choose updates hupdates using hex
  have hkeys : (newEntries.map fun entry => (entry.1, entry.2, updates entry)).map Prod.fst =
      newEntries.map Prod.fst := by
    rw [List.map_map]
    rfl
  let plan : MapPlan S options id (some schema) entries :=
    { deleted := deletedKeys (.object (Node.deepEntries entries)) (.object newEntries)
      updates := newEntries.map fun entry => (entry.1, entry.2, updates entry)
      sorted := hsorted
      nodup := hnodup
      numbered := hnumbered
      keys := by
        refine List.pairwise_map.2 (hnew.imp fun h => ?_)
        exact h
      deletes := fun key hkey => by
        obtain ⟨hmem, hnone⟩ := mem_deletedKeys.1 hkey
        refine ⟨hdeletes key hmem, fun h => ?_⟩
        rw [hkeys] at h
        obtain ⟨entry, hentry, rfl⟩ := List.mem_map.1 h
        rw [Entries.lookup_of_mem hnew.nodup hentry] at hnone
        cases hnone
      covers := fun entry hentry => by
        rw [hkeys]
        by_cases hmem : entry.1 ∈ newEntries.map Prod.fst
        · exact .inr hmem
        · refine .inl (mem_deletedKeys.2 ⟨List.mem_map_of_mem hentry, ?_⟩)
          exact List.lookup_eq_none_iff.2 fun other hother => bne_iff_ne.2 fun heq =>
            hmem (heq ▸ List.mem_map_of_mem hother)
      writes := fun update hupdate => by
        obtain ⟨entry, hentry, rfl⟩ := List.mem_map.1 hupdate
        exact (hupdates entry hentry).2 }
  have hplan : plan.newEntries = newEntries := by
    change (newEntries.map fun entry => (entry.1, entry.2, updates entry)).map
      (fun update => (update.1, update.2.1)) = newEntries
    rw [List.map_map]
    exact List.map_id newEntries
  refine ⟨plan.changes, ?_, hplan ▸ plan.writes_map⟩
  have hkind : (some schema).any (S.kind · ≠ .map) = false := by
    simp [his.kind]
  have hchanges : plan.changes =
      (deletedKeys (.object (Node.deepEntries entries)) (.object newEntries)).map
        (fun key => ⟨some id, .prop key, none, .delete⟩) ++ newEntries.flatMap updates := by
    change _ ++ (newEntries.map fun entry => (entry.1, entry.2, updates entry)).flatMap
      (fun update => update.2.2) = _
    rw [List.flatMap_map]
  have hdiff : diffMap S options (some id)
      (fun key _ => ((Node.entryDiffers S options entries).lookup key).bind fun d => d)
      (some schema) (.object (Node.deepEntries entries)) (.object newEntries) =
        .ok plan.changes := by
    rw [hchanges]
    exact diffMap_eq_ok fun entry hentry => (hupdates entry hentry).1
  unfold diffMapContainer
  rw [hkind]
  exact hdiff

end Map

end Entry

end Mirror
end ZuTalk
