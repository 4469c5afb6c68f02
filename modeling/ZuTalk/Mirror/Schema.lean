/-
# Schemas

`crates/vt-mirror/src/schema.rs`.

A schema may contain itself (`SchemaSlot::fill`), so the schemas of a document are
the nodes of a graph: `σ` names them, and `Schemas σ` says what each is.
-/

import ZuTalk.Mirror.Value

namespace ZuTalk
namespace Mirror

/-- `ContainerType`, as far as a schema or a value can give one. -/
inductive ContainerType
  | map | list | movableList | text
  deriving DecidableEq, Repr

/-- `IdSelector`. -/
abbrev IdSelector := Value → Option String

/-- The variants of `Schema`. -/
inductive SchemaKind
  | plainString | plainNumber | plainBoolean | ignore | text | map | list | movableList | root
  deriving DecidableEq, Repr

/-- The schemas of a document. -/
structure Schemas (σ : Type) where
  kind : σ → SchemaKind
  /-- The fields of a map or a root, in key order. -/
  fields : σ → List (String × σ)
  /-- The items of a list, once filled in. -/
  item : σ → Option σ
  idSelector : σ → Option IdSelector
  required : σ → Bool

/-- The container a kind of schema stands for. -/
def SchemaKind.containerType : SchemaKind → Option ContainerType
  | .plainString | .plainNumber | .plainBoolean | .ignore => none
  | .text => some .text
  | .map | .root => some .map
  | .list => some .list
  | .movableList => some .movableList

namespace Schemas

variable {σ : Type} (S : Schemas σ)

/-- `container_type`. -/
def containerType (schema : σ) : Option ContainerType := (S.kind schema).containerType

/-- `is_container_schema`. -/
def isContainerSchema (schema : σ) : Bool :=
  match S.kind schema with
  | .map | .list | .movableList | .text => true
  | _ => false

/-- `fields.get(key)`. -/
def field (schema : σ) (key : String) : Option σ := (S.fields schema).lookup key

/-- The schema of a field, for a map. -/
def mapField (schema : Option σ) (key : String) : Option σ :=
  schema.bind fun s => if S.kind s = .map then S.field s key else none

/-- The schema of the items, for a list of either kind. -/
def listItem (schema : Option σ) : Option σ :=
  schema.bind fun s =>
    match S.kind s with
    | .list | .movableList => S.item s
    | _ => none

end Schemas

/-! ### Validation -/

section Validation

variable {σ : Type} (S : Schemas σ)

/-- `validate_schema` of a missing value. -/
def missingErrors (schema : σ) : List String :=
  if S.required schema then ["Value is required"] else []

/-- The errors of the fields of a map, each checked by `check`. -/
def fieldErrors (schema : σ) (checks : List (String × (σ → List String))) : List String :=
  (S.fields schema).flatMap fun (key, field) =>
    ((checks.lookup key).elim (missingErrors S field) fun check => check field).map
      fun error => key ++ ": " ++ error

mutual

/-- `validate_schema`, for schemas without a validator of their own: the errors. -/
def validateSchema : Value → σ → List String
  | .null, schema => missingErrors S schema
  | .bool _, schema =>
      match S.kind schema with
      | .plainBoolean | .ignore => []
      | kind => [wrongKind kind]
  | .number _, schema =>
      match S.kind schema with
      | .plainNumber | .ignore => []
      | kind => [wrongKind kind]
  | .string _, schema =>
      match S.kind schema with
      | .plainString | .text | .ignore => []
      | kind => [wrongKind kind]
  | .array items, schema =>
      match S.kind schema with
      | .ignore | .movableList => []
      | .list => (S.item schema).elim [] fun item => itemErrors items item 0
      | kind => [wrongKind kind]
  | .object entries, schema =>
      match S.kind schema with
      | .ignore => []
      | .map => fieldErrors S schema (entryChecks entries)
      | .root =>
          fieldErrors S schema (entryChecks entries) ++
            (entries.filter fun (key, _) => (S.field schema key).isNone).map
              fun (key, _) => "Unknown property: " ++ key
      | kind => [wrongKind kind]
where
  /-- The error of a value of another kind. -/
  wrongKind : SchemaKind → String
    | .plainString => "Value must be a string"
    | .plainNumber => "Value must be a number"
    | .plainBoolean => "Value must be a boolean"
    | .text => "Content must be a string"
    | .list | .movableList => "Value must be an array"
    | .map | .root | .ignore => "Value must be an object"

/-- The errors of the items of a list. -/
def itemErrors : List Value → σ → ℕ → List String
  | [], _, _ => []
  | item :: items, schema, index =>
      (validateSchema item schema).map (fun error => "Item " ++ toString index ++ ": " ++ error) ++
        itemErrors items schema (index + 1)

/-- The checks of the entries of a map, by key. -/
def entryChecks : List (String × Value) → List (String × (σ → List String))
  | [] => []
  | (key, value) :: rest => (key, validateSchema value) :: entryChecks rest

end

end Validation

end Mirror
end ZuTalk
