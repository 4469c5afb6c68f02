/-
# Changes

`crates/vt-mirror/src/change.rs` and the functions of `utils.rs` that make changes.

Containers are named by `ContainerId`.  Names only have to tell the containers of
one document apart, and a change only names a container that was there when it
was computed: those are numbered, and a container that the changes themselves
create has no number until the document is committed.
-/

import ZuTalk.Mirror.Schema

namespace ZuTalk
namespace Mirror

/-- `ContainerID`. -/
inductive ContainerId
  | numbered (n : ℕ)
  | created
  deriving DecidableEq, Repr

/-- `ChangeKey`. -/
inductive ChangeKey
  | prop (key : String)
  | index (i : ℕ)
  deriving DecidableEq, Repr

/-- `ChangeKind`. -/
inductive ChangeKind
  | insert
  | delete
  | insertContainer (childType : ContainerType)
  | move (fromIndex toIndex : ℕ)
  deriving DecidableEq, Repr

/-- `Change`; no container is the root of the document. -/
structure Change where
  container : Option ContainerId
  key : ChangeKey
  value : Option Value
  kind : ChangeKind
  deriving DecidableEq

/-- `InferContainerOptions`. -/
structure InferContainerOptions where
  defaultMovableList : Bool
  defaultLoroText : Bool
  deriving DecidableEq, Repr

/-- `InferContainerOptions::default`. -/
def InferContainerOptions.default : InferContainerOptions := ⟨false, false⟩

/-- `try_infer_container_type`. -/
def tryInferContainerType (value : Value) (defaults : InferContainerOptions) :
    Option ContainerType :=
  match value with
  | .object _ => some .map
  | .array _ => some (if defaults.defaultMovableList then .movableList else .list)
  | .string _ => if defaults.defaultLoroText then some .text else none
  | _ => none

/-- `is_value_of_container_type`: an array passes for a map. -/
def isValueOfContainerType (type : ContainerType) (value : Value) : Bool :=
  match type with
  | .movableList | .list | .map => value.isObject || value.isArray
  | .text => value.isString

/-- `insert_child_to_map`. -/
def insertChildToMap (container : Option ContainerId) (key : String) (value : Value) : Change where
  container := container
  key := .prop key
  value := some value
  kind := match value with
    | .object _ => .insertContainer .map
    | .array _ => .insertContainer .list
    | _ => .insert

/-- `try_update_to_insert_container`, for an insertion that is to be updated: the
schema is asked first, then the value, and a movable list stays a plain value. -/
def tryUpdateToInsertContainer {σ : Type} (S : Schemas σ) (schema : Option σ) (change : Change) :
    Change :=
  let type := schema.bind fun s => (S.containerType s).or
    (change.value.bind fun value => tryInferContainerType value .default)
  match type with
  | some .map => { change with kind := .insertContainer .map }
  | some .list => { change with kind := .insertContainer .list }
  | some .text => { change with kind := .insertContainer .text }
  | some .movableList | none => change

end Mirror
end ZuTalk
