/-
# Values of the application state

`crates/vt-mirror/src/value.rs`, and the tests on values of `diff.rs` and
`utils.rs`.

A number is the one its `as_f64` denotes: `deep_equal` compares numbers by it and
nothing else looks at one.  A map lists its entries in key order, as the map of
`serde_json` does, so two equal maps are the same list.
-/

import Mathlib.Data.Rat.Defs

namespace ZuTalk
namespace Mirror

/-- `serde_json::Value`. -/
inductive Value
  | null
  | bool (b : Bool)
  | number (n : ℚ)
  | string (s : String)
  | array (items : List Value)
  | object (entries : List (String × Value))

namespace Value

instance : Inhabited Value := ⟨null⟩

mutual

/-- `deep_equal`. -/
def deepEqual : Value → Value → Bool
  | .null, .null => true
  | .bool a, .bool b => a = b
  | .number a, .number b => a = b
  | .string a, .string b => a = b
  | .array as, .array bs => deepEqualItems as bs
  | .object as, .object bs => deepEqualEntries as bs
  | _, _ => false

/-- `deep_equal` of two arrays. -/
def deepEqualItems : List Value → List Value → Bool
  | [], [] => true
  | a :: as, b :: bs => deepEqual a b && deepEqualItems as bs
  | _, _ => false

/-- `deep_equal` of two maps. -/
def deepEqualEntries : List (String × Value) → List (String × Value) → Bool
  | [], [] => true
  | (k, a) :: as, (l, b) :: bs => decide (k = l) && deepEqual a b && deepEqualEntries as bs
  | _, _ => false

end

mutual

theorem deepEqual_iff : ∀ a b : Value, deepEqual a b = true ↔ a = b
  | .null, b => by cases b <;> simp [deepEqual]
  | .bool a, b => by cases b <;> simp [deepEqual]
  | .number a, b => by cases b <;> simp [deepEqual]
  | .string a, b => by cases b <;> simp [deepEqual]
  | .array as, b => by cases b <;> simp [deepEqual, deepEqualItems_iff as]
  | .object as, b => by cases b <;> simp [deepEqual, deepEqualEntries_iff as]

theorem deepEqualItems_iff : ∀ as bs : List Value, deepEqualItems as bs = true ↔ as = bs
  | [], bs => by cases bs <;> simp [deepEqualItems]
  | a :: as, bs => by
      cases bs <;> simp [deepEqualItems, deepEqual_iff a, deepEqualItems_iff as]

theorem deepEqualEntries_iff :
    ∀ as bs : List (String × Value), deepEqualEntries as bs = true ↔ as = bs
  | [], bs => by cases bs <;> simp [deepEqualEntries]
  | (k, a) :: as, bs => by
      cases bs with
      | nil => simp [deepEqualEntries]
      | cons entry bs =>
          obtain ⟨l, b⟩ := entry
          simp [deepEqualEntries, deepEqual_iff a, deepEqualEntries_iff as, and_assoc]

end

/-- **`deep_equal` is equality** of values. -/
instance : DecidableEq Value := fun a b => decidable_of_iff _ (deepEqual_iff a b)

/-- `is_object`. -/
def isObject : Value → Bool
  | .object _ => true
  | _ => false

/-- `Value::is_array`. -/
def isArray : Value → Bool
  | .array _ => true
  | _ => false

/-- `Value::is_string`. -/
def isString : Value → Bool
  | .string _ => true
  | _ => false

/-- `Value::as_str`. -/
def asStr : Value → Option String
  | .string s => some s
  | _ => none

/-- `Value::get` of a key. -/
def get (v : Value) (key : String) : Option Value :=
  match v with
  | .object entries => entries.lookup key
  | _ => none

/-- `is_object_like`. -/
def isObjectLike : Value → Bool
  | .object _ | .array _ | .null => true
  | _ => false

/-- `str::parse::<usize>`. -/
def parseUsize (s : String) : Option ℕ :=
  let digits := match s.toList with
    | '+' :: rest => rest
    | chars => chars
  if digits ≠ [] ∧ digits.all (·.isDigit) then
    some (digits.foldl (fun n d => 10 * n + (d.toNat - '0'.toNat)) 0)
  else none

/-- `object_entries`. -/
def objectEntries : Value → List (String × Value)
  | .object entries => entries
  | .array items => items.zipIdx.map fun (item, i) => (toString i, item)
  | _ => []

/-- `object_get`. -/
def objectGet (v : Value) (key : String) : Option Value :=
  match v with
  | .object entries => entries.lookup key
  | .array items => (parseUsize key).bind fun i => items[i]?
  | _ => none

/-- `is_falsy`. -/
def isFalsy : Option Value → Bool
  | none | some .null => true
  | some (.bool b) => !b
  | some (.number n) => n = 0
  | some (.string s) => s = ""
  | some (.array _) | some (.object _) => false

end Value

end Mirror
end ZuTalk
