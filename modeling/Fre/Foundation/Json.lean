import Mathlib.Algebra.Order.Floor.Ring
import Mathlib.Data.Rat.Floor

/-!
# JSON values

A JSON value as its text denotes it, and the accessors of a library that
converts on reading: a conversion that does not fit throws, and a missing entry
of an object gives way to a default.  Exceptions are given by their texts.
-/

namespace Foundation

/-- A JSON value.  The entries of an object have different keys, in no
particular order. -/
inductive Json
  | null
  | boolean (value : Bool)
  | integer (value : Int)
  | float (value : ℚ)
  | string (value : String)
  | array (elements : List Json)
  | object (entries : List (String × Json))

namespace Json

/-- The name of a type in an error. -/
def typeName : Json → String
  | .null => "null"
  | .boolean _ => "boolean"
  | .integer _ => "number"
  | .float _ => "number"
  | .string _ => "string"
  | .array _ => "array"
  | .object _ => "object"

/-- The error of a conversion. -/
def typeError (wanted : String) (json : Json) : String :=
  "[json.exception.type_error.302] type must be " ++ wanted ++ ", but is " ++
    json.typeName

/-- The conversion to a string. -/
def getString : Json → Except String String
  | .string value => .ok value
  | json => .error (typeError "string" json)

/-- A floating-point number without its fraction. -/
def truncate (value : ℚ) : Int := if 0 ≤ value then ⌊value⌋ else ⌈value⌉

/-- The conversion to a 64-bit unsigned integer. -/
def getUInt64 : Json → Except String UInt64
  | .integer value => .ok (UInt64.ofInt value)
  | .float value => .ok (UInt64.ofInt (truncate value))
  | json => .error (typeError "number" json)

/-- The conversion to a 32-bit unsigned integer, which also takes truth
values. -/
def getUInt32 : Json → Except String UInt32
  | .integer value => .ok (UInt32.ofInt value)
  | .float value => .ok (UInt32.ofInt (truncate value))
  | .boolean value => .ok (if value then 1 else 0)
  | json => .error (typeError "number" json)

/-- The entry of an object. -/
def entry (json : Json) (key : String) : Option Json :=
  match json with
  | .object entries => entries.lookup key
  | _ => none

/-- The entry of an object, converted, or the default when there is none. -/
def value {α : Type} (convert : Json → Except String α) (json : Json)
    (key : String) (default : α) : Except String α :=
  match json with
  | .object entries =>
      match entries.lookup key with
      | some found => convert found
      | none => .ok default
  | other =>
      .error ("[json.exception.type_error.306] cannot use value() with " ++
        other.typeName)

/-- What a loop over a value goes through. -/
def items : Json → List Json
  | .array elements => elements
  | .object entries => entries.map Prod.snd
  | .null => []
  | json => [json]

@[simp] theorem getUInt64_integer (value : UInt64) :
    getUInt64 (.integer value.toNat) = .ok value := by
  have reduced : (value.toNat : Int) % 2 ^ 64 = value.toNat :=
    Int.emod_eq_of_lt (by positivity) (by exact_mod_cast value.toNat_lt)
  rw [getUInt64, UInt64.ofInt, reduced, Int.toNat_natCast, UInt64.ofNat_toNat]

@[simp] theorem getUInt32_integer (value : UInt32) :
    getUInt32 (.integer value.toNat) = .ok value := by
  have reduced : (value.toNat : Int) % 2 ^ 32 = value.toNat :=
    Int.emod_eq_of_lt (by positivity) (by exact_mod_cast value.toNat_lt)
  rw [getUInt32, UInt32.ofInt, reduced, Int.toNat_natCast, UInt32.ofNat_toNat]

/-- Reading back a list that was written element by element. -/
theorem mapM_map_eq_ok
    {α β : Type}
    {write : α → Json}
    {read : Json → Except String β}
    {kept : α → β}
    (reads : ∀ element, read (write element) = .ok (kept element))
    (list : List α) :
    (list.map write).mapM read = .ok (list.map kept) := by
  induction list with
  | nil => rfl
  | cons first rest inductionHypothesis =>
      rw [List.map_cons, List.mapM_cons, reads first, inductionHypothesis]
      rfl

end Json
end Foundation
