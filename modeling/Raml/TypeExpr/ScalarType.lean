/-!
# Scalar types

The built-in scalar types of RAML, number formats included. A scalar type is found by its name and
by nothing else.
-/
namespace Raml

/-- A built-in scalar type. -/
inductive ScalarType where
  | string
  | number
  | integer
  | boolean
  | dateOnly
  | timeOnly
  | datetimeOnly
  | datetime
  | file
  | int8
  | int16
  | int32
  | int64
  | int
  | long
  | float
  | double
  deriving DecidableEq, Repr

namespace ScalarType

/-- Every scalar type. -/
def all : List ScalarType :=
  [string, number, integer, boolean, dateOnly, timeOnly, datetimeOnly, datetime, file, int8, int16,
    int32, int64, int, long, float, double]

/-- The name that a declaration writes. -/
def name : ScalarType → String
  | string => "string"
  | number => "number"
  | integer => "integer"
  | boolean => "boolean"
  | dateOnly => "date-only"
  | timeOnly => "time-only"
  | datetimeOnly => "datetime-only"
  | datetime => "datetime"
  | file => "file"
  | int8 => "int8"
  | int16 => "int16"
  | int32 => "int32"
  | int64 => "int64"
  | int => "int"
  | long => "long"
  | float => "float"
  | double => "double"

/-- The scalar type of a name. -/
def ofName? (text : String) : Option ScalarType := all.find? fun scalar => scalar.name = text

/-- The listing is complete. -/
theorem mem_all (scalar : ScalarType) : scalar ∈ all := by cases scalar <;> decide

/-- Two scalar types have two names. -/
theorem name_injective {left right : ScalarType} (same : left.name = right.name) :
    left = right := by
  cases left <;> cases right <;> first | rfl | exact absurd same (by decide)

/-- A scalar type found under a text has that name. -/
theorem name_of_ofName? {text : String} {scalar : ScalarType} (found : ofName? text = some scalar) :
    scalar.name = text := by
  simpa using List.find?_some (show all.find? (fun scalar => decide (scalar.name = text)) = _
    from found)

/-- A text names a scalar type exactly when it is the type's name. -/
theorem ofName?_eq_some {text : String} {scalar : ScalarType} :
    ofName? text = some scalar ↔ text = scalar.name := by
  constructor
  · exact fun found => (name_of_ofName? found).symm
  · rintro rfl
    cases found : ofName? scalar.name with
    | none =>
      have absent := List.find?_eq_none.mp found scalar (mem_all scalar)
      simp at absent
    | some other => rw [name_injective (name_of_ofName? found)]

end ScalarType

end Raml
