import Raml.TypeExpr.ScalarType

/-!
# Kinds of types

What a type expression denotes, as read from its text alone.
-/
namespace Raml

/-- The kind of a type expression. -/
inductive Kind where
  /-- No type is named. -/
  | unspecified
  /-- A JSON Schema stands in the place of a type name. -/
  | embeddedSchema
  /-- The keyword `object`. -/
  | object
  /-- A built-in scalar type. -/
  | builtin (scalar : ScalarType)
  /-- Two or more parents. -/
  | multipleInheritance (parents : List String)
  /-- An array of arrays. -/
  | bidimensionalArray (element : String)
  /-- An array; the keyword `array` leaves its element type to the declaration. -/
  | array (element : Option String)
  /-- One of several types. -/
  | union (members : List String)
  /-- One parent. -/
  | singleInheritance (parent : String)
  deriving DecidableEq, Repr

namespace Kind

/-- The types that a type of this kind inherits from. -/
def parents : Kind → List String
  | multipleInheritance parents => parents
  | singleInheritance parent => [parent]
  | _ => []

/-- Whether this is an array of one dimension. -/
def isArray : Kind → Bool
  | array _ => true
  | _ => false

/-- The only parent. -/
def singleParent? : Kind → Option String
  | singleInheritance parent => some parent
  | _ => none

/-- The parents when there are several. -/
def severalParents? : Kind → Option (List String)
  | multipleInheritance parents => some parents
  | _ => none

/-- The element type of an array of arrays. -/
def bidimensionalElement? : Kind → Option String
  | bidimensionalArray element => some element
  | _ => none

/-- The members of a union. -/
def members? : Kind → Option (List String)
  | union members => some members
  | _ => none

/-- Whether this names one other type or a scalar type. -/
def wrapsNamed : Kind → Bool
  | singleInheritance _ | builtin _ => true
  | _ => false

end Kind

end Raml
