import Raml.Json

/-!
# Constants

A schema with `const` lists the constant as its only value instead, unless it lists values already,
and takes the type of the constant, unless it has a type. Values that are examples, defaults or
listed values are data and stay as they are; every other object is treated as a schema.
-/
namespace Raml.Schema

open JsonValue

/-- The type of a constant; null has none. -/
def typeOfConstant : JsonValue → Option String
  | .string _ => some "string"
  | .bool _ => some "boolean"
  | .number (.int _) => some "integer"
  | .number (.float _) => some "number"
  | .array _ => some "array"
  | .object _ => some "object"
  | .null => none

/-- The keywords whose members hold data. -/
def literalKeywords : List String := ["example", "examples", "default", "enum"]

/-- Add a member at the end unless its name is present. -/
def addMissing (name : String) (value : JsonValue) (members : List (String × JsonValue)) :
    List (String × JsonValue) :=
  if Entries.contains name members then members else members ++ [(name, value)]

/-- The members of a schema with a constant as its only listed value. -/
def listConstant (constant : JsonValue) (members : List (String × JsonValue)) :
    List (String × JsonValue) :=
  let listed := addMissing "enum" (.array [constant]) (Entries.swapErase "const" members)
  match typeOfConstant constant with
  | some type => addMissing "type" (.string type) listed
  | none => listed

mutual

/-- List the constants of a value. -/
def listConstants : JsonValue → JsonValue
  | .array items => .array (listConstantsItems items)
  | .object members =>
    let listed := listConstantsMembers members
    .object (match Entries.get? "const" members with
      | some constant => listConstant constant listed
      | none => listed)
  | other => other

/-- List the constants of every item. -/
def listConstantsItems : List JsonValue → List JsonValue
  | [] => []
  | item :: rest => listConstants item :: listConstantsItems rest

/-- List the constants of every member that does not hold data. -/
def listConstantsMembers : List (String × JsonValue) → List (String × JsonValue)
  | [] => []
  | (name, value) :: rest =>
    (name, if name ∈ literalKeywords then value else listConstants value) ::
      listConstantsMembers rest

end

end Raml.Schema
