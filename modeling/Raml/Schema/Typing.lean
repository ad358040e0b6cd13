import Raml.Json
import Raml.Schema.Position

/-!
# Types of schemas

The type `any` of an older form says nothing and is dropped. A schema without type and reference
that has `properties` is an object, and one that has `items` is an array. Only objects in the place
of schemas are touched.
-/
namespace Raml.Schema

open JsonValue

/-- Whether a type is `any`, alone or in a list. -/
def isAnyType : JsonValue → Bool
  | .string name => name = "any"
  | .array names => names.any fun name => name.string? = some "any"
  | _ => false

/-- The members of a schema without the type `any`. -/
def dropAnyType (members : List (String × JsonValue)) : List (String × JsonValue) :=
  if ((Entries.get? "type" members).map isAnyType).getD false then
    Entries.swapErase "type" members
  else members

/-- The members of a schema with the type that its keywords imply. -/
def inferType (members : List (String × JsonValue)) : List (String × JsonValue) :=
  if Entries.contains "type" members || Entries.contains "$ref" members then members
  else if Entries.contains "properties" members then members ++ [("type", .string "object")]
  else if Entries.contains "items" members then members ++ [("type", .string "array")]
  else members

mutual

/-- Give the schemas of a value their types. -/
def inferTypes (position : Position) : JsonValue → JsonValue
  | .array items => if position = .schemaList then .array (inferTypesItems items) else .array items
  | .object members =>
    match position with
    | .schema | .schemaOrFlag => .object (inferType (dropAnyType (inferTypesMembers members)))
    | .schemaMap => .object (inferTypesMap members)
    | .schemaList | .data => .object members
  | other => other

/-- Give the schemas of a list their types. -/
def inferTypesItems : List JsonValue → List JsonValue
  | [] => []
  | item :: rest => inferTypes .schema item :: inferTypesItems rest

/-- Give the schemas in the members of a schema their types. -/
def inferTypesMembers : List (String × JsonValue) → List (String × JsonValue)
  | [] => []
  | (name, value) :: rest =>
    (name, inferTypes (.ofKeyword name) value) :: inferTypesMembers rest

/-- Give the schemas of a map their types. -/
def inferTypesMap : List (String × JsonValue) → List (String × JsonValue)
  | [] => []
  | (name, value) :: rest => (name, inferTypes .schema value) :: inferTypesMap rest

end

end Raml.Schema
