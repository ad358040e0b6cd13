import Raml.Json
import Raml.Schema.Position

/-!
# Boolean schemas

A boolean in the place of a schema becomes an object: true the schema without conditions, false a
schema that no value satisfies. Only `additionalProperties` keeps a boolean.
-/
namespace Raml.Schema

open JsonValue

/-- The schema that a boolean stands for. -/
def ofFlag : Bool → JsonValue
  | true => .object []
  | false => .object
      [("type", .string "object"), ("additionalProperties", .bool false),
        ("required", .array [.string "__never__"])]

mutual

/-- Replace the booleans in the place of schemas. -/
def replaceFlags (position : Position) : JsonValue → JsonValue
  | .bool flag => if position = .schema then ofFlag flag else .bool flag
  | .array items =>
    if position = .schema ∨ position = .schemaOrFlag ∨ position = .schemaList then
      .array (replaceFlagsItems items)
    else .array items
  | .object members =>
    match position with
    | .schema | .schemaOrFlag => .object (replaceFlagsMembers members)
    | .schemaMap => .object (replaceFlagsMap members)
    | .schemaList | .data => .object members
  | other => other

/-- Replace the booleans in a list of schemas. -/
def replaceFlagsItems : List JsonValue → List JsonValue
  | [] => []
  | item :: rest => replaceFlags .schema item :: replaceFlagsItems rest

/-- Replace the booleans in the members of a schema. -/
def replaceFlagsMembers : List (String × JsonValue) → List (String × JsonValue)
  | [] => []
  | (name, value) :: rest =>
    (name, replaceFlags (.ofKeyword name) value) :: replaceFlagsMembers rest

/-- Replace the booleans in a map of schemas. -/
def replaceFlagsMap : List (String × JsonValue) → List (String × JsonValue)
  | [] => []
  | (name, value) :: rest => (name, replaceFlags .schema value) :: replaceFlagsMap rest

end

end Raml.Schema
