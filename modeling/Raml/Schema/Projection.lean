import Raml.Json.Text
import Raml.Property
import Raml.Schema.Model

/-!
# Projection of schemas into properties

A property's schema becomes an inline declaration: its keywords become facets, a reference becomes
the type of the referenced name, a list of types becomes its first type other than null, and a facet
`required` says whether the schema around it lists the property. A schema that the model does not
read is projected as it is.
-/
namespace Raml.Schema

open JsonValue

/-- Why a schema has no properties to project. -/
inductive SchemaError where
  /-- The text is no JSON. -/
  | text
  /-- A schema's properties are no object. -/
  | properties
  /-- A property's schema is neither an object nor a boolean. -/
  | property (name : String) (found : JsonValue)
  deriving DecidableEq

/-- What is wrong, in words. -/
def SchemaError.message : SchemaError → String
  | text => "Failed to parse JSON"
  | properties => "Failed to parse JSON Schema: properties must be an object"
  | property name found =>
    "Failed to parse JSON Schema: property '" ++ name ++ "' must be a schema, found " ++ found.text

mutual

/-- The node of a value. -/
def toNode : JsonValue → Node
  | .null => .null
  | .bool value => .bool value
  | .number value => .number value
  | .string text => .string text
  | .array items => .sequence (toNodes items)
  | .object members => .mapping (toEntries members)

/-- The nodes of items. -/
def toNodes : List JsonValue → List Node
  | [] => []
  | item :: rest => toNode item :: toNodes rest

/-- The entries of members. -/
def toEntries : List (String × JsonValue) → List (Node × Node)
  | [] => []
  | (name, value) :: rest => (.string name, toNode value) :: toEntries rest

end

/-- The last segment of a reference, without the hash signs that it ends in. -/
def referencedName (location : String) : String :=
  let trimmed := (location.toList.reverse.dropWhile (· = '#')).reverse
  String.ofList ((trimmed.splitOn '/').getLastD [])

/-- The node of a type; of a list of names the first one that is not null. -/
def typeNode : JsonValue → Node
  | .array names =>
    .string (((names.filterMap string?).find? fun name => name ≠ "null").getD "null")
  | other => toNode other

/-- The node of the schema of an array's items; a reference becomes the referenced name. -/
def itemsNode (value : JsonValue) : Node :=
  match (value.get? "$ref").bind string? with
  | some location => .string (referencedName location)
  | none => toNode value

/-- The facet that a keyword becomes. -/
def facet? (keyword : String) (value : JsonValue) : Option (String × Node) :=
  if keyword = "type" then some ("type", typeNode value)
  else if keyword = "items" then some ("items", itemsNode value)
  else if keyword = "required" then none
  else if keyword = "$ref" then
    match value with
    | .string location => some ("type", .string (referencedName location))
    | other => some ("$ref", toNode other)
  else some (keyword, toNode value)

/-- The facets of a schema's keywords, and the type that they imply when none is given. -/
def facets (members : List (String × JsonValue)) : Facets :=
  let given : Facets :=
    OrderedMap.ofList (members.filterMap fun member => facet? member.1 member.2)
  if given.contains "type" then given
  else if Entries.contains "properties" members then
    given.insert "type" (.string TypeExpr.objectName)
  else if Entries.contains "items" members then
    given.insert "type" (.string TypeExpr.arrayName)
  else given

/-- The facets of a property's schema. -/
def propertyFacets (name : String) (schema : JsonValue) : Except SchemaError Facets :=
  match model? schema with
  | some (.reference reference) =>
    .ok (OrderedMap.empty.insert "type" (.string (referencedName reference.location)))
  | some (.schema members) => .ok (facets members)
  | none =>
    match schema with
    | .object members => .ok (facets members)
    | other => .error (.property name other)

/-- The declaration of a property by its schema. -/
def project (required : List String) (name : String) (schema : JsonValue) :
    Except SchemaError PropertyValue :=
  (propertyFacets name schema).map fun facets =>
    .inline (facets.insert "required" (.bool (decide (name ∈ required))))

/-- The declarations of properties by their schemas, or the first error. -/
def projectAll (required : List String) :
    List (String × JsonValue) → Except SchemaError (List (String × PropertyValue))
  | [] => .ok []
  | (name, schema) :: rest => do
    let value ← project required name schema
    let others ← projectAll required rest
    return (name, value) :: others

/-- The names that a schema lists as required. -/
def requiredList (members : List (String × JsonValue)) : List String :=
  match Entries.get? "required" members with
  | some (.array names) => names.filterMap string?
  | _ => []

/-- The declarations of the properties that a schema itself gives. -/
def ownProperties (members : List (String × JsonValue)) :
    Except SchemaError (List (String × PropertyValue)) :=
  match Entries.get? "properties" members with
  | none | some .null => .ok []
  | some (.object properties) => projectAll (requiredList members) properties
  | some _ => .error .properties

mutual

/-- The declarations of the properties that a schema and the schemas of its `allOf` give, in
order. -/
def declarations : JsonValue → Except SchemaError (List (String × PropertyValue))
  | .object members => do
    let own ← ownProperties members
    let inherited ← declarationsOfAllOf members
    return own ++ inherited
  | _ => .ok []

/-- The declarations of the properties that the schemas of the member `allOf` give. -/
def declarationsOfAllOf :
    List (String × JsonValue) → Except SchemaError (List (String × PropertyValue))
  | [] => .ok []
  | (name, value) :: rest =>
    if name = "allOf" then
      match value with
      | .array items => declarationsOfItems items
      | _ => .ok []
    else declarationsOfAllOf rest

/-- The declarations of the properties that several schemas give. -/
def declarationsOfItems :
    List JsonValue → Except SchemaError (List (String × PropertyValue))
  | [] => .ok []
  | item :: rest => do
    let own ← declarations item
    let others ← declarationsOfItems rest
    return own ++ others

end

/-- The properties of a schema in normal form. -/
def propertiesOf (schema : JsonValue) : Except SchemaError Properties :=
  (declarations schema).map OrderedMap.ofList

end Raml.Schema
