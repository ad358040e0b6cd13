/-!
# Positions of schemas

Which members of a schema hold schemas, by the name of the member. In a map of schemas every value
is one, whatever its name is, so the names of properties are never taken for keywords.
-/
namespace Raml.Schema

/-- What stands at a place of a schema. -/
inductive Position where
  /-- A schema. -/
  | schema
  /-- A schema, where a boolean stands for itself. -/
  | schemaOrFlag
  /-- A map of schemas. -/
  | schemaMap
  /-- A list of schemas. -/
  | schemaList
  /-- Anything else. -/
  | data
  deriving DecidableEq, Repr

/-- The keywords whose members are maps of schemas. -/
def mapKeywords : List String := ["properties", "definitions", "$defs", "patternProperties"]

/-- The keywords whose members are lists of schemas. -/
def listKeywords : List String := ["allOf", "anyOf", "oneOf", "prefixItems"]

/-- The keywords whose members are schemas. -/
def schemaKeywords : List String := ["items", "not", "contains", "propertyNames"]

/-- What the member of a schema under a name is. -/
def Position.ofKeyword (keyword : String) : Position :=
  if keyword ∈ mapKeywords then schemaMap
  else if keyword ∈ listKeywords then schemaList
  else if keyword ∈ schemaKeywords then schema
  else if keyword = "additionalProperties" then schemaOrFlag
  else data

end Raml.Schema
