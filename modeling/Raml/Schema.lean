import Raml.Json.Parser
import Raml.Schema.Normal
import Raml.Schema.Projection

/-!
# Embedded schemas

A type whose expression is a JSON Schema is turned into an object type: the schema is read and
brought into normal form, and its properties are projected.
-/
namespace Raml.Schema

/-- The properties that the text of a schema gives. -/
def properties (text : String) : Except SchemaError Properties :=
  match JsonValue.ofText? (String.ofList (Text.trim text.toList)) with
  | none => .error .text
  | some schema => propertiesOf (normalize schema)

end Raml.Schema
