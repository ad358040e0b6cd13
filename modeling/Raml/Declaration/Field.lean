import Raml.Record

/-!
# Fields of a type declaration

The fields that the declaration of a type may give, in the order in which a declaration is written.
-/
namespace Raml.Declaration

/-- A field of a type declaration. -/
inductive Field where
  | defaultValue
  | schema
  | type
  | exampleValue
  | examples
  | displayName
  | description
  | facets
  | xml
  | properties
  | minProperties
  | maxProperties
  | additionalProperties
  | discriminator
  | discriminatorValue
  | items
  | minItems
  | maxItems
  | uniqueItems
  | enumeration
  | pattern
  | minLength
  | maxLength
  | minimum
  | maximum
  | format
  | multipleOf
  | fileTypes
  deriving DecidableEq, Repr

namespace Field

/-- The fields in the order of writing. -/
def all : List Field :=
  [defaultValue, schema, type, exampleValue, examples, displayName, description, facets, xml,
    properties, minProperties, maxProperties, additionalProperties, discriminator,
    discriminatorValue, items, minItems, maxItems, uniqueItems, enumeration, pattern, minLength,
    maxLength, minimum, maximum, format, multipleOf, fileTypes]

/-- The key of a field. -/
def key : Field → String
  | defaultValue => "default"
  | schema => "schema"
  | type => "type"
  | exampleValue => "example"
  | examples => "examples"
  | displayName => "displayName"
  | description => "description"
  | facets => "facets"
  | xml => "xml"
  | properties => "properties"
  | minProperties => "minProperties"
  | maxProperties => "maxProperties"
  | additionalProperties => "additionalProperties"
  | discriminator => "discriminator"
  | discriminatorValue => "discriminatorValue"
  | items => "items"
  | minItems => "minItems"
  | maxItems => "maxItems"
  | uniqueItems => "uniqueItems"
  | enumeration => "enum"
  | pattern => "pattern"
  | minLength => "minLength"
  | maxLength => "maxLength"
  | minimum => "minimum"
  | maximum => "maximum"
  | format => "format"
  | multipleOf => "multipleOf"
  | fileTypes => "fileTypes"

/-- The shape of a field. -/
def shape : Field → Shape
  | defaultValue | schema | type | exampleValue | xml | additionalProperties | discriminatorValue
  | items | enumeration => .node
  | examples | facets => .facets
  | displayName | description | pattern => .text
  | discriminator | format => .string
  | minProperties | maxProperties | minItems | maxItems | minLength | maxLength => .count
  | minimum | maximum | multipleOf => .number
  | uniqueItems => .flag
  | fileTypes => .strings
  | properties => .properties

end Field

/-- The table of the fields. -/
def table : FieldTable Field := ⟨Field.all, Field.key, Field.shape⟩

/-- The listing has no field twice. -/
theorem nodup_all : table.all.Nodup := by decide

/-- A key finds its field. -/
theorem find?_key (field : Field) : table.find? field.key = some field := by
  cases field <;> decide

end Raml.Declaration
