import Raml.Schema.Model.Form

/-!
# Keywords of the schema model

A modelled schema is of one of five kinds, each with keywords of its own. A kind lists its keywords
in the order in which they are written, with a place for the extensions, and names the keywords that
must be given.
-/
namespace Raml.Schema

/-- The form of a keyword whose value holds schemas. -/
inductive Nested where
  /-- A schema or a reference, or the boolean false. -/
  | itemSchema
  /-- An optional schema or reference, or a boolean. -/
  | additional
  /-- An optional schema. -/
  | names
  /-- A list of schemas, empty by default. -/
  | tuple
  /-- A list of schemas and references. -/
  | alternatives
  /-- A map of schemas and references, empty by default. -/
  | properties
  /-- A schema. -/
  | schema
  /-- A schema or a reference. -/
  | schemaOrReference
  deriving DecidableEq, Repr

/-- A place in the written form of a schema. -/
inductive Slot where
  /-- A keyword whose value holds no schema. -/
  | plain (name : String) (form : Form)
  /-- A keyword whose value holds schemas. -/
  | nested (name : String) (form : Nested)
  /-- The extensions. -/
  | extensions
  deriving DecidableEq, Repr

/-- The kinds of modelled schemas. -/
inductive Variant where
  | array
  | object
  | oneOf
  | allOf
  | anyOf
  deriving DecidableEq, Repr

namespace Variant

/-- The kinds in the order in which they are tried. -/
def all : List Variant := [array, object, oneOf, allOf, anyOf]

/-- The keywords that must be given. -/
def needed : Variant → List String
  | array => ["type", "items"]
  | object => ["type"]
  | oneOf => ["oneOf"]
  | allOf => ["allOf"]
  | anyOf => ["anyOf"]

/-- The places of an array schema. -/
def arraySlots : List Slot :=
  [.plain "type" .type, .plain "title" .text, .nested "items" .itemSchema,
    .nested "prefixItems" .tuple, .plain "description" .text, .plain "deprecated" .flag,
    .plain "example" .any, .plain "examples" .values, .plain "default" .any,
    .plain "maxItems" .size, .plain "minItems" .size, .plain "uniqueItems" .flagOrFalse,
    .plain "xml" .xml, .plain "contentEncoding" .textOrEmpty,
    .plain "contentMediaType" .textOrEmpty, .extensions]

/-- The places of an object schema, which is any schema with a type. -/
def objectSlots : List Slot :=
  [.plain "type" .typeUnlessAny, .plain "title" .text, .plain "format" .format,
    .plain "description" .text, .plain "default" .any, .plain "enum" .listedValues,
    .plain "required" .texts, .nested "properties" .properties,
    .nested "additionalProperties" .additional, .nested "propertyNames" .names,
    .plain "deprecated" .flag, .plain "example" .any, .plain "examples" .values,
    .plain "writeOnly" .flag, .plain "readOnly" .flag, .plain "xml" .xml,
    .plain "multipleOf" .bound, .plain "maximum" .bound, .plain "minimum" .bound,
    .plain "exclusiveMaximum" .bound, .plain "exclusiveMinimum" .bound,
    .plain "maxLength" .size, .plain "minLength" .size, .plain "pattern" .text,
    .plain "maxProperties" .size, .plain "minProperties" .size, .extensions,
    .plain "contentEncoding" .textOrEmpty, .plain "contentMediaType" .textOrEmpty]

/-- The places of a combination of schemas under a keyword. -/
def combinedSlots (keyword : String) (title : List Slot) : List Slot :=
  [.nested keyword .alternatives, .plain "type" .typeUnlessAny] ++ title ++
    [.plain "description" .text, .plain "default" .any, .plain "example" .any,
      .plain "examples" .values, .plain "discriminator" .discriminator, .extensions]

/-- The places of a kind of schema. -/
def slots : Variant → List Slot
  | array => arraySlots
  | object => objectSlots
  | oneOf => combinedSlots "oneOf" [.plain "title" .text]
  | allOf => combinedSlots "allOf" [.plain "title" .text]
  | anyOf => combinedSlots "anyOf" []

/-- The place of a keyword; an extension has the place of extensions. -/
def slot? (variant : Variant) (name : String) : Option Slot :=
  match variant.slots.find? fun slot =>
      match slot with
      | .plain keyword _ | .nested keyword _ => keyword = name
      | .extensions => false with
  | some slot => some slot
  | none => if isExtension name then some .extensions else none

/-- Members in the order of the places. -/
def arrange (variant : Variant) (members : List (String × JsonValue)) :
    List (String × JsonValue) :=
  variant.slots.flatMap fun slot =>
    match slot with
    | .plain name _ | .nested name _ =>
      match Entries.get? name members with
      | some value => [(name, value)]
      | none => []
    | .extensions => Schema.extensions members

end Variant

end Raml.Schema
