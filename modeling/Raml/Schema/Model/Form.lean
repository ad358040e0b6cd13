import Raml.Json

/-!
# Forms of schema keywords

A keyword of a schema has a form: which values it admits and which value is written back for one.
Most forms write the value as it is, and write nothing for the value that stands for a missing
keyword: null for an optional one, and the empty text, list or object or the flag false for one with
a default.
-/
namespace Raml.Schema

open JsonValue

/-- The form of a keyword whose value holds no schema. -/
inductive Form where
  /-- An optional text. -/
  | text
  /-- A text, empty by default. -/
  | textOrEmpty
  /-- Any value. -/
  | any
  /-- Any value, null included. -/
  | verbatim
  /-- A list of values, empty by default. -/
  | values
  /-- An optional list of values. -/
  | listedValues
  /-- A list of texts, empty by default. -/
  | texts
  /-- An optional boolean. -/
  | flag
  /-- A boolean, false by default. -/
  | flagOrFalse
  /-- An optional natural number. -/
  | size
  /-- An optional number. -/
  | bound
  /-- An optional name of a format. -/
  | format
  /-- A type, of which null is written. -/
  | type
  /-- A type, of which null is left out. -/
  | typeUnlessAny
  /-- An optional description of XML. -/
  | xml
  /-- An optional discriminator. -/
  | discriminator
  deriving DecidableEq, Repr

/-- The names of types. -/
def typeNames : List String :=
  ["object", "string", "integer", "number", "boolean", "array", "null"]

/-- The names of known formats. -/
def formatNames : List String :=
  ["int32", "int64", "float", "double", "byte", "binary", "time", "date", "date-time", "duration",
    "password", "email", "idn-email", "hostname", "idn-hostname", "ipv4", "ipv6", "uri-template",
    "json-pointer", "relative-json-pointer", "regex"]

/-- A name out of a list, written as a text or as the only member of an object, with null. -/
def nameAmong? (names : List String) : JsonValue → Option String
  | .string name => if name ∈ names then some name else none
  | .object [(name, .null)] => if name ∈ names then some name else none
  | _ => none

/-- A type: a name, a list of names, or null for any type. -/
def type? : JsonValue → Option JsonValue
  | .null => some .null
  | .array items => (items.mapM (nameAmong? typeNames)).map fun names =>
      .array (names.map .string)
  | other => (nameAmong? typeNames other).map .string

/-- A format: any text, or a known name as the only member of an object. -/
def format? : JsonValue → Option JsonValue
  | .string name => some (.string name)
  | other => (nameAmong? formatNames other).map .string

/-- The greatest number that an integral bound takes. -/
def greatestBound : Int := 9223372036854775807

/-- A bound: an integer, or a number that becomes one when it is integral and not too large. -/
def bound? : JsonValue → Option JsonValue
  | .number (.int value) => some (.number (.int value))
  | .number (.float value) =>
    match value.toInt? with
    | some whole =>
      if -(greatestBound + 1) ≤ whole ∧ whole ≤ greatestBound + 1 then
        some (.number (.int (min whole greatestBound)))
      else some (.number (.float value))
    | none => some (.number (.float value))
  | _ => none

/-- Whether a value is a text or null. -/
def isOptionalText : JsonValue → Bool
  | .string _ | .null => true
  | _ => false

/-- Whether a value is a boolean or null. -/
def isOptionalFlag : JsonValue → Bool
  | .bool _ | .null => true
  | _ => false

/-- The members of an object whose value is not null, under names in a given order. -/
def present (names : List String) (members : List (String × JsonValue)) :
    List (String × JsonValue) :=
  names.filterMap fun name =>
    match Entries.get? name members with
    | none | some .null => none
    | some value => some (name, value)

/-- The keywords of an XML description that are texts. -/
def xmlTexts : List String := ["name", "namespace", "prefix"]

/-- The keywords of an XML description that are booleans. -/
def xmlFlags : List String := ["attribute", "wrapped"]

/-- A description of XML: an object, or the list of its five values. -/
def xml? (value : JsonValue) : Option JsonValue := do
  let members ← match value with
    | .object members => some members
    | .array items =>
      if items.length = 5 then some ((xmlTexts ++ xmlFlags).zip items) else none
    | _ => none
  let texts := xmlTexts.all fun name => isOptionalText ((Entries.get? name members).getD .null)
  let flags := xmlFlags.all fun name => isOptionalFlag ((Entries.get? name members).getD .null)
  if texts && flags then some (.object (present (xmlTexts ++ xmlFlags) members)) else none

/-- Whether a name is that of an extension. -/
def isExtension (name : String) : Bool := ['x', '-'].isPrefixOf name.toList

/-- The members whose names are those of extensions. -/
def extensions (members : List (String × JsonValue)) : List (String × JsonValue) :=
  members.filter fun member => isExtension member.1

/-- The mapping of a discriminator, sorted by name and left out when empty. -/
def mapping? : Option JsonValue → Option (List (String × JsonValue))
  | none => some []
  | some (.object members) =>
    if members.all fun member => member.2.string?.isSome then
      if members.isEmpty then some []
      else some [("mapping", .object (members.mergeSort fun left right => left.1 ≤ right.1))]
    else none
  | some _ => none

/-- A discriminator. -/
def discriminator? : JsonValue → Option JsonValue
  | .object members => do
    let property ← Entries.get? "propertyName" members
    let name ← property.string?
    let mapping ← mapping? (Entries.get? "mapping" members)
    return .object (("propertyName", .string name) :: mapping ++ extensions members)
  | _ => none

namespace Form

/-- Read a value of an optional form; null is admitted and not written. -/
def unlessNull (reader : JsonValue → Option JsonValue) : JsonValue → Option (Option JsonValue)
  | .null => some none
  | value => (reader value).map some

/-- Read a list of values; the empty list is not written. -/
def unlessEmpty (admits : JsonValue → Bool) : JsonValue → Option (Option JsonValue)
  | .array [] => some none
  | .array items => if items.all admits then some (some (.array items)) else none
  | _ => none

/-- Read a value of a form: nothing when the form does not admit it, and otherwise the value that is
written back, if one is. -/
def read? : Form → JsonValue → Option (Option JsonValue)
  | text => unlessNull fun value => value.string?.map .string
  | textOrEmpty => fun value => value.string?.map fun text =>
      if text.isEmpty then none else some (.string text)
  | any => unlessNull some
  | verbatim => fun value => some (some value)
  | values => unlessEmpty fun _ => true
  | listedValues => unlessNull fun value => value.items?.map .array
  | texts => unlessEmpty fun item => item.string?.isSome
  | flag => unlessNull fun value => value.bool?.map .bool
  | flagOrFalse => fun value => value.bool?.map fun flag =>
      if flag then some (.bool true) else none
  | size => unlessNull fun value =>
      match value with
      | .number (.int (.ofNat count)) => some (.number (.int count))
      | _ => none
  | bound => unlessNull bound?
  | format => unlessNull format?
  | type => fun value => (type? value).map some
  | typeUnlessAny => fun value => (type? value).map fun type =>
      if type = .null then none else some type
  | xml => unlessNull xml?
  | discriminator => unlessNull discriminator?

end Form

end Raml.Schema
