import Raml.Schema.Model.Keyword

/-!
# The schema model

A schema in normal form is read as a reference to another schema or as a schema of one of the
modelled kinds, the kinds being tried in order. A kind reads exactly the objects that give the
keywords it needs and whose keywords of the kind all have values of their forms; keywords of no kind
are dropped. The schema is then written with its keywords in the order of its kind.
-/
namespace Raml.Schema

open JsonValue

/-- A reference to a schema. -/
structure Reference where
  /-- Where the schema stands. -/
  location : String
  /-- A description, empty by default. -/
  description : String
  /-- A summary, empty by default. -/
  summary : String
  deriving DecidableEq, Repr

namespace Reference

/-- The text under an optional name, empty when there is no such member. -/
def textOrEmpty? : Option JsonValue → Option String
  | none => some ""
  | some value => value.string?

/-- The reference that the members of an object give. -/
def ofMembers? (members : List (String × JsonValue)) : Option Reference := do
  let location ← (Entries.get? "$ref" members).bind string?
  let description ← textOrEmpty? (Entries.get? "description" members)
  let summary ← textOrEmpty? (Entries.get? "summary" members)
  return ⟨location, description, summary⟩

/-- The reference that a list of one to three texts gives. -/
def ofItems? : List JsonValue → Option Reference
  | [.string location] => some ⟨location, "", ""⟩
  | [.string location, .string description] => some ⟨location, description, ""⟩
  | [.string location, .string description, .string summary] =>
    some ⟨location, description, summary⟩
  | _ => none

/-- The reference that a value is. -/
def ofJson? : JsonValue → Option Reference
  | .object members => ofMembers? members
  | .array items => ofItems? items
  | _ => none

/-- The written form of a reference inside a schema. -/
def toJson (reference : Reference) : JsonValue :=
  let texts := [("description", reference.description), ("summary", reference.summary)]
  .object (("$ref", .string reference.location) ::
    (texts.filter fun text => !text.2.isEmpty).map fun text => (text.1, .string text.2))

end Reference

namespace Nested

/-- Whether null counts as not given. -/
def admitsNull : Nested → Bool
  | additional | names => true
  | _ => false

/-- Whether a boolean is admitted. -/
def admitsFlag (flag : Bool) : Nested → Bool
  | additional => true
  | itemSchema => !flag
  | _ => false

/-- Whether a reference is admitted. -/
def admitsReference : Nested → Bool
  | itemSchema | additional | schemaOrReference => true
  | _ => false

/-- Whether a schema is admitted. -/
def admitsSchema : Nested → Bool
  | itemSchema | additional | names | schema | schemaOrReference => true
  | _ => false

end Nested

/-- The first kind that reads given members, with the members it reads in its order. -/
def Variant.first? (members : List (String × JsonValue))
    (reader : Variant → Option (List (String × JsonValue))) :
    List Variant → Option (List (String × JsonValue))
  | [] => none
  | variant :: others =>
    if variant.needed.all fun name => Entries.contains name members then
      match reader variant with
      | some found => some (variant.arrange found)
      | none => first? members reader others
    else first? members reader others

/-- Put a member in front, when its value is written. -/
def consWritten (name : String) (written : Option JsonValue)
    (members : List (String × JsonValue)) : List (String × JsonValue) :=
  match written with
  | some value => (name, value) :: members
  | none => members

/-- Nothing for the empty list, its written form otherwise. -/
def unlessNoItems (items : List JsonValue) : Option JsonValue :=
  if items.isEmpty then none else some (.array items)

/-- Nothing for the empty map, its written form otherwise. -/
def unlessNoMembers (members : List (String × JsonValue)) : Option JsonValue :=
  if members.isEmpty then none else some (.object members)

mutual

/-- Read a value that holds schemas: nothing when the form does not admit it, and otherwise the
value that is written back, if one is. -/
def readNested (form : Nested) : JsonValue → Option (Option JsonValue)
  | .null => if form.admitsNull then some none else none
  | .bool flag => if form.admitsFlag flag then some (some (.bool flag)) else none
  | .array items =>
    match form with
    | .tuple => (readItems .schema items).map unlessNoItems
    | .alternatives => (readItems .schemaOrReference items).map fun items => some (.array items)
    | other =>
      if other.admitsReference then
        (Reference.ofItems? items).map fun reference => some reference.toJson
      else none
  | .object members =>
    match form with
    | .properties => (readMap members).map unlessNoMembers
    | other =>
      if other.admitsSchema then
        match if other.admitsReference then Reference.ofMembers? members else none with
        | some reference => some (some reference.toJson)
        | none => (Variant.first? members (fun variant => readMembers variant members)
            Variant.all).map fun members => some (.object members)
      else none
  | _ => none

/-- Read every item of a list of schemas. -/
def readItems (form : Nested) : List JsonValue → Option (List JsonValue)
  | [] => some []
  | item :: rest =>
    match readNested form item with
    | some (some written) => (readItems form rest).map (written :: ·)
    | _ => none

/-- Read every member of a map of schemas and references. -/
def readMap : List (String × JsonValue) → Option (List (String × JsonValue))
  | [] => some []
  | (name, value) :: rest =>
    match readNested .schemaOrReference value with
    | some (some written) => (readMap rest).map ((name, written) :: ·)
    | _ => none

/-- Read the members of a schema of a kind; members of no kind are dropped. -/
def readMembers (variant : Variant) :
    List (String × JsonValue) → Option (List (String × JsonValue))
  | [] => some []
  | (name, value) :: rest =>
    match variant.slot? name with
    | none => readMembers variant rest
    | some (.plain _ form) =>
      match form.read? value with
      | some written => (readMembers variant rest).map (consWritten name written)
      | none => none
    | some (.nested _ form) =>
      match readNested form value with
      | some written => (readMembers variant rest).map (consWritten name written)
      | none => none
    | some .extensions => (readMembers variant rest).map ((name, value) :: ·)

end

/-- A schema as the model reads it. -/
inductive Modelled where
  /-- A reference to another schema. -/
  | reference (reference : Reference)
  /-- The members of a schema in the order of its kind. -/
  | schema (members : List (String × JsonValue))
  deriving DecidableEq

/-- Read a schema. -/
def model? (value : JsonValue) : Option Modelled :=
  match Reference.ofJson? value with
  | some reference => some (.reference reference)
  | none =>
    match readNested .schema value with
    | some (some (.object members)) => some (.schema members)
    | _ => none

end Raml.Schema
