import Raml.Record.Shape

/-!
# Records of named fields

A table lists the fields of a kind of declaration in the order in which they are written, with the
key and the shape of each. A record has a value for every field. It is read from a mapping entry by
entry, and the first entry that cannot be read gives the error; keys that are no field are handed
over separately. The record is written as a mapping of the fields that are given.
-/
namespace Raml

/-- The fields of a kind of declaration. -/
structure FieldTable (Field : Type) where
  /-- The fields in the order of writing. -/
  all : List Field
  /-- The key of a field. -/
  key : Field → String
  /-- The shape of a field. -/
  shape : Field → Shape

namespace FieldTable

/-- The field of a key. -/
def find? {Field : Type} (table : FieldTable Field) (key : String) : Option Field :=
  table.all.find? fun field => table.key field = key

end FieldTable

/-- A value for every field of a table. -/
abbrev Record {Field : Type} (table : FieldTable Field) : Type :=
  (field : Field) → (table.shape field).Value

namespace Record

variable {Field : Type} {table : FieldTable Field}

/-- The record of which no field is given. -/
def absent : Record table := fun field => (table.shape field).absent

/-- The record with another value in one field. -/
def set [DecidableEq Field] (record : Record table) (field : Field)
    (value : (table.shape field).Value) : Record table :=
  fun other => if same : other = field then same ▸ value else record other

/-- The changed field has the new value. -/
@[simp]
theorem set_same [DecidableEq Field] (record : Record table) (field : Field)
    (value : (table.shape field).Value) : record.set field value field = value := by
  simp [set]

/-- Every other field has its value. -/
theorem set_of_ne [DecidableEq Field] (record : Record table) {field other : Field}
    (value : (table.shape field).Value) (apart : other ≠ field) :
    record.set field value other = record other := by
  simp [set, apart]

/-- The entries of the fields that are given, in the order of the table. -/
def write (record : Record table) : List (String × Node) :=
  table.all.filterMap fun field =>
    ((table.shape field).write (record field)).map fun node => (table.key field, node)

/-- A record while it is read. -/
structure Reading (table : FieldTable Field) where
  /-- The fields read so far. -/
  fields : Record table
  /-- The fields that have been given. -/
  given : List Field
  /-- The entries that are no field. -/
  others : Facets

/-- The state before the first entry. -/
def Reading.start : Reading table := ⟨absent, [], .empty⟩

/-- Read one entry. What is no field is checked by `check` and kept. -/
def Reading.entry [DecidableEq Field] (check : Node → Except FieldError Unit)
    (reading : Reading table) (key value : Node) : Except FieldError (Reading table) :=
  match key.untagged with
  | .string name =>
    match table.find? name with
    | some field =>
      if field ∈ reading.given then .error (.repeated name)
      else ((table.shape field).read value).map fun read =>
        ⟨reading.fields.set field read, field :: reading.given, reading.others⟩
    | none =>
      (check value).map fun _ => { reading with others := reading.others.insert name value }
  | other => .error (.wrongType other .fieldName)

/-- Read entries in order. -/
def Reading.entries [DecidableEq Field] (check : Node → Except FieldError Unit) :
    Reading table → List (Node × Node) → Except FieldError (Reading table)
  | reading, [] => .ok reading
  | reading, (key, value) :: rest =>
    match reading.entry check key value with
    | .ok next => next.entries check rest
    | .error cause => .error cause

/-- Read the fields of a mapping and keep the entries that are no field. -/
def read [DecidableEq Field] (table : FieldTable Field) (check : Node → Except FieldError Unit)
    (entries : List (Node × Node)) : Except FieldError (Record table × Facets) :=
  (Reading.start.entries check entries).map fun reading => (reading.fields, reading.others)

end Record

end Raml
