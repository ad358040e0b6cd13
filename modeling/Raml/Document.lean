import Raml.Registry

/-!
# Documents

A document declares types in its sections `types` and `schemas`, and traits in its section `traits`.
A section is a mapping, or a list of mappings that are read one after another. Every declared type
is then resolved.
-/
namespace Raml

/-- The types and traits of a document. -/
structure Document where
  /-- The declared and lifted types. -/
  types : Registry
  /-- The traits under their names. -/
  traits : OrderedMap Trait

namespace Document

/-- The entries of a mapping in a section under the texts of their keys. -/
def mappingEntries (name : String) (entries : List (Node × Node)) :
    Except SectionError (List (String × Node)) :=
  match Facets.named entries with
  | .ok named => .ok named
  | .error key => .error (.key name key)

/-- The entries of the mappings of a list in a section. -/
def listEntries (name : String) : List Node → Except SectionError (List (String × Node))
  | [] => .ok []
  | .mapping entries :: rest =>
    match mappingEntries name entries with
    | .error cause => .error cause
    | .ok own => (listEntries name rest).map (own ++ ·)
  | node :: _ => .error (.element name node)

/-- The entries of a section of a document. -/
def sectionEntries (root : Node) (name : String) : Except SectionError (List (String × Node)) :=
  match root.get? name with
  | none | some .null => .ok []
  | some (.mapping entries) => mappingEntries name entries
  | some (.sequence items) => listEntries name items
  | some node => .error (.kind name node)

/-- The sections that declare types, in order. -/
def typeSections : List String := ["types", "schemas"]

/-- The section that declares traits. -/
def traitSection : String := "traits"

/-- Declare the types of entries. -/
def declareEntries : List (String × Node) → Registry → Except Error Registry
  | [], types => .ok types
  | (name, node) :: rest, types =>
    match Declaration.ofNode name node with
    | .ok declaration => declareEntries rest (types.declare declaration)
    | .error cause => .error (.decode (.declaration cause))

/-- Declare the types of sections. -/
def declareSections (root : Node) : List String → Registry → Except Error Registry
  | [], types => .ok types
  | name :: rest, types =>
    match sectionEntries root name with
    | .error cause => .error (.decode (.document cause))
    | .ok entries =>
      match declareEntries entries types with
      | .ok declared => declareSections root rest declared
      | .error error => .error error

/-- Read the traits of entries. -/
def readTraits : List (String × Node) → OrderedMap Trait → Except Error (OrderedMap Trait)
  | [], traits => .ok traits
  | (name, node) :: rest, traits =>
    match Trait.ofNode node with
    | .ok trait => readTraits rest (traits.insert name (trait.withName name))
    | .error cause => .error (.decode (.trait cause))

/-- The types and traits that a document declares, before any type is resolved. -/
def declared (root : Node) : Except Error Document :=
  match declareSections root typeSections .empty with
  | .error error => .error error
  | .ok types =>
    match sectionEntries root traitSection with
    | .error cause => .error (.decode (.document cause))
    | .ok entries => (readTraits entries .empty).map fun traits => ⟨types, traits⟩

/-- The document with every type resolved. -/
def resolved (document : Document) : Except Error Document :=
  let attempt := document.types.resolveAll
  match attempt.stopped with
  | none => .ok { document with types := attempt.reached }
  | some error => .error error

/-- The document of a node. -/
def ofNode (root : Node) : Except Error Document :=
  match declared root with
  | .ok document => document.resolved
  | .error error => .error error

end Document

end Raml
