import Raml.Resolution

/-!
# The registry of types

The registry holds the declared and the lifted types under their names, in the order in which they
came, each with the cell for its kind. A type that is declared again keeps its place. Types are
never removed.
-/
namespace Raml

/-- The types under their names. -/
abbrev Registry := OrderedMap Classified

/-- What a lift into the registry gave. -/
structure Synthesized where
  /-- The name of the lifted type. -/
  name : String
  /-- Whether the type was created; otherwise one of the name existed. -/
  created : Bool
  deriving DecidableEq, Repr

namespace Registry

/-- The declarations of the types. -/
def declarations (registry : Registry) : Declarations :=
  registry.map fun _ type => type.declaration

/-- The registry with other declarations; the kinds of unchanged expressions are kept. -/
def adopt (registry : Registry) (declarations : Declarations) : Registry :=
  declarations.map fun name declaration =>
    match registry.get? name with
    | some type => type.adopt declaration
    | none => .ofDeclaration declaration

/-- Declare a type; an earlier declaration of the name is replaced. -/
def declare (registry : Registry) (declaration : Declaration) : Registry :=
  registry.insert declaration.name (.ofDeclaration declaration)

/-- Create a type unless one of the name exists, and say whether it was created. -/
def create (registry : Registry) (declaration : Declaration) : Bool × Registry :=
  if registry.contains declaration.name then (false, registry)
  else (true, registry.declare declaration)

/-- Change the type of a name, if there is one. -/
def modify (registry : Registry) (name : String) (change : Classified → Classified) : Registry :=
  match registry.get? name with
  | some type => registry.insert name (change type)
  | none => registry

/-- Replace the expression of a type. -/
def setExpression (registry : Registry) (name : String) (expression : Option Node) : Registry :=
  registry.modify name fun type => type.withExpression expression

/-- Replace the properties of a type. -/
def setProperties (registry : Registry) (name : String) (properties : Properties) : Registry :=
  registry.modify name fun type => type.withProperties properties

/-- Write a property of a type. -/
def setProperty (registry : Registry) (name property : String) (value : PropertyValue) :
    Registry :=
  registry.modify name fun type =>
    type.withProperties (type.declaration.properties.insert property value)

/-- Read the kind of a type and remember it. -/
def readKind (registry : Registry) (name : String) : Registry :=
  registry.modify name fun type => type.readKind.2

/-- Absorb the schema of a type; an error changes nothing. -/
def absorb (registry : Registry) (name : String) : Attempt Error Registry :=
  match registry.get? name with
  | none => .failed registry (.configuration (.unknownType name))
  | some type =>
    match type.absorb with
    | .ok absorbed => .done (registry.insert name absorbed)
    | .error cause => .failed registry (Resolution.absorptionError type.declaration cause)

/-- Change the optional names of the properties of a type. -/
def unmark (registry : Registry) (name : String) : Attempt Error Registry :=
  match registry.get? name with
  | none => .failed registry (.configuration (.unknownType name))
  | some type =>
    let attempt := type.declaration.properties.unmarkAll
    ⟨registry.insert name (type.withProperties attempt.reached),
      attempt.stopped.map fun cause => .configuration (.optionalValue cause)⟩

/-- Resolve the type of a name. -/
def resolve (registry : Registry) (name : String) : Attempt Error Registry :=
  let attempt := registry.declarations.resolve name
  ⟨registry.adopt attempt.reached, attempt.stopped⟩

/-- Resolve every type that there is, in order. -/
def resolveAll (registry : Registry) : Attempt Error Registry :=
  let attempt := registry.declarations.resolveAll
  ⟨registry.adopt attempt.reached, attempt.stopped⟩

/-- Make one lift of a property of a type, in the name of an owner, and create the lifted type. -/
def lift (registry : Registry)
    (lifts : String → String → PropertyValue → Except LiftError (Option Lift))
    (name owner property : String) : Except LiftError (Registry × Option Synthesized) :=
  match (registry.get? name).bind fun type => type.declaration.properties.get? property with
  | none => .ok (registry, none)
  | some value =>
    match lifts owner property value with
    | .error cause => .error cause
    | .ok none => .ok (registry, none)
    | .ok (some lift) =>
      let (created, types) := registry.create lift.declaration
      .ok (types.setProperty name property lift.value,
        some ⟨lift.declaration.name, created⟩)

/-- The declarations after a new one is put in the registry. -/
theorem declarations_declare (registry : Registry) (declaration : Declaration) :
    (registry.declare declaration).declarations =
      registry.declarations.insert declaration.name declaration := by
  apply OrderedMap.ext
  simp only [declarations, declare, OrderedMap.map, OrderedMap.insert]
  induction registry.entries with
  | nil => rfl
  | cons entry rest ih =>
    by_cases here : entry.1 = declaration.name <;>
      simp_all [Entries.insert, Classified.ofDeclaration]

/-- The registry takes over exactly the given declarations. -/
theorem declarations_adopt (registry : Registry) (types : Declarations) :
    (registry.adopt types).declarations = types := by
  apply OrderedMap.ext
  simp only [declarations, adopt, OrderedMap.map, List.map_map]
  conv => rhs; rw [← List.map_id types.entries]
  apply List.map_congr_left
  intro entry _
  simp only [Function.comp_def, id_eq]
  split
  · simp only [Classified.adopt]
    split <;> rfl
  · rfl

end Registry

end Raml
