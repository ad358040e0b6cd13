import Raml.Declaration.Absorption
import Raml.Error
import Raml.Nesting

/-!
# Resolution

Resolving a type brings its declaration into a form that refers to every type by a name. An embedded
schema is absorbed. Otherwise properties with optional names are unmarked, and then, property by
property, inline declarations are lifted into types, which are created under their names unless a
type of the name exists; a type that was created is resolved before the next property is looked at.
The first error ends the resolution, and what was reached stays.
-/
namespace Raml

/-- The declarations of types under their names. -/
abbrev Declarations := OrderedMap Declaration

namespace Declarations

/-- Create the types of given declarations, except those whose name exists. The declarations of the
created types come first. -/
def createAll : List Declaration → Declarations → List Declaration × Declarations
  | [], types => ([], types)
  | declaration :: rest, types =>
    if types.contains declaration.name then createAll rest types
    else
      let others := createAll rest (types.insert declaration.name declaration)
      (declaration :: others.1, others.2)

/-- The created types have at most the nesting of those that were given. -/
theorem totalNesting_createAll_le (given : List Declaration) (types : Declarations) :
    Declaration.totalNesting (createAll given types).1 ≤ Declaration.totalNesting given := by
  induction given generalizing types with
  | nil => simp [createAll]
  | cons declaration rest ih =>
    unfold createAll
    split
    · have bound := ih types
      simp only [Declaration.totalNesting]
      omega
    · have bound := ih (types.insert declaration.name declaration)
      simp only [Declaration.totalNesting]
      omega

end Declarations

/-- What resolving the properties of a type reaches. -/
structure Walk where
  /-- The types. -/
  types : Declarations
  /-- The values of the properties that were looked at, in order. -/
  values : List PropertyValue
  /-- The error that ended the resolution early. -/
  stopped : Option Error

namespace Resolution

/-- Why absorbing the schema of a type failed. -/
def absorptionError (declaration : Declaration) (cause : Schema.SchemaError) : Error :=
  .decode (.embedded declaration.name cause)

mutual

/-- Resolve the type of a name with a given declaration. -/
def resolveType (name : String) (declaration : Declaration) (types : Declarations) :
    Attempt Error Declarations :=
  if declaration.isEmbedded then
    match declaration.absorb with
    | .ok absorbed => .done (types.insert name absorbed)
    | .error cause => .failed types (absorptionError declaration cause)
  else
    let properties := declaration.properties.unmarkAll.reached
    match declaration.properties.unmarkAll.stopped with
    | some cause =>
      .failed (types.insert name (declaration.withProperties properties))
        (.configuration (.optionalValue cause))
    | none =>
      let walk := resolveProperties name properties.entries types
      ⟨walk.types.insert name (declaration.withProperties (properties.overlay walk.values)),
        walk.stopped⟩
termination_by 2 * declaration.properties.nesting + 1
decreasing_by
  have bound := declaration.properties.nesting_unmarkAll_le
  simp only [Properties.nesting] at bound ⊢
  omega

/-- Resolve the types of given declarations under their names, in order. -/
def resolveTypes (given : List Declaration) (types : Declarations) : Attempt Error Declarations :=
  match given with
  | [] => .done types
  | declaration :: rest =>
    let attempt := resolveType declaration.name declaration types
    match attempt.stopped with
    | some cause => .failed attempt.reached cause
    | none => resolveTypes rest attempt.reached
termination_by Declaration.totalNesting given
decreasing_by
  all_goals
    simp only [Declaration.totalNesting]
    omega

/-- Resolve the inline declarations of the properties of an owner. -/
def resolveProperties (owner : String) (entries : List (String × PropertyValue))
    (types : Declarations) : Walk :=
  match entries with
  | [] => ⟨types, [], none⟩
  | (property, value) :: rest =>
    let lifting := Lifting.ofProperty owner property value
    let created := Declarations.createAll lifting.declarations types
    match lifting.stopped with
    | some cause => ⟨created.2, [lifting.value], some (.decode (.lift cause))⟩
    | none =>
      let attempt := resolveTypes created.1 created.2
      match attempt.stopped with
      | some cause => ⟨attempt.reached, [lifting.value], some cause⟩
      | none =>
        let walk := resolveProperties owner rest attempt.reached
        ⟨walk.types, lifting.value :: walk.values, walk.stopped⟩
termination_by 2 * Properties.nestingOfEntries entries
decreasing_by
  · have bound := Lifting.totalNesting_ofProperty_le owner property value
    have fewer := Declarations.totalNesting_createAll_le
      (Lifting.ofProperty owner property value).declarations types
    simp only [Properties.nestingOfEntries, Entries.weight, Properties.nestingOfProperty]
    omega
  · simp only [Properties.nestingOfEntries, Entries.weight, Properties.nestingOfProperty]
    omega

end

end Resolution

namespace Declarations

/-- Resolve the type of a name. -/
def resolve (types : Declarations) (name : String) : Attempt Error Declarations :=
  match types.get? name with
  | none => .failed types (.configuration (.unknownType name))
  | some declaration => Resolution.resolveType name declaration types

/-- Resolve every type that there is, in order. -/
def resolveAll (types : Declarations) : Attempt Error Declarations :=
  Attempt.each resolve types.keys types

end Declarations

end Raml
