import Raml.Declaration

/-!
# Lifting inline declarations

A property that declares properties of its own, or an array whose inline items do, is lifted: the
inline declaration becomes a type with a synthesized name, and the property refers to that type. A
lift looks at one property alone; whether the type is then created or one of the name exists already
is for the registry.
-/
namespace Raml

/-- The result of a lift. -/
structure Lift where
  /-- The declaration of the new type. -/
  declaration : Declaration
  /-- The property that refers to it. -/
  value : PropertyValue

/-- Why an inline declaration cannot be lifted. -/
inductive LiftError where
  /-- Its properties are no mapping. -/
  | notMapping (owner property : String) (node : Node)
  /-- A key has no text. -/
  | key (cause : KeyError)
  deriving DecidableEq

/-- What is wrong, in words. -/
def LiftError.message : LiftError → String
  | notMapping owner property node =>
    "inline properties of " ++ owner ++ "." ++ property ++ " must be a mapping, found " ++
      node.longTag
  | key cause => cause.message

namespace Lift

/-- The properties of an inline declaration. -/
def properties (owner property : String) : Node → Except LiftError Properties
  | .mapping entries =>
    match Properties.ofMapping entries with
    | .ok properties => .ok properties
    | .error cause => .error (.key cause)
  | node => .error (.notMapping owner property node)

/-- Facets that refer to a type instead of declaring properties. -/
def refer (facets : Facets) (type : String) : Facets :=
  (facets.erase "properties").insert "type" (.string type)

/-- Lift a property that declares properties of its own. -/
def object (owner property : String) : PropertyValue → Except LiftError (Option Lift)
  | .inline facets =>
    match facets.get? "properties" with
    | none => .ok none
    | some nested =>
      match properties owner property nested with
      | .error cause => .error cause
      | .ok properties =>
        let name := TypeName.synthesized owner property ""
        .ok (some ⟨.ofParts name (facets.get? "type") properties, .inline (refer facets name)⟩)
  | _ => .ok none

/-- The mapping of items of an array's facets. -/
def items? (facets : Facets) : Option (List (Node × Node)) :=
  if (facets.get? "type").bind Node.string? = some TypeExpr.arrayName then
    match facets.get? "items" with
    | some (.mapping entries) => some entries
    | _ => none
  else none

/-- Lift the items of a property that is an array. -/
def item (owner property : String) : PropertyValue → Except LiftError (Option Lift)
  | .inline facets =>
    match items? facets with
    | none => .ok none
    | some entries =>
      match Facets.ofMapping entries with
      | .error cause => .error (.key cause)
      | .ok items =>
        match items.get? "properties" with
        | none => .ok none
        | some nested =>
          match properties owner property nested with
          | .error cause => .error cause
          | .ok properties =>
            let name := TypeName.synthesized owner property TypeName.itemEnding
            .ok (some ⟨.ofParts name (items.get? "type") properties,
              .inline (facets.insert "items" (.mapping (refer items name).toMapping))⟩)
  | _ => .ok none

end Lift

/-- What the lifts of one property give: first that of its own properties, then that of its
items. -/
structure Lifting where
  /-- The declarations of the lifted types, in order. -/
  declarations : List Declaration
  /-- The property after the lifts that could be made. -/
  value : PropertyValue
  /-- Why a lift could not be made. -/
  stopped : Option LiftError

namespace Lifting

/-- The declaration of a lift, if there is one. -/
def declarationsOf : Option Lift → List Declaration
  | some lift => [lift.declaration]
  | none => []

/-- The property after a lift, if there is one. -/
def valueAfter (value : PropertyValue) : Option Lift → PropertyValue
  | some lift => lift.value
  | none => value

/-- Make both lifts of a property. -/
def ofProperty (owner property : String) (value : PropertyValue) : Lifting :=
  match Lift.object owner property value with
  | .error cause => ⟨[], value, some cause⟩
  | .ok object =>
    let lifted := valueAfter value object
    match Lift.item owner property lifted with
    | .error cause => ⟨declarationsOf object, lifted, some cause⟩
    | .ok item =>
      ⟨declarationsOf object ++ declarationsOf item, valueAfter lifted item, none⟩

end Lifting

end Raml
