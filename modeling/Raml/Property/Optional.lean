import Raml.Attempt
import Raml.Property

/-!
# Optional names

A property whose name ends in a question mark is written under the name without its marks, with
`required` false. The change goes through the marked names in order. The bare declaration
stands where the marked one stood, or takes the place of a property that already has the name. Only
a type name or facets can be made optional; another declaration stops the change, and the
property it belongs to has then been taken out.
-/
namespace Raml

/-- The value of an optional property that cannot be bare. -/
structure OptionalValueError where
  /-- The marked name. -/
  name : String
  /-- The declaration. -/
  node : Node
  deriving DecidableEq

namespace PropertyValue

/-- The declaration of an optional property, or the node that cannot be one. -/
def optional : PropertyValue → Except Node PropertyValue
  | reference type =>
    .ok (inline ((OrderedMap.empty.insert "type" (.string type)).insert "required" (.bool false)))
  | inline facets => .ok (inline (facets.insert "required" (.bool false)))
  | raw node => .error node

end PropertyValue

namespace Properties

/-- Change the property of one marked name. -/
def unmark (properties : Properties) (name : String) : Attempt OptionalValueError Properties :=
  match properties.get? name with
  | none => .done properties
  | some value =>
    match value.optional with
    | .ok bare => .done (properties.rename name (TypeName.base name) bare)
    | .error node => .failed (properties.erase name) ⟨name, node⟩

/-- The marked names in order. -/
def optionalNames (properties : Properties) : List String :=
  properties.keys.filter TypeName.isOptional

/-- Change every property with a marked name. -/
def unmarkAll (properties : Properties) : Attempt OptionalValueError Properties :=
  Attempt.each unmark properties.optionalNames properties

end Properties

end Raml
