import Raml.Facets
import Raml.Node.Coding
import Raml.Node.Expression
import Raml.TypeExpr
import Raml.TypeName

/-!
# Properties

A property of a type is declared by the name of its type, by a mapping of facets, or by any other
node, which is kept as it is. `Property` is the view of a declared property: its name without the
mark of an optional one, its type, whether it is required, and its other facets.
-/
namespace Raml

/-- The declaration of a property. -/
inductive PropertyValue where
  /-- The type's name. -/
  | reference (type : String)
  /-- Facets, the type among them. -/
  | inline (facets : Facets)
  /-- Any other node. -/
  | raw (node : Node)
  deriving DecidableEq

/-- Properties in order. -/
abbrev Properties := OrderedMap PropertyValue

namespace PropertyValue

/-- The declaration that a node is. -/
def ofNode : Node → Except KeyError PropertyValue
  | .string type => .ok (reference type)
  | .mapping entries => (Facets.ofMapping entries).map inline
  | node => .ok (raw node)

/-- The node of a declaration. -/
def toNode : PropertyValue → Node
  | reference type => .string type
  | inline facets => .mapping facets.toMapping
  | raw node => node

/-- The facets of an inline declaration. -/
def facets? : PropertyValue → Option Facets
  | inline facets => some facets
  | _ => none

end PropertyValue

namespace Properties

/-- The declarations of a mapping under the texts of its keys, or the first error. -/
def read : List (Node × Node) → Except KeyError (List (String × PropertyValue))
  | [] => .ok []
  | (key, node) :: rest =>
    match key.scalarText? with
    | none => .error (.property key)
    | some name =>
      match PropertyValue.ofNode node with
      | .error cause => .error cause
      | .ok value => (read rest).map ((name, value) :: ·)

/-- The properties of a mapping. -/
def ofMapping (entries : List (Node × Node)) : Except KeyError Properties :=
  (read entries).map OrderedMap.ofList

/-- The mapping of properties, with strings as keys. -/
def toMapping (properties : Properties) : List (Node × Node) :=
  properties.entries.map fun entry => (.string entry.1, entry.2.toNode)

/-- The node that properties are encoded as. -/
def toNode (properties : Properties) : Node :=
  .mapping (properties.entries.map fun entry => (.string entry.1, entry.2.toNode.encoded))

end Properties

/-- The view of a declared property. -/
structure Property where
  /-- The name without its mark. -/
  name : String
  /-- The type expression. -/
  expression : String
  /-- Whether an instance must have it. -/
  required : Bool
  /-- The facets other than the type and the requirement. -/
  facets : Facets
  deriving DecidableEq

namespace Property

/-- The type expression of inline facets: the given one, `object` for a declaration with properties,
and `string` otherwise. -/
def inlineExpression (facets : Facets) : String :=
  match facets.get? "type" with
  | some node => node.expression
  | none =>
    if facets.contains "properties" then TypeExpr.objectName else ScalarType.string.name

/-- The requirement that inline facets state; they require the property unless they say not to. -/
def inlineRequired (facets : Facets) : Bool :=
  ((facets.get? "required").bind Node.bool?).getD true

/-- The view of a declaration under a name as it is written. -/
def ofValue (name : String) (value : PropertyValue) : Property :=
  let (base, optional) := match TypeName.dropMark? name with
    | some base => (base, true)
    | none => (name, false)
  match value with
  | .reference type => ⟨base, type, !optional, .empty⟩
  | .inline facets =>
    ⟨base, inlineExpression facets, inlineRequired facets && !optional,
      (facets.erase "type").erase "required"⟩
  | .raw .null => ⟨base, ScalarType.string.name, !optional, .empty⟩
  | .raw node => ⟨base, node.expression, !optional, .empty⟩

/-- The kind of the type. -/
def kind (property : Property) : Kind := TypeExpr.classify property.expression

end Property

end Raml
