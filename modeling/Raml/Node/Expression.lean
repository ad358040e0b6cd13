import Raml.Node

/-!
# Type expressions in nodes

A node stands for a type expression: a scalar for its text, and a sequence for the list of its
elements between brackets. A null or a mapping stands for the empty expression.
-/
namespace Raml.Node

mutual

/-- The text of the type expression that a node stands for. -/
def expression : Node → String
  | string text => text
  | sequence items => "[" ++ ",".intercalate (expressions items) ++ "]"
  | tagged _ value => expression value
  | bool value => (scalarText? (bool value)).getD ""
  | number value => (scalarText? (number value)).getD ""
  | null => ""
  | mapping _ => ""

/-- The texts of the type expressions of several nodes. -/
def expressions : List Node → List String
  | [] => []
  | item :: rest => expression item :: expressions rest

end

/-- The texts are those of the single nodes. -/
theorem expressions_eq_map (items : List Node) : expressions items = items.map expression := by
  induction items with
  | nil => rfl
  | cons item rest ih => simp [expressions, ih]

/-- The type expression of an item declaration, which may give it under `type`. -/
def itemExpression (items : Node) : String :=
  match items.get? "type" with
  | some inner => inner.expression
  | none => items.expression

end Raml.Node
