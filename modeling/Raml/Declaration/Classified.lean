import Raml.Declaration

/-!
# Declarations with a remembered kind

The kind of a type is read off the text of its expression. A declaration carries a cell in which a
reader may leave the kind that it found; whoever replaces the expression empties the cell.
-/
namespace Raml

/-- A declaration and the cell for its kind. -/
structure Classified where
  /-- The declaration. -/
  declaration : Declaration
  /-- The kind that a reader left. -/
  memo : Option Kind

namespace Classified

/-- A declaration whose kind has not been read. -/
def ofDeclaration (declaration : Declaration) : Classified := ⟨declaration, none⟩

/-- The kind: the remembered one, or the one that the expression has. -/
def kind (type : Classified) : Kind := type.memo.getD type.declaration.kind

/-- Read the kind and remember it. -/
def readKind (type : Classified) : Kind × Classified := (type.kind, { type with memo := type.kind })

/-- Replace the expression and forget the kind. -/
def withExpression (type : Classified) (expression : Option Node) : Classified :=
  ⟨type.declaration.withExpression expression, none⟩

/-- Replace the properties. -/
def withProperties (type : Classified) (properties : Properties) : Classified :=
  { type with declaration := type.declaration.withProperties properties }

/-- Put another declaration in place; the kind is kept only with the expression that it was read
from. -/
def adopt (type : Classified) (declaration : Declaration) : Classified :=
  if type.declaration.expression = declaration.expression then { type with declaration }
  else ofDeclaration declaration

/-- The types that this one inherits from. -/
def parents (type : Classified) : List String := type.kind.parents

/-- Whether the expression is an embedded schema. -/
def isEmbedded (type : Classified) : Bool := type.kind = .embeddedSchema

/-- The type of the elements of an array; the keyword `array` leaves it to the field `items`. -/
def arrayElement? (type : Classified) : Option String :=
  match type.kind with
  | .array (some element) => some element
  | .array none => type.declaration.items.map Node.itemExpression
  | _ => none

/-- Whether the type only gives another name to one type. -/
def isAlias (type : Classified) : Bool :=
  type.kind.wrapsNamed && type.declaration.properties.isEmpty

end Classified

end Raml
