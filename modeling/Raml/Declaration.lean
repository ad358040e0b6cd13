import Raml.Declaration.Field

/-!
# Type declarations

A declaration names a type and gives its expression, its properties, further facets, and
annotations, which are the entries under keys that are no field. It is read from a node: a string or
a sequence stands for a declaration that gives only a type. Where no type is given, the older field
`schema` takes its place. The nodes in the fields are decoded when a mapping is read, and encoded
when a declaration is written.
-/
namespace Raml

/-- A type declaration. -/
structure Declaration where
  /-- The type's name. -/
  name : String
  /-- The fields. -/
  fields : Record Declaration.table
  /-- The entries that are no field. -/
  annotations : Facets

/-- Why a node is no type declaration. -/
inductive DeclarationError where
  /-- An entry of the mapping cannot be read. -/
  | field (name : String) (cause : FieldError)
  /-- The node is of a kind that declares nothing. -/
  | kind (name : String) (node : Node)
  deriving DecidableEq

/-- What is wrong, in words. -/
def DeclarationError.message : DeclarationError → String
  | field name cause => "Failed to decode type '" ++ name ++ "': " ++ cause.message
  | kind name node => "type '" ++ name ++ "' cannot be declared as " ++ node.longTag

namespace Declaration

/-- Declarations with the same name, fields and annotations are equal. -/
theorem ext {left right : Declaration} (name : left.name = right.name)
    (fields : ∀ field, left.fields field = right.fields field)
    (annotations : left.annotations = right.annotations) : left = right := by
  cases left
  cases right
  simp only [mk.injEq]
  exact ⟨name, funext fields, annotations⟩

/-- The declaration that gives nothing. -/
def blank (name : String) : Declaration := ⟨name, Record.absent, .empty⟩

/-- The expression as it is declared. -/
def expression (declaration : Declaration) : Option Node := declaration.fields .type

/-- The older field for the expression. -/
def schema (declaration : Declaration) : Option Node := declaration.fields .schema

/-- The declared properties. -/
def properties (declaration : Declaration) : Properties := declaration.fields .properties

/-- The declaration of the elements of an array. -/
def items (declaration : Declaration) : Option Node := declaration.fields .items

/-- The listed values. -/
def enumeration (declaration : Declaration) : Option Node := declaration.fields .enumeration

/-- Replace the expression. -/
def withExpression (declaration : Declaration) (expression : Option Node) : Declaration :=
  { declaration with fields := declaration.fields.set .type expression }

/-- Replace the properties. -/
def withProperties (declaration : Declaration) (properties : Properties) : Declaration :=
  { declaration with fields := declaration.fields.set .properties properties }

/-- The declaration that gives an expression and properties. -/
def ofParts (name : String) (expression : Option Node) (properties : Properties) : Declaration :=
  ((blank name).withExpression expression).withProperties properties

/-- The text of the expression, empty when none is given. -/
def text (declaration : Declaration) : String :=
  (declaration.expression.map Node.expression).getD ""

/-- The kind of the type. -/
def kind (declaration : Declaration) : Kind := TypeExpr.classify declaration.text

/-- Whether the expression is an embedded schema. -/
def isEmbedded (declaration : Declaration) : Bool := declaration.kind = .embeddedSchema

/-- Whether values are listed. -/
def isEnumeration (declaration : Declaration) : Bool := declaration.enumeration.isSome

/-- A tag cannot be kept in an annotation. -/
def checkAnnotation (node : Node) : Except FieldError Unit :=
  if node.hasTag then .error .tag else .ok ()

/-- The field `schema` gives the expression where no type does. -/
def adoptSchema (declaration : Declaration) : Declaration :=
  match declaration.expression with
  | some _ => declaration
  | none => declaration.withExpression declaration.schema

/-- The declaration of a mapping. -/
def ofMapping (name : String) (entries : List (Node × Node)) :
    Except DeclarationError Declaration :=
  match Record.read table checkAnnotation entries with
  | .ok (fields, annotations) => .ok (adoptSchema ⟨name, fields, annotations⟩)
  | .error cause => .error (.field name cause)

/-- The declaration that a node is. -/
def ofNode (name : String) : Node → Except DeclarationError Declaration
  | .string text => .ok (ofParts name (some (.string text)) .empty)
  | .sequence items => .ok (ofParts name (some (.sequence items)) .empty)
  | .mapping entries => ofMapping name entries
  | .null => .ok (blank name)
  | node => .error (.kind name node)

/-- The entries that a declaration writes. -/
def toEntries (declaration : Declaration) : List (String × Node) :=
  Record.write declaration.fields ++ declaration.annotations.entries

/-- The node that a declaration is encoded as. -/
def toNode (declaration : Declaration) : Node :=
  .mapping (declaration.toEntries.map fun entry => (.string entry.1, entry.2.encoded))

/-- The type expression that is given is read back. -/
@[simp]
theorem expression_withExpression (declaration : Declaration) (expression : Option Node) :
    (declaration.withExpression expression).expression = expression := rfl

/-- The properties that are given are read back. -/
@[simp]
theorem properties_withProperties (declaration : Declaration) (properties : Properties) :
    (declaration.withProperties properties).properties = properties := rfl

/-- A declaration has the name that it is made of. -/
@[simp]
theorem name_ofParts (name : String) (expression : Option Node) (properties : Properties) :
    (ofParts name expression properties).name = name := rfl

/-- A declaration has the properties that it is made of. -/
@[simp]
theorem properties_ofParts (name : String) (expression : Option Node) (properties : Properties) :
    (ofParts name expression properties).properties = properties := rfl

end Declaration

end Raml
