import Raml.Text.Blank
import Raml.TypeExpr.Kind

/-!
# Type expressions

A type expression is the text that a declaration gives as its type: a name, `[A, B]`, `A | B`,
`Element[]`, `Element[][]`, or a JSON Schema between braces. `TypeExpr.classify` assigns each text
exactly one kind. The forms overlap, so they are tried in a fixed order and the first one wins.
-/
namespace Raml.TypeExpr

open Text

/-- The keyword of objects. -/
def objectName : String := "object"

/-- The keyword of arrays whose element type stands elsewhere. -/
def arrayName : String := "array"

/-- Whether the trimmed text stands between braces. -/
def isEmbeddedSchema (text : String) : Bool :=
  let trimmed := trim text.toList
  trimmed.head? = some '{' && trimmed.getLast? = some '}'

/-- Whether the text names a built-in type, `object` included. -/
def isBuiltin (text : String) : Bool :=
  text = objectName || (ScalarType.ofName? text).isSome

/-- The text between square brackets, when it holds no further bracket. -/
def bracketed? (text : String) : Option String := do
  let rest ← text.dropPrefix? "["
  let list ← rest.dropSuffix? "]"
  if list.copy.toList.any fun char => char = '[' || char = ']' then none else some list.copy

/-- The pieces of a comma list, trimmed, without the blank ones. -/
def commaNames (list : String) : List String :=
  (((list.toList.splitOn ',').map trim).filter fun name => !name.isEmpty).map String.ofList

/-- The kind of a comma list between brackets. -/
def inheritance : List String → Kind
  | [] => .unspecified
  | [parent] => .singleInheritance parent
  | parents => .multipleInheritance parents

/-- The trimmed pieces of a union. -/
def unionMembers (text : String) : List String :=
  ((text.toList.splitOn '|').map trim).map String.ofList

/-- Whether a bar stands somewhere after the first character. -/
def hasInnerBar : List Char → Bool
  | [] => false
  | first :: rest => first != '|' && rest.contains '|'

/-- The kind of a text that is none of blank, embedded schema, keyword of an object, scalar name and
bracketed list. -/
def classifyName (text : String) : Kind :=
  match text.dropSuffix? "[][]" with
  | some element => if element.isEmpty then .unspecified else .bidimensionalArray element.copy
  | none =>
    if text = arrayName then .array none
    else match text.dropSuffix? "[]" with
      | some element => if element.isEmpty then .unspecified else .array (some element.copy)
      | none =>
        if hasInnerBar text.toList then .union (unionMembers text) else .singleInheritance text

/-- The kind of a type expression. -/
def classify (text : String) : Kind :=
  if (trim text.toList).isEmpty then .unspecified
  else if isEmbeddedSchema text then .embeddedSchema
  else if text = objectName then .object
  else match ScalarType.ofName? text with
    | some scalar => .builtin scalar
    | none =>
      match bracketed? text with
      | some list => inheritance (commaNames list)
      | none => classifyName text

end Raml.TypeExpr
