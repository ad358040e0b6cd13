import Raml.Choice
import Raml.Property
import Raml.Text.Quoted

/-!
# Shapes of fields

A field of a declaration has one of a few shapes. The shape says which values the field has, how a
node is read as one, and which node is written for one. A field that is not given has the value that
`Shape.absent` names, and nothing is written for it. A null counts as not given; a null under a tag
counts as a value wherever a value of the shape can be empty. Nodes that a value keeps are decoded
first, so that what an error names is the decoded node.
-/
namespace Raml

/-- What a reader expects to find. -/
inductive Expected where
  | string
  | boolean
  | count
  | number
  | map
  | sequence
  | fieldName
  deriving DecidableEq

/-- How a message names what is expected. -/
def Expected.text : Expected → String
  | string => "a string"
  | boolean => "a boolean"
  | count => "u64"
  | number => "f64"
  | map => "a map"
  | sequence => "a sequence"
  | fieldName => "field identifier"

/-- How a message names what is found instead. -/
def Node.foundText : Node → String
  | .null => "unit value"
  | .bool true => "boolean `true`"
  | .bool false => "boolean `false`"
  | .number (.int value) => "integer `" ++ toString value ++ "`"
  | .number (.float value) => "floating point `" ++ Number.plainLayout.text value ++ "`"
  | .string text => "string " ++ Text.quoted text
  | .sequence _ => "sequence"
  | .mapping _ => "map"
  | .tagged _ value => foundText value

/-- Why a field cannot be read. -/
inductive FieldError where
  /-- A node of another type. -/
  | wrongType (found : Node) (expected : Expected)
  /-- A negative number for a count. -/
  | negative (value : Int)
  /-- A field that is given a second time. -/
  | repeated (name : String)
  /-- A tag in a value that is kept as it is. -/
  | tag
  /-- A node without a text. -/
  | notScalar (node : Node)
  /-- Facets that are no mapping. -/
  | notMapping (node : Node)
  /-- Properties that are no mapping. -/
  | propertiesNotMapping (node : Node)
  /-- A key without a text. -/
  | key (cause : KeyError)
  /-- Two keys of a mapping that become alike. -/
  | alikeKeys
  /-- An element that is no choice of a definition. -/
  | choice (cause : ChoiceError)
  deriving DecidableEq

/-- What is wrong, in words. -/
def FieldError.message : FieldError → String
  | wrongType found expected =>
    "invalid type: " ++ found.foundText ++ ", expected " ++ expected.text
  | negative value =>
    "invalid value: integer `" ++ toString value ++ "`, expected " ++ Expected.count.text
  | repeated name => "duplicate field `" ++ name ++ "`"
  | tag => "untagged and internally tagged enums do not support enum input"
  | notScalar node => "expected a scalar, found " ++ node.longTag
  | notMapping node => "expected a mapping, found " ++ node.longTag
  | propertiesNotMapping node => "properties must be a mapping, found " ++ node.longTag
  | key cause => "Decode Error: " ++ cause.message
  | alikeKeys => "duplicate entry in YAML map"
  | choice cause => "Decode Error: " ++ cause.message

namespace Node

/-- The string that a node is, under tags or not. -/
def readString (node : Node) : Except FieldError String :=
  match node.untagged with
  | .string text => .ok text
  | other => .error (.wrongType other .string)

/-- The strings that nodes are, or the first error. -/
def readStrings : List Node → Except FieldError (List String)
  | [] => .ok []
  | node :: rest => do
    let text ← readString node
    let others ← readStrings rest
    return text :: others

/-- The node that a node is decoded to. -/
def readNode (node : Node) : Except FieldError Node :=
  match node.decoded? with
  | some node => .ok node
  | none => .error .alikeKeys

/-- The entries of a mapping whose keys are strings, under tags or not, or the first error. -/
def readEntries : List (Node × Node) → Except FieldError (List (String × Node))
  | [] => .ok []
  | (key, value) :: rest => do
    let name ← readString key
    let value ← readNode value
    let others ← readEntries rest
    return (name, value) :: others

/-- The natural number that a node is. -/
def readCount (node : Node) : Except FieldError Nat :=
  match node.untagged with
  | .number (.int (.ofNat value)) => .ok value
  | .number (.int value) => .error (.negative value)
  | other => .error (.wrongType other .count)

/-- The number that a node is. -/
def readNumber (node : Node) : Except FieldError Binary64 :=
  match node.untagged with
  | .number value => .ok value.toBinary64
  | other => .error (.wrongType other .number)

/-- The boolean that a node is. -/
def readFlag (node : Node) : Except FieldError Bool :=
  match node.untagged with
  | .bool value => .ok value
  | other => .error (.wrongType other .boolean)

/-- The list of strings that a node is; a null is the empty list. -/
def readStringList (node : Node) : Except FieldError (List String) :=
  match node.untagged with
  | .null => .ok []
  | .sequence items => readStrings items
  | other => .error (.wrongType other .sequence)

/-- The facets that a node is; a null is no facets. -/
def readFacets (node : Node) : Except FieldError Facets :=
  match node.untagged with
  | .null => .ok .empty
  | .mapping entries => (readEntries entries).map OrderedMap.ofList
  | other => .error (.wrongType other .map)

/-- The text of the scalar that a node is. -/
def readText (node : Node) : Except FieldError (Option String) := do
  let node ← readNode node
  if node.isNull then return none
  match node.scalarText? with
  | some text => return text
  | none => .error (.notScalar node)

/-- The facets that a node is, keys being scalars. -/
def readFacetMap (node : Node) : Except FieldError Facets := do
  match ← readNode node with
  | .null => .ok .empty
  | .mapping entries =>
    match Facets.ofMapping entries with
    | .ok facets => .ok facets
    | .error cause => .error (.key cause)
  | other => .error (.notMapping other)

/-- The properties that a node declares. -/
def readProperties (node : Node) : Except FieldError Properties := do
  match ← readNode node with
  | .null => .ok .empty
  | .mapping entries =>
    match Properties.ofMapping entries with
    | .ok properties => .ok properties
    | .error cause => .error (.key cause)
  | other => .error (.propertiesNotMapping other)

/-- A null is no value, any other node is read. -/
def readUnlessNull {α : Type} (reader : Node → Except FieldError α) :
    Node → Except FieldError (Option α)
  | .null => .ok none
  | given => (reader given).map some

end Node

/-- The declarations of entries whose keys are strings, under tags or not, or the first error. -/
def Properties.readStringKeyed :
    List (Node × Node) → Except FieldError (List (String × PropertyValue))
  | [] => .ok []
  | (key, node) :: rest => do
    let name ← key.readString
    let value ← match PropertyValue.ofNode (← node.readNode) with
      | .ok value => .ok value
      | .error cause => .error (.key cause)
    let others ← readStringKeyed rest
    return (name, value) :: others

/-- The properties of a node whose keys are strings; a null is no properties. -/
def Properties.ofStringKeyed (node : Node) : Except FieldError Properties :=
  match node.untagged with
  | .null => .ok .empty
  | .mapping entries => (readStringKeyed entries).map OrderedMap.ofList
  | other => .error (.wrongType other .map)

/-- The choices that nodes are, or the first error. -/
def Choice.readItems : List Node → Except FieldError (List Choice)
  | [] => .ok []
  | node :: rest => do
    let choice ← match ofNode (← node.readNode) with
      | .ok choice => .ok choice
      | .error cause => .error (.choice cause)
    let others ← readItems rest
    return choice :: others

/-- The choices of a list; a null is the empty list. -/
def Choice.readList (node : Node) : Except FieldError (List Choice) :=
  match node.untagged with
  | .null => .ok []
  | .sequence items => readItems items
  | other => .error (.wrongType other .sequence)

/-- The shape of a field. -/
inductive Shape where
  /-- Any node. -/
  | node
  /-- Facets with strings as keys. -/
  | facets
  /-- The text of a scalar. -/
  | text
  /-- A string. -/
  | string
  /-- A natural number. -/
  | count
  /-- A number, kept as a floating point number. -/
  | number
  /-- A boolean. -/
  | flag
  /-- A list of strings. -/
  | strings
  /-- Declared properties, none by default. -/
  | properties
  /-- Facets with scalars as keys, none by default. -/
  | facetMap
  /-- A list of strings, empty by default. -/
  | stringList
  deriving DecidableEq

namespace Shape

/-- The values of a field. -/
abbrev Value : Shape → Type
  | node => Option Node
  | facets => Option Facets
  | text => Option String
  | string => Option String
  | count => Option Nat
  | number => Option Binary64
  | flag => Option Bool
  | strings => Option (List String)
  | properties => Properties
  | facetMap => Facets
  | stringList => List String

/-- The value of a field that is not given. -/
def absent : (shape : Shape) → shape.Value
  | node | facets | text | string | count | number | flag | strings => none
  | properties => OrderedMap.empty
  | facetMap => OrderedMap.empty
  | stringList => []

/-- Read a node as a value of a shape. -/
def read : (shape : Shape) → Node → Except FieldError shape.Value
  | node => Node.readUnlessNull Node.readNode
  | facets => Node.readUnlessNull Node.readFacets
  | text => Node.readText
  | string => Node.readUnlessNull Node.readString
  | count => Node.readUnlessNull Node.readCount
  | number => Node.readUnlessNull Node.readNumber
  | flag => Node.readUnlessNull Node.readFlag
  | strings => Node.readUnlessNull Node.readStringList
  | properties => Node.readProperties
  | facetMap => Node.readFacetMap
  | stringList => Node.readStringList

/-- The node of a list of strings. -/
def writeStrings (texts : List String) : Node := .sequence (texts.map .string)

/-- The node of a value, if one is written. -/
def write : (shape : Shape) → shape.Value → Option Node
  | node, value => value
  | facets, value => value.map fun facets => .mapping facets.toMapping
  | text, value | string, value => value.map .string
  | count, value => value.map fun count => .number (.int count)
  | number, value => value.map fun number => .number (.float number)
  | flag, value => value.map .bool
  | strings, value => value.map writeStrings
  | properties, value => if value.isEmpty then none else some (.mapping value.toMapping)
  | facetMap, value => if value.isEmpty then none else some (.mapping value.toMapping)
  | stringList, value => if value.isEmpty then none else some (writeStrings value)

/-- Nothing is written for a field that is not given. -/
theorem write_absent (shape : Shape) : shape.write shape.absent = none := by
  cases shape <;> rfl

end Shape

end Raml
