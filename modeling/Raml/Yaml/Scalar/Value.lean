import Raml.Node
import Raml.Text.Radix

/-!
# Values of scalars

The tag of a scalar says what its text is read as. Without a tag a quoted scalar is a string, and a
plain one is what its text looks like: null, a boolean, an integer, a floating point number, or else
a string. Under a tag of its own, such as an exclamation mark alone, a scalar is read as without a
tag.
-/
namespace Raml.Yaml

/-- What the standard tags start with. -/
def standardTags : String := "tag:yaml.org,2002:"

/-- A node under a tag. A tag that starts with an exclamation mark is one of its own: that mark is
taken off, and the tag is given without the mark that may then come first. Any other tag adds
nothing. -/
def underTag (tag : Option String) (node : Node) : Node :=
  match tag with
  | some text =>
    if text.startsWith "!" then .tagged (Node.unmarked (Node.unmarked text)) node else node
  | none => node

namespace Scalar

/-- Whether a text spells null. -/
def isNull (text : String) : Bool :=
  text = "~" || text = "null" || text = "Null" || text = "NULL"

/-- The boolean that a text spells. -/
def bool? (text : String) : Option Bool :=
  if text = "true" || text = "True" || text = "TRUE" then some true
  else if text = "false" || text = "False" || text = "FALSE" then some false
  else none

/-- The base that a letter after a zero stands for. -/
def base? (letter : Char) : Option Nat :=
  match letter with
  | 'x' => some 16
  | 'o' => some 8
  | 'b' => some 2
  | _ => none

/-- Whether this is a row of decimal digits that starts with a needless zero. -/
def isPadded : List Char → Bool
  | '0' :: next :: rest => (next :: rest).all Char.isDigit
  | _ => false

/-- The magnitude of an integer: decimal digits without needless zeros, or a zero, the letter of a
base and digits in it. -/
def magnitude? (chars : List Char) : Option Nat :=
  match chars with
  | '0' :: letter :: digits =>
    match base? letter with
    | some base => Text.natural? base digits
    | none => none
  | digits => Text.natural? 10 digits

/-- The text after one sign. -/
def unsigned : List Char → List Char
  | '+' :: rest => rest
  | '-' :: rest => rest
  | chars => chars

/-- The integer that a text spells. -/
def integer? (chars : List Char) : Option Int :=
  (magnitude? (unsigned chars)).map fun value =>
    match chars with
    | '-' :: _ => -(value : Int)
    | _ => value

/-- Whether an integer fits into 64 bits, with or without a sign. -/
def isNarrow (value : Int) : Bool := -Nat.pow 2 63 ≤ value && value < Nat.pow 2 64

/-- Whether an integer fits into 128 bits, with or without a sign. -/
def isWide (value : Int) : Bool := -Nat.pow 2 127 ≤ value && value < Nat.pow 2 128

/-- The floating point number that a text spells: an infinity, the value that is no number, or a
decimal whose value is finite. -/
def float? (text : String) : Option Binary64 :=
  if text = ".nan" || text = ".NaN" || text = ".NAN" then some .nan
  else if text = "-.inf" || text = "-.Inf" || text = "-.INF" then some (.infinity true)
  else if text = ".inf" || text = ".Inf" || text = ".INF" || text = "+.inf" || text = "+.Inf" ||
    text = "+.INF" then some (.infinity false)
  else (Decimal.read? text.toList).filter Binary64.isFinite

/-- The value of a plain scalar without a tag. An integer of more than 64 bits is an error, unless
it has more than 128 bits; then it is a floating point number. -/
def plain? (text : String) : Option Node :=
  if text.isEmpty || isNull text then some .null
  else match bool? text with
    | some value => some (.bool value)
    | none =>
      match (integer? text.toList).filter isWide with
      | some value => if isNarrow value then some (.number (.int value)) else none
      | none =>
        let number := if isPadded (unsigned text.toList) then none else float? text
        some <| match number with
          | some value => .number (.float value)
          | none => .string text

/-- The value of a scalar without a tag. -/
def untagged? (plain : Bool) (text : String) : Option Node :=
  if plain then plain? text else some (.string text)

/-- The value of a scalar. A text that does not fit its standard tag is an error. -/
def value? (tag : Option String) (plain : Bool) (text : String) : Option Node :=
  match tag with
  | none => untagged? plain text
  | some tag =>
    if tag = standardTags ++ "bool" then (bool? text).map .bool
    else if tag = standardTags ++ "int" then
      ((integer? text.toList).filter isNarrow).map fun value => .number (.int value)
    else if tag = standardTags ++ "float" then
      (float? text).map fun value => .number (.float value)
    else if tag = standardTags ++ "null" then if isNull text then some .null else none
    else if tag.startsWith "!" then (untagged? plain text).map (underTag (some tag))
    else some (.string text)

end Scalar

end Raml.Yaml
