import Raml.Number.Decimal

/-!
# Numbers of documents

A number of a document or a schema is an integer or a binary floating point number; the two are told
apart even where their values agree.
-/
namespace Raml

/-- A number. -/
inductive Number where
  /-- An integer. -/
  | int (value : Int)
  /-- A floating point number. -/
  | float (value : Binary64)
  deriving DecidableEq, Repr

namespace Number

/-- Floating point numbers in documents: no exponent from `0.00001` up to sixteen digits before the
point, and the words of YAML. -/
def documentLayout : FloatLayout :=
  ⟨fun point => -5 < point && point ≤ 16, "", ".nan", ".inf", .even⟩

/-- Floating point numbers in messages about a wrong type: never an exponent. -/
def plainLayout : FloatLayout := ⟨fun _ => true, "", "NaN", "inf", .up⟩

/-- Floating point numbers in JSON text. -/
def jsonLayout : FloatLayout :=
  ⟨fun point => -5 < point && point ≤ 16, "+", "null", "null", .even⟩

/-- The text of a number, with floating point numbers as a layout says. -/
def render (layout : FloatLayout) : Number → String
  | int value => toString value
  | float value => layout.text value

/-- The text of a number in a document. -/
def text (number : Number) : String := number.render documentLayout

/-- The nearest floating point number. -/
def toBinary64 : Number → Binary64
  | int value => .ofInt value
  | float value => value

/-- Whether this is a floating point number. -/
def isFloat : Number → Bool
  | float _ => true
  | int _ => false

/-- Equality of numbers as keys: by value, integers apart from floating point numbers. -/
def sameValue : Number → Number → Bool
  | int left, int right => left = right
  | float left, float right => left.sameValue right
  | _, _ => false

end Number

end Raml
