import Raml.Json
import Raml.Text.Quoted

/-!
# Text of JSON values

A value is written without blanks. In a string the quote, the backslash and the controls are written
by escapes, and everything else as it is.
-/
namespace Raml.JsonValue

/-- The written form of a character in a string. -/
def escapeChar (char : Char) : List Char :=
  if char = '"' then ['\\', '"']
  else if char = '\\' then ['\\', '\\']
  else if char.toNat = 8 then ['\\', 'b']
  else if char.toNat = 12 then ['\\', 'f']
  else if char = '\n' then ['\\', 'n']
  else if char = '\r' then ['\\', 'r']
  else if char = '\t' then ['\\', 't']
  else if char.toNat < 16 then ['\\', 'u', '0', '0', '0'] ++ Text.hexDigits char.toNat
  else if char.toNat < 32 then ['\\', 'u', '0', '0'] ++ Text.hexDigits char.toNat
  else [char]

/-- The written form of a string. -/
def stringText (text : String) : String :=
  "\"" ++ String.ofList (text.toList.flatMap escapeChar) ++ "\""

mutual

/-- The written form of a value. -/
def text : JsonValue → String
  | null => "null"
  | bool true => "true"
  | bool false => "false"
  | number value => value.render Number.jsonLayout
  | string text => stringText text
  | array items => "[" ++ ",".intercalate (itemTexts items) ++ "]"
  | object members => "\x7b" ++ ",".intercalate (memberTexts members) ++ "\x7d"

/-- The written forms of items. -/
def itemTexts : List JsonValue → List String
  | [] => []
  | item :: rest => text item :: itemTexts rest

/-- The written forms of members. -/
def memberTexts : List (String × JsonValue) → List String
  | [] => []
  | (name, value) :: rest => (stringText name ++ ":" ++ text value) :: memberTexts rest

end

end Raml.JsonValue
