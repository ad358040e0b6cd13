import Raml.Text.Case
import Raml.Text.PrintableTable

/-!
# Quoted text in messages

A text in a message stands between double quotes. A quote, a backslash and the usual controls are
written by a backslash and one character; every other character without a visible form of its own
is written by its number.
-/
namespace Raml.Text

/-- Hexadecimal digits in lowercase, without leading zeros. -/
def hexDigits (value : Nat) : List Char := Nat.toDigits 16 value

/-- Whether a character is written as it is. -/
def isVisible (char : Char) : Bool :=
  let code := char.toNat
  if code < 128 then 32 ≤ code && code < 127
  else !inRanges extendingRanges code && !inRanges unprintableRanges code

/-- The written form of a character between quotes. -/
def quoteChar (char : Char) : List Char :=
  if char = '"' then ['\\', '"']
  else if char = '\\' then ['\\', '\\']
  else if char = '\n' then ['\\', 'n']
  else if char = '\r' then ['\\', 'r']
  else if char = '\t' then ['\\', 't']
  else if char.toNat = 0 then ['\\', '0']
  else if isVisible char then [char]
  else ['\\', 'u', Char.ofNat 123] ++ hexDigits char.toNat ++ [Char.ofNat 125]

/-- A text between quotes. -/
def quoted (text : String) : String :=
  "\"" ++ String.ofList (text.toList.flatMap quoteChar) ++ "\""

end Raml.Text
