import Raml.Text.Case

/-!
# Names of types and properties

The name of a type that is lifted out of a property, and the mark of an optional name.
-/
namespace Raml.TypeName

/-- The name of the type lifted out of a property of an owner: the owner's name, the property's name
capitalized, and an ending. -/
def synthesized (owner property ending : String) : String :=
  owner ++ String.ofList (Text.capitalize property.toList) ++ ending

/-- The ending of the name of an array's item type. -/
def itemEnding : String := "Item"

/-- Whether a name carries the mark of an optional one. -/
def isOptional (name : String) : Bool := name.toList.getLast? = some '?'

/-- The name without the marks that it ends in. -/
def base (name : String) : String :=
  String.ofList (name.toList.reverse.dropWhile (· = '?')).reverse

/-- The name without one mark, when it ends in one. -/
def dropMark? (name : String) : Option String :=
  if isOptional name then some (String.ofList name.toList.dropLast) else none

end Raml.TypeName
