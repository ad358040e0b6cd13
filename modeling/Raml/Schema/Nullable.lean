import Raml.Json

/-!
# Nullable schemas

A schema that is flagged `nullable` or `x-nullable` loses both flags and has `null` added to its
type. Without a type, or with one that is neither a name nor a list, only the flags go. Every object
is treated as a schema.
-/
namespace Raml.Schema

open JsonValue

/-- Whether a flag is set. -/
def hasFlag (name : String) (members : List (String × JsonValue)) : Bool :=
  (Entries.get? name members).bind bool? = some true

/-- A type that also admits null. -/
def admitNull : JsonValue → JsonValue
  | .string name => if name = "null" then .string name else .array [.string name, .string "null"]
  | .array names =>
    if names.any fun name => name.string? = some "null" then .array names
    else .array (names ++ [.string "null"])
  | other => other

/-- The members of a schema whose flag is turned into a type. -/
def admitNullIfFlagged (members : List (String × JsonValue)) : List (String × JsonValue) :=
  if hasFlag "nullable" members || hasFlag "x-nullable" members then
    let rest := Entries.swapErase "x-nullable" (Entries.swapErase "nullable" members)
    match Entries.get? "type" rest with
    | some type => Entries.insert "type" (admitNull type) rest
    | none => rest
  else members

mutual

/-- Turn the flags of a value into types. -/
def admitNulls : JsonValue → JsonValue
  | .array items => .array (admitNullsItems items)
  | .object members => .object (admitNullIfFlagged (admitNullsMembers members))
  | other => other

/-- Turn the flags of every item into types. -/
def admitNullsItems : List JsonValue → List JsonValue
  | [] => []
  | item :: rest => admitNulls item :: admitNullsItems rest

/-- Turn the flags of every member into types. -/
def admitNullsMembers : List (String × JsonValue) → List (String × JsonValue)
  | [] => []
  | (name, value) :: rest => (name, admitNulls value) :: admitNullsMembers rest

end

end Raml.Schema
