import Raml.Node

/-!
# Likeness of nodes

Two nodes are alike when they have the same value: numbers are compared by value, and mappings
without regard to the order of their entries. A mapping of a document has no two keys that are
alike.
-/
namespace Raml.Node

mutual

/-- Whether two nodes have the same value. -/
def alike : Node → Node → Bool
  | null, null => true
  | bool left, bool right => left == right
  | number left, number right => left.sameValue right
  | string left, string right => decide (left = right)
  | sequence left, sequence right => alikeItems left right
  | mapping left, mapping right => left.length == right.length && alikeEntries left right
  | tagged mark left, tagged other right => decide (mark = other) && alike left right
  | _, _ => false

/-- Whether two lists of nodes have the same values in the same order. -/
def alikeItems : List Node → List Node → Bool
  | [], [] => true
  | left :: others, right :: rest => alike left right && alikeItems others rest
  | _, _ => false

/-- Whether every entry has the values of some given entry. -/
def alikeEntries : List (Node × Node) → List (Node × Node) → Bool
  | [], _ => true
  | (key, value) :: rest, others =>
    others.any (fun entry => alike key entry.1 && alike value entry.2) && alikeEntries rest others

end

/-- Whether no two keys of entries are alike. -/
def distinctKeys : List (Node × Node) → Bool
  | [] => true
  | (key, _) :: rest => !rest.any (fun entry => alike key entry.1) && distinctKeys rest

end Raml.Node
