/-!
# Trees of YAML text

A tree is what the tokens of a document make up before its anchors are followed and its scalars and
tags are given a meaning.
-/
namespace Raml.Yaml

universe u

/-- What may stand in front of a node: an anchor and a tag. -/
structure Marks (ι : Type u) where
  /-- The name of the node for later references. -/
  anchor : Option ι
  /-- The tag of the node. -/
  tag : Option String
  deriving DecidableEq

/-- The tree of a document whose anchors are known by `ι`. -/
inductive Tree (ι : Type u) where
  /-- The node of an anchor once more. -/
  | reference (target : ι)
  /-- A scalar, plain or with marks of its own. -/
  | scalar (marks : Marks ι) (plain : Bool) (text : String)
  | sequence (marks : Marks ι) (items : List (Tree ι))
  | mapping (marks : Marks ι) (entries : List (Tree ι × Tree ι))

namespace Tree

variable {ι : Type u}

/-- A scalar of which nothing is written. -/
def empty (marks : Marks ι) : Tree ι := scalar marks true ""

mutual

/-- The number of scalars, references and bounds of collections. -/
def weight : Tree ι → Nat
  | reference _ => 1
  | scalar _ _ _ => 1
  | sequence _ items => itemsWeight items + 2
  | mapping _ entries => entriesWeight entries + 2

/-- The number of scalars, references and bounds in items. -/
def itemsWeight : List (Tree ι) → Nat
  | [] => 0
  | item :: rest => weight item + itemsWeight rest

/-- The number of scalars, references and bounds in entries. -/
def entriesWeight : List (Tree ι × Tree ι) → Nat
  | [] => 0
  | (key, value) :: rest => weight key + weight value + entriesWeight rest

end

end Tree

end Raml.Yaml
