import Raml.Node
import Raml.OrderedMap

/-!
# Facets

Facets are named nodes in order: the entries of a mapping whose keys are scalars, under the texts of
the keys. Of two keys with one text the first gives the place and the last the value.
-/
namespace Raml

/-- Named nodes in order. -/
abbrev Facets := OrderedMap Node

/-- A key of a mapping that is no scalar. -/
inductive KeyError where
  /-- In a mapping of facets. -/
  | facet (key : Node)
  /-- In a mapping of properties. -/
  | property (key : Node)
  deriving DecidableEq

namespace KeyError

/-- What is wrong, in words. -/
def message : KeyError → String
  | facet key => "mapping key must be a scalar, found " ++ key.longTag
  | property key => "property name must be a scalar, found " ++ key.longTag

end KeyError

namespace Facets

/-- The entries of a mapping under the texts of their keys, or the first key without a text. -/
def named : List (Node × Node) → Except Node (List (String × Node))
  | [] => .ok []
  | (key, value) :: rest =>
    match key.scalarText? with
    | none => .error key
    | some name => (named rest).map ((name, value) :: ·)

/-- The facets of a mapping. -/
def ofMapping (entries : List (Node × Node)) : Except KeyError Facets :=
  match named entries with
  | .ok entries => .ok (OrderedMap.ofList entries)
  | .error key => .error (.facet key)

/-- The mapping of facets, with strings as keys. -/
def toMapping (facets : Facets) : List (Node × Node) :=
  facets.entries.map fun entry => (.string entry.1, entry.2)

/-- Every entry of a mapping of facets has its name as its text. -/
theorem named_toMapping (entries : List (String × Node)) :
    named (entries.map fun entry => (.string entry.1, entry.2)) = .ok entries := by
  induction entries with
  | nil => rfl
  | cons entry rest ih => simp [named, Node.scalarText?, ih, Except.map]

end Facets

end Raml
