import Raml.Node.Likeness

/-!
# Coding of nodes

A declaration is decoded from nodes and encoded as nodes. Either way every tag whose text starts
with a further exclamation mark loses that mark, unless nothing else is left of it. By this two keys
of a mapping may become alike. Decoding refuses such a mapping; encoding gives the keys one entry,
which has the place of the first and the value of the last.
-/
namespace Raml.Node

mutual

/-- The node that a node is decoded to, unless two keys of a mapping become alike. -/
def decoded? : Node → Option Node
  | sequence items => (decodedItems? items).map sequence
  | mapping entries => ((decodedEntries? entries).filter distinctKeys).map mapping
  | tagged tag value => (decoded? value).map (tagged (unmarked tag))
  | node => some node

/-- The nodes that several nodes are decoded to. -/
def decodedItems? : List Node → Option (List Node)
  | [] => some []
  | item :: rest => do
    let item ← decoded? item
    let rest ← decodedItems? rest
    return item :: rest

/-- The entries that several entries are decoded to. -/
def decodedEntries? : List (Node × Node) → Option (List (Node × Node))
  | [] => some []
  | (key, value) :: rest => do
    let key ← decoded? key
    let value ← decoded? value
    let rest ← decodedEntries? rest
    return (key, value) :: rest

end

/-- Write a value under a key: in the place of the first key that is alike, or at the end. -/
def write (key value : Node) : List (Node × Node) → List (Node × Node)
  | [] => [(key, value)]
  | (name, old) :: rest =>
    if alike name key then (name, value) :: rest else (name, old) :: write key value rest

/-- The entries with one entry for all keys that are alike. -/
def merged (entries : List (Node × Node)) : List (Node × Node) :=
  entries.foldl (fun written entry => write entry.1 entry.2 written) []

mutual

/-- The node that a node is encoded as. -/
def encoded : Node → Node
  | sequence items => sequence (encodedItems items)
  | mapping entries => mapping (merged (encodedEntries entries))
  | tagged tag value => tagged (unmarked tag) (encoded value)
  | node => node

/-- The nodes that several nodes are encoded as. -/
def encodedItems : List Node → List Node
  | [] => []
  | item :: rest => encoded item :: encodedItems rest

/-- The entries that several entries are encoded as, also where keys become alike. -/
def encodedEntries : List (Node × Node) → List (Node × Node)
  | [] => []
  | (key, value) :: rest => (encoded key, encoded value) :: encodedEntries rest

end

/-- Entries are encoded one by one. -/
theorem encodedEntries_eq_map (entries : List (Node × Node)) :
    encodedEntries entries = entries.map fun entry => (encoded entry.1, encoded entry.2) := by
  induction entries with
  | nil => rfl
  | cons entry rest ih => simp [encodedEntries, ih]

end Raml.Node
