import Raml.Entries
import Raml.Yaml.Tree

/-!
# Anchors

The anchors of a document are numbered in the order of the text. A new anchor has as its number how
many names are known, also when its own name is known already and gets a new number by that. A
reference goes to the number that its name has at that place, and the node of a number is the last
one that has it.
-/
namespace Raml.Yaml.Tree

/-- The numbers of the names that are known. -/
abbrev Numbering := List (String × Nat)

/-- The numbered marks of a node, and the names that are known after them. -/
def numberMarks (marks : Marks String) (known : Numbering) : Marks Nat × Numbering :=
  match marks.anchor with
  | none => (⟨none, marks.tag⟩, known)
  | some name => (⟨some known.length, marks.tag⟩, Entries.insert name known.length known)

mutual

/-- The tree with numbers for names, and the names that are known after it. A name has to be known
before a reference to it. -/
def number? : Tree String → Numbering → Option (Tree Nat × Numbering)
  | reference name, known => (Entries.get? name known).map fun target => (reference target, known)
  | scalar marks plain text, known =>
    let (marks, known) := numberMarks marks known
    some (scalar marks plain text, known)
  | sequence marks items, known =>
    let (marks, known) := numberMarks marks known
    (numberItems? items known).map fun (items, known) => (sequence marks items, known)
  | mapping marks entries, known =>
    let (marks, known) := numberMarks marks known
    (numberEntries? entries known).map fun (entries, known) => (mapping marks entries, known)

/-- Items with numbers for names, and the names that are known after them. -/
def numberItems? : List (Tree String) → Numbering → Option (List (Tree Nat) × Numbering)
  | [], known => some ([], known)
  | item :: rest, known => do
    let (item, known) ← number? item known
    let (rest, known) ← numberItems? rest known
    return (item :: rest, known)

/-- Entries with numbers for names, and the names that are known after them. -/
def numberEntries? :
    List (Tree String × Tree String) → Numbering → Option (List (Tree Nat × Tree Nat) × Numbering)
  | [], known => some ([], known)
  | (key, value) :: rest, known => do
    let (key, known) ← number? key known
    let (value, known) ← number? value known
    let (rest, known) ← numberEntries? rest known
    return ((key, value) :: rest, known)

end

/-- The tree with numbers for names. -/
def numbered? (tree : Tree String) : Option (Tree Nat) := (tree.number? []).map Prod.fst

mutual

/-- The nodes that have anchors, in the order of the text. -/
def anchored : Tree Nat → List (Nat × Tree Nat)
  | reference _ => []
  | scalar marks plain text => (marks.anchor.map (·, scalar marks plain text)).toList
  | sequence marks items =>
    (marks.anchor.map (·, sequence marks items)).toList ++ anchoredItems items
  | mapping marks entries =>
    (marks.anchor.map (·, mapping marks entries)).toList ++ anchoredEntries entries

/-- The nodes in items that have anchors. -/
def anchoredItems : List (Tree Nat) → List (Nat × Tree Nat)
  | [] => []
  | item :: rest => anchored item ++ anchoredItems rest

/-- The nodes in entries that have anchors. -/
def anchoredEntries : List (Tree Nat × Tree Nat) → List (Nat × Tree Nat)
  | [] => []
  | (key, value) :: rest => anchored key ++ anchored value ++ anchoredEntries rest

end

/-- The node of a number. -/
def target? (anchored : List (Nat × Tree Nat)) (number : Nat) : Option (Tree Nat) :=
  anchored.reverse.lookup number

end Raml.Yaml.Tree
