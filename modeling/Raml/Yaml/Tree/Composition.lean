import Raml.Node.Likeness
import Raml.Yaml.Scalar.Value
import Raml.Yaml.Tree.Anchors

/-!
# Nodes of trees

A tree is composed to a node: scalars get their values, references become the nodes that they stand
for, and tags of their own are put on. Collections may be nested 128 deep, so that a reference to a
node around it is refused. A document may follow at most a hundred references for every part of its
tree.
-/
namespace Raml.Yaml.Tree

/-- A computation that may fail and counts down how many references may still be followed. -/
abbrev Composing := StateT Nat Option

/-- Follow a reference, if one is left. -/
def follow (targets : List (Nat × Tree Nat)) (tree : Tree Nat) : Composing (Tree Nat) :=
  match tree with
  | reference number => fun left =>
    match left with
    | 0 => none
    | left + 1 => (target? targets number).map (·, left)
  | other => pure other

/-- The node of a tree whose collections may be nested as deep as a number says. -/
def compose (targets : List (Nat × Tree Nat)) : Nat → Tree Nat → Composing Node
  | depth, tree => do
    match depth, ← follow targets tree with
    | _, scalar marks plain text => liftM (Scalar.value? marks.tag plain text)
    | depth + 1, sequence marks items =>
      let nodes ← items.mapM (compose targets depth)
      return underTag marks.tag (.sequence nodes)
    | depth + 1, mapping marks entries =>
      let nodes ← entries.mapM fun (key, value) => do
        return (← compose targets depth key, ← compose targets depth value)
      if Node.distinctKeys nodes then return underTag marks.tag (.mapping nodes) else failure
    | _, _ => failure

/-- How deep collections may be nested. -/
def greatestDepth : Nat := 128

/-- How many references may be followed for every part of a tree. -/
def referencesPerPart : Nat := 100

/-- The node of a tree. -/
def toNode? (tree : Tree String) : Option Node := do
  let tree ← tree.numbered?
  let (node, _) ← compose tree.anchored greatestDepth tree (referencesPerPart * tree.weight)
  return node

end Raml.Yaml.Tree
