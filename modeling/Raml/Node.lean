import Raml.Number

/-!
# Document nodes

A node is what a YAML document holds: a scalar, a sequence, a mapping, or a node under a tag of its
own. A mapping keeps the order of its entries, and any node may be a key.
-/
namespace Raml

/-- A node of a document. -/
inductive Node where
  | null
  | bool (value : Bool)
  | number (value : Number)
  | string (text : String)
  | sequence (items : List Node)
  | mapping (entries : List (Node × Node))
  /-- A node under a tag, which is given without the mark that it is written with. -/
  | tagged (tag : String) (value : Node)
  deriving Inhabited, Repr

namespace Node

mutual

/-- Whether two nodes are the same. -/
def same : Node → Node → Bool
  | null, null => true
  | bool left, bool right => left == right
  | number left, number right => decide (left = right)
  | string left, string right => decide (left = right)
  | sequence left, sequence right => sameItems left right
  | mapping left, mapping right => sameEntries left right
  | tagged mark left, tagged other right => decide (mark = other) && same left right
  | _, _ => false

/-- Whether two lists of nodes are the same. -/
def sameItems : List Node → List Node → Bool
  | [], [] => true
  | left :: others, right :: rest => same left right && sameItems others rest
  | _, _ => false

/-- Whether two lists of entries are the same. -/
def sameEntries : List (Node × Node) → List (Node × Node) → Bool
  | [], [] => true
  | (key, left) :: others, (name, right) :: rest =>
    same key name && same left right && sameEntries others rest
  | _, _ => false

end

mutual

/-- The test finds equal nodes and no others. -/
theorem same_iff : ∀ {left right : Node}, same left right = true ↔ left = right
  | null, right => by cases right <;> simp [same]
  | bool left, right => by cases right <;> simp [same]
  | number left, right => by cases right <;> simp [same]
  | string left, right => by cases right <;> simp [same]
  | sequence left, right => by cases right <;> simp [same, sameItems_iff]
  | mapping left, right => by cases right <;> simp [same, sameEntries_iff]
  | tagged mark left, right => by cases right <;> simp [same, @same_iff left]

/-- The test finds equal lists of items and no others. -/
theorem sameItems_iff : ∀ {left right : List Node}, sameItems left right = true ↔ left = right
  | [], right => by cases right <;> simp [sameItems]
  | item :: others, right => by
    cases right <;> simp [sameItems, @same_iff item, @sameItems_iff others]

/-- The test finds equal lists of entries and no others. -/
theorem sameEntries_iff : ∀ {left right : List (Node × Node)},
    sameEntries left right = true ↔ left = right
  | [], right => by cases right <;> simp [sameEntries]
  | (key, value) :: others, right => by
    cases right with
    | nil => simp [sameEntries]
    | cons entry rest =>
      obtain ⟨name, other⟩ := entry
      simp [sameEntries, @same_iff key, @same_iff value,
        @sameEntries_iff others]

end

/-- Nodes are compared by the test. -/
instance : DecidableEq Node := fun _ _ => decidable_of_iff _ same_iff

/-- The mark of the tag of a node, as messages name it: a tag of its own, or the standard tag of its
kind. -/
def longTag : Node → String
  | null => "tag:yaml.org,2002:null"
  | bool _ => "tag:yaml.org,2002:bool"
  | number value => if value.isFloat then "tag:yaml.org,2002:float" else "tag:yaml.org,2002:int"
  | string _ => "tag:yaml.org,2002:str"
  | sequence _ => "tag:yaml.org,2002:seq"
  | mapping _ => "tag:yaml.org,2002:map"
  | tagged tag _ => "!" ++ tag

/-- A tag without the mark that it is written with; a mark alone stands for itself. -/
def unmarked (tag : String) : String :=
  match tag.toList with
  | '!' :: first :: rest => String.ofList (first :: rest)
  | _ => tag

/-- The text of a scalar: a string, a boolean or a number. -/
def scalarText? : Node → Option String
  | string text => some text
  | bool true => some "true"
  | bool false => some "false"
  | number value => some value.text
  | _ => none

/-- The node under all tags. -/
def untagged : Node → Node
  | tagged _ value => untagged value
  | node => node

mutual

/-- Whether a tag stands anywhere in a node. -/
def hasTag : Node → Bool
  | tagged _ _ => true
  | sequence items => anyTag items
  | mapping entries => anyTagIn entries
  | _ => false

/-- Whether a tag stands anywhere in nodes. -/
def anyTag : List Node → Bool
  | [] => false
  | item :: rest => hasTag item || anyTag rest

/-- Whether a tag stands anywhere in entries. -/
def anyTagIn : List (Node × Node) → Bool
  | [] => false
  | (key, value) :: rest => hasTag key || hasTag value || anyTagIn rest

end

/-- The entry of a mapping, under tags or not, whose key is a string with a given text. -/
def get? (key : String) (node : Node) : Option Node :=
  match node.untagged with
  | mapping entries => (entries.find? fun entry => decide (entry.1 = string key)).map Prod.snd
  | _ => none

/-- The text of a string, under tags or not. -/
def string? (node : Node) : Option String :=
  match node.untagged with
  | string text => some text
  | _ => none

/-- The value of a boolean, under tags or not. -/
def bool? (node : Node) : Option Bool :=
  match node.untagged with
  | bool value => some value
  | _ => none

/-- Whether this is a null, under tags or not. -/
def isNull (node : Node) : Bool :=
  match node.untagged with
  | null => true
  | _ => false

end Node

end Raml
