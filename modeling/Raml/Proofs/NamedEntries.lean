import Mathlib.Data.List.Forall2
import Raml.Proofs.ShapeCoding

/-!
# What a mapping is read as

Every entry of a mapping gives a named value, under the text of its key. The names of the result
stand where they first occur among the entries, and each has its last value. Facets and properties
are read in this way; they differ only in the value that the node of an entry gives.
-/
namespace Raml

universe u

namespace Node

/-- The text of a scalar: a string stands for itself, and booleans and numbers are written as in a
document. -/
inductive HasText : Node → String → Prop where
  | string (text : String) : HasText (.string text) text
  | bool (value : Bool) : HasText (.bool value) (if value then "true" else "false")
  | number (value : Number) : HasText (.number value) value.text

/-- A string, a boolean or a number that stands under no tag. -/
def IsScalar : Node → Prop
  | string _ | bool _ | number _ => True
  | _ => False

variable {node : Node} {text other : String}

/-- The text that is found is the one that the node has. -/
theorem scalarText?_eq_some : node.scalarText? = some text ↔ node.HasText text := by
  constructor
  · intro found
    cases node with
    | string own =>
      cases found
      exact .string _
    | bool value =>
      cases value
      · cases found
        exact .bool false
      · cases found
        exact .bool true
    | number value =>
      cases found
      exact .number value
    | _ => cases found
  · intro has
    cases has with
    | bool value => cases value <;> rfl
    | _ => rfl

/-- A node has one text at most. -/
theorem HasText.unique (has : node.HasText text) (also : node.HasText other) : text = other := by
  rw [← scalarText?_eq_some] at has also
  exact Option.some.inj (has.symm.trans also)

/-- The scalars are the nodes with a text. -/
theorem isScalar_iff : node.IsScalar ↔ ∃ text, node.HasText text := by
  constructor
  · intro scalar
    cases node with
    | string text => exact ⟨text, .string text⟩
    | bool value => exact ⟨_, .bool value⟩
    | number value => exact ⟨_, .number value⟩
    | _ => exact absurd scalar id
  · rintro ⟨_, has⟩
    cases has <;> trivial

/-- A node has no text exactly when it is no scalar. -/
theorem scalarText?_eq_none : node.scalarText? = none ↔ ¬node.IsScalar := by
  rw [isScalar_iff, not_exists, Option.eq_none_iff_forall_ne_some]
  exact forall_congr' fun _ => not_congr scalarText?_eq_some

/-- An entry gives a named value: under the text of its key, what its node is decoded to. -/
def Gives {α : Type u} (decodes : Node → α → Prop) (entry : Node × Node) (named : String × α) :
    Prop :=
  entry.1.HasText named.1 ∧ decodes entry.2 named.2

/-- Entries give named nodes exactly when their keys are scalars. -/
theorem exists_gives_iff {entries : List (Node × Node)} :
    (∃ named, List.Forall₂ (Gives Eq) entries named) ↔ ∀ entry ∈ entries, entry.1.IsScalar := by
  induction entries with
  | nil => simp
  | cons entry rest ih =>
    rw [List.forall_mem_cons, ← ih, isScalar_iff]
    constructor
    · rintro ⟨_, gives⟩
      cases gives with
      | cons own later => exact ⟨⟨_, own.1⟩, _, later⟩
    · rintro ⟨⟨text, has⟩, named, later⟩
      exact ⟨(text, entry.2) :: named, .cons ⟨has, rfl⟩ later⟩

end Node

/-- A map takes over named values: each name stands where it first occurs, and has its last
value. -/
structure OrderedMap.Merges {α : Type u} (map : OrderedMap α) (named : List (String × α)) :
    Prop where
  /-- The order of the names. -/
  places : map.keys = (Entries.keys named).eraseDups
  /-- The value of a name. -/
  last : ∀ name, map.get? name = Entries.get? name named.reverse

/-- Named values are merged into their map and into no other one. -/
theorem OrderedMap.merges_iff {α : Type u} {map : OrderedMap α} {named : List (String × α)} :
    map.Merges named ↔ ofList named = map := by
  constructor
  · rintro ⟨places, last⟩
    have names : (ofList named).keys = map.keys := (keys_ofList named).trans places.symm
    have values (name : String) : (ofList named).get? name = map.get? name :=
      (get?_ofList named name).trans (last name).symm
    exact ext (Entries.eq_of_get? (ofList named).distinct names values)
  · rintro rfl
    exact ⟨keys_ofList named, get?_ofList named⟩

namespace Facets

/-- The entries of a mapping give the named nodes that are found. -/
theorem named_eq_ok {entries : List (Node × Node)} {found : List (String × Node)} :
    named entries = .ok found ↔ List.Forall₂ (Node.Gives Eq) entries found := by
  induction entries generalizing found with
  | nil => simp [named, eq_comm]
  | cons entry rest ih =>
    obtain ⟨key, node⟩ := entry
    rw [named, List.forall₂_cons_left_iff]
    constructor
    · intro read
      cases text : key.scalarText? with
      | none => simp [text] at read
      | some name =>
        simp only [text] at read
        obtain ⟨others, later, rfl⟩ := map_eq_ok.mp read
        exact ⟨(name, node), others, ⟨Node.scalarText?_eq_some.mp text, rfl⟩, ih.mp later, rfl⟩
    · rintro ⟨⟨name, value⟩, others, ⟨has, rfl⟩, later, rfl⟩
      simp only [Node.scalarText?_eq_some.mpr has]
      exact map_eq_ok.mpr ⟨others, ih.mpr later, rfl⟩

/-- A mapping is read as the facets that take over the nodes of its entries. -/
theorem ofMapping_eq_ok {entries : List (Node × Node)} {facets : Facets} :
    ofMapping entries = .ok facets ↔
      ∃ found, List.Forall₂ (Node.Gives Eq) entries found ∧ facets.Merges found := by
  simp only [← named_eq_ok, OrderedMap.merges_iff, ofMapping]
  cases named entries <;> simp

end Facets

namespace Properties

/-- A node declares a property. -/
def Declares (node : Node) (value : PropertyValue) : Prop := PropertyValue.ofNode node = .ok value

/-- The entries of a mapping give the declarations that are read. -/
theorem read_eq_ok {entries : List (Node × Node)} {found : List (String × PropertyValue)} :
    read entries = .ok found ↔ List.Forall₂ (Node.Gives Declares) entries found := by
  induction entries generalizing found with
  | nil => simp [read, eq_comm]
  | cons entry rest ih =>
    obtain ⟨key, node⟩ := entry
    rw [read_cons_eq_ok, List.forall₂_cons_left_iff]
    constructor
    · rintro ⟨name, value, others, text, declares, later, rfl⟩
      exact ⟨(name, value), others, ⟨Node.scalarText?_eq_some.mp text, declares⟩, ih.mp later, rfl⟩
    · rintro ⟨⟨name, value⟩, others, ⟨has, declares⟩, later, rfl⟩
      exact ⟨name, value, others, Node.scalarText?_eq_some.mpr has, declares, ih.mpr later, rfl⟩

/-- A mapping is read as the properties that take over the declarations of its entries. -/
theorem ofMapping_eq_ok {entries : List (Node × Node)} {properties : Properties} :
    ofMapping entries = .ok properties ↔
      ∃ found, List.Forall₂ (Node.Gives Declares) entries found ∧ properties.Merges found := by
  simp only [← read_eq_ok, OrderedMap.merges_iff, ofMapping]
  exact map_eq_ok

end Properties

end Raml
