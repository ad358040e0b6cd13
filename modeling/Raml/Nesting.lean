import Raml.Entries.Weight
import Raml.Lift
import Raml.Property.Optional

/-!
# Nesting of inline declarations

The nesting of a node counts, at every depth, each entry under the key `properties` and the entries
that its mapping has. Reading and changing properties never adds to it, and the properties of a
lifted type have less of it than the property that they are lifted from. Resolution is bounded by
it.
-/
namespace Raml

open Entries (weight)

namespace Node

/-- The number of entries of a mapping. -/
def entryCount : Node → Nat
  | mapping entries => entries.length
  | _ => 0

/-- What an entry under the text of a key counts by itself. -/
def nestingOfKey (key : Option String) (value : Node) : Nat :=
  if key = some "properties" then 1 + value.entryCount else 0

mutual

/-- The nesting of a node. -/
def nesting : Node → Nat
  | sequence items => nestingOfItems items
  | mapping entries => nestingOfEntries entries
  | tagged _ value => nesting value
  | _ => 0

/-- The nesting of the items of a sequence. -/
def nestingOfItems : List Node → Nat
  | [] => 0
  | item :: rest => nesting item + nestingOfItems rest

/-- The nesting of the entries of a mapping. -/
def nestingOfEntries : List (Node × Node) → Nat
  | [] => 0
  | (key, value) :: rest =>
    nestingOfKey key.scalarText? value + nesting value + nestingOfEntries rest

end

end Node

/-- The nesting of a facet. -/
def Facets.nestingOfFacet (name : String) (value : Node) : Nat :=
  Node.nestingOfKey (some name) value + value.nesting

/-- The nesting of facets. -/
def Facets.nesting (facets : Facets) : Nat := weight nestingOfFacet facets.entries

/-- The nesting of a declared property; one that is never lifted has none. -/
def PropertyValue.nesting : PropertyValue → Nat
  | reference _ => 0
  | inline facets => facets.nesting
  | raw _ => 0

namespace Properties

/-- The nesting of a named property, the property itself counted. -/
def nestingOfProperty (_name : String) (value : PropertyValue) : Nat := 1 + value.nesting

/-- The nesting of named properties. -/
def nestingOfEntries (entries : List (String × PropertyValue)) : Nat :=
  weight nestingOfProperty entries

/-- The nesting of properties. -/
def nesting (properties : Properties) : Nat := nestingOfEntries properties.entries

end Properties

/-- A total over the entries of a mapping, each of which counts by the text of its key. -/
structure Node.Totals (count : Option String → Node → Nat) (total : List (Node × Node) → Nat) :
    Prop where
  /-- No entry counts nothing. -/
  nil : total [] = 0
  /-- The first entry counts besides the others. -/
  cons : ∀ key value rest,
    total ((key, value) :: rest) = count key.scalarText? value + total rest

/-- The nesting of a mapping is a total over its entries. -/
theorem Node.totals_nesting :
    Totals (fun key value => nestingOfKey key value + value.nesting) nestingOfEntries := by
  constructor
  · rw [nestingOfEntries]
  · intro key value rest
    rw [nestingOfEntries]

namespace Facets

section Totals

variable {count : Option String → Node → Nat} {total : List (Node × Node) → Nat}
  (totals : Node.Totals count total)

include totals

/-- The entries of a mapping count the same under the texts of the keys. -/
theorem weight_named {entries : List (Node × Node)} {found : List (String × Node)}
    (read : named entries = .ok found) :
    weight (fun name => count (some name)) found = total entries := by
  induction entries generalizing found with
  | nil =>
    simp only [named, Except.ok.injEq] at read
    rw [← read, weight, totals.nil]
  | cons entry rest ih =>
    obtain ⟨key, value⟩ := entry
    simp only [named] at read
    cases text : key.scalarText? with
    | none => simp [text] at read
    | some name =>
      cases others : named rest with
      | error cause => simp [text, others, Except.map] at read
      | ok later =>
        simp only [text, others, Except.map, Except.ok.injEq] at read
        rw [← read, weight, totals.cons, text, ih others]

/-- The facets of a mapping count at most what it counts. -/
theorem weight_ofMapping_le {entries : List (Node × Node)} {facets : Facets}
    (read : ofMapping entries = .ok facets) :
    weight (fun name => count (some name)) facets.entries ≤ total entries := by
  simp only [ofMapping] at read
  split at read
  · rename_i found named
    simp only [Except.ok.injEq] at read
    rw [← read, ← weight_named totals named]
    exact Entries.weight_ofList_le _ found
  · contradiction

/-- The mapping of facets counts what they count. -/
theorem weight_toMapping (facets : Facets) :
    weight (fun name => count (some name)) facets.entries = total facets.toMapping :=
  weight_named totals (named_toMapping facets.entries)

end Totals

/-- The facets of a mapping have at most its nesting. -/
theorem nesting_ofMapping_le {entries : List (Node × Node)} {facets : Facets}
    (read : ofMapping entries = .ok facets) : facets.nesting ≤ Node.nestingOfEntries entries :=
  weight_ofMapping_le Node.totals_nesting read

/-- The mapping of facets has their nesting. -/
theorem nesting_toMapping (facets : Facets) :
    Node.nestingOfEntries facets.toMapping = facets.nesting :=
  (weight_toMapping Node.totals_nesting facets).symm

/-- A facet other than `properties` with no declaration inside adds nothing. -/
theorem nesting_insert_le (facets : Facets) (name : String) (value : Node) :
    nesting (facets.insert name value) ≤ facets.nesting + nestingOfFacet name value :=
  Entries.weight_insert_le nestingOfFacet name value facets.entries

end Facets

namespace PropertyValue

/-- A declaration has at most the nesting of its node. -/
theorem nesting_ofNode_le {node : Node} {value : PropertyValue} (read : ofNode node = .ok value) :
    value.nesting ≤ node.nesting := by
  unfold ofNode at read
  split at read
  · simp only [Except.ok.injEq] at read
    simp [← read, nesting]
  · rename_i entries
    cases facets : Facets.ofMapping entries with
    | error cause => simp [facets, Except.map] at read
    | ok facets =>
      simp only [*, Except.map, Except.ok.injEq] at read
      rw [← read]
      exact Facets.nesting_ofMapping_le ‹_›
  · simp only [Except.ok.injEq] at read
    simp [← read, nesting]

/-- Making a property optional adds nothing. -/
theorem nesting_optional_le {value changed : PropertyValue}
    (optional : value.optional = .ok changed) : changed.nesting ≤ value.nesting := by
  cases value with
  | reference type =>
    simp only [PropertyValue.optional, Except.ok.injEq] at optional
    rw [← optional]
    simp [nesting, Facets.nesting, OrderedMap.insert, OrderedMap.empty, Entries.insert, weight,
      Facets.nestingOfFacet, Node.nestingOfKey, Node.nesting]
  | inline facets =>
    simp only [PropertyValue.optional, Except.ok.injEq] at optional
    rw [← optional]
    exact facets.nesting_insert_le "required" (.bool false)
  | raw node => simp [PropertyValue.optional] at optional

end PropertyValue

namespace Properties

section Reading

variable {measure : String → PropertyValue → Nat} (total : List (Node × Node) → Nat)
  (lighter : ∀ name key node rest value, PropertyValue.ofNode node = .ok value →
    measure name value + total rest ≤ total ((key, node) :: rest))

include lighter

/-- Named declarations count at most what their mapping counts, when each one counts at most what
it adds to the mapping. -/
theorem weight_read_le {entries : List (Node × Node)} {found : List (String × PropertyValue)}
    (reading : read entries = .ok found) : weight measure found ≤ total entries := by
  induction entries generalizing found with
  | nil =>
    simp only [read, Except.ok.injEq] at reading
    rw [← reading, weight]
    exact Nat.zero_le _
  | cons entry rest ih =>
    obtain ⟨key, node⟩ := entry
    simp only [read] at reading
    split at reading
    · contradiction
    · split at reading
      · contradiction
      · rename_i value declared
        cases later : read rest with
        | error cause => simp [later, Except.map] at reading
        | ok others =>
          simp only [later, Except.map, Except.ok.injEq] at reading
          rw [← reading, weight]
          exact Nat.le_trans (Nat.add_le_add_left (ih later) _)
            (lighter _ key node rest value declared)

/-- The properties of a mapping count at most what it counts, when each one counts at most what it
adds to the mapping. -/
theorem weight_ofMapping_le {entries : List (Node × Node)} {properties : Properties}
    (reading : ofMapping entries = .ok properties) :
    weight measure properties.entries ≤ total entries := by
  unfold ofMapping at reading
  cases found : read entries with
  | error cause => simp [found, Except.map] at reading
  | ok later =>
    simp only [found, Except.map, Except.ok.injEq] at reading
    rw [← reading]
    exact Nat.le_trans (Entries.weight_ofList_le measure later)
      (weight_read_le total lighter found)

end Reading

/-- The properties of a mapping have at most its nesting, and one for each entry. -/
theorem nesting_ofMapping_le {entries : List (Node × Node)} {properties : Properties}
    (reading : ofMapping entries = .ok properties) :
    properties.nesting ≤ entries.length + Node.nestingOfEntries entries := by
  refine weight_ofMapping_le (fun entries => entries.length + Node.nestingOfEntries entries)
    (fun name key node rest value declared => ?_) reading
  have small := PropertyValue.nesting_ofNode_le declared
  simp only [nestingOfProperty, Node.nestingOfEntries, List.length_cons]
  omega

section Weight

variable {measure : String → PropertyValue → Nat}
  (lighter : ∀ name renamed value changed, value.optional = .ok changed →
    measure renamed changed ≤ measure name value)

include lighter

/-- Changing one marked name adds no weight when making a property optional adds none. -/
theorem weight_unmark_le (properties : Properties) (name : String) :
    weight measure (properties.unmark name).reached.entries ≤
      weight measure properties.entries := by
  unfold unmark
  split
  · exact Nat.le_refl _
  · rename_i value found
    split
    · rename_i changed optional
      exact Entries.weight_rename_le measure found (lighter _ _ _ _ optional)
    · exact Entries.weight_erase_le measure name properties.entries

/-- Changing marked names adds no weight when making a property optional adds none. -/
theorem weight_each_unmark_le (names : List String) (properties : Properties) :
    weight measure (Attempt.each unmark names properties).reached.entries ≤
      weight measure properties.entries := by
  induction names generalizing properties with
  | nil => exact Nat.le_refl _
  | cons name rest ih =>
    have step := weight_unmark_le lighter properties name
    simp only [Attempt.each, Attempt.andThen]
    split
    · exact Nat.le_trans (ih _) step
    · exact step

/-- Changing every marked name adds no weight when making a property optional adds none. -/
theorem weight_unmarkAll_le (properties : Properties) :
    weight measure properties.unmarkAll.reached.entries ≤ weight measure properties.entries :=
  weight_each_unmark_le lighter _ properties

end Weight

/-- Changing every marked name adds nothing. -/
theorem nesting_unmarkAll_le (properties : Properties) :
    properties.unmarkAll.reached.nesting ≤ properties.nesting := by
  refine weight_unmarkAll_le (fun name renamed value changed optional => ?_) properties
  have small := PropertyValue.nesting_optional_le optional
  simp only [nestingOfProperty]
  omega

end Properties

namespace Lift

/-- Facets that refer to a type have at most the nesting that they had without the declaration. -/
theorem nesting_refer_le {facets : Facets} {nested : Node} (type : String)
    (found : facets.get? "properties" = some nested) :
    Facets.nesting (refer facets type) + 1 + nested.entryCount + nested.nesting ≤
      facets.nesting := by
  have removed := Entries.weight_erase Facets.nestingOfFacet
    (show Entries.get? "properties" facets.entries = _ from found)
  have written := Facets.nesting_insert_le (facets.erase "properties") "type" (.string type)
  simp only [Facets.nestingOfFacet, Node.nestingOfKey, Node.nesting] at removed written
  simp only [refer, Facets.nesting, OrderedMap.erase, ↓reduceIte, Option.some.injEq,
    String.reduceEq] at removed written ⊢
  omega

/-- The properties of an inline declaration have at most its nesting, and one for each entry. -/
theorem nesting_properties_le {owner property : String} {nested : Node} {found : Properties}
    (read : properties owner property nested = .ok found) :
    found.nesting ≤ nested.entryCount + nested.nesting := by
  unfold properties at read
  split at read
  · split at read
    · rename_i entries _ mapped
      simp only [Except.ok.injEq] at read
      rw [← read]
      simpa [Node.entryCount, Node.nesting] using Properties.nesting_ofMapping_le mapped
    · contradiction
  · contradiction

/-- The lifted type and the changed property together have less nesting than the property. -/
theorem nesting_object {owner property : String} {value : PropertyValue} {lift : Lift}
    (lifted : object owner property value = .ok (some lift)) :
    lift.declaration.properties.nesting + 1 + lift.value.nesting ≤ value.nesting := by
  cases value with
  | inline facets =>
    simp only [object] at lifted
    split at lifted
    · simp at lifted
    · rename_i nested found
      split at lifted
      · contradiction
      · rename_i inner read
        simp only [Except.ok.injEq, Option.some.injEq] at lifted
        rw [← lifted]
        have small := nesting_properties_le read
        have rest := nesting_refer_le (TypeName.synthesized owner property "") found
        simp only [Declaration.properties_ofParts, PropertyValue.nesting]
        omega
  | _ => simp [object] at lifted

/-- A mapping of items is the facet `items`. -/
theorem get?_of_items? {facets : Facets} {entries : List (Node × Node)}
    (found : items? facets = some entries) : facets.get? "items" = some (.mapping entries) := by
  simp only [items?] at found
  split at found
  · split at found
    · simp only [Option.some.injEq] at found
      simp_all
    · contradiction
  · contradiction

/-- The lifted type of an array's items and the changed property together have less nesting than
the property. -/
theorem nesting_item {owner property : String} {value : PropertyValue} {lift : Lift}
    (lifted : item owner property value = .ok (some lift)) :
    lift.declaration.properties.nesting + 1 + lift.value.nesting ≤ value.nesting := by
  cases value with
  | inline facets =>
    simp only [item] at lifted
    split at lifted
    · simp at lifted
    · rename_i entries found
      split at lifted
      · contradiction
      · rename_i items mapped
        split at lifted
        · simp at lifted
        · rename_i nested inside
          split at lifted
          · contradiction
          · rename_i inner read
            simp only [Except.ok.injEq, Option.some.injEq] at lifted
            rw [← lifted]
            have small := nesting_properties_le read
            have rest :=
              nesting_refer_le (TypeName.synthesized owner property TypeName.itemEnding) inside
            have whole := Facets.nesting_ofMapping_le mapped
            have present := get?_of_items? found
            have written := Entries.weight_insert_of_get? Facets.nestingOfFacet
              (.mapping (refer items
                (TypeName.synthesized owner property TypeName.itemEnding)).toMapping)
              (show Entries.get? "items" facets.entries = _ from present)
            simp only [Facets.nestingOfFacet, Node.nestingOfKey, Node.nesting,
              Facets.nesting_toMapping, Option.some.injEq, String.reduceEq, ↓reduceIte] at written
            simp only [Declaration.properties_ofParts, PropertyValue.nesting, Facets.nesting,
              OrderedMap.insert] at rest whole written ⊢
            omega
  | _ => simp [item] at lifted

end Lift

/-- The nesting of declarations, each counted twice with its properties. -/
def Declaration.totalNesting : List Declaration → Nat
  | [] => 0
  | declaration :: rest => 2 * declaration.properties.nesting + 2 + totalNesting rest

namespace Lifting

/-- The lifted types of a property and what is left of it together have at most its nesting. -/
theorem totalNesting_ofProperty_le (owner property : String) (value : PropertyValue) :
    Declaration.totalNesting (ofProperty owner property value).declarations +
      2 * (ofProperty owner property value).value.nesting ≤ 2 * value.nesting := by
  unfold ofProperty
  split
  · simp [Declaration.totalNesting]
  · rename_i object objectLift
    have first : Declaration.totalNesting (declarationsOf object) +
        2 * (valueAfter value object).nesting ≤ 2 * value.nesting := by
      cases object with
      | none => simp [declarationsOf, valueAfter, Declaration.totalNesting]
      | some lift =>
        have bound := Lift.nesting_object objectLift
        simp only [declarationsOf, valueAfter, Declaration.totalNesting]
        omega
    dsimp only
    split
    · exact first
    · rename_i item itemLift
      cases item with
      | none => simpa [declarationsOf, valueAfter] using first
      | some lift =>
        have second := Lift.nesting_item itemLift
        cases object with
        | none =>
          simp only [declarationsOf, valueAfter, Declaration.totalNesting, List.nil_append]
            at first second ⊢
          omega
        | some outer =>
          simp only [declarationsOf, valueAfter, Declaration.totalNesting, List.cons_append,
            List.nil_append] at first second ⊢
          omega

end Lifting

end Raml
