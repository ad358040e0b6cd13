import Raml.Nesting
import Raml.Proofs.Lift
import Raml.Proofs.Trace

/-!
# The number of inline declarations

Every mapping under a key `properties`, at any depth inside the properties of a type, may become a
type of its own, and nothing else may. Reading and changing properties adds no such mapping, and a
lift takes the one that it lifts away. So a resolution creates at most as many types as there are
such mappings in the properties of the resolved type.
-/
namespace Raml

open Entries (weight)

namespace Node

/-- A mapping under the text `properties` counts once. -/
def inlineOfKey (key : Option String) : Node → Nat
  | mapping _ => if key = some "properties" then 1 else 0
  | _ => 0

mutual

/-- The number of mappings under keys `properties` inside a node. -/
def inlineCount : Node → Nat
  | sequence items => inlineCountOfItems items
  | mapping entries => inlineCountOfEntries entries
  | tagged _ value => inlineCount value
  | _ => 0

/-- The number of mappings under keys `properties` inside the items of a sequence. -/
def inlineCountOfItems : List Node → Nat
  | [] => 0
  | item :: rest => inlineCount item + inlineCountOfItems rest

/-- The number of mappings under keys `properties` among and inside the entries of a mapping. -/
def inlineCountOfEntries : List (Node × Node) → Nat
  | [] => 0
  | (key, value) :: rest =>
    inlineOfKey key.scalarText? value + inlineCount value + inlineCountOfEntries rest

end

/-- The count of a mapping is a total over its entries. -/
theorem totals_inlineCount :
    Totals (fun key value => inlineOfKey key value + value.inlineCount) inlineCountOfEntries := by
  constructor
  · rw [inlineCountOfEntries]
  · intro key value rest
    rw [inlineCountOfEntries]

end Node

namespace Facets

/-- What a facet counts. -/
def inlineOfFacet (name : String) (value : Node) : Nat :=
  Node.inlineOfKey (some name) value + value.inlineCount

/-- The number of mappings under names `properties` among and inside facets. -/
def inlineCount (facets : Facets) : Nat := weight inlineOfFacet facets.entries

/-- The facets of a mapping count at most what it counts. -/
theorem inlineCount_ofMapping_le {entries : List (Node × Node)} {facets : Facets}
    (read : ofMapping entries = .ok facets) :
    facets.inlineCount ≤ Node.inlineCountOfEntries entries :=
  weight_ofMapping_le Node.totals_inlineCount read

/-- The mapping of facets counts what they count. -/
theorem inlineCount_toMapping (facets : Facets) :
    Node.inlineCountOfEntries facets.toMapping = facets.inlineCount :=
  (weight_toMapping Node.totals_inlineCount facets).symm

/-- A facet that is no mapping adds nothing when it is written. -/
theorem inlineCount_insert_le (facets : Facets) (name : String) {value : Node}
    (plain : value.inlineCount = 0) (other : ∀ entries, value ≠ .mapping entries) :
    inlineCount (facets.insert name value) ≤ facets.inlineCount := by
  have own : inlineOfFacet name value = 0 := by
    cases value with
    | mapping entries => exact absurd rfl (other entries)
    | _ => simpa [inlineOfFacet, Node.inlineOfKey] using plain
  have written := Entries.weight_insert_le inlineOfFacet name value facets.entries
  rw [own] at written
  exact written

end Facets

namespace PropertyValue

/-- The number of mappings under keys `properties` inside the declaration of a property. -/
def inlineCount (value : PropertyValue) : Nat := value.toNode.inlineCount

/-- Inline facets count what their mapping counts. -/
@[simp]
theorem inlineCount_inline (facets : Facets) :
    (inline facets).inlineCount = facets.inlineCount := by
  rw [inlineCount, toNode, Node.inlineCount, Facets.inlineCount_toMapping]

/-- A declaration counts at most what its node counts. -/
theorem inlineCount_ofNode_le {node : Node} {value : PropertyValue}
    (read : ofNode node = .ok value) : value.inlineCount ≤ node.inlineCount := by
  unfold ofNode at read
  split at read
  · simp only [Except.ok.injEq] at read
    exact Nat.le_of_eq (by rw [← read, inlineCount, toNode])
  · rename_i entries
    cases mapped : Facets.ofMapping entries with
    | error cause => simp [mapped, Except.map] at read
    | ok facets =>
      simp only [mapped, Except.map, Except.ok.injEq] at read
      rw [← read, inlineCount_inline, Node.inlineCount]
      exact Facets.inlineCount_ofMapping_le mapped
  · simp only [Except.ok.injEq] at read
    exact Nat.le_of_eq (by rw [← read, inlineCount, toNode])

/-- Making a property optional adds nothing. -/
theorem inlineCount_optional_le {value changed : PropertyValue}
    (optional : value.optional = .ok changed) : changed.inlineCount ≤ value.inlineCount := by
  have flag (facets : Facets) :
      Facets.inlineCount (facets.insert "required" (.bool false)) ≤ facets.inlineCount :=
    facets.inlineCount_insert_le "required" (by simp [Node.inlineCount]) (by simp)
  cases value with
  | reference type =>
    simp only [PropertyValue.optional, Except.ok.injEq] at optional
    rw [← optional, inlineCount_inline]
    refine Nat.le_trans (flag _) (Nat.le_trans (Facets.inlineCount_insert_le _ "type" ?_ ?_) ?_)
    · simp [Node.inlineCount]
    · simp
    · exact Nat.zero_le _
  | inline facets =>
    simp only [PropertyValue.optional, Except.ok.injEq] at optional
    rw [← optional, inlineCount_inline, inlineCount_inline]
    exact flag facets
  | raw node => simp [PropertyValue.optional] at optional

end PropertyValue

namespace Properties

/-- What a named property counts. -/
def inlineOfProperty (_name : String) (value : PropertyValue) : Nat := value.inlineCount

/-- The number of mappings under keys `properties`, at any depth, inside properties. -/
def inlineCount (properties : Properties) : Nat := weight inlineOfProperty properties.entries

/-- The properties of a mapping count at most what it counts. -/
theorem inlineCount_ofMapping_le {entries : List (Node × Node)} {properties : Properties}
    (reading : ofMapping entries = .ok properties) :
    properties.inlineCount ≤ Node.inlineCountOfEntries entries := by
  refine weight_ofMapping_le Node.inlineCountOfEntries
    (fun name key node rest value declared => ?_) reading
  have small := PropertyValue.inlineCount_ofNode_le declared
  rw [inlineOfProperty, Node.inlineCountOfEntries]
  omega

/-- Changing marked names adds nothing. -/
theorem inlineCount_unmarkAll_le (properties : Properties) :
    properties.unmarkAll.reached.inlineCount ≤ properties.inlineCount := by
  refine weight_unmarkAll_le (fun name renamed value changed optional => ?_) properties
  exact PropertyValue.inlineCount_optional_le optional

end Properties

namespace Lift

variable {owner property : String} {value : PropertyValue} {lift : Lift}

/-- Facets that refer to a type do not count the declaration that they had. -/
theorem inlineCount_refer_le {facets : Facets} {entries : List (Node × Node)} (type : String)
    (found : facets.get? "properties" = some (.mapping entries)) :
    Facets.inlineCount (refer facets type) + 1 + Node.inlineCountOfEntries entries ≤
      facets.inlineCount := by
  have removed := Entries.weight_erase Facets.inlineOfFacet
    (show Entries.get? "properties" facets.entries = _ from found)
  have own : Facets.inlineOfFacet "properties" (.mapping entries) =
      1 + Node.inlineCountOfEntries entries := by
    simp [Facets.inlineOfFacet, Node.inlineOfKey, Node.inlineCount]
  rw [own] at removed
  have written : Facets.inlineCount (refer facets type) ≤
      Facets.inlineCount (facets.erase "properties") :=
    Facets.inlineCount_insert_le _ "type" (by simp [Node.inlineCount]) (by simp)
  simp only [Facets.inlineCount, OrderedMap.erase] at written ⊢
  omega

/-- A lift as an object takes the lifted declaration away from the property. -/
theorem inlineCount_object (lifted : object owner property value = .ok (some lift)) :
    lift.declaration.properties.inlineCount + 1 + lift.value.inlineCount ≤ value.inlineCount := by
  obtain ⟨facets, entries, found, rfl, present, mapped, rfl⟩ := object_eq_some.mp lifted
  have small := Properties.inlineCount_ofMapping_le mapped
  have rest := inlineCount_refer_le (TypeName.synthesized owner property "") present
  simp only [Declaration.properties_ofParts, PropertyValue.inlineCount_inline]
  omega

/-- A lift as an array takes the lifted declaration away from the property. -/
theorem inlineCount_item (lifted : item owner property value = .ok (some lift)) :
    lift.declaration.properties.inlineCount + 1 + lift.value.inlineCount ≤ value.inlineCount := by
  obtain ⟨facets, fields, items, entries, found, rfl, array, named, present, mapped, rfl⟩ :=
    item_eq_some.mp lifted
  have small := Properties.inlineCount_ofMapping_le mapped
  have whole := Facets.inlineCount_ofMapping_le named
  have rest := inlineCount_refer_le (TypeName.synthesized owner property TypeName.itemEnding)
    present
  have own (others : List (Node × Node)) : Facets.inlineOfFacet "items" (.mapping others) =
      Node.inlineCountOfEntries others := by
    simp [Facets.inlineOfFacet, Node.inlineOfKey, Node.inlineCount]
  have written := Entries.weight_insert_of_get? Facets.inlineOfFacet
    (.mapping (refer items (TypeName.synthesized owner property TypeName.itemEnding)).toMapping)
    (show Entries.get? "items" facets.entries = _ from (items?_eq_some.mp array).2)
  rw [own, own, Facets.inlineCount_toMapping] at written
  simp only [Declaration.properties_ofParts, PropertyValue.inlineCount_inline]
  simp only [Facets.inlineCount, OrderedMap.insert] at rest whole written ⊢
  omega

end Lift

/-- How many types the resolution of a declaration may create: as many as there are inline
declarations in its properties, and none when a schema is absorbed. -/
def Declaration.inlineBound (declaration : Declaration) : Nat :=
  if declaration.isEmbedded then 0 else declaration.properties.inlineCount

/-- The bound is at most what the properties count. -/
theorem Declaration.inlineBound_le (declaration : Declaration) :
    declaration.inlineBound ≤ declaration.properties.inlineCount := by
  unfold inlineBound
  split
  · exact Nat.zero_le _
  · exact Nat.le_refl _

/-- What declarations count, each type itself counted once. -/
def Declaration.totalInline : List Declaration → Nat
  | [] => 0
  | declaration :: rest => declaration.properties.inlineCount + 1 + totalInline rest

/-- What two lists of declarations count. -/
theorem Declaration.totalInline_append (first second : List Declaration) :
    totalInline (first ++ second) = totalInline first + totalInline second := by
  induction first with
  | nil => simp [totalInline]
  | cons declaration rest ih =>
    simp only [List.cons_append, totalInline, ih]
    omega

/-- Fewer declarations count no more. -/
theorem Declaration.totalInline_le_of_sublist {fewer given : List Declaration}
    (part : fewer.Sublist given) : totalInline fewer ≤ totalInline given := by
  induction part with
  | slnil => exact Nat.le_refl _
  | cons declaration _ ih => exact Nat.le_trans ih (Nat.le_add_left _ _)
  | cons_cons declaration _ ih => exact Nat.add_le_add_left ih _

/-- A declaration among others counts less than they all do. -/
theorem Declaration.inlineCount_lt_of_mem {declaration : Declaration} {given : List Declaration}
    (inside : declaration ∈ given) : declaration.properties.inlineCount < totalInline given := by
  induction given with
  | nil => contradiction
  | cons first rest ih =>
    rw [totalInline]
    rcases List.mem_cons.mp inside with rfl | later
    · omega
    · have bound := ih later
      omega

namespace Lifting

/-- The lifted types of a property and what is left of it together count at most what it counts. -/
theorem totalInline_ofProperty_le (owner property : String) (value : PropertyValue) :
    Declaration.totalInline (ofProperty owner property value).declarations +
      (ofProperty owner property value).value.inlineCount ≤ value.inlineCount := by
  have ofLift (before : PropertyValue) (lift : Option Lift)
      (lighter : ∀ made, lift = some made →
        made.declaration.properties.inlineCount + 1 + made.value.inlineCount ≤
          before.inlineCount) :
      Declaration.totalInline (declarationsOf lift) + (valueAfter before lift).inlineCount ≤
        before.inlineCount := by
    cases lift with
    | none => simp [declarationsOf, valueAfter, Declaration.totalInline]
    | some made =>
      simpa [declarationsOf, valueAfter, Declaration.totalInline] using lighter made rfl
  unfold ofProperty
  split
  · simp [Declaration.totalInline]
  · rename_i object objectLift
    have first := ofLift value object fun made same =>
      Lift.inlineCount_object (same ▸ objectLift)
    dsimp only
    split
    · exact first
    · rename_i item itemLift
      have second := ofLift (valueAfter value object) item fun made same =>
        Lift.inlineCount_item (same ▸ itemLift)
      rw [Declaration.totalInline_append]
      dsimp only
      omega

end Lifting

namespace Trace

/-- What two traces create is at most what each of them creates. -/
theorem length_created_followedBy_le (first next : Trace) :
    (first.followedBy next).created.length ≤ first.created.length + next.created.length := by
  cases ended : first.stopped with
  | some cause => simp [followedBy_of_some ended]
  | none => simp [created_followedBy ended]

/-- A resolution creates at most as many types as there are inline declarations in what is
resolved. -/
theorem length_created_le_all :
    (∀ (name : String) (declaration : Declaration) (taken : List String),
      (ofType name declaration taken).created.length ≤ declaration.inlineBound) ∧
    (∀ (owner : String) (entries : List (String × PropertyValue)) (taken : List String),
      (ofProperties owner entries taken).created.length ≤
        weight Properties.inlineOfProperty entries) ∧
    ∀ (given : List Declaration) (taken : List String),
      (ofTypes given taken).created.length + given.length ≤ Declaration.totalInline given := by
  refine ofType.mutual_induct
    (fun name declaration taken =>
      (ofType name declaration taken).created.length ≤ declaration.inlineBound)
    (fun owner entries taken => (ofProperties owner entries taken).created.length ≤
      weight Properties.inlineOfProperty entries)
    (fun given taken =>
      (ofTypes given taken).created.length + given.length ≤ Declaration.totalInline given)
    ?absorbed ?malformed ?marked ?plain ?noProperties ?property ?noTypes ?type
  case absorbed =>
    intro name declaration taken embedded absorbed read
    simp [ofType, embedded, read, created]
  case malformed =>
    intro name declaration taken embedded cause read
    simp [ofType, embedded, read, created]
  case marked =>
    intro name declaration taken plain cause stopped
    simp [ofType, plain, stopped, created]
  case plain =>
    intro name declaration taken plain bare ih
    rw [ofType_of_plain (by simpa using plain) bare, Declaration.inlineBound, if_neg plain]
    exact Nat.le_trans ih declaration.properties.inlineCount_unmarkAll_le
  case noProperties =>
    intro owner taken
    simp [ofProperties, created]
  case property =>
    intro owner taken property value rest first inner _ ihInner ihRest
    have lifted : Declaration.totalInline first.created ≤ _ :=
      Declaration.totalInline_le_of_sublist (created_lifts_sublist owner property _ taken)
    have own := Lifting.totalInline_ofProperty_le owner property value
    have inside : inner.created.length + first.created.length ≤
        Declaration.totalInline first.created := ihInner
    have later := length_created_followedBy_le inner
      (ofProperties owner rest (taken ++ first.names ++ inner.names))
    rw [ofProperties, weight, Properties.inlineOfProperty]
    refine Nat.le_trans (length_created_followedBy_le first _) ?_
    refine Nat.le_trans (Nat.add_le_add_left later _) ?_
    omega
  case noTypes =>
    intro taken
    simp [ofTypes, created, Declaration.totalInline]
  case type =>
    intro taken declaration rest first ihFirst ihRest
    have small : first.created.length ≤ declaration.properties.inlineCount :=
      Nat.le_trans ihFirst declaration.inlineBound_le
    have both := length_created_followedBy_le first (ofTypes rest (taken ++ first.names))
    rw [ofTypes, Declaration.totalInline, List.length_cons]
    refine Nat.le_trans (Nat.add_le_add_right both _) ?_
    omega

end Trace

end Raml
