import Raml.Lift
import Raml.Proofs.Facets

/-!
# What a lift does to a property

A lift needs a mapping of properties and gives a declaration with the synthesized name and a
property that refers to it. After both lifts of a property nothing inside it declares properties,
and where nothing does, no lift is made.
-/
namespace Raml

/-- Facets inside which nothing declares properties: neither they themselves nor, for an array, the
mapping of its items, whose keys all have texts. -/
structure Facets.Flat (facets : Facets) : Prop where
  /-- There is no facet `properties`. -/
  object : facets.get? "properties" = none
  /-- No key of an array's items reads `properties`. -/
  item : ∀ entries, (facets.get? "type").bind Node.string? = some TypeExpr.arrayName →
    facets.get? "items" = some (.mapping entries) →
    ∀ entry ∈ entries, ∃ text, entry.1.scalarText? = some text ∧ text ≠ "properties"

namespace PropertyValue

/-- A declaration inside which nothing declares properties. -/
def Flat (value : PropertyValue) : Prop := ∀ facets, value = inline facets → facets.Flat

/-- A declaration that names a type, as its own or as that of its items. -/
def RefersTo (value : PropertyValue) (type : String) : Prop :=
  ∃ facets, value = inline facets ∧
    (facets.get? "type" = some (.string type) ∨
      ∃ items : Facets, facets.get? "items" = some (.mapping items.toMapping) ∧
        items.get? "type" = some (.string type))

end PropertyValue

namespace Lift

variable {owner property : String} {value : PropertyValue} {lift : Lift}

/-- The mapping of items is the facet `items` of an array. -/
theorem items?_eq_some {facets : Facets} {entries : List (Node × Node)} :
    items? facets = some entries ↔
      (facets.get? "type").bind Node.string? = some TypeExpr.arrayName ∧
        facets.get? "items" = some (.mapping entries) := by
  unfold items?
  split
  · rename_i array
    cases found : facets.get? "items" with
    | none => simp
    | some node => cases node <;> simp [array]
  · rename_i other
    simp [other]

/-- The properties of an inline declaration come from a mapping. -/
theorem properties_eq_ok {nested : Node} {found : Properties} :
    properties owner property nested = .ok found ↔
      ∃ entries, nested = .mapping entries ∧ Properties.ofMapping entries = .ok found := by
  unfold properties
  split
  · rename_i entries
    cases read : Properties.ofMapping entries with
    | ok others => simp [read]
    | error cause => simp [read]
  · rename_i other
    simp only [reduceCtorEq, false_iff, not_exists, not_and]
    intro entries same
    exact absurd same (other entries)

/-- What refers to a type declares no properties and names the type. -/
theorem get?_refer (facets : Facets) (type name : String) :
    (refer facets type).get? name =
      if name = "type" then some (.string type)
      else if name = "properties" then none else facets.get? name := by
  rw [refer, OrderedMap.get?_insert, OrderedMap.get?_erase]

/-- A property is lifted as an object exactly when its facet `properties` is a mapping that can be
read. -/
theorem object_eq_some :
    object owner property value = .ok (some lift) ↔
      ∃ facets entries found, value = .inline facets ∧
        facets.get? "properties" = some (.mapping entries) ∧
        Properties.ofMapping entries = .ok found ∧
        lift = ⟨.ofParts (TypeName.synthesized owner property "") (facets.get? "type") found,
          .inline (refer facets (TypeName.synthesized owner property ""))⟩ := by
  constructor
  · intro lifted
    cases value with
    | inline facets =>
      simp only [object] at lifted
      split at lifted
      · simp at lifted
      · rename_i nested present
        split at lifted
        · contradiction
        · rename_i found read
          obtain ⟨entries, same, mapped⟩ := properties_eq_ok.mp read
          simp only [Except.ok.injEq, Option.some.injEq] at lifted
          exact ⟨facets, entries, found, rfl, same ▸ present, mapped, lifted.symm⟩
    | _ => simp [object] at lifted
  · rintro ⟨facets, entries, found, rfl, present, mapped, rfl⟩
    have read : properties owner property (.mapping entries) = .ok found :=
      properties_eq_ok.mpr ⟨entries, rfl, mapped⟩
    simp only [object, present, read]

/-- A property is not lifted as an object exactly when it has no facet `properties`. -/
theorem object_eq_none :
    object owner property value = .ok none ↔
      ∀ facets, value = .inline facets → facets.get? "properties" = none := by
  cases value with
  | inline facets =>
    simp only [object, PropertyValue.inline.injEq, forall_eq']
    split
    · rename_i absent
      simp [absent]
    · rename_i nested present
      split <;> simp [present]
  | _ => simp [object]

/-- A property is lifted as an array exactly when the mapping of its items can be read and gives a
mapping of properties that can be read. -/
theorem item_eq_some :
    item owner property value = .ok (some lift) ↔
      ∃ facets fields items entries found, value = .inline facets ∧
        items? facets = some fields ∧ Facets.ofMapping fields = .ok items ∧
        items.get? "properties" = some (.mapping entries) ∧
        Properties.ofMapping entries = .ok found ∧
        lift = ⟨.ofParts (TypeName.synthesized owner property TypeName.itemEnding)
            (items.get? "type") found,
          .inline (facets.insert "items" (.mapping
            (refer items (TypeName.synthesized owner property
              TypeName.itemEnding)).toMapping))⟩ := by
  constructor
  · intro lifted
    cases value with
    | inline facets =>
      simp only [item] at lifted
      split at lifted
      · simp at lifted
      · rename_i fields array
        split at lifted
        · contradiction
        · rename_i items named
          split at lifted
          · simp at lifted
          · rename_i nested present
            split at lifted
            · contradiction
            · rename_i found read
              obtain ⟨entries, same, mapped⟩ := properties_eq_ok.mp read
              simp only [Except.ok.injEq, Option.some.injEq] at lifted
              exact ⟨facets, fields, items, entries, found, rfl, array, named, same ▸ present,
                mapped, lifted.symm⟩
    | _ => simp [item] at lifted
  · rintro ⟨facets, fields, items, entries, found, rfl, array, named, present, mapped, rfl⟩
    have read : properties owner property (.mapping entries) = .ok found :=
      properties_eq_ok.mpr ⟨entries, rfl, mapped⟩
    simp only [item, array, named, present, read]

/-- A property is not lifted as an array exactly when it has no mapping of items, or that mapping
has keys with texts and none that reads `properties`. -/
theorem item_eq_none :
    item owner property value = .ok none ↔
      ∀ facets, value = .inline facets → ∀ fields, items? facets = some fields →
        ∀ entry ∈ fields, ∃ text, entry.1.scalarText? = some text ∧ text ≠ "properties" := by
  cases value with
  | inline facets =>
    simp only [item, PropertyValue.inline.injEq, forall_eq']
    split
    · rename_i absent
      simp [absent]
    · rename_i fields array
      simp only [array, Option.some.injEq, forall_eq', ← Facets.ofMapping_without_iff]
      split
      · rename_i cause named
        simp [named]
      · rename_i items named
        split
        · rename_i absent
          simp [named, absent]
        · rename_i nested present
          split <;> simp [named, present]
  | _ => simp [item]

/-- No lift is made of a property exactly when nothing inside it declares properties. -/
theorem flat_iff (owner property : String) (value : PropertyValue) :
    value.Flat ↔ object owner property value = .ok none ∧ item owner property value = .ok none := by
  rw [object_eq_none, item_eq_none]
  constructor
  · intro flat
    refine ⟨fun facets same => (flat facets same).object, fun facets same fields array => ?_⟩
    have found := items?_eq_some.mp array
    exact (flat facets same).item fields found.1 found.2
  · rintro ⟨object, item⟩ facets same
    refine ⟨object facets same, fun entries array found => ?_⟩
    exact item facets same entries (items?_eq_some.mpr ⟨array, found⟩)

/-- Once a property is lifted as an object it is not lifted so again. -/
theorem object_value (lifted : object owner property value = .ok (some lift)) :
    object owner property lift.value = .ok none := by
  obtain ⟨facets, entries, found, rfl, present, mapped, rfl⟩ := object_eq_some.mp lifted
  rw [object_eq_none]
  rintro others ⟨⟩
  rw [get?_refer]
  simp

/-- A lift as an array does not bring back a lift as an object. -/
theorem object_value_of_item (lifted : item owner property value = .ok (some lift))
    (plain : object owner property value = .ok none) :
    object owner property lift.value = .ok none := by
  obtain ⟨facets, fields, items, entries, found, rfl, array, named, present, mapped, rfl⟩ :=
    item_eq_some.mp lifted
  rw [object_eq_none] at plain ⊢
  rintro others ⟨⟩
  rw [OrderedMap.get?_insert]
  simpa using plain facets rfl

/-- Once a property is lifted as an array it is not lifted so again. -/
theorem item_value (lifted : item owner property value = .ok (some lift)) :
    item owner property lift.value = .ok none := by
  obtain ⟨facets, fields, items, entries, found, rfl, array, named, present, mapped, rfl⟩ :=
    item_eq_some.mp lifted
  rw [item_eq_none]
  rintro others ⟨⟩ written again
  have placed := (items?_eq_some.mp again).2
  rw [OrderedMap.get?_insert, if_pos rfl, Option.some.injEq, Node.mapping.injEq] at placed
  rw [← placed]
  intro entry inside
  obtain ⟨field, there, rfl⟩ := List.mem_map.mp inside
  refine ⟨field.1, rfl, fun same => ?_⟩
  have absent := get?_refer items (TypeName.synthesized owner property TypeName.itemEnding)
    "properties"
  rw [if_neg (by decide), if_pos rfl, OrderedMap.get?_eq_none] at absent
  exact absent (same ▸ List.mem_map_of_mem there)

/-- What is lifted as an object has the synthesized name. -/
theorem name_object (lifted : object owner property value = .ok (some lift)) :
    lift.declaration.name = TypeName.synthesized owner property "" := by
  obtain ⟨facets, entries, found, rfl, present, mapped, rfl⟩ := object_eq_some.mp lifted
  rfl

/-- What is lifted as an array has the synthesized name with the ending of items. -/
theorem name_item (lifted : item owner property value = .ok (some lift)) :
    lift.declaration.name = TypeName.synthesized owner property TypeName.itemEnding := by
  obtain ⟨facets, fields, items, entries, found, rfl, array, named, present, mapped, rfl⟩ :=
    item_eq_some.mp lifted
  rfl

/-- A property that was lifted as an object refers to the lifted type. -/
theorem refersTo_object (lifted : object owner property value = .ok (some lift)) :
    ∃ facets, lift.value = .inline facets ∧
      facets.get? "type" = some (.string lift.declaration.name) := by
  obtain ⟨facets, entries, found, rfl, present, mapped, rfl⟩ := object_eq_some.mp lifted
  refine ⟨_, rfl, ?_⟩
  rw [get?_refer, if_pos rfl]
  rfl

/-- A lift as an array keeps the type of the property and refers to the lifted type in its items. -/
theorem refersTo_item (lifted : item owner property value = .ok (some lift)) :
    ∃ facets written, value = .inline facets ∧ lift.value = .inline written ∧
      written.get? "type" = facets.get? "type" ∧
      ∃ items : Facets, written.get? "items" = some (.mapping items.toMapping) ∧
        items.get? "type" = some (.string lift.declaration.name) := by
  obtain ⟨facets, fields, items, entries, found, rfl, array, named, present, mapped, rfl⟩ :=
    item_eq_some.mp lifted
  refine ⟨facets, _, rfl, rfl, ?_, refer items (TypeName.synthesized owner property
    TypeName.itemEnding), ?_, ?_⟩
  · rw [OrderedMap.get?_insert, if_neg (by decide)]
  · rw [OrderedMap.get?_insert, if_pos rfl]
  · rw [get?_refer, if_pos rfl]
    rfl

end Lift

namespace Lifting

variable {owner property : String} {value : PropertyValue}

/-- Both lifts of a property in order, when neither is stopped. -/
theorem ofProperty_of_ok {object item : Option Lift}
    (first : Lift.object owner property value = .ok object)
    (second : Lift.item owner property (valueAfter value object) = .ok item) :
    ofProperty owner property value =
      ⟨declarationsOf object ++ declarationsOf item,
        valueAfter (valueAfter value object) item, none⟩ := by
  simp only [ofProperty, first, second]

/-- A lift as an object that cannot be made leaves the property as it was. -/
theorem ofProperty_of_error {cause : LiftError}
    (first : Lift.object owner property value = .error cause) :
    ofProperty owner property value = ⟨[], value, some cause⟩ := by
  simp only [ofProperty, first]

/-- A lift as an array that cannot be made comes after the lift as an object. -/
theorem ofProperty_of_ok_of_error {object : Option Lift} {cause : LiftError}
    (first : Lift.object owner property value = .ok object)
    (second : Lift.item owner property (valueAfter value object) = .error cause) :
    ofProperty owner property value =
      ⟨declarationsOf object, valueAfter value object, some cause⟩ := by
  simp only [ofProperty, first, second]

/-- Lifts that are not stopped are both made. -/
theorem exists_lifts (success : (ofProperty owner property value).stopped = none) :
    ∃ object item, Lift.object owner property value = .ok object ∧
      Lift.item owner property (valueAfter value object) = .ok item := by
  unfold ofProperty at success
  split at success
  · contradiction
  · rename_i object first
    dsimp only at success
    split at success
    · contradiction
    · rename_i item second
      exact ⟨object, item, first, second⟩

/-- Every lifted declaration comes from one of the two lifts. -/
theorem name_of_mem {declaration : Declaration}
    (inside : declaration ∈ (ofProperty owner property value).declarations) :
    ∃ ending, (ending = "" ∨ ending = TypeName.itemEnding) ∧
      declaration.name = TypeName.synthesized owner property ending := by
  have objectName (object : Option Lift) (first : Lift.object owner property value = .ok object)
      (member : declaration ∈ declarationsOf object) :
      declaration.name = TypeName.synthesized owner property "" := by
    cases object with
    | none => simp [declarationsOf] at member
    | some lift =>
      rw [declarationsOf, List.mem_singleton] at member
      exact member ▸ Lift.name_object first
  unfold ofProperty at inside
  split at inside
  · simp at inside
  · rename_i object first
    dsimp only at inside
    split at inside
    · exact ⟨"", .inl rfl, objectName object first inside⟩
    · rename_i item second
      rcases List.mem_append.mp inside with left | right
      · exact ⟨"", .inl rfl, objectName object first left⟩
      · cases item with
        | none => simp [declarationsOf] at right
        | some lift =>
          rw [declarationsOf, List.mem_singleton] at right
          exact ⟨TypeName.itemEnding, .inr rfl, right ▸ Lift.name_item second⟩

/-- Where nothing declares properties no lift is made. -/
theorem ofProperty_of_flat (flat : value.Flat) :
    ofProperty owner property value = ⟨[], value, none⟩ := by
  obtain ⟨object, item⟩ := (Lift.flat_iff owner property value).mp flat
  exact ofProperty_of_ok object item

/-- After the lift as an object there is none to be made. -/
theorem object_valueAfter {object : Option Lift}
    (first : Lift.object owner property value = .ok object) :
    Lift.object owner property (valueAfter value object) = .ok none := by
  cases object with
  | none => exact first
  | some lift => exact Lift.object_value first

/-- Lifts that were stopped are stopped again by the same error, and none is made before it. -/
theorem ofProperty_again {cause : LiftError}
    (stopped : (ofProperty owner property value).stopped = some cause) :
    ofProperty owner property (ofProperty owner property value).value =
      ⟨[], (ofProperty owner property value).value, some cause⟩ := by
  cases first : Lift.object owner property value with
  | error other =>
    have lifting := ofProperty_of_error first
    obtain rfl : other = cause := by simpa [lifting] using stopped
    rw [lifting]
    exact lifting
  | ok object =>
    cases second : Lift.item owner property (valueAfter value object) with
    | error other =>
      have lifting := ofProperty_of_ok_of_error first second
      obtain rfl : other = cause := by simpa [lifting] using stopped
      rw [lifting]
      exact ofProperty_of_ok_of_error (object_valueAfter first) second
    | ok item => simp [ofProperty_of_ok first second] at stopped

/-- After both lifts nothing declares properties. -/
theorem flat_ofProperty (success : (ofProperty owner property value).stopped = none) :
    (ofProperty owner property value).value.Flat := by
  obtain ⟨object, item, first, second⟩ := exists_lifts success
  rw [ofProperty_of_ok first second, Lift.flat_iff owner property]
  have plain := object_valueAfter first
  cases item with
  | none => exact ⟨plain, second⟩
  | some lift => exact ⟨Lift.object_value_of_item second plain, Lift.item_value second⟩

/-- After both lifts the property refers to every lifted type. -/
theorem refersTo_of_mem (success : (ofProperty owner property value).stopped = none)
    {declaration : Declaration}
    (inside : declaration ∈ (ofProperty owner property value).declarations) :
    (ofProperty owner property value).value.RefersTo declaration.name := by
  obtain ⟨object, item, first, second⟩ := exists_lifts success
  rw [ofProperty_of_ok first second] at inside ⊢
  rcases List.mem_append.mp inside with left | right
  · cases object with
    | none => simp [declarationsOf] at left
    | some lift =>
      rw [declarationsOf, List.mem_singleton] at left
      subst left
      obtain ⟨facets, same, named⟩ := Lift.refersTo_object first
      cases item with
      | none => exact ⟨facets, same, .inl named⟩
      | some other =>
        obtain ⟨before, written, was, is, kept, _⟩ := Lift.refersTo_item second
        simp only [valueAfter, same, PropertyValue.inline.injEq] at was
        exact ⟨written, is, .inl (by rw [kept, ← was, named])⟩
  · cases item with
    | none => simp [declarationsOf] at right
    | some lift =>
      rw [declarationsOf, List.mem_singleton] at right
      subst right
      obtain ⟨before, written, _, is, _, items⟩ := Lift.refersTo_item second
      exact ⟨written, is, .inr items⟩

end Lifting

end Raml
