import Raml.Proofs.BareForm

/-!
# The view of an optional property

A property with a marked name can be viewed as it is written, or under its base after the change of
optional names. Both views have the same type expression and the same further facets in the same
order, and neither is required. They have the same name exactly when there is one mark to be taken
off, since the view takes one mark off a name and the change takes all.
-/
namespace Raml

namespace TypeName

/-- A marked name is what is left without one mark, and the mark. -/
theorem toList_of_marked {name : String} (marked : isOptional name = true) :
    name.toList = name.toList.dropLast ++ ['?'] := by
  have last : name.toList.getLast? = some '?' := by simpa [isOptional] using marked
  obtain ⟨front, same⟩ := List.getLast?_eq_some_iff.mp last
  rw [same, List.dropLast_concat]

/-- One mark off a name leaves its base exactly when the name has no other mark. -/
theorem dropMark?_eq_base_iff {name : String} (marked : isOptional name = true) :
    dropMark? name = some (base name) ↔ name = base name ++ "?" := by
  have split := toList_of_marked marked
  have mark : ("?" : String).toList = ['?'] := by decide
  rw [dropMark?, if_pos marked, Option.some.injEq, ← String.toList_inj, String.toList_ofList]
  constructor
  · intro same
    rw [← String.toList_inj, String.toList_append, ← same, mark]
    exact split
  · intro same
    rw [← String.toList_inj, String.toList_append, mark, split] at same
    exact List.append_cancel_right same

/-- A base has no mark to take off. -/
theorem dropMark?_base (name : String) : dropMark? (base name) = none := by
  rw [dropMark?, isOptional_base]
  rfl

end TypeName

namespace Property

variable {name : String}

/-- The view of a base has it as its name. -/
theorem name_ofValue_base (value : PropertyValue) :
    (ofValue (TypeName.base name) value).name = TypeName.base name := by
  unfold ofValue
  rw [TypeName.dropMark?_base]
  rcases value with _ | _ | _ | _ <;> rfl

/-- The requirement says nothing about the type. -/
theorem inlineExpression_insert_required (facets : Facets) (node : Node) :
    inlineExpression (facets.insert "required" node) = inlineExpression facets := by
  have type : (facets.insert "required" node).get? "type" = facets.get? "type" := by
    rw [OrderedMap.get?_insert, if_neg (by decide)]
  have properties : (facets.insert "required" node).contains "properties" =
      facets.contains "properties" := by
    rw [Bool.eq_iff_iff, OrderedMap.contains_iff, OrderedMap.contains_iff,
      OrderedMap.mem_keys_iff, OrderedMap.mem_keys_iff]
    simp only [OrderedMap.get?_insert]
    rfl
  rw [inlineExpression, inlineExpression, type, properties]

/-- Facets that are made optional say that the property is not required. -/
theorem inlineRequired_insert (facets : Facets) :
    inlineRequired (facets.insert "required" (.bool false)) = false := by
  rw [inlineRequired, OrderedMap.get?_insert, if_pos rfl]
  rfl

/-- Facets that are made optional are viewed as those of no required property. -/
theorem required_ofValue_insert (facets : Facets) :
    (ofValue name (.inline (facets.insert "required" (.bool false)))).required = false := by
  unfold ofValue
  cases TypeName.dropMark? name <;> simp [inlineRequired_insert]

/-- The view of a declaration that is made optional is that of no required property. -/
theorem required_ofValue_madeOptional {value : PropertyValue} (plain : ∀ node, value ≠ .raw node) :
    (ofValue name value.madeOptional).required = false := by
  cases value with
  | reference type => exact required_ofValue_insert (.ofList [("type", .string type)])
  | inline facets =>
    rw [PropertyValue.madeOptional_inline]
    exact required_ofValue_insert facets
  | raw node => exact absurd rfl (plain node)

/-- Whatever the requirement is, the view leaves it out of the facets. -/
theorem erase_insert_required (facets : Facets) (node : Node) :
    ((facets.insert "required" node).erase "type").erase "required" =
      (facets.erase "type").erase "required" := by
  rw [OrderedMap.erase_comm, OrderedMap.erase_insert, OrderedMap.erase_comm]

/-- The view of a property with a marked name is that of its base after the change, but for the
name. -/
theorem ofValue_of_marked {dropped : String} {value : PropertyValue}
    (drops : TypeName.dropMark? name = some dropped) (plain : ∀ node, value ≠ .raw node) :
    ofValue name value =
      { ofValue (TypeName.base name) value.madeOptional with name := dropped } := by
  cases value with
  | reference type => simp only [ofValue, drops, TypeName.dropMark?_base]; rfl
  | inline facets =>
    simp only [ofValue, drops, TypeName.dropMark?_base, PropertyValue.madeOptional_inline,
      inlineExpression_insert_required, erase_insert_required, inlineRequired_insert]
    simp
  | raw node => exact absurd rfl (plain node)

/-- For a property with a marked name that is a type name or facets, the change of optional names
has a step in which its base comes to stand for what it is made into, and after the change it does
when the property is the last one with that base. The view of the property as it is written and the
view of its base then have the same type expression and the same further facets in order, and
neither is required. The view of the base has the base as its name; the two views are the same
exactly when the property is written with one mark. -/
theorem ofValue_eq_bare_iff (name : String) (value : PropertyValue)
    (marked : TypeName.isOptional name = true) (plain : ∀ node, value ≠ .raw node) :
    let written := ofValue name value
    let bare := ofValue (TypeName.base name) value.madeOptional
    (∀ properties : Properties, properties.get? name = some value →
        ∃ next, properties.unmark name = .done next ∧
          next.get? (TypeName.base name) = some value.madeOptional) ∧
      (∀ declaration : Declaration, declaration.properties.unmarkAll.stopped = none →
        (Properties.sharing declaration.properties.optionalEntries
          (TypeName.base name)).getLast? = some (name, value) →
        declaration.property name = .ok written ∧
          (declaration.withProperties declaration.properties.unmarkAll.reached).property
            (TypeName.base name) = .ok bare) ∧
      written.expression = bare.expression ∧
      (written.required = false ∧ bare.required = false) ∧
      written.facets = bare.facets ∧
      bare.name = TypeName.base name ∧
      (written = bare ↔ name = TypeName.base name ++ "?") := by
  intro written bare
  have drops : TypeName.dropMark? name = some (String.ofList name.toList.dropLast) :=
    if_pos marked
  have views : written = { bare with name := String.ofList name.toList.dropLast } :=
    ofValue_of_marked drops plain
  have named : bare.name = TypeName.base name := name_ofValue_base value.madeOptional
  have optional : bare.required = false := required_ofValue_madeOptional plain
  refine ⟨fun properties found => ?_, fun declaration ended last => ?_, ?_, ⟨?_, optional⟩, ?_,
    named, ?_⟩
  · refine ⟨_, ?_, OrderedMap.get?_rename (OrderedMap.mem_keys_iff.mpr ⟨value, found⟩)⟩
    simp only [Properties.unmark, found, PropertyValue.optional_of_plain plain]
  · obtain ⟨found, made⟩ := Properties.get?_of_last ended last
    rw [Declaration.property, found, Declaration.property, Declaration.properties_withProperties,
      made]
    exact ⟨rfl, rfl⟩
  · rw [views]
  · rw [views]
    exact optional
  · rw [views]
  · rw [← TypeName.dropMark?_eq_base_iff marked, drops, Option.some.injEq, views, ← named]
    exact ⟨fun same => congrArg Property.name same, fun same => by rw [same]⟩

/-- A property with one mark, that is inline and requires itself, has the same view under its
base. -/
theorem ofValue_eq_bare_iff_sample :
    let value : PropertyValue :=
      .inline (.ofList [("required", .bool true), ("type", .string "integer"),
        ("minimum", .number (.int 0))])
    ofValue "age?" value = ofValue "age" value.madeOptional ∧
      ofValue "age?" value =
        ⟨"age", "integer", false, .ofList [("minimum", .number (.int 0))]⟩ := by
  intro value
  have base : TypeName.base "age?" = "age" := by decide +kernel
  obtain ⟨-, -, -, -, -, -, same⟩ :=
    ofValue_eq_bare_iff "age?" value (by decide) fun _ => PropertyValue.noConfusion
  rw [base] at same
  exact ⟨same.mpr (by decide), by decide +kernel⟩

/-- Of two marks the view keeps one, and the change of optional names none. -/
theorem ofValue_two_marks :
    let value : PropertyValue := .reference "string"
    let properties : Properties := .ofList [("p??", value)]
    properties.unmarkAll.reached.entries = [("p", value.madeOptional)] ∧
      (ofValue "p??" value).name = "p?" ∧
      ofValue "p??" value ≠ ofValue "p" value.madeOptional := by
  decide +kernel

end Property

end Raml
