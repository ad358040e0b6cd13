import Raml.Proofs.Exchange
import Raml.Proofs.NormalForm

/-!
# Declaring by hand what resolution lifts

Where every lifted type has a name of its own, lifting an inline declaration is the same as
declaring its type by hand: the type is declared under the synthesized name, the inline declaration
is replaced by a reference, and both types are resolved. The two resolutions lift the same
declarations in another order.
-/
namespace Raml

namespace PropertyValue

/-- A declaration that has a facet `properties`, or else is an array whose mapping of items has a
key that reads `properties`. -/
def DeclaresInline (value : PropertyValue) : Prop :=
  ∃ facets, value = inline facets ∧
    ((∃ nested, facets.get? "properties" = some nested) ∨
      ∃ fields, (facets.get? "type").bind Node.string? = some TypeExpr.arrayName ∧
        facets.get? "items" = some (.mapping fields) ∧
        ∃ field ∈ fields, field.1.scalarText? = some "properties")

/-- The type that is declared by hand for an inline declaration, and the property that refers to
it. -/
inductive ByHand (owner property : String) :
    PropertyValue → Declaration → PropertyValue → Prop where
  /-- An object: the declared properties are those of the type, which has the property's type as its
  expression. The property keeps its other facets. -/
  | object {facets : Facets} {entries : List (Node × Node)} {found : Properties}
      (present : facets.get? "properties" = some (.mapping entries))
      (read : Properties.ofMapping entries = .ok found) :
      ByHand owner property (.inline facets)
        (.ofParts (TypeName.synthesized owner property "") (facets.get? "type") found)
        (.inline ((facets.erase "properties").insert "type"
          (.string (TypeName.synthesized owner property ""))))
  /-- An array that has no properties of its own: the same is done inside its items. -/
  | item {facets items : Facets} {fields entries : List (Node × Node)} {found : Properties}
      (own : facets.get? "properties" = none)
      (array : (facets.get? "type").bind Node.string? = some TypeExpr.arrayName)
      (given : facets.get? "items" = some (.mapping fields))
      (named : Facets.ofMapping fields = .ok items)
      (present : items.get? "properties" = some (.mapping entries))
      (read : Properties.ofMapping entries = .ok found) :
      ByHand owner property (.inline facets)
        (.ofParts (TypeName.synthesized owner property TypeName.itemEnding) (items.get? "type")
          found)
        (.inline (facets.insert "items" (.mapping (Facets.toMapping
          ((items.erase "properties").insert "type"
            (.string (TypeName.synthesized owner property TypeName.itemEnding)))))))

variable {owner property : String} {value written : PropertyValue} {declaration : Declaration}

/-- An inline declaration of which every lift is made can be declared by hand. -/
theorem exists_byHand (declares : value.DeclaresInline)
    (success : (Lifting.ofProperty owner property value).stopped = none) :
    ∃ declaration written, ByHand owner property value declaration written := by
  obtain ⟨facets, rfl, inside⟩ := declares
  obtain ⟨object, item, first, second⟩ := Lifting.exists_lifts success
  cases object with
  | some lift =>
    obtain ⟨others, entries, found, same, present, read, _⟩ := Lift.object_eq_some.mp first
    cases same
    exact ⟨_, _, .object present read⟩
  | none =>
    have own := Lift.object_eq_none.mp first facets rfl
    rcases inside with ⟨nested, present⟩ | ⟨fields, array, given, field, there, text⟩
    · rw [own] at present
      contradiction
    · cases item with
      | some lift =>
        obtain ⟨others, fields, items, entries, found, same, placed, named, present, read, _⟩ :=
          Lift.item_eq_some.mp second
        cases same
        have array := Lift.items?_eq_some.mp placed
        exact ⟨_, _, .item own array.1 array.2 named present read⟩
      | none =>
        have placed := Lift.items?_eq_some.mpr ⟨array, given⟩
        obtain ⟨other, same, apart⟩ :=
          Lift.item_eq_none.mp second facets rfl fields placed field there
        exact absurd (Option.some.inj (same.symm.trans text)) apart

/-- What is done by hand is the first lift that is made. -/
theorem ByHand.lifted (byHand : ByHand owner property value declaration written) :
    Lift.object owner property value = .ok (some ⟨declaration, written⟩) ∨
      Lift.object owner property value = .ok none ∧
        Lift.item owner property value = .ok (some ⟨declaration, written⟩) := by
  cases byHand with
  | object present read =>
    left
    rw [Lift.object_eq_some]
    exact ⟨_, _, _, rfl, present, read, rfl⟩
  | item own array given named present read =>
    right
    rw [Lift.object_eq_none, Lift.item_eq_some]
    refine ⟨fun facets same => by cases same; exact own, ?_⟩
    exact ⟨_, _, _, _, _, rfl, Lift.items?_eq_some.mpr ⟨array, given⟩, named, present, read, rfl⟩

/-- The type that is declared by hand is the first that is lifted, and of the property that refers
to it the other lifts are made. -/
theorem ByHand.ofProperty (byHand : ByHand owner property value declaration written)
    (success : (Lifting.ofProperty owner property value).stopped = none) :
    ∃ rest final, Lifting.ofProperty owner property value = ⟨declaration :: rest, final, none⟩ ∧
      Lifting.ofProperty owner property written = ⟨rest, final, none⟩ := by
  rcases byHand.lifted with first | ⟨plain, second⟩
  · obtain ⟨object, item, again, second⟩ := Lifting.exists_lifts success
    rw [first] at again
    cases again
    have others := Lifting.ofProperty_of_ok (Lift.object_value first) second
    exact ⟨_, _, Lifting.ofProperty_of_ok first second, others⟩
  · have flat := (Lift.flat_iff owner property written).mpr
      ⟨Lift.object_value_of_item second plain, Lift.item_value second⟩
    exact ⟨_, _, Lifting.ofProperty_of_ok plain second, Lifting.ofProperty_of_flat flat⟩

end PropertyValue

namespace Resolution

variable {name : String} {declaration declared : Declaration}

/-- A type is edited and another one declared beside it. -/
structure Edit (types edited : Declarations) (name : String) (changed declared : Declaration) :
    Prop where
  /-- The declared type comes last. -/
  keys_eq : edited.keys = types.keys ++ [declared.name]
  /-- The edited type has its new declaration. -/
  changed_eq : edited.get? name = some changed
  /-- The declared type has its declaration. -/
  declared_eq : edited.get? declared.name = some declared
  /-- No other type is touched. -/
  kept : ∀ key ∈ types.keys, key ≠ name → edited.get? key = types.get? key

/-- A type may be written before and after another one is declared. -/
theorem edit_of_inserts {types : Declarations} (before changed : Declaration)
    (present : name ∈ types.keys) (absent : declared.name ∉ types.keys) :
    Edit types (((types.insert name before).insert declared.name declared).insert name changed)
      name changed declared := by
  have apart : declared.name ≠ name := fun clash => absent (clash ▸ present)
  have keys := OrderedMap.keys_insert_of_mem before present
  have beside : ((types.insert name before).insert declared.name declared).keys =
      types.keys ++ [declared.name] := by
    rw [OrderedMap.keys_insert, keys, if_neg absent]
  constructor
  · rw [OrderedMap.keys_insert_of_mem _ (beside ▸ List.mem_append_left _ present), beside]
  · rw [OrderedMap.get?_insert, if_pos rfl]
  · rw [OrderedMap.get?_insert, if_neg apart, OrderedMap.get?_insert, if_pos rfl]
  · intro key inside other
    have old : key ≠ declared.name := fun clash => absent (clash ▸ inside)
    rw [OrderedMap.get?_insert, if_neg other, OrderedMap.get?_insert, if_neg old,
      OrderedMap.get?_insert, if_neg other]

section Edit

variable {trace inner outer : Trace} {types edited middle whole after : Declarations}
  {changed : Declaration}

/-- What a resolution settled, or was declared for it, stays settled when another type is
resolved. -/
theorem settled_of_edit (first : Follows [(declared.name, declared)] inner edited middle none)
    (second : Follows [(name, changed)] outer middle after none) {made : Declaration}
    (inside : made = declared ∨ made ∈ inner.created ∨ made ∈ outer.created)
    (apart : made.name ≠ name) : Settled after made.name made := by
  have settled := first.settled first.stopped_eq.symm
  have stays (settled : Settled middle made.name made) : Settled after made.name made :=
    settled.mono (second.kept _ settled.mem_keys (by simpa using apart)) fun _ => second.mem_keys
  rcases inside with rfl | created | created
  · exact stays (settled _ List.mem_cons_self)
  · exact stays (settled _ (List.mem_append_right _ (List.mem_map_of_mem created)))
  · exact second.settled second.stopped_eq.symm _
      (List.mem_append_right _ (List.mem_map_of_mem created))

/-- When a type is resolved, and when it is edited, one of the types that its resolution creates is
declared, and both are resolved, the same is found in the end. -/
theorem get?_eq_of_edit (edit : Edit types edited name changed declared)
    (direct : Follows [(name, declaration)] trace types whole none)
    (first : Follows [(declared.name, declared)] inner edited middle none)
    (second : Follows [(name, changed)] outer middle after none)
    (same : ∀ made, made ∈ trace.created ↔
      made = declared ∨ made ∈ inner.created ∨ made ∈ outer.created)
    (forms : ∀ form final, ResolvesTo name declaration form → ResolvesTo name changed final →
      form = final) (key : String) : after.get? key = whole.get? key := by
  have settled := direct.settled direct.stopped_eq.symm
  by_cases own : key = name
  · subst own
    obtain ⟨form, found, resolved⟩ := (settled _ List.mem_cons_self).found
    obtain ⟨final, there, again⟩ :=
      (second.settled second.stopped_eq.symm _ List.mem_cons_self).found
    rw [found, there, forms form final resolved again]
  by_cases created : ∃ made ∈ trace.created, made.name = key
  · obtain ⟨made, inside, rfl⟩ := created
    refine (settled_of_edit first second ((same made).mp inside) own).get?_eq ?_
    exact settled _ (List.mem_append_right _ (List.mem_map_of_mem inside))
  have apart : key ≠ declared.name := fun clash =>
    created ⟨declared, (same _).mpr (.inl rfl), clash.symm⟩
  by_cases old : key ∈ types.keys
  · have there : key ∈ edited.keys := edit.keys_eq ▸ List.mem_append_left _ old
    calc
      after.get? key = middle.get? key :=
        second.kept key (first.mem_keys there) (by simpa using own)
      _ = edited.get? key := first.kept key there (by simpa using apart)
      _ = types.get? key := edit.kept key old own
      _ = whole.get? key := (direct.kept key old (by simpa using own)).symm
  · have absent : key ∉ whole.keys := by
      rw [direct.mem_keys_iff]
      exact not_or.mpr ⟨old, created⟩
    have missing : key ∉ after.keys := by
      rw [second.mem_keys_iff, first.mem_keys_iff, edit.keys_eq, List.mem_append,
        List.mem_singleton]
      rintro (((there | clash) | ⟨made, inside, named⟩) | ⟨made, inside, named⟩)
      · exact old there
      · exact apart clash
      · exact created ⟨made, (same made).mpr (.inr (.inl inside)), named⟩
      · exact created ⟨made, (same made).mpr (.inr (.inr inside)), named⟩
    rw [OrderedMap.get?_eq_none.mpr absent, OrderedMap.get?_eq_none.mpr missing]

end Edit

/-- A property and the one that is written for it by hand are lifted to the same. -/
theorem liftAll_insert {owner property : String} {properties : Properties}
    {value written : PropertyValue} (present : properties.get? property = some value)
    (same : (Lifting.ofProperty owner property written).value =
      (Lifting.ofProperty owner property value).value) :
    liftAll owner (properties.insert property written) = liftAll owner properties := by
  obtain ⟨before, after, entries, inserted⟩ := OrderedMap.exists_split present
  apply OrderedMap.ext
  simp only [liftAll, OrderedMap.map, entries, inserted, List.map_append, List.map_cons, same]

/-- A type with a property written by hand has no marked names. -/
theorem unmarkAll_withProperty {property : String} {value : PropertyValue} (written : PropertyValue)
    (bare : declaration.properties.unmarkAll.stopped = none)
    (present : declaration.bareProperties.get? property = some value) :
    (declaration.withProperty property written).properties.unmarkAll =
      .done (declaration.bareProperties.insert property written) := by
  rw [Declaration.withProperty, Declaration.properties_withProperties]
  apply Properties.unmarkAll_of_bare
  intro name inside
  have old : property ∈ declaration.bareProperties.keys :=
    OrderedMap.mem_keys_iff.mpr ⟨value, present⟩
  rw [OrderedMap.keys_insert_of_mem written old] at inside
  exact Properties.isOptional_of_mem_unmarkAll bare inside

/-- The trace of a type with a property written by hand goes through the written property. -/
theorem ofType_withProperty {property : String} {value written : PropertyValue}
    {taken : List String} (plain : declaration.isEmbedded = false)
    (bare : declaration.properties.unmarkAll.stopped = none)
    (present : declaration.bareProperties.get? property = some value) :
    Trace.ofType name (declaration.withProperty property written) taken =
      Trace.ofProperties name (declaration.bareProperties.insert property written).entries
        taken := by
  have unmarked := unmarkAll_withProperty written bare present
  have same : (declaration.withProperty property written).isEmbedded = false := plain
  rw [Trace.ofType_of_plain same (by rw [unmarked]; rfl), unmarked]
  rfl

/-- A type resolves to the same with a property written by hand for which the same remains. -/
theorem ResolvesTo.eq_of_edit {property : String} {value written : PropertyValue}
    {form final : Declaration} (direct : ResolvesTo name declaration form)
    (other : ResolvesTo name (declaration.withProperty property written) final)
    (plain : declaration.isEmbedded = false)
    (present : declaration.bareProperties.get? property = some value)
    (same : (Lifting.ofProperty name property written).value =
      (Lifting.ofProperty name property value).value) : form = final := by
  have bareProperties : (declaration.withProperty property written).bareProperties =
      declaration.bareProperties.insert property written := by
    rw [Declaration.bareProperties, unmarkAll_withProperty written (direct.bare plain) present]
    rfl
  rw [direct.eq_lifted plain, other.eq_lifted plain, bareProperties, liftAll_insert present same,
    Declaration.withProperty, Declaration.withProperties_withProperties]

end Resolution

namespace Declarations

variable {types : Declarations} {name property : String} {declaration declared : Declaration}
  {value written final : PropertyValue} {rest : List Declaration}

/-- A type that is lifted first from a property may as well be declared and resolved before, with
the property edited so that the other lifts remain. -/
theorem resolve_edited (found : types.get? name = some declaration)
    (plain : declaration.isEmbedded = false)
    (present : declaration.bareProperties.get? property = some value)
    (lifts : Lifting.ofProperty name property value = ⟨declared :: rest, final, none⟩)
    (others : Lifting.ofProperty name property written = ⟨rest, final, none⟩)
    (success : (types.resolve name).stopped = none)
    (fresh : (Trace.ofType name declaration types.keys).Fresh types.keys) :
    declared.name ∉ types.keys ∧ ∀ edited,
      Resolution.Edit types edited name (declaration.withProperty property written) declared →
        let first := resolve edited declared.name
        let second := first.reached.resolve name
        first.stopped = none ∧ second.stopped = none ∧
          ∀ key, second.reached.get? key = (types.resolve name).reached.get? key := by
  have direct := follows_resolve found
  rw [success] at direct
  have ended := direct.stopped_eq.symm
  obtain ⟨form, _, resolved⟩ := (direct.settled ended _ List.mem_cons_self).found
  have bare := resolved.bare plain
  obtain ⟨before, after, entries, inserted⟩ := OrderedMap.exists_split present
  have shape : Trace.ofType name declaration types.keys =
      Trace.ofProperties name declaration.bareProperties.entries types.keys :=
    Trace.ofType_of_plain plain bare
  rw [entries] at shape
  rw [shape] at ended fresh direct
  have absent : declared.name ∉ types.keys := fun inside =>
    Trace.not_mem_of_fresh lifts ended fresh (List.mem_append_left _ inside)
  refine ⟨absent, ?_⟩
  intro edited edit first second
  obtain ⟨firstEnded, secondEnded, same⟩ := Trace.exchange lifts others ended fresh
  have inner : Resolution.Follows _ _ _ first.reached first.stopped :=
    follows_resolve edit.declared_eq
  rw [edit.keys_eq] at inner
  have isPresent : name ∈ types.keys := OrderedMap.mem_keys_iff.mpr ⟨declaration, found⟩
  have apart : name ≠ declared.name := fun clash => absent (clash ▸ isPresent)
  have reached : first.reached.get? name = some (declaration.withProperty property written) := by
    rw [← edit.changed_eq]
    refine inner.kept name ?_ (by simpa using apart)
    rw [edit.keys_eq]
    exact List.mem_append_left _ isPresent
  have outer : Resolution.Follows _ _ _ second.reached second.stopped := follows_resolve reached
  rw [inner.keys_eq, edit.keys_eq, Resolution.ofType_withProperty plain bare present,
    inserted written] at outer
  refine ⟨inner.stopped_eq.trans firstEnded, outer.stopped_eq.trans secondEnded, ?_⟩
  rw [inner.stopped_eq.trans firstEnded] at inner
  rw [outer.stopped_eq.trans secondEnded] at outer
  refine Resolution.get?_eq_of_edit edit direct inner outer same ?_
  intro form final resolved again
  exact resolved.eq_of_edit again plain present (by rw [lifts, others])

end Declarations

namespace Registry

variable {registry : Registry} {name property : String} {type : Classified}
  {declared : Declaration} {written : PropertyValue}

/-- The declarations after the optional names of a type are changed. -/
theorem declarations_unmark (found : registry.get? name = some type) :
    (registry.unmark name).reached.declarations =
      registry.declarations.insert name
        (type.declaration.withProperties type.declaration.bareProperties) := by
  simp only [unmark, found]
  exact OrderedMap.map_insert (fun _ (type : Classified) => type.declaration) registry name _

/-- Edit a type by hand: its optional names are changed, another type is declared, and a property is
written. -/
def editByHand (registry : Registry) (name property : String) (declared : Declaration)
    (written : PropertyValue) : Registry :=
  ((registry.unmark name).reached.declare declared).setProperty name property written

/-- What is edited by hand are the type and the other one beside it. -/
theorem edit_editByHand (found : registry.get? name = some type)
    (absent : declared.name ∉ registry.declarations.keys) :
    Resolution.Edit registry.declarations
      (registry.editByHand name property declared written).declarations name
      (type.declaration.withProperty property written) declared := by
  have present : name ∈ registry.declarations.keys := by
    rw [keys_declarations]
    exact OrderedMap.mem_keys_iff.mpr ⟨type, found⟩
  have apart : name ≠ declared.name := fun clash => absent (clash ▸ present)
  have beside : ((registry.unmark name).reached.declare declared).declarations =
      (registry.declarations.insert name
        (type.declaration.withProperties type.declaration.bareProperties)).insert
          declared.name declared := by
    rw [declarations_declare, declarations_unmark found]
  have placed : ((registry.unmark name).reached.declare declared).declarations.get? name =
      some (type.declaration.withProperties type.declaration.bareProperties) := by
    rw [beside, OrderedMap.get?_insert, if_neg apart, OrderedMap.get?_insert, if_pos rfl]
  rw [get?_declarations, Option.map_eq_some_iff] at placed
  obtain ⟨bare, there, bareEq⟩ := placed
  have edited : (registry.editByHand name property declared written).declarations =
      ((registry.declarations.insert name
        (type.declaration.withProperties type.declaration.bareProperties)).insert
          declared.name declared).insert name (type.declaration.withProperty property written) := by
    rw [editByHand, setProperty, declarations_modify there, beside]
    simp only [Classified.withProperties, bareEq, Declaration.properties_withProperties,
      Declaration.withProperties_withProperties, Declaration.withProperty]
  rw [edited]
  exact Resolution.edit_of_inserts _ _ present absent

/-- Lifting an inline declaration is the same as declaring it by hand. When a type whose expression
is no embedded schema is resolved with success, every lifted declaration having a name of its own
that was free, then any property that declares a type inline may as well be edited before: the type
is declared by hand, and the property is made to refer to it. Both types can then be resolved, and
in the end every name has the same declaration as without the edit. -/
theorem resolve_edited_by_hand (registry : Registry) (name property : String) (type : Classified)
    (value : PropertyValue) (found : registry.get? name = some type)
    (plain : type.declaration.isEmbedded = false)
    (present : type.declaration.bareProperties.get? property = some value)
    (declares : value.DeclaresInline) (success : (registry.resolve name).stopped = none)
    (fresh : (Trace.ofType name type.declaration registry.keys).Fresh registry.keys) :
    ∃ declared written, PropertyValue.ByHand name property value declared written ∧
      let edited := registry.editByHand name property declared written
      let first := edited.resolve declared.name
      let second := first.reached.resolve name
      first.stopped = none ∧ second.stopped = none ∧
        ∀ key, second.reached.declarations.get? key =
          (registry.resolve name).reached.declarations.get? key := by
  have follows := follows_resolve found
  have ended := follows.stopped_eq.symm.trans success
  obtain ⟨form, _, resolved⟩ := (follows.settled ended _ List.mem_cons_self).found
  have made := resolved.made plain _ (OrderedMap.get?_eq_some.mp present)
  obtain ⟨declared, written, byHand⟩ := PropertyValue.exists_byHand declares made
  obtain ⟨rest, final, lifts, others⟩ := byHand.ofProperty made
  rw [← keys_declarations] at fresh
  obtain ⟨absent, same⟩ := Declarations.resolve_edited (declared_of_get? found) plain present lifts
    others success fresh
  refine ⟨declared, written, byHand, ?_⟩
  intro edited first second
  have reached := same edited.declarations (edit_editByHand found absent)
  rw [declarations_resolve, declarations_resolve]
  simp only [resolve, declarations_adopt, first, second]
  exact reached

/-- The address of the sample under its bare name. -/
def sampleAddress : PropertyValue :=
  .inline (.ofList [("type", .string "object"), ("properties", .mapping [
    (.string "street", .string "string"),
    (.string "geo", .mapping [(.string "properties", .mapping [
      (.string "lat", .string "number")])])]), ("required", .bool false)])

/-- The type of the sample's address may as well be declared by hand. -/
theorem resolve_edited_by_hand_sample :
    sample.get? "Person" = some (.ofDeclaration samplePerson) ∧
      samplePerson.isEmbedded = false ∧
      samplePerson.bareProperties.get? "address" = some sampleAddress ∧
      sampleAddress.DeclaresInline ∧ (sample.resolve "Person").stopped = none ∧
      (Trace.ofType "Person" samplePerson sample.keys).Fresh sample.keys ∧
      ∃ declared written,
        PropertyValue.ByHand "Person" "address" sampleAddress declared written ∧
          let edited := sample.editByHand "Person" "address" declared written
          let first := edited.resolve declared.name
          let second := first.reached.resolve "Person"
          first.stopped = none ∧ second.stopped = none ∧
            ∀ key, second.reached.declarations.get? key =
              (sample.resolve "Person").reached.declarations.get? key := by
  have plain : samplePerson.isEmbedded = false := by decide +kernel
  have present : samplePerson.bareProperties.get? "address" = some sampleAddress := by
    decide +kernel
  have declares : sampleAddress.DeclaresInline := ⟨_, rfl, .inl ⟨_, rfl⟩⟩
  have fresh : (Trace.ofType "Person" samplePerson sample.keys).Fresh sample.keys :=
    ⟨by decide +kernel, by decide +kernel⟩
  exact ⟨rfl, plain, present, declares, stopped_sample, fresh,
    resolve_edited_by_hand sample "Person" "address" (.ofDeclaration samplePerson) sampleAddress rfl
      plain present declares stopped_sample fresh⟩

end Registry

end Raml
