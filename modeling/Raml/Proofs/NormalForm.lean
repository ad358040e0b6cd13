import Raml.Proofs.OptionalName
import Raml.Proofs.Registry

/-!
# The normal form that resolution reaches

Properties are in normal form when no name is marked as optional and nothing inside a property
declares properties. A resolved type whose expression is no embedded schema is in normal form, and
resolving a type in normal form changes nothing. An absorbed schema may give properties that are not
in normal form, and exactly then a further resolution is not without effect.
-/
namespace Raml

/-- Properties under bare names, inside which nothing declares properties. -/
structure Properties.Normal (properties : Properties) : Prop where
  /-- No name is marked. -/
  bare : ∀ name ∈ properties.keys, TypeName.isOptional name = false
  /-- Nothing is left to lift. -/
  flat : ∀ entry ∈ properties.entries, entry.2.Flat

namespace Resolution

variable {name : String} {declaration form : Declaration} {types : Declarations}

/-- The value of a property after every lift. -/
theorem get?_liftAll (owner : String) (properties : Properties) (property : String) :
    (liftAll owner properties).get? property =
      (properties.get? property).map fun value =>
        (Lifting.ofProperty owner property value).value :=
  OrderedMap.get?_map (fun property value => (Lifting.ofProperty owner property value).value)
    properties property

/-- A type whose expression is no embedded schema has all its inline declarations lifted. -/
theorem ResolvesTo.eq_lifted (resolved : ResolvesTo name declaration form)
    (plain : declaration.isEmbedded = false) :
    form = declaration.withProperties (liftAll name declaration.bareProperties) := by
  cases resolved with
  | absorbed embedded => simp [embedded] at plain
  | lifted => rfl

/-- Where a type whose expression is no embedded schema is resolved every marked name could be
changed. -/
theorem ResolvesTo.bare (resolved : ResolvesTo name declaration form)
    (plain : declaration.isEmbedded = false) : declaration.properties.unmarkAll.stopped = none := by
  cases resolved with
  | absorbed embedded => simp [embedded] at plain
  | lifted _ bare => exact bare

/-- Where a type whose expression is no embedded schema is resolved every lift is made. -/
theorem ResolvesTo.made (resolved : ResolvesTo name declaration form)
    (plain : declaration.isEmbedded = false) :
    ∀ entry ∈ declaration.bareProperties.entries,
      (Lifting.ofProperty name entry.1 entry.2).stopped = none := by
  cases resolved with
  | absorbed embedded => simp [embedded] at plain
  | lifted _ _ made => exact made

/-- A resolved type whose expression is no embedded schema is in normal form. -/
theorem ResolvesTo.normal (resolved : ResolvesTo name declaration form)
    (plain : declaration.isEmbedded = false) : form.properties.Normal := by
  cases resolved with
  | absorbed embedded => simp [embedded] at plain
  | lifted _ bare made =>
    rw [Declaration.properties_withProperties]
    constructor
    · intro property inside
      rw [liftAll, OrderedMap.keys_map] at inside
      exact Properties.isOptional_of_mem_unmarkAll bare inside
    · intro entry inside
      obtain ⟨source, there, rfl⟩ := List.mem_map.mp inside
      exact Lifting.flat_ofProperty (made source there)

/-- The type of a name is in normal form, and every property that was lifted from its declaration
refers to a type that exists. -/
def InNormalForm (types : Declarations) (name : String) (declaration : Declaration) : Prop :=
  ∃ form, types.get? name = some form ∧ form.properties.Normal ∧
    ∀ property ∈ declaration.bareProperties.entries,
      ∀ lifted ∈ (Lifting.ofProperty name property.1 property.2).declarations,
        lifted.name ∈ types.keys ∧
          ∃ value, form.properties.get? property.1 = some value ∧ value.RefersTo lifted.name

/-- A settled type whose expression was no embedded schema is in normal form. -/
theorem Settled.inNormalForm (settled : Settled types name declaration)
    (plain : declaration.isEmbedded = false) : InNormalForm types name declaration := by
  obtain ⟨form, found, resolved⟩ := settled.found
  refine ⟨form, found, resolved.normal plain, fun property inside lifted made =>
    ⟨settled.closed plain property inside lifted made, ?_⟩⟩
  rw [resolved.eq_lifted plain, Declaration.properties_withProperties, get?_liftAll]
  have present : declaration.bareProperties.get? property.1 = some property.2 :=
    OrderedMap.get?_eq_some.mpr inside
  rw [present]
  refine ⟨_, rfl, Lifting.refersTo_of_mem ?_ made⟩
  exact resolved.made plain property inside

/-- Properties that declare none are walked through without a lift. -/
theorem resolveProperties_append_of_flat {entries : List (String × PropertyValue)}
    (flat : ∀ entry ∈ entries, entry.2.Flat) (rest : List (String × PropertyValue)) :
    resolveProperties name (entries ++ rest) types =
      ⟨(resolveProperties name rest types).types,
        entries.map Prod.snd ++ (resolveProperties name rest types).values,
        (resolveProperties name rest types).stopped⟩ := by
  induction entries with
  | nil => rfl
  | cons entry others ih =>
    obtain ⟨property, value⟩ := entry
    rw [List.forall_mem_cons] at flat
    have lifts : Lifting.ofProperty name property value = ⟨[], value, none⟩ :=
      Lifting.ofProperty_of_flat flat.1
    have resolved : resolveTypes [] types = .done types := by rw [resolveTypes]
    rw [List.cons_append, resolveProperties_cons lifts rfl rfl resolved rfl]
    simp only [Attempt.done, ih flat.2, List.map_cons, List.cons_append]

/-- Where nothing declares properties the walk through them lifts nothing. -/
theorem resolveProperties_of_flat {entries : List (String × PropertyValue)}
    (flat : ∀ entry ∈ entries, entry.2.Flat) :
    resolveProperties name entries types = ⟨types, entries.map Prod.snd, none⟩ := by
  have all : resolveProperties name (entries ++ []) types = _ :=
    resolveProperties_append_of_flat flat []
  simpa only [List.append_nil, resolveProperties] using all

/-- Resolving a type in normal form changes nothing. -/
theorem resolveType_of_normal (found : types.get? name = some declaration)
    (plain : declaration.isEmbedded = false) (normal : declaration.properties.Normal) :
    resolveType name declaration types = .done types := by
  have same : declaration.properties.overlay (declaration.properties.entries.map Prod.snd) =
      declaration.properties :=
    (OrderedMap.overlay_map (fun _ value => value) _).trans
      (OrderedMap.map_of_forall fun _ _ => rfl)
  rw [resolveType]
  simp only [plain, Bool.false_eq_true, ↓reduceIte, Properties.unmarkAll_of_bare normal.bare,
    Attempt.done, resolveProperties_of_flat normal.flat, same,
    Declaration.withProperties_properties, OrderedMap.insert_of_get? found]

end Resolution

namespace Registry

variable {registry : Registry} {name : String} {type : Classified}

/-- What the resolution of an embedded schema reaches. -/
theorem exists_absorbed (found : registry.get? name = some type)
    (embedded : type.declaration.isEmbedded = true)
    (success : (registry.resolve name).stopped = none) :
    ∃ absorbed, Schema.properties type.declaration.text = .ok absorbed ∧
      (registry.resolve name).reached.declarations =
        registry.declarations.insert name
          (type.declaration.asObject (type.declaration.properties.overwrite absorbed)) := by
  rw [declarations_resolve, resolve_declarations found, Resolution.resolveType]
  simp only [resolve, resolve_declarations found, Resolution.resolveType, embedded, ↓reduceIte]
    at success ⊢
  unfold Declaration.absorb at success ⊢
  cases read : Schema.properties type.declaration.text with
  | error cause => simp [read, Except.map, Attempt.failed] at success
  | ok absorbed => exact ⟨absorbed, rfl, rfl⟩

/-- Resolving a type in normal form leaves the registry as it was. -/
theorem resolve_of_normal {declaration : Declaration}
    (found : registry.declarations.get? name = some declaration)
    (plain : declaration.isEmbedded = false) (normal : declaration.properties.Normal) :
    registry.resolve name = .done registry := by
  apply resolve_eq_done
  simp only [Declarations.resolve, found]
  exact Resolution.resolveType_of_normal found plain normal

/-- Resolution reaches a normal form and is then without effect. When the resolution of a type whose
expression is no embedded schema succeeds, the names are those before and those of the created
types; the type and every created one whose expression was no embedded schema are in normal form in
the result, each lifted property refers to a type that exists, and a second resolution succeeds and
changes nothing. -/
theorem resolve_reaches_normal_form (registry : Registry) (name : String) (type : Classified)
    (found : registry.get? name = some type) (plain : type.declaration.isEmbedded = false)
    (success : (registry.resolve name).stopped = none) :
    let result := (registry.resolve name).reached
    let created := (Trace.ofType name type.declaration registry.keys).created
    result.keys = registry.keys ++ created.map Declaration.name ∧
      (∀ entry ∈ (name, type.declaration) :: created.map Resolution.named,
        entry.2.isEmbedded = false →
          Resolution.InNormalForm result.declarations entry.1 entry.2) ∧
      result.resolve name = .done result := by
  intro result created
  have follows := follows_resolve found
  have ended := follows.stopped_eq.symm.trans success
  refine ⟨?_, fun entry inside other => ?_, ?_⟩
  · have keys := follows.keys_eq
    rw [keys_declarations, keys_declarations] at keys
    exact keys
  · exact (follows.settled ended entry inside).inNormalForm other
  · obtain ⟨form, reached, resolved⟩ :=
      (follows.settled ended (name, type.declaration) (List.mem_cons_self)).found
    refine resolve_of_normal reached ?_ (resolved.normal plain)
    rw [resolved.eq_lifted plain]
    exact plain

/-- The sample's resolution creates types by both kinds of lifts, and a second one changes
nothing. -/
theorem resolve_reaches_normal_form_sample :
    sample.get? "Person" = some (.ofDeclaration samplePerson) ∧
      samplePerson.isEmbedded = false ∧ (sample.resolve "Person").stopped = none ∧
      (sample.resolve "Person").reached.keys =
        ["Person", "PersonAddress", "PersonAddressGeo", "PersonPhonesItem"] ∧
      (sample.resolve "Person").reached.resolve "Person" =
        .done (sample.resolve "Person").reached := by
  refine ⟨rfl, by decide +kernel, stopped_sample, by decide +kernel, ?_⟩
  exact (resolve_reaches_normal_form sample "Person" (.ofDeclaration samplePerson) rfl
    (by decide +kernel) stopped_sample).2.2

/-- An embedded schema is resolved in one pass exactly when what it gives is in normal form. When
the resolution of a type whose expression is an embedded schema succeeds, the schema's properties
are written over its own and nothing else changes; a second resolution succeeds and changes nothing
if and only if these properties are in normal form. -/
theorem resolve_embedded_again_iff (registry : Registry) (name : String) (type : Classified)
    (found : registry.get? name = some type) (embedded : type.declaration.isEmbedded = true)
    (success : (registry.resolve name).stopped = none) :
    let result := (registry.resolve name).reached
    ∃ absorbed, Schema.properties type.declaration.text = .ok absorbed ∧
      result.declarations = registry.declarations.insert name
        (type.declaration.asObject (type.declaration.properties.overwrite absorbed)) ∧
      (result.resolve name = .done result ↔
        Properties.Normal (type.declaration.properties.overwrite absorbed)) := by
  intro result
  obtain ⟨absorbed, read, reached⟩ := exists_absorbed found embedded success
  refine ⟨absorbed, read, reached, ?_⟩
  have there : result.declarations.get? name =
      some (type.declaration.asObject (type.declaration.properties.overwrite absorbed)) := by
    rw [reached, OrderedMap.get?_insert, if_pos rfl]
  constructor
  · intro again
    have declared := there
    rw [get?_declarations, Option.map_eq_some_iff] at declared
    obtain ⟨object, present, same⟩ := declared
    have follows := follows_resolve present
    rw [again, same] at follows
    obtain ⟨form, final, resolved⟩ := (follows.settled follows.stopped_eq.symm _
      List.mem_cons_self).found
    have normal := resolved.normal (Declaration.isEmbedded_asObject _ _)
    rw [show form = _ from Option.some.inj (final.symm.trans there)] at normal
    exact normal
  · exact resolve_of_normal there (Declaration.isEmbedded_asObject _ _)

/-- A type whose embedded schema gives an object inside a property. -/
def sampleSchema : Declaration :=
  .ofParts "N" (some (.string
    ("\x7b\"properties\":\x7b\"a\":\x7b\"properties\":" ++
      "\x7b\"b\":\x7b\"type\":\"string\"\x7d\x7d\x7d\x7d\x7d"))) .empty

/-- The resolution of the sample's embedded schema succeeds. -/
theorem stopped_sampleSchema : ((declare .empty sampleSchema).resolve "N").stopped = none :=
  Option.isNone_iff_eq_none.mp (by decide +kernel)

/-- The sample's embedded schema is resolved, and what it gives decides about a second pass. -/
theorem resolve_embedded_again_iff_sample :
    (declare .empty sampleSchema).get? "N" = some (.ofDeclaration sampleSchema) ∧
      sampleSchema.isEmbedded = true ∧
      ((declare .empty sampleSchema).resolve "N").stopped = none ∧
      ∃ absorbed, Schema.properties sampleSchema.text = .ok absorbed ∧
        (((declare .empty sampleSchema).resolve "N").reached.resolve "N" =
            .done ((declare .empty sampleSchema).resolve "N").reached ↔
          Properties.Normal (sampleSchema.properties.overwrite absorbed)) := by
  have embedded : sampleSchema.isEmbedded = true := by decide +kernel
  obtain ⟨absorbed, read, _, again⟩ := resolve_embedded_again_iff (declare .empty sampleSchema) "N"
    (.ofDeclaration sampleSchema) rfl embedded stopped_sampleSchema
  exact ⟨rfl, embedded, stopped_sampleSchema, absorbed, read, again⟩

/-- An embedded schema is not always resolved in one pass: a second one lifts the object that the
sample's schema gives, and creates a type. -/
theorem resolve_embedded_again_creates :
    let first := ((declare .empty sampleSchema).resolve "N").reached
    (declare .empty sampleSchema).get? "N" = some (.ofDeclaration sampleSchema) ∧
      sampleSchema.isEmbedded = true ∧
      ((declare .empty sampleSchema).resolve "N").stopped = none ∧ first.keys = ["N"] ∧
      (first.resolve "N").reached.keys = ["N", "NA"] ∧ first.resolve "N" ≠ .done first := by
  intro first
  have before : first.keys = ["N"] := by decide +kernel
  have after : (first.resolve "N").reached.keys = ["N", "NA"] := by decide +kernel
  refine ⟨rfl, by decide +kernel, stopped_sampleSchema, before, after, fun same => ?_⟩
  rw [same, Attempt.done, before] at after
  exact absurd after (by decide)

end Registry

end Raml
