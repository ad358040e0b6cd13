import Raml.Proofs.Frame

/-!
# Registries after a history of operations

A registry comes about by operations, each of which may fail and is followed by the next one. After
every operation each type is registered under its own name, and the names that there were are still
there in their order, before the new ones. An operation on a name changes no other type, and a
resolution changes little of the type that it resolves.
-/
namespace Raml

namespace Registry

/-- An operation on a registry. -/
inductive Operation where
  /-- Declare a type. -/
  | declare (declaration : Declaration)
  /-- Create a type unless one of the name exists. -/
  | create (name : String) (expression : Option Node) (properties : Properties)
  /-- Resolve the type of a name. -/
  | resolve (name : String)
  /-- Resolve every type. -/
  | resolveAll
  /-- Replace the expression of a type. -/
  | setExpression (name : String) (expression : Option Node)
  /-- Write a property of a type. -/
  | setProperty (name property : String) (value : PropertyValue)
  /-- Absorb the schema of a type. -/
  | absorb (name : String)
  /-- Change the optional names of the properties of a type. -/
  | unmark (name : String)

/-- The name of the type that an operation is on. -/
def Operation.name? : Operation → Option String
  | declare declaration => some declaration.name
  | create name _ _ | resolve name | setExpression name _ | setProperty name _ _ | absorb name
  | unmark name => some name
  | resolveAll => none

/-- Perform an operation. -/
def perform (registry : Registry) : Operation → Attempt Error Registry
  | .declare declaration => .done (registry.declare declaration)
  | .create name expression properties =>
    .done (registry.create (.ofParts name expression properties)).2
  | .resolve name => registry.resolve name
  | .resolveAll => registry.resolveAll
  | .setExpression name expression => .done (registry.setExpression name expression)
  | .setProperty name property value => .done (registry.setProperty name property value)
  | .absorb name => registry.absorb name
  | .unmark name => registry.unmark name

/-- The registry that a history of operations leaves, starting from an empty one; an operation that
fails is followed by the next. -/
def afterHistory (operations : List Operation) : Registry :=
  operations.foldl (fun registry operation => (registry.perform operation).reached) .empty

/-- Every type is registered under its own name. -/
def KeyedByName (registry : Registry) : Prop :=
  ∀ key type, registry.get? key = some type → type.declaration.name = key

variable {registry : Registry} {name : String}

/-- Whether types are registered under their names shows in the declarations. -/
theorem keyedByName_iff :
    registry.KeyedByName ↔
      Resolution.Holds (fun key declaration => declaration.name = key) registry.declarations := by
  constructor
  · intro keyed key declaration found
    rw [get?_declarations, Option.map_eq_some_iff] at found
    obtain ⟨type, there, rfl⟩ := found
    exact keyed key type there
  · intro holds key type found
    exact holds key type.declaration (declared_of_get? found)

/-- The name of a type lasts. -/
theorem lasting_name : Resolution.Lasting fun key declaration => declaration.name = key :=
  ⟨fun _ _ _ same => same, fun _ _ _ same => same, fun _ _ _ _ _ => rfl⟩

/-- That a type is an old one or consists of its parts lasts. -/
theorem lasting_parts (old : List String) :
    Resolution.Lasting fun key declaration =>
      key ∈ old ∨ ∃ expression properties, declaration = .ofParts key expression properties := by
  constructor
  · rintro key declaration written (known | ⟨expression, properties, rfl⟩)
    · exact .inl known
    · exact .inr ⟨expression, written, Declaration.withProperties_ofParts _ _ _ _⟩
  · rintro key declaration written (known | ⟨expression, properties, rfl⟩)
    · exact .inl known
    · exact .inr ⟨_, written, Declaration.asObject_ofParts _ _ _ _⟩
  · intro owner property value declaration inside
    exact .inr (Lifting.eq_ofParts_of_mem inside)

/-- What is registered under a name after the registry takes over declarations that agree on it. -/
theorem get?_adopt_of_eq {types : Declarations}
    (same : types.get? name = registry.declarations.get? name) :
    (registry.adopt types).get? name = registry.get? name := by
  rw [adopt, OrderedMap.get?_map, same, get?_declarations]
  cases registry.get? name with
  | none => rfl
  | some type => simp [Classified.adopt]

/-- What an operation on a name, if it is on one, leaves as it was. -/
structure Framed (name? : Option String) (before after : Registry) : Prop where
  /-- Types stay registered under their names. -/
  keyed : before.KeyedByName → after.KeyedByName
  /-- The names stay in front. -/
  keys : before.keys <+: after.keys
  /-- No other type is touched. -/
  kept : ∀ name ∈ name?, ∀ key ∈ before.keys, key ≠ name → after.get? key = before.get? key

/-- An operation may do nothing. -/
theorem Framed.refl (name? : Option String) (registry : Registry) :
    Framed name? registry registry :=
  ⟨id, List.prefix_rfl, fun _ _ _ _ _ => rfl⟩

/-- An operation may write a type under its name. -/
theorem Framed.insert (registry : Registry) {type : Classified}
    (named : registry.KeyedByName → type.declaration.name = name) :
    Framed (some name) registry (registry.insert name type) := by
  constructor
  · intro keyed key other found
    rw [OrderedMap.get?_insert] at found
    split at found
    · rename_i same
      rw [same, ← Option.some.inj found, named keyed]
    · exact keyed key other found
  · rw [OrderedMap.keys_insert]
    split
    · exact List.prefix_rfl
    · exact List.prefix_append _ _
  · rintro _ ⟨⟩ key _ apart
    rw [OrderedMap.get?_insert, if_neg apart]

/-- An operation may change a type that keeps its name. -/
theorem Framed.modify (registry : Registry) (name : String) {change : Classified → Classified}
    (named : ∀ type, (change type).declaration.name = type.declaration.name) :
    Framed (some name) registry (registry.modify name change) := by
  unfold Registry.modify
  split
  · rename_i type found
    exact Framed.insert registry fun keyed => (named type).trans (keyed name type found)
  · exact Framed.refl _ registry

/-- An operation may resolve the type of a name. -/
theorem Framed.resolve (registry : Registry) (name : String) :
    Framed (some name) registry (registry.resolve name).reached := by
  constructor
  · intro keyed
    rw [keyedByName_iff] at keyed ⊢
    rw [declarations_resolve]
    exact Declarations.holds_resolve lasting_name keyed name
  · rw [← keys_declarations registry, ← keys_declarations (registry.resolve name).reached,
      declarations_resolve]
    exact Declarations.keys_prefix_resolve registry.declarations name
  · rintro _ ⟨⟩ key present apart
    rw [← keys_declarations registry] at present
    exact get?_adopt_of_eq (Declarations.get?_resolve_of_ne present apart)

/-- An operation may resolve every type. -/
theorem Framed.resolveAll (registry : Registry) :
    Framed none registry registry.resolveAll.reached := by
  have reached : registry.resolveAll.reached.declarations =
      registry.declarations.resolveAll.reached := declarations_adopt registry _
  constructor
  · intro keyed
    rw [keyedByName_iff] at keyed ⊢
    rw [reached]
    exact Declarations.holds_each_resolve lasting_name keyed _
  · rw [← keys_declarations registry, ← keys_declarations registry.resolveAll.reached, reached]
    exact Declarations.keys_prefix_each_resolve registry.declarations _
  · rintro _ ⟨⟩

/-- Absorbing a schema keeps the name of the type. -/
theorem name_of_absorb {type absorbed : Classified} (read : type.absorb = .ok absorbed) :
    absorbed.declaration.name = type.declaration.name := by
  unfold Classified.absorb at read
  cases own : type.declaration.absorb with
  | error cause => simp [own, Except.map] at read
  | ok declaration =>
    simp only [own, Except.map, Except.ok.injEq] at read
    obtain ⟨properties, rfl⟩ := Declaration.eq_asObject_of_absorb own
    rw [← read]
    rfl

/-- Every operation keeps what it leaves. -/
theorem framed_perform (registry : Registry) (operation : Operation) :
    Framed operation.name? registry (registry.perform operation).reached := by
  cases operation with
  | declare declaration => exact Framed.insert registry fun _ => rfl
  | create name expression properties =>
    simp only [perform, Registry.create, Attempt.done]
    split
    · exact Framed.refl _ registry
    · exact Framed.insert registry fun _ => rfl
  | resolve name => exact Framed.resolve registry name
  | resolveAll => exact Framed.resolveAll registry
  | setExpression name expression => exact Framed.modify registry name fun _ => rfl
  | setProperty name property value => exact Framed.modify registry name fun _ => rfl
  | absorb name =>
    simp only [perform, Registry.absorb]
    split
    · exact Framed.refl _ registry
    · rename_i type found
      split
      · rename_i absorbed read
        exact Framed.insert registry fun keyed =>
          (name_of_absorb read).trans (keyed name type found)
      · exact Framed.refl _ registry
  | unmark name =>
    simp only [perform, Registry.unmark]
    split
    · exact Framed.refl _ registry
    · rename_i type found
      exact Framed.insert registry fun keyed => keyed name type found

/-- After any history every type is registered under its own name. -/
theorem keyedByName_afterHistory (operations : List Operation) :
    (afterHistory operations).KeyedByName := by
  have step : ∀ (registry : Registry), registry.KeyedByName →
      (operations.foldl (fun registry operation => (registry.perform operation).reached)
        registry).KeyedByName := by
    induction operations with
    | nil => exact fun _ keyed => keyed
    | cons operation rest ih =>
      exact fun registry keyed => ih _ ((framed_perform registry operation).keyed keyed)
  refine step .empty fun key type found => ?_
  simp [OrderedMap.get?, OrderedMap.empty, Entries.get?] at found

/-- A resolution changes the properties of the type that it resolves, and the expression only when
it absorbs a schema. -/
theorem exists_resolved {type : Classified} (found : registry.get? name = some type) :
    ∃ final properties, (registry.resolve name).reached.get? name = some final ∧
      (final.declaration = type.declaration.withProperties properties ∨
        type.declaration.isEmbedded = true ∧ (registry.resolve name).stopped = none ∧
          final.declaration = type.declaration.asObject properties) := by
  have declared (declaration : Declaration)
      (reached : (registry.declarations.resolve name).reached.get? name = some declaration) :
      ∃ final, (registry.resolve name).reached.get? name = some final ∧
        final.declaration = declaration := by
    rw [← declarations_resolve, get?_declarations, Option.map_eq_some_iff] at reached
    exact reached
  have run : registry.declarations.resolve name = _ := resolve_declarations found
  have stopped : (registry.resolve name).stopped = (registry.declarations.resolve name).stopped :=
    rfl
  rw [Resolution.resolveType] at run
  cases embedded : type.declaration.isEmbedded with
  | true =>
    simp only [embedded, ↓reduceIte] at run
    cases read : type.declaration.absorb with
    | ok absorbed =>
      obtain ⟨properties, rfl⟩ := Declaration.eq_asObject_of_absorb read
      simp only [read] at run
      obtain ⟨final, reached, same⟩ := declared (type.declaration.asObject properties)
        (by rw [run, Attempt.done, OrderedMap.get?_insert, if_pos rfl])
      exact ⟨final, properties, reached, .inr ⟨rfl, by rw [stopped, run]; rfl, same⟩⟩
    | error cause =>
      simp only [read] at run
      obtain ⟨final, reached, same⟩ := declared type.declaration
        (by rw [run, Attempt.failed, declared_of_get? found])
      refine ⟨final, type.declaration.properties, reached, .inl ?_⟩
      rw [same, Declaration.withProperties_properties]
  | false =>
    simp only [embedded, Bool.false_eq_true, ↓reduceIte] at run
    split at run
    all_goals
      obtain ⟨final, reached, same⟩ := declared _
        (by rw [run]; exact (OrderedMap.get?_insert _ _ _ _).trans (if_pos rfl))
      exact ⟨final, _, reached, .inl same⟩

/-- A type that a resolution adds consists of its name, an expression and properties. -/
theorem exists_added {key : String} (present : key ∈ (registry.resolve name).reached.keys)
    (new : key ∉ registry.keys) :
    ∃ made expression properties, (registry.resolve name).reached.get? key = some made ∧
      made.declaration = .ofParts key expression properties := by
  obtain ⟨made, found⟩ := OrderedMap.mem_keys_iff.mp present
  have old : Resolution.Holds (fun key declaration => key ∈ registry.keys ∨
      ∃ expression properties, declaration = .ofParts key expression properties)
      registry.declarations := by
    intro other declaration there
    left
    rw [← keys_declarations]
    exact OrderedMap.mem_keys_iff.mpr ⟨declaration, there⟩
  have holds := Declarations.holds_resolve (lasting_parts registry.keys) old name
  rw [← declarations_resolve] at holds
  obtain ⟨expression, properties, same⟩ :=
    (holds key made.declaration (declared_of_get? found)).resolve_left new
  exact ⟨made, expression, properties, found, same⟩

/-- After any history of operations, whether they succeeded or not, an operation leaves every type
registered under its own name and the names that there were in front in their order. When it is on a
name, it changes no other type. A resolution, however it ends, changes at most the properties of the
type, and the expression only when the type was an embedded schema and the resolution succeeded; the
types that it adds have a name, an expression and properties, and nothing else. -/
theorem perform_after_history (operations : List Operation) (operation : Operation) :
    let before := afterHistory operations
    let attempt := before.perform operation
    (before.KeyedByName ∧ attempt.reached.KeyedByName) ∧
      before.keys <+: attempt.reached.keys ∧
      (∀ name ∈ operation.name?, ∀ key ∈ before.keys, key ≠ name →
        attempt.reached.get? key = before.get? key) ∧
      ∀ name, operation = .resolve name →
        (before.get? name = none → attempt.reached = before) ∧
        (∀ type, before.get? name = some type →
          ∃ final properties, attempt.reached.get? name = some final ∧
            (final.declaration = type.declaration.withProperties properties ∨
              type.declaration.isEmbedded = true ∧ attempt.stopped = none ∧
                final.declaration = type.declaration.asObject properties)) ∧
        ∀ key ∈ attempt.reached.keys, key ∉ before.keys →
          ∃ made expression properties, attempt.reached.get? key = some made ∧
            made.declaration = .ofParts key expression properties := by
  intro before attempt
  have keyed := keyedByName_afterHistory operations
  have framed := framed_perform before operation
  refine ⟨⟨keyed, framed.keyed keyed⟩, framed.keys, framed.kept, ?_⟩
  rintro name rfl
  refine ⟨fun absent => ?_, fun type found => exists_resolved found, fun key present new =>
    exists_added present new⟩
  have unknown : before.declarations.get? name = none := by rw [get?_declarations, absent]; rfl
  have unchanged : (before.declarations.resolve name).reached = before.declarations := by
    simp only [Declarations.resolve, unknown, Attempt.failed]
  exact (congrArg before.adopt unchanged).trans (adopt_declarations before)

/-- A resolution that fails inside a type which it created adds that type, and changes of the
resolved one only its properties. -/
theorem perform_after_history_sample :
    let before := afterHistory [.declare sampleBroken]
    let attempt := before.perform (.resolve "N")
    before.get? "N" = some (.ofDeclaration sampleBroken) ∧ attempt.stopped.isSome = true ∧
      attempt.reached.keys = ["N", "NA"] ∧ "NA" ∉ before.keys ∧
      (∃ final properties, attempt.reached.get? "N" = some final ∧
        (final.declaration = sampleBroken.withProperties properties ∨
          sampleBroken.isEmbedded = true ∧ attempt.stopped = none ∧
            final.declaration = sampleBroken.asObject properties)) ∧
      ∃ made expression properties, attempt.reached.get? "NA" = some made ∧
        made.declaration = .ofParts "NA" expression properties := by
  intro before attempt
  have keys : attempt.reached.keys = ["N", "NA"] := by decide +kernel
  have new : "NA" ∉ before.keys := by decide +kernel
  obtain ⟨_, _, _, resolved⟩ := perform_after_history [.declare sampleBroken] (.resolve "N")
  obtain ⟨_, changed, added⟩ := resolved "N" rfl
  exact ⟨rfl, by decide +kernel, keys, new, changed _ rfl,
    added "NA" (keys ▸ List.mem_cons_of_mem _ List.mem_cons_self) new⟩

end Registry

end Raml
