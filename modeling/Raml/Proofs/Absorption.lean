import Raml.Proofs.KindCell
import Raml.Proofs.SchemaErrors

/-!
# Absorbed schemas

A type absorbs all properties that its schema gives or none of them. Where the schema gives an
error, in whatever property of whatever part of it, the type and the registry that holds it stay as
they were, the remembered kind included. Otherwise the properties are written over those of the
type, which keep their places, and nothing else changes but the expression and with it the kind.
-/
namespace Raml

namespace Declaration

/-- An object type differs from the type that it was made of in its expression and its properties
only. -/
theorem fields_asObject (declaration : Declaration) (properties : Properties) {field : Field}
    (untyped : field ≠ .type) (other : field ≠ .properties) :
    (declaration.asObject properties).fields field = declaration.fields field :=
  (Record.set_of_ne _ _ untyped).trans (Record.set_of_ne _ _ other)

end Declaration

namespace Classified

/-- A type before and after it absorbed properties. -/
structure Absorbed (found : Properties) (before after : Classified) : Prop where
  /-- The old names keep their order, and the new ones follow in the order of the schema. -/
  keys : after.declaration.properties.keys = before.declaration.properties.keys ++
    found.keys.filter (· ∉ before.declaration.properties.keys)
  /-- A property that the schema gives has its value from the schema. -/
  written : ∀ name value, found.get? name = some value →
    after.declaration.properties.get? name = some value
  /-- Every other property has its old value. -/
  kept : ∀ name, name ∉ found.keys →
    after.declaration.properties.get? name = before.declaration.properties.get? name
  /-- The expression is that of an object type. -/
  expression : after.declaration.expression = some (.string "object")
  /-- The kind is that of an object type. -/
  kind : after.kind = .object
  /-- The other fields are as before. -/
  fields : ∀ field, field ≠ .type → field ≠ .properties →
    after.declaration.fields field = before.declaration.fields field
  /-- The name is as before. -/
  name : after.declaration.name = before.declaration.name
  /-- The annotations are as before. -/
  annotations : after.declaration.annotations = before.declaration.annotations

/-- The object type that a type becomes when it absorbs properties. -/
def absorbing (type : Classified) (found : Properties) : Classified :=
  ofDeclaration (type.declaration.asObject (type.declaration.properties.overwrite found))

/-- What a type absorbs is what the text of its expression gives, be it properties or an error. -/
theorem absorb_eq (type : Classified) :
    type.absorb = (Schema.properties type.declaration.text).map type.absorbing := by
  rw [absorb, Declaration.absorb]
  cases Schema.properties type.declaration.text <;> rfl

/-- Absorbing ends with an error exactly when the text of the expression gives that error. -/
theorem absorb_eq_error {type : Classified} {cause : Schema.SchemaError} :
    type.absorb = .error cause ↔ Schema.properties type.declaration.text = .error cause := by
  rw [absorb_eq]
  cases Schema.properties type.declaration.text <;> simp [Except.map]

/-- Absorbing comes to its end exactly when the text of the expression gives properties. -/
theorem absorb_eq_ok {type absorbed : Classified} :
    type.absorb = .ok absorbed ↔
      ∃ found, Schema.properties type.declaration.text = .ok found ∧
        type.absorbing found = absorbed := by
  rw [absorb_eq]
  cases Schema.properties type.declaration.text <;> simp [Except.map]

/-- An object type is of the kind of objects when its kind has not been read. -/
theorem kind_ofDeclaration_asObject (declaration : Declaration) (properties : Properties) :
    (ofDeclaration (declaration.asObject properties)).kind = .object := by
  have object : TypeExpr.classify TypeExpr.objectName = .object := by decide +kernel
  have read : (declaration.asObject properties).kind = TypeExpr.classify TypeExpr.objectName := rfl
  rw [(current_ofDeclaration _).kind_eq]
  exact read.trans object

/-- The object type that a type becomes has absorbed the properties. -/
theorem absorbed_absorbing (type : Classified) (found : Properties) :
    Absorbed found type (type.absorbing found) where
  keys := OrderedMap.keys_overwrite type.declaration.properties found
  written name value given := by
    have here : (type.declaration.properties.overwrite found).get? name = some value := by
      rw [OrderedMap.get?_overwrite, given, Option.some_or]
    exact here
  kept name absent := by
    have there : (type.declaration.properties.overwrite found).get? name =
        type.declaration.properties.get? name := by
      rw [OrderedMap.get?_overwrite, OrderedMap.get?_eq_none.mpr absent, Option.none_or]
    exact there
  expression := rfl
  kind := kind_ofDeclaration_asObject type.declaration _
  fields _ untyped other := type.declaration.fields_asObject _ untyped other
  name := rfl
  annotations := rfl

end Classified

namespace Registry

/-- A registry after one of its types was written under its name: every type has its place, and
every other one is as before. -/
structure Rewritten (name : String) (type : Classified) (before after : Registry) : Prop where
  /-- The names are as before. -/
  keys : after.keys = before.keys
  /-- The type is the written one. -/
  written : after.get? name = some type
  /-- Every other type is as before. -/
  others : ∀ other, other ≠ name → after.get? other = before.get? other

/-- Writing a type under a name that is taken leaves everything else. -/
theorem rewritten_insert {registry : Registry} {name : String} {old : Classified}
    (held : registry.get? name = some old) (type : Classified) :
    Rewritten name type registry (registry.insert name type) where
  keys := OrderedMap.keys_insert_of_mem type (OrderedMap.mem_keys_iff.mpr ⟨old, held⟩)
  written := by rw [OrderedMap.get?_insert, if_pos rfl]
  others other apart := by rw [OrderedMap.get?_insert, if_neg apart]

end Registry

namespace Classified

/-- Absorbing fails exactly when the text of the expression is no value, or when the properties of
one of the schemas that its normal form consists of are not read. -/
theorem absorb_fails_iff {type : Classified} :
    (∃ cause, type.absorb = .error cause) ↔
      ∀ schema, JsonValue.ofText? (String.ofList (Text.trim type.declaration.text.toList)) =
        some schema →
        ∃ member ∈ Schema.walk (Schema.normalize schema), Schema.Rejects Schema.AllRead member := by
  simp only [absorb_eq_error, Schema.properties]
  cases JsonValue.ofText? (String.ofList (Text.trim type.declaration.text.toList)) with
  | none => simp
  | some schema => simp [Schema.propertiesOf_fails_iff]

/-- A type absorbs the properties of its schema all or not at all. Wherever in the schema an error
arises, it ends the absorption and leaves the type, and every registry that holds it, as they were.
Where none arises the absorption comes to its end, with the properties merged into those of the type
and everything but the expression and the kind as before, and in a registry no other type is
touched. -/
theorem absorb_all_or_nothing (type : Classified) :
    (∀ cause, type.absorb = .error cause →
      Schema.properties type.declaration.text = .error cause ∧ type.after .absorb = type ∧
      ∀ (registry : Registry) name, registry.get? name = some type →
        registry.absorb name =
          .failed registry (Resolution.absorptionError type.declaration cause)) ∧
    ∀ absorbed, type.absorb = .ok absorbed →
      (∃ found, Schema.properties type.declaration.text = .ok found ∧
        Absorbed found type absorbed) ∧ type.after .absorb = absorbed ∧
      ∀ (registry : Registry) name, registry.get? name = some type →
        ∃ reached, registry.absorb name = .done reached ∧
          Registry.Rewritten name absorbed registry reached := by
  constructor
  · intro cause stopped
    refine ⟨absorb_eq_error.mp stopped, ?_, fun registry name held => ?_⟩
    · simp only [after, stopped]
    · simp only [Registry.absorb, held, stopped]
  · intro absorbed done
    obtain ⟨found, given, same⟩ := absorb_eq_ok.mp done
    refine ⟨⟨found, given, same ▸ type.absorbed_absorbing found⟩, ?_, fun registry name held => ?_⟩
    · simp only [after, done]
    · refine ⟨registry.insert name absorbed, ?_, Registry.rewritten_insert held absorbed⟩
      simp only [Registry.absorb, held, done]

/-- A type with two properties whose expression is a given text. -/
def embedding (text : String) : Classified :=
  ofDeclaration (.ofParts "Sample" (some (.string text))
    (.ofList [("id", .reference "integer"), ("local", .reference "boolean")]))

/-- A schema of two properties of which the second is given. -/
def pairSchema (second : JsonValue) : JsonValue :=
  .object [("properties", .object [("note", .object []), ("id", second)])]

/-- A text of such a schema. -/
def pairText (second : String) : String :=
  "\x7b\"properties\":\x7b\"note\":\x7b\x7d,\"id\":" ++ second ++ "\x7d\x7d"

/-- A schema with a new property and one that the type has is absorbed; with a number in place of
the second one nothing is, although the first one has a schema. -/
theorem absorb_all_or_nothing_sample :
    ((embedding (pairText "true")).after .absorb).declaration.properties.keys =
        ["id", "local", "note"] ∧
      (embedding (pairText "5")).after .absorb = embedding (pairText "5") := by
  obtain ⟨-, absorbs⟩ := absorb_all_or_nothing (embedding (pairText "true"))
  obtain ⟨fails, -⟩ := absorb_all_or_nothing (embedding (pairText "5"))
  have readPair : JsonValue.ofText? (String.ofList (Text.trim (pairText "true").toList)) =
      some (pairSchema (.bool true)) := by decide +kernel
  have readNumber : JsonValue.ofText? (String.ofList (Text.trim (pairText "5").toList)) =
      some (pairSchema (.number (.int 5))) := by decide +kernel
  have names : (Schema.propertiesOf (Schema.normalize (pairSchema (.bool true)))).toOption.map
      OrderedMap.keys = some ["note", "id"] := by decide +kernel
  have cause : Schema.properties (pairText "5") = .error (.property "id" (.number (.int 5))) := by
    rw [Schema.properties_of_ofText? readNumber]
    rfl
  obtain ⟨found, given, keys⟩ := Schema.exists_properties_of_ofText? readPair names
  obtain ⟨⟨merged, same, absorbed⟩, reached, -⟩ := absorbs _ (absorb_eq_ok.mpr ⟨found, given, rfl⟩)
  cases given.symm.trans same
  refine ⟨?_, (fails _ (absorb_eq_error.mpr cause)).2.1⟩
  rw [reached, absorbed.keys, keys]
  decide

end Classified

end Raml
