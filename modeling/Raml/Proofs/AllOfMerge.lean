import Raml.Proofs.RequiredProperties
import Raml.Proofs.SchemaNormalForm

/-!
# Merged properties

The properties of a schema are gathered along the walk over the schemas of its `allOf` trees. A name
has the place of its first declaration on the walk and the value of its last one, and whether the
property is required is said by the schema of that last declaration alone.
-/
namespace Raml.Schema

open JsonValue

variable {schema member property : JsonValue} {schemas before after : List JsonValue}
variable {name : String} {own listed : List (String × PropertyValue)} {found : Properties}

/-- The last of several schemas that has a property of a name, with the property's schema. -/
def lastDeclaration? (name : String) (schemas : List JsonValue) : Option (JsonValue × JsonValue) :=
  schemas.reverse.findSome? fun schema =>
    (ownProperty? name schema).map fun property => (schema, property)

/-! ## Order of the names -/

/-- The names of the properties are those that the schemas on the walk have, in the order in which
they first occur. -/
theorem keys_propertiesOf (read : propertiesOf schema = .ok found) :
    found.keys = ((walk schema).flatMap ownNames).eraseDups := by
  obtain ⟨listed, gathered, rfl⟩ := propertiesOf_eq_ok.mp read
  rw [OrderedMap.keys_ofList, keys_gather gathered]

/-! ## The value of a name -/

/-- The last declaration of a name is one that no declaration of the name comes after. -/
theorem lastDeclaration?_eq_some :
    lastDeclaration? name schemas = some (member, property) ↔
      ∃ before after, schemas = before ++ member :: after ∧
        ownProperty? name member = some property ∧
        ∀ later ∈ after, ownProperty? name later = none := by
  rw [lastDeclaration?, List.findSome?_eq_some_iff]
  constructor
  · rintro ⟨after, schema, before, reversed, given, last⟩
    obtain ⟨_, own, same⟩ := Option.map_eq_some_iff.mp given
    cases same
    refine ⟨before.reverse, after.reverse, ?_, own, fun later inside => ?_⟩
    · have forward := congrArg List.reverse reversed
      simpa using forward
    · simpa using last later (List.mem_reverse.mp inside)
  · rintro ⟨before, after, rfl, own, last⟩
    refine ⟨after.reverse, member, before.reverse, by simp, by simp [own], fun later inside => ?_⟩
    simp [last later (List.mem_reverse.mp inside)]

/-- Every name of the properties has a last declaration on the walk. -/
theorem exists_lastDeclaration? (read : propertiesOf schema = .ok found)
    (present : name ∈ found.keys) :
    ∃ member property, lastDeclaration? name (walk schema) = some (member, property) := by
  have declared : ∃ member ∈ walk schema, HasProperty member name :=
    declares_iff.mp ((mem_propertiesOf read).mp present)
  obtain ⟨before, member, after, visited, held, last⟩ := exists_last declared
  obtain ⟨property, given⟩ := hasProperty_iff.mp held
  refine ⟨member, property, lastDeclaration?_eq_some.mpr
    ⟨before, after, visited, given, fun later inside => ?_⟩⟩
  rw [Option.eq_none_iff_forall_ne_some]
  exact fun other same => last later inside (hasProperty_iff.mpr ⟨other, same⟩)

/-- The value of a property is the projection of its last declaration on the walk, and it is
required when the schema of that declaration lists the name. -/
theorem get?_propertiesOf (distinct : schema.Distinct) (read : propertiesOf schema = .ok found)
    (last : lastDeclaration? name (walk schema) = some (member, property)) :
    ∃ facets flag, propertyFacets name property = .ok facets ∧
      (flag = true ↔ Lists member name) ∧
      found.get? name = some (.inline (facets.insert "required" (.bool flag))) := by
  obtain ⟨before, after, visited, given, last⟩ := lastDeclaration?_eq_some.mp last
  have within : InAllOf schema member := mem_walk_iff.mp (by simp [visited])
  obtain ⟨listed, gathered, rfl⟩ := propertiesOf_eq_ok.mp read
  rw [visited] at gathered
  obtain ⟨earlier, own, later, -, first, second, rfl⟩ := gather_split gathered
  obtain ⟨apart, facets, flag, made, required, entry⟩ :=
    get?_ownDeclarations first (fun _ under => ((within.distinct distinct).get? under).1) given
  have missing : name ∉ Entries.keys later := by
    rw [mem_gather second]
    rintro ⟨other, inside, declared⟩
    obtain ⟨again, same⟩ := hasProperty_iff.mp declared
    rw [last other inside] at same
    contradiction
  exact ⟨facets, flag, made, required, OrderedMap.get?_ofList_append apart entry missing⟩

/-! ## Properties of a text -/

/-- A text that gives properties is a schema, and they are those of its normal form. -/
theorem exists_normal {text : String} (parsed : Schema.properties text = .ok found) :
    ∃ schema, JsonValue.ofText? (String.ofList (Text.trim text.toList)) = some schema ∧
      (normalize schema).Distinct ∧ propertiesOf (normalize schema) = .ok found := by
  cases read : JsonValue.ofText? (String.ofList (Text.trim text.toList)) with
  | none =>
    rw [Schema.properties, read] at parsed
    contradiction
  | some schema =>
    rw [properties_of_ofText? read] at parsed
    exact ⟨schema, rfl, (inForm_normalize (JsonValue.distinct_of_ofText? read)).distinct, parsed⟩

/-- The properties of a text are an ordered merge of those that the schemas of its `allOf` tree have
in normal form. Each name has the place of its first declaration on the walk over the tree, a schema
being visited before the schemas of its `allOf`. Its value is the projection of its last declaration
on the walk, required exactly when the schema of that same declaration lists the name. -/
theorem properties_merge_walk {text : String} {found : Properties}
    (parsed : Schema.properties text = .ok found) :
    ∃ schema, JsonValue.ofText? (String.ofList (Text.trim text.toList)) = some schema ∧
      found.keys = ((walk (normalize schema)).flatMap ownNames).eraseDups ∧
      ∀ name ∈ found.keys, ∃ member property facets flag,
        lastDeclaration? name (walk (normalize schema)) = some (member, property) ∧
        propertyFacets name property = .ok facets ∧ (flag = true ↔ Lists member name) ∧
        found.get? name = some (.inline (facets.insert "required" (.bool flag))) := by
  obtain ⟨schema, read, distinct, parsed⟩ := exists_normal parsed
  refine ⟨schema, read, keys_propertiesOf parsed, fun name present => ?_⟩
  obtain ⟨member, property, last⟩ := exists_lastDeclaration? parsed present
  obtain ⟨facets, flag, made, required, value⟩ := get?_propertiesOf distinct parsed last
  exact ⟨member, property, facets, flag, last, made, required, value⟩

/-- A schema that declares and lists `a`; inside its `allOf` a schema declares `b` and lists it, and
then declares `a` again. -/
def mergedSchema : JsonValue :=
  .object [("required", .array [.string "a"]), ("properties", .object [("a", .bool true)]),
    ("allOf", .array [.object [("allOf", .array [.object [
      ("properties", .object [("b", .bool true), ("a", .bool true)]),
      ("required", .array [.string "b"])]])]])]

/-- The text of that schema. -/
def mergedText : String :=
  "\x7b\"required\":[\"a\"],\"properties\":\x7b\"a\":true\x7d,\"allOf\":[\x7b\"allOf\":[" ++
    "\x7b\"properties\":\x7b\"b\":true,\"a\":true\x7d,\"required\":[\"b\"]\x7d]\x7d]\x7d"

/-- In the sample `a` keeps its first place, and its last declaration counts. -/
theorem properties_merge_walk_sample :
    ∃ found, Schema.properties mergedText = .ok found ∧ found.keys = ["a", "b"] ∧
      found.get? "a" = some (.inline (OrderedMap.empty.insert "required" (.bool false))) ∧
      found.get? "b" = some (.inline (OrderedMap.empty.insert "required" (.bool true))) := by
  have read : JsonValue.ofText? (String.ofList (Text.trim mergedText.toList)) =
      some mergedSchema := by decide +kernel
  have names : (propertiesOf (normalize mergedSchema)).toOption.map OrderedMap.keys =
      some ["a", "b"] := by decide +kernel
  obtain ⟨found, parsed, keys⟩ := exists_properties_of_ofText? read names
  obtain ⟨schema, same, -, values⟩ := properties_merge_walk parsed
  cases read.symm.trans same
  -- Both last declarations stand in the same schema.
  let members : List (String × JsonValue) :=
    [("properties", .object [("b", .object []), ("a", .object [])]),
      ("required", .array [.string "b"]), ("type", .string "object")]
  have merged {name : String} {flag : Bool} (present : name ∈ ["a", "b"])
      (last : lastDeclaration? name (walk (normalize mergedSchema)) =
        some (.object members, .object []))
      (listed : decide (name ∈ requiredList members) = flag) :
      found.get? name = some (.inline (OrderedMap.empty.insert "required" (.bool flag))) := by
    obtain ⟨_, _, facets, stated, declared, made, required, value⟩ := values name (keys ▸ present)
    cases last.symm.trans declared
    have bare : propertyFacets name (.object []) = .ok .empty := rfl
    cases bare.symm.trans made
    have same : stated = flag := by
      rw [← listed, Bool.eq_iff_iff, required, decide_eq_true_eq, mem_requiredList_iff]
    rw [value, same]
  exact ⟨found, parsed, keys, merged (by decide) (by decide +kernel) (by decide),
    merged (by decide) (by decide +kernel) (by decide)⟩

end Raml.Schema
