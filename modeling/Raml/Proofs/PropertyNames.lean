import Raml.Proofs.AllOf
import Raml.Proofs.SchemaPlace
import Raml.Schema

/-!
# Names of properties

Some passes of normalization take every object for a schema, a map of properties too. So the names
of properties stay, and properties are normalized alike, up to the few names that are taken for
keywords. The names that are read from a text are those that its schema declares, up to the same
names.
-/
namespace Raml.Schema

open JsonValue

/-- What the normal form of a schema has under a keyword with a map or a list of schemas. -/
theorem get?_normalize {schema : JsonValue} {keyword : String} (distinct : schema.Distinct)
    (schemas : keyword ∈ mapKeywords ++ listKeywords) :
    (normalize schema).get? keyword = (schema.get? keyword).map
      (normalizeIn .root (.ofKeyword keyword) (keyword = "properties")) := by
  cases schema with
  | object members =>
    have known : ∀ keyword ∈ mapKeywords ++ listKeywords, Position.ofKeyword keyword ≠ .data := by
      decide
    obtain ⟨after, same, rewritten⟩ := rewrites_normalizeIn_schema .root false distinct.1
    rw [normalize_eq, same]
    exact rewritten.lookup keyword (known keyword schemas)
  | bool flag =>
    -- The schemas that booleans stand for have none of these keywords.
    have known : ∀ keyword ∈ mapKeywords ++ listKeywords,
        (normalize (.bool flag)).get? keyword = none := by
      cases flag <;> decide +kernel
    exact known keyword schemas
  | _ => rfl

/-- The `allOf` of the normal form has the normal forms of its schemas. -/
theorem allOf_normalize {schema : JsonValue} {items : List JsonValue}
    (distinct : schema.Distinct) :
    (normalize schema).get? "allOf" = some (.array items) ↔
      ∃ earlier, schema.get? "allOf" = some (.array earlier) ∧ items = earlier.map normalize := by
  rw [get?_normalize distinct (by decide), Option.map_eq_some_iff]
  constructor
  · rintro ⟨held, under, same⟩
    have shape := (isSome_of_normalizeIn (by decide) same).2
    cases held with
    | array earlier =>
      rw [show Position.ofKeyword "allOf" = .schemaList by decide, normalizeIn_list] at same
      cases same
      exact ⟨earlier, under, rfl⟩
    | _ => contradiction
  · rintro ⟨earlier, under, rfl⟩
    exact ⟨_, under, normalizeIn_list .root _ earlier⟩

/-- The properties of the normal form are those that normalizing the properties gives. -/
theorem properties_normalize_root {schema : JsonValue} {after : List (String × JsonValue)}
    (distinct : schema.Distinct) :
    (normalize schema).get? "properties" = some (.object after) ↔
      ∃ properties, schema.get? "properties" = some (.object properties) ∧
        normalizeIn .root .schemaMap true (.object properties) = .object after := by
  rw [get?_normalize distinct (by decide), Option.map_eq_some_iff]
  constructor
  · rintro ⟨held, under, same⟩
    have shape := (isSome_of_normalizeIn (by decide) same).1
    cases held with
    | object properties => exact ⟨properties, under, same⟩
    | _ => contradiction
  · rintro ⟨properties, under, same⟩
    exact ⟨_, under, same⟩

/-- The walk of the normal form visits the normal forms of the schemas on the walk. -/
theorem walk_normalize {schema : JsonValue} (distinct : schema.Distinct) :
    walk (normalize schema) = (walk schema).map normalize := by
  induction schema using tree_induction with
  | step schema ih =>
    by_cases array : ∃ items, schema.get? "allOf" = some (.array items)
    · obtain ⟨items, joined⟩ := array
      have normal : (normalize schema).get? "allOf" = some (.array (items.map normalize)) :=
        (allOf_normalize distinct).mpr ⟨items, joined, rfl⟩
      have each : ∀ item ∈ items, walk (normalize item) = (walk item).map normalize :=
        fun item inside => ih items joined item inside ((distinct.get? joined).of_mem inside)
      rw [walk_of_allOf joined, walk_of_allOf normal, List.map_cons, List.flatMap_map,
        List.map_flatMap, List.flatMap_def, List.map_congr_left each, ← List.flatMap_def]
    · have normal (items : List JsonValue) :
          (normalize schema).get? "allOf" ≠ some (.array items) := by
        intro joined
        obtain ⟨earlier, under, -⟩ := (allOf_normalize distinct).mp joined
        exact array ⟨earlier, under⟩
      rw [walk_of_other (not_exists.mp array), walk_of_other normal, List.map_singleton]

/-- The tree of the normal form has the normal forms of the schemas of the tree. -/
theorem inAllOf_normalize {schema member : JsonValue} (distinct : schema.Distinct) :
    InAllOf (normalize schema) member ↔
      ∃ earlier, InAllOf schema earlier ∧ member = normalize earlier := by
  rw [← mem_walk_iff, walk_normalize distinct, List.mem_map]
  simp only [mem_walk_iff, eq_comm]

/-- The names that the normal form declares are those of the normalized properties of the schemas of
the tree. -/
theorem declares_normalize {schema : JsonValue} {name : String} (distinct : schema.Distinct) :
    Declares (normalize schema) name ↔ ∃ member properties after, InAllOf schema member ∧
      member.get? "properties" = some (.object properties) ∧
      normalizeIn .root .schemaMap true (.object properties) = .object after ∧
      name ∈ Entries.keys after := by
  constructor
  · rintro ⟨member, after, within, given, present⟩
    obtain ⟨earlier, before, rfl⟩ := (inAllOf_normalize distinct).mp within
    obtain ⟨properties, under, same⟩ :=
      (properties_normalize_root (before.distinct distinct)).mp given
    exact ⟨earlier, properties, after, before, under, same, present⟩
  · rintro ⟨member, properties, after, within, given, same, present⟩
    exact ⟨normalize member, after, (inAllOf_normalize distinct).mpr ⟨member, within, rfl⟩,
      (properties_normalize_root (within.distinct distinct)).mpr ⟨properties, given, same⟩, present⟩

/-- A schema of the tree has a property called `properties` that marks names, which are added to the
properties around it. -/
def AddsNames (schema : JsonValue) : Prop :=
  ∃ member properties, InAllOf schema member ∧
    member.get? "properties" = some (.object properties) ∧ requiredNames true properties ≠ []

/-- The names that the normal form declares are those of the schema exactly when none is called
`const` and when `required` is one of them if names are added to it. -/
theorem declares_normalize_iff {schema : JsonValue} (distinct : schema.Distinct) :
    (∀ name, Declares (normalize schema) name ↔ Declares schema name) ↔
      ¬Declares schema "const" ∧ (AddsNames schema → Declares schema "required") := by
  simp only [declares_normalize distinct]
  have inner {member : JsonValue} {properties : List (String × JsonValue)}
      (within : InAllOf schema member)
      (given : member.get? "properties" = some (.object properties)) :
      (Entries.keys properties).Nodup := ((within.distinct distinct).get? given).1
  constructor
  · intro kept
    refine ⟨fun declared => ?_, ?_⟩
    · obtain ⟨member, properties, after, within, given, same, present⟩ :=
        (kept "const").mpr declared
      exact (NormalMap.of_eq (inner within given) same).gone rfl present
    · rintro ⟨member, properties, within, given, some⟩
      obtain ⟨after, same, normal⟩ := exists_normalMap false true true (inner within given)
      exact (kept "required").mp
        ⟨member, properties, after, within, given, same, normal.added some⟩
  · rintro ⟨constant, required⟩ name
    constructor
    · rintro ⟨member, properties, after, within, given, same, present⟩
      have unlisted (here : "const" ∈ Entries.keys properties) : false = true :=
        absurd ⟨member, properties, within, given, here⟩ constant
      have normal := NormalMap.of_eq (inner within given) same
      rcases (normal.mem_keys unlisted).mp present with old | ⟨rfl, some⟩
      · exact ⟨member, properties, within, given, old⟩
      · exact required ⟨member, properties, within, given, some⟩
    · rintro ⟨member, properties, within, given, present⟩
      have unlisted (here : "const" ∈ Entries.keys properties) : false = true :=
        absurd ⟨member, properties, within, given, here⟩ constant
      obtain ⟨after, same, normal⟩ := exists_normalMap false true true (inner within given)
      exact ⟨member, properties, after, within, given, same,
        (normal.mem_keys unlisted).mpr (.inl present)⟩

/-- A text is read by normalizing the schema that it is. -/
theorem properties_of_ofText? {text : String} {schema : JsonValue}
    (read : JsonValue.ofText? (String.ofList (Text.trim text.toList)) = some schema) :
    Schema.properties text = propertiesOf (normalize schema) := by
  rw [Schema.properties, read]

/-- What is seen of the properties of a schema is seen of those that its text gives. -/
theorem exists_properties_of_ofText? {α : Type} {text : String} {schema : JsonValue}
    {view : Properties → α} {seen : α}
    (read : JsonValue.ofText? (String.ofList (Text.trim text.toList)) = some schema)
    (value : (propertiesOf (normalize schema)).toOption.map view = some seen) :
    ∃ found, Schema.properties text = .ok found ∧ view found = seen := by
  rw [properties_of_ofText? read]
  cases parsed : propertiesOf (normalize schema) with
  | error failure => simp [parsed, Except.toOption] at value
  | ok found => exact ⟨found, rfl, by simpa [parsed, Except.toOption] using value⟩

/-- Names of properties are taken for keywords in few cases only. At every place of a schema,
reached by names that are not, the normal form has the same names of properties exactly when no
constant is listed there and no names are added to `required`, and each property is normalized by
its schema alone, but for one called `properties` and, under a name that holds data, for constants.
The names that are read from a text are those that its schema declares under the same conditions. -/
theorem property_names_kept_iff (schema : JsonValue) :
    (∀ (path : List Step) (context : Context) (place : JsonValue)
        (properties : List (String × JsonValue)), schema.Distinct →
      Leads path .root schema context place →
      place.get? "properties" = some (.object properties) →
      ∃ normal after, follow? path (normalize schema) = some normal ∧
        normal.get? "properties" = some (.object after) ∧
        ((∀ name, name ∈ Entries.keys after ↔ name ∈ Entries.keys properties) ↔
          KeepsNames context.literal true properties) ∧
        ∀ name property, Entries.get? name properties = some property →
          ¬TakenForKeyword context.literal true properties name →
          Entries.get? name after = some (normalizeIn
            ⟨true, context.literal || name ∈ literalKeywords, context.typed⟩ .schema
            (name = "properties") property)) ∧
    ∀ (text : String) (found : Properties),
      JsonValue.ofText? (String.ofList (Text.trim text.toList)) = some schema →
      Schema.properties text = .ok found →
      ((∀ name, name ∈ found.keys ↔ Declares schema name) ↔
        ¬Declares schema "const" ∧ (AddsNames schema → Declares schema "required")) := by
  constructor
  · intro path context place properties distinct leads given
    obtain ⟨led, apart⟩ := leads.follow?_normalizeIn distinct
    have held := get?_normalizeIn context false apart (by decide) given
    obtain ⟨after, same, normal⟩ := exists_normalMap context.literal context.typed true
      (apart.get? given).1
    exact ⟨_, after, led, held.trans (congrArg some same), normal.keepsNames_iff,
      fun name property found clear => normal.get? found clear⟩
  · intro text found read parsed
    rw [properties_of_ofText? read] at parsed
    simp only [mem_propertiesOf parsed]
    exact declares_normalize_iff (JsonValue.distinct_of_ofText? read)

/-- A constant is listed in the schema of a property called `a` and stays in that of one called
`default`. -/
example : normalize (.object [("properties", .object
      [("a", .object [("const", .null)]), ("default", .object [("const", .null)])])]) =
    .object [("properties", .object [("a", .object [("enum", .array [.null])]),
      ("default", .object [("const", .null)])]), ("type", .string "object")] := by
  decide +kernel

/-- The schema of strings. -/
def stringSchema : JsonValue := .object [("type", .string "string")]

/-- A schema with a property that has a property. -/
def nestedSchema : JsonValue :=
  .object [("properties", .object [("a", .object [("properties", .object [("b", stringSchema)])])])]

/-- The text of that schema. -/
def nestedText : String :=
  "\x7b\"properties\":\x7b\"a\":\x7b\"properties\":" ++
    "\x7b\"b\":\x7b\"type\":\"string\"\x7d\x7d\x7d\x7d\x7d"

/-- The names of the sample's properties are kept. -/
theorem property_names_kept_iff_sample :
    JsonValue.ofText? (String.ofList (Text.trim nestedText.toList)) = some nestedSchema ∧
      (∃ normal after,
        follow? [.member "properties" "a"] (normalize nestedSchema) = some normal ∧
        normal.get? "properties" = some (.object after) ∧
        (∀ name, name ∈ Entries.keys after ↔ name ∈ ["b"]) ∧
        Entries.get? "b" after =
          some (normalizeIn ⟨true, false, true⟩ .schema false stringSchema)) ∧
      ∃ found, Schema.properties nestedText = .ok found ∧
        ∀ name, name ∈ found.keys ↔ Declares nestedSchema name := by
  have read : JsonValue.ofText? (String.ofList (Text.trim nestedText.toList)) =
      some nestedSchema := by decide +kernel
  obtain ⟨inPlace, inText⟩ := property_names_kept_iff nestedSchema
  refine ⟨read, ?_, ?_⟩
  · have clear : (Step.member "properties" "a").Clear false nestedSchema := by
      refine ⟨by decide, fun members _ => ?_⟩
      rintro (⟨same, -⟩ | ⟨same, -⟩) <;> exact absurd same (by decide)
    obtain ⟨normal, after, led, given, names, values⟩ := inPlace
      [.member "properties" "a"] ⟨true, false, true⟩
      (.object [("properties", .object [("b", stringSchema)])]) [("b", stringSchema)]
      (JsonValue.distinct_of_ofText? read) (.step rfl clear .here) rfl
    refine ⟨normal, after, led, given, names.mpr ⟨fun present => absurd present (by decide),
      fun some => absurd rfl some⟩, values "b" stringSchema rfl ?_⟩
    rintro (⟨same, -⟩ | ⟨same, -⟩) <;> exact absurd same (by decide)
  · have names : (propertiesOf (normalize nestedSchema)).toOption.map OrderedMap.keys =
        some ["a"] := by decide +kernel
    have alone (member : JsonValue) (within : InAllOf nestedSchema member) :
        member = nestedSchema := by
      rcases inAllOf_iff.mp within with same | ⟨items, joined, -⟩
      · exact same
      · cases joined
    rw [← properties_of_ofText? read] at names
    cases parsed : Schema.properties nestedText with
    | error failure => simp [parsed, Except.toOption] at names
    | ok found =>
      refine ⟨found, rfl, (inText nestedText found read parsed).mpr ⟨?_, ?_⟩⟩
      · rintro ⟨member, properties, within, given, present⟩
        cases alone member within
        cases given
        exact absurd present (by decide)
      · rintro ⟨member, properties, within, given, some⟩
        cases alone member within
        cases given
        exact absurd rfl some

/-- A schema with properties called `const`, `enum` and `type`. -/
def keywordSchema : JsonValue :=
  .object [("properties", .object
    [("const", stringSchema), ("enum", stringSchema), ("type", stringSchema)])]

/-- The text of that schema. -/
def keywordText : String :=
  "\x7b\"properties\":\x7b\"const\":\x7b\"type\":\"string\"\x7d," ++
    "\"enum\":\x7b\"type\":\"string\"\x7d,\"type\":\x7b\"type\":\"string\"\x7d\x7d\x7d"

/-- A property called `const` is taken for a constant: it is lost in the normal form, and its name
among those that are read. -/
theorem property_const_lost :
    JsonValue.ofText? (String.ofList (Text.trim keywordText.toList)) = some keywordSchema ∧
      (normalize keywordSchema).get? "properties" =
        some (.object [("type", stringSchema), ("enum", stringSchema)]) ∧
      Declares keywordSchema "const" ∧
      ∃ found, Schema.properties keywordText = .ok found ∧ found.keys = ["type", "enum"] := by
  have read : JsonValue.ofText? (String.ofList (Text.trim keywordText.toList)) =
      some keywordSchema := by decide +kernel
  have names : (propertiesOf (normalize keywordSchema)).toOption.map OrderedMap.keys =
      some ["type", "enum"] := by decide +kernel
  rw [← properties_of_ofText? read] at names
  refine ⟨read, by decide +kernel, ⟨keywordSchema, _, .self, rfl, by simp⟩, ?_⟩
  cases parsed : Schema.properties keywordText with
  | error failure => simp [parsed, Except.toOption] at names
  | ok found => exact ⟨found, rfl, by simpa [parsed, Except.toOption] using names⟩

end Raml.Schema
