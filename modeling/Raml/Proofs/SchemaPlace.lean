import Raml.Proofs.SchemaPass

/-!
# Places of schemas

The passes of normalization reach a schema in a context: whether it is a property's schema, whether
it stands under a name that holds data, and whether types are inferred there. At a place of a schema
the normal form holds what normalizing the schema of the place in its context gives, so normalizing
is described by one step, from a schema to the schemas in it.
-/
namespace Raml.Schema

open JsonValue

/-- How the passes reach a schema. -/
structure Context where
  /-- It is a property's schema, and its mark is taken out. -/
  marked : Bool
  /-- It stands under a name that holds data, and its constants stay. -/
  literal : Bool
  /-- Its type is inferred. -/
  typed : Bool

/-- How the passes reach the whole schema. -/
def Context.root : Context := ⟨false, false, true⟩

/-- List the constants of a value, unless it holds data. -/
def listConstantsUnless (literal : Bool) (value : JsonValue) : JsonValue :=
  if literal then value else listConstants value

/-- Infer the types of a value where types are inferred. -/
def inferTypesIf (typed : Bool) (position : Position) (value : JsonValue) : JsonValue :=
  if typed then inferTypes position value else value

/-- What normalization makes of a value that the passes reach in a context. `propertyMap` says that
it is taken for a map of properties. -/
def normalizeIn (context : Context) (position : Position) (propertyMap : Bool)
    (value : JsonValue) : JsonValue :=
  admitNulls (inferTypesIf context.typed position (replaceFlags position
    (listConstantsUnless context.literal (listRequired context.marked propertyMap value))))

/-- Normalizing a schema is normalizing it in the outermost context. -/
theorem normalize_eq (schema : JsonValue) :
    normalize schema = normalizeIn .root .schema false schema := rfl

/-! ## One step -/

section Step

variable {members : List (String × JsonValue)}

/-- Where constants are listed, `const` goes. -/
theorem rewrites_listConstantsUnless (literal : Bool) (distinct : (Entries.keys members).Nodup) :
    ∃ after, listConstantsUnless literal (.object members) = .object after ∧
      Rewrites (fun name => (literal = false ∧ "const" ∈ Entries.keys members) ∧ (name = "const" ∨
          (name = "enum" ∨ name = "type") ∧ name ∉ Entries.keys members))
        (fun name => listConstantsUnless (literal || name ∈ literalKeywords)) members after ∧
      (literal = false → "const" ∉ Entries.keys after) := by
  cases literal with
  | true => exact ⟨members, rfl, Edits.refl distinct, by simp⟩
  | false =>
    obtain ⟨after, same, rewritten, gone⟩ := rewrites_listConstants distinct
    refine ⟨after, same, rewritten.mono (by simp) fun name _ => ?_, fun _ => gone⟩
    funext value
    simp [listConstantsUnder, listConstantsUnless]

/-- Where types are inferred, a schema's `type` may change. -/
theorem rewrites_inferTypesIf (typed : Bool) (distinct : (Entries.keys members).Nodup) :
    ∃ after, inferTypesIf typed .schema (.object members) = .object after ∧
      Rewrites (· = "type") (fun name => inferTypesIf typed (.ofKeyword name)) members after := by
  cases typed with
  | true => exact rewrites_inferTypes distinct
  | false => exact ⟨members, rfl, Edits.refl distinct⟩

/-- Where types are inferred, every schema of a map is given its type. -/
theorem rewrites_inferTypesIf_map (typed : Bool) (distinct : (Entries.keys members).Nodup) :
    ∃ after, inferTypesIf typed .schemaMap (.object members) = .object after ∧
      Rewrites (fun _ => False) (fun _ => inferTypesIf typed .schema) members after := by
  cases typed with
  | true => exact rewrites_inferTypes_map distinct
  | false => exact ⟨members, rfl, Edits.refl distinct⟩

/-- Inferring types makes no boolean and takes none away. -/
theorem bool?_inferTypesIf (typed : Bool) (position : Position) (value : JsonValue) :
    (inferTypesIf typed position value).bool? = value.bool? := by
  cases typed with
  | true => exact bool?_inferTypes position value
  | false => rfl

/-- What the passes after the listing of constants make of a value. -/
def finishIn (typed : Bool) (position : Position) (value : JsonValue) : JsonValue :=
  admitNulls (inferTypesIf typed position (replaceFlags position value))

/-- The passes of normalization in order. -/
theorem normalizeIn_eq (context : Context) (position : Position) (propertyMap : Bool)
    (value : JsonValue) : normalizeIn context position propertyMap value =
      finishIn context.typed position (listConstantsUnless context.literal
        (listRequired context.marked propertyMap value)) := rfl

/-- The last passes turn flags in data into types and do nothing else with it. -/
theorem finishIn_data (typed : Bool) (value : JsonValue) :
    finishIn typed .data value = admitNulls value := by
  cases typed <;> cases value <;> simp [finishIn, inferTypesIf, replaceFlags, inferTypes]

/-- The last passes edit a schema's type and flags only. -/
theorem rewrites_finishIn (typed : Bool) (distinct : (Entries.keys members).Nodup) :
    ∃ after, finishIn typed .schema (.object members) = .object after ∧
      Rewrites (· ∈ nullableKeywords) (fun keyword => finishIn typed (.ofKeyword keyword))
        members after := by
  obtain ⟨flagged, replacing, first⟩ := rewrites_replaceFlags distinct
  obtain ⟨inferred, typing, second⟩ := rewrites_inferTypesIf typed first.distinct
  obtain ⟨after, admitting, third⟩ := rewrites_admitNulls second.distinct
  refine ⟨after, by rw [finishIn, replacing, typing, admitting],
    ((first.trans second).trans third).mono ?_ fun _ _ => rfl⟩
  rintro keyword ((none | rfl) | flag)
  · contradiction
  · decide
  · exact flag

/-- The last passes rewrite every schema of a map and edit none of its names. -/
theorem rewrites_finishIn_map (typed : Bool) (distinct : (Entries.keys members).Nodup) :
    ∃ after, finishIn typed .schemaMap (.object members) = .object after ∧
      Rewrites (fun _ => False) (fun _ => finishIn typed .schema) members after := by
  obtain ⟨flagged, replacing, first⟩ := rewrites_replaceFlags_map distinct
  obtain ⟨inferred, typing, second⟩ := rewrites_inferTypesIf_map typed first.distinct
  -- A boolean under `nullable` would be taken for a flag, but the booleans are replaced.
  have noFlags (name : String) (value : JsonValue)
      (found : Entries.get? name inferred = some value) : value.bool? = none := by
    rw [second.lookup name id, first.lookup name id, Option.map_map,
      Option.map_eq_some_iff] at found
    obtain ⟨earlier, -, rfl⟩ := found
    rw [Function.comp_apply, bool?_inferTypesIf, bool?_replaceFlags]
  obtain ⟨after, admitting, third⟩ := rewrites_admitNulls_of_noFlags second.distinct noFlags
  refine ⟨after, by rw [finishIn, replacing, typing, admitting],
    ((first.trans second).trans third).mono ?_ fun _ _ => rfl⟩
  rintro name ((none | none) | none) <;> exact none

/-- The schemas in a schema are normalized in its context; their own marks count only where it is
taken for a map of properties. -/
theorem rewrites_normalizeIn_schema (context : Context) (propertyMap : Bool)
    (distinct : (Entries.keys members).Nodup) :
    ∃ after, normalizeIn context .schema propertyMap (.object members) = .object after ∧
      Rewrites (fun keyword => Position.ofKeyword keyword = .data)
        (fun keyword => normalizeIn ⟨propertyMap, context.literal, context.typed⟩
          (.ofKeyword keyword) (keyword = "properties")) members after := by
  obtain ⟨marked, literal, typed⟩ := context
  obtain ⟨listed, listing, first, -⟩ := rewrites_listRequired marked propertyMap distinct
  obtain ⟨constant, naming, second, -⟩ := rewrites_listConstantsUnless literal first.distinct
  obtain ⟨after, finishing, third⟩ := rewrites_finishIn typed second.distinct
  refine ⟨after, by rw [normalizeIn_eq, listing, naming, finishing],
    ((first.trans second).trans third).mono ?_ ?_⟩
  · rintro keyword ((⟨rfl, -⟩ | ⟨-, rfl | ⟨rfl | rfl, -⟩⟩) | flag)
    all_goals try decide
    simp only [nullableKeywords, List.mem_cons, List.not_mem_nil, or_false] at flag
    rcases flag with rfl | rfl | rfl <;> decide
  · intro keyword schemas
    have apart : keyword ∉ literalKeywords := by
      intro inside
      simp only [literalKeywords, List.mem_cons, List.not_mem_nil, or_false] at inside
      rcases inside with rfl | rfl | rfl | rfl <;> exact schemas (by decide)
    funext value
    simp [normalizeIn_eq, apart]

/-- Whether the entry of a name in a map of schemas is edited as if the map were a schema: names are
added to the array under `required`, or the constant is listed. -/
def TakenForKeyword (literal propertyMap : Bool) (members : List (String × JsonValue))
    (name : String) : Prop :=
  name = "required" ∧ AddsRequired (requiredNames propertyMap members) members ∨
    name = "const" ∧ literal = false

/-- What normalization makes of the members of a map of schemas. -/
structure NormalMap (literal typed propertyMap : Bool)
    (members after : List (String × JsonValue)) : Prop where
  /-- The schemas are normalized in the context of the map, those of properties as such; one called
  `properties` is taken for a map of properties. -/
  rewrites : Rewrites (fun name => TakenForKeyword literal propertyMap members name ∨
      (literal = false ∧ "const" ∈ Entries.keys members) ∧
        (name = "enum" ∨ name = "type") ∧ name ∉ Entries.keys members)
    (fun name => normalizeIn ⟨propertyMap, literal || name ∈ literalKeywords, typed⟩
      .schema (name = "properties")) members after
  /-- Names that are marked below a schema called `properties` are listed. -/
  added : requiredNames propertyMap members ≠ [] → "required" ∈ Entries.keys after
  /-- Where constants are listed, there is none. -/
  gone : literal = false → "const" ∉ Entries.keys after

/-- A map of schemas is normalized to a map. -/
theorem exists_normalMap (literal typed propertyMap : Bool)
    (distinct : (Entries.keys members).Nodup) :
    ∃ after, normalizeIn ⟨false, literal, typed⟩ .schemaMap propertyMap (.object members) =
        .object after ∧ NormalMap literal typed propertyMap members after := by
  obtain ⟨listed, listing, first, added⟩ := rewrites_listRequired false propertyMap distinct
  obtain ⟨constant, naming, second, gone⟩ := rewrites_listConstantsUnless literal first.distinct
  obtain ⟨after, finishing, last⟩ := rewrites_finishIn_map typed second.distinct
  have kept (name : String) : name ∈ Entries.keys after ↔ name ∈ Entries.keys constant :=
    last.mem_keys_iff id
  refine ⟨after, by rw [normalizeIn_eq, listing, naming, finishing],
    ⟨((first.trans second).trans last).mono ?_ ?_, fun some => ?_, fun listed => ?_⟩⟩
  · have before (name : String) (other : name ≠ "required") :
        name ∈ Entries.keys listed ↔ name ∈ Entries.keys members :=
      first.mem_keys_iff fun edited => other edited.1
    rintro name ((⟨same, adds⟩ | ⟨⟨listed, present⟩, same | ⟨new, missing⟩⟩) | none)
    · exact .inl (.inl ⟨same, by simpa using adds⟩)
    · exact .inl (.inr ⟨same, listed⟩)
    · have other : name ≠ "required" := by rcases new with rfl | rfl <;> decide
      exact .inr ⟨⟨listed, (before _ (by decide)).mp present⟩, new,
        mt (before _ other).mpr missing⟩
    · contradiction
  · intro name _
    funext value
    simp [normalizeIn_eq]
  · rw [kept, second.mem_keys_iff (by simp)]
    exact added rfl some
  · exact mt (kept "const").mp (gone listed)

/-- Whether a map of schemas keeps its names: no constant is listed, and if names are added to
`required`, the name is there already. -/
def KeepsNames (literal propertyMap : Bool) (members : List (String × JsonValue)) : Prop :=
  ("const" ∈ Entries.keys members → literal = true) ∧
    (requiredNames propertyMap members ≠ [] → "required" ∈ Entries.keys members)

namespace NormalMap

variable {literal typed propertyMap : Bool} {after : List (String × JsonValue)} {name : String}

/-- What a map of schemas is normalized to is its normal form. -/
theorem of_eq (distinct : (Entries.keys members).Nodup)
    (same : normalizeIn ⟨false, literal, typed⟩ .schemaMap propertyMap (.object members) =
      .object after) : NormalMap literal typed propertyMap members after := by
  obtain ⟨_, equal, normal⟩ := exists_normalMap literal typed propertyMap distinct
  cases same.symm.trans equal
  exact normal

/-- A present name that is not taken for a keyword keeps its entry. -/
theorem get? (normal : NormalMap literal typed propertyMap members after) {value : JsonValue}
    (found : Entries.get? name members = some value)
    (apart : ¬TakenForKeyword literal propertyMap members name) :
    Entries.get? name after = some (normalizeIn
      ⟨propertyMap, literal || name ∈ literalKeywords, typed⟩ .schema (name = "properties")
      value) := by
  have present : name ∈ Entries.keys members := by simp [Entries.mem_keys_iff, found]
  rw [normal.rewrites.lookup name fun edited => edited.elim apart fun missing =>
    missing.2.2 present, found, Option.map_some]

/-- Where no constant is listed the names are the old ones, and `required` when names are added to
it. -/
theorem mem_keys (normal : NormalMap literal typed propertyMap members after)
    (unlisted : "const" ∈ Entries.keys members → literal = true) :
    name ∈ Entries.keys after ↔
      name ∈ Entries.keys members ∨ name = "required" ∧ requiredNames propertyMap members ≠ [] := by
  by_cases adds : name = "required" ∧ requiredNames propertyMap members ≠ []
  · simp only [adds.1, normal.added adds.2, adds.2, ne_eq, not_false_eq_true, and_self, or_true]
  rw [or_iff_left adds]
  by_cases constant : name = "const" ∧ literal = false
  · obtain ⟨rfl, listed⟩ := constant
    have absent : "const" ∉ Entries.keys members := fun present => by
      simp [unlisted present] at listed
    exact iff_of_false (normal.gone listed) absent
  refine normal.rewrites.mem_keys_iff ?_
  rintro ((⟨required, names, -⟩ | listed) | ⟨⟨listed, present⟩, -⟩)
  · exact adds ⟨required, names⟩
  · exact constant listed
  · simp [unlisted present] at listed

/-- The names stay exactly when none of them is taken for a keyword that changes them. -/
theorem keepsNames_iff (normal : NormalMap literal typed propertyMap members after) :
    (∀ name, name ∈ Entries.keys after ↔ name ∈ Entries.keys members) ↔
      KeepsNames literal propertyMap members := by
  constructor
  · intro kept
    refine ⟨fun present => ?_, fun some => (kept "required").mp (normal.added some)⟩
    rw [← Bool.not_eq_false]
    exact fun listed => normal.gone listed ((kept "const").mpr present)
  · rintro ⟨unlisted, present⟩ name
    rw [normal.mem_keys unlisted, or_iff_left_of_imp]
    rintro ⟨rfl, some⟩
    exact present some

end NormalMap

end Step

/-- What stands under a keyword of a schema is normalized in the schema's context. -/
theorem get?_normalizeIn (context : Context) (propertyMap : Bool) {keyword : String}
    {schema held : JsonValue} (distinct : schema.Distinct)
    (schemas : Position.ofKeyword keyword ≠ .data) (under : schema.get? keyword = some held) :
    (normalizeIn context .schema propertyMap schema).get? keyword =
      some (normalizeIn ⟨propertyMap, context.literal, context.typed⟩ (.ofKeyword keyword)
        (keyword = "properties") held) := by
  cases schema with
  | object members =>
    obtain ⟨after, same, rewritten⟩ := rewrites_normalizeIn_schema context propertyMap distinct.1
    rw [same]
    show Entries.get? keyword after = _
    rw [rewritten.lookup keyword schemas]
    exact congrArg (Option.map _) under
  | _ => contradiction

/-- The items of a list of schemas are normalized in its context. -/
theorem normalizeIn_list (context : Context) (propertyMap : Bool) (items : List JsonValue) :
    normalizeIn context .schemaList propertyMap (.array items) = .array (items.map
      (normalizeIn ⟨false, context.literal, context.typed⟩ .schema false)) := by
  obtain ⟨marked, literal, typed⟩ := context
  cases literal <;> cases typed <;>
    simp [normalizeIn, listConstantsUnless, inferTypesIf, listRequired, listConstants, replaceFlags,
      inferTypes, admitNulls, listRequiredItems_eq, listConstantsItems_eq, replaceFlagsItems_eq,
      inferTypesItems_eq, admitNullsItems_eq]

/-- Constants are listed in every item of an array. -/
theorem listConstantsUnless_array (literal : Bool) (items : List JsonValue) :
    listConstantsUnless literal (.array items) =
      .array (items.map (listConstantsUnless literal)) := by
  cases literal with
  | true =>
    have same : listConstantsUnless true = id := rfl
    rw [same, List.map_id, id]
  | false => exact congrArg _ (listConstantsItems_eq items)

/-- The last passes go into the items of an array in the place of a schema, but do not infer their
types. -/
theorem finishIn_array (typed : Bool) (items : List JsonValue) :
    finishIn typed .schema (.array items) = .array (items.map (finishIn false .schema)) := by
  cases typed <;> simp [finishIn, inferTypesIf, replaceFlags, inferTypes, admitNulls,
    replaceFlagsItems_eq, admitNullsItems_eq]

/-- The items of an array in the place of a schema are normalized, but their types are not
inferred. -/
theorem normalizeIn_array (context : Context) (propertyMap : Bool) (items : List JsonValue) :
    normalizeIn context .schema propertyMap (.array items) = .array (items.map
      (normalizeIn ⟨false, context.literal, false⟩ .schema false)) := by
  rw [normalizeIn_eq, listRequired, listRequiredItems_eq, listConstantsUnless_array, finishIn_array,
    List.map_map, List.map_map]
  rfl

/-- What is no boolean is normalized in the same way where a boolean stands for itself. -/
theorem normalizeIn_schemaOrFlag {context : Context} {propertyMap : Bool} {value : JsonValue}
    (other : value.bool? = none) :
    normalizeIn context .schemaOrFlag propertyMap value =
      normalizeIn context .schema propertyMap value := by
  have listed : (listConstantsUnless context.literal
      (listRequired context.marked propertyMap value)).bool? = none := by
    cases value <;> cases context.literal <;>
      simp_all [listConstantsUnless, listRequired, listConstants, bool?]
  rw [normalizeIn, normalizeIn, replaceFlags_schemaOrFlag listed, inferTypesIf, inferTypesIf,
    inferTypes_schemaOrFlag]

/-- In the place of a schema no boolean is left. -/
theorem bool?_normalizeIn (context : Context) (propertyMap : Bool) (value : JsonValue) :
    (normalizeIn context .schema propertyMap value).bool? = none := by
  rw [normalizeIn, bool?_admitNulls, bool?_inferTypesIf, bool?_replaceFlags]

/-- Outside the place of a schema an object stays one, an array stays one, and nothing else becomes
one. -/
theorem isSome_of_normalizeIn {context : Context} {position : Position} {propertyMap : Bool}
    {value normal : JsonValue} (other : position ≠ .schema)
    (same : normalizeIn context position propertyMap value = normal) :
    normal.members?.isSome = value.members?.isSome ∧
      normal.items?.isSome = value.items?.isSome := by
  obtain ⟨marked, literal, typed⟩ := context
  subst same
  cases value <;> cases position <;> cases literal <;> cases typed <;>
    simp_all [normalizeIn, listRequired, listConstantsUnless, listConstants, replaceFlags,
      inferTypesIf, inferTypes, admitNulls, members?, items?]

/-! ## Paths -/

/-- A step from a schema to a schema in it. -/
inductive Step where
  /-- To the schema under a name in a map of schemas. -/
  | member (keyword name : String)
  /-- To a schema of a list. -/
  | item (keyword : String) (index : Nat)
  /-- To the schema under a keyword. -/
  | child (keyword : String)
  /-- To a schema of an array that stands in the place of a schema. -/
  | element (index : Nat)

namespace Step

/-- The schema that a step leads to. A boolean that stands for itself is none. -/
def follow? (schema : JsonValue) : Step → Option JsonValue
  | member keyword name =>
    if Position.ofKeyword keyword = .schemaMap then (schema.get? keyword).bind (get? name) else none
  | item keyword index =>
    if Position.ofKeyword keyword = .schemaList then
      ((schema.get? keyword).bind items?).bind fun items => items[index]?
    else none
  | child keyword =>
    match Position.ofKeyword keyword with
    | .schema => schema.get? keyword
    | .schemaOrFlag => (schema.get? keyword).filter fun value => value.bool?.isNone
    | _ => none
  | element index => schema.items?.bind fun items => items[index]?

/-- A step to a member leads to what a map of schemas has under the name. -/
theorem follow?_member_iff {keyword name : String} {schema next : JsonValue} :
    (member keyword name).follow? schema = some next ↔ Position.ofKeyword keyword = .schemaMap ∧
      ∃ members, schema.get? keyword = some (.object members) ∧
        Entries.get? name members = some next := by
  rw [follow?, Option.ite_none_right_eq_some, Option.bind_eq_some_iff]
  refine and_congr_right fun _ => ⟨?_, fun ⟨_, under, inner⟩ => ⟨_, under, inner⟩⟩
  rintro ⟨held, under, inner⟩
  cases held with
  | object members => exact ⟨members, under, inner⟩
  | _ => contradiction

/-- A step to an item leads to what a list of schemas has at the index. -/
theorem follow?_item_iff {keyword : String} {index : Nat} {schema next : JsonValue} :
    (item keyword index).follow? schema = some next ↔ Position.ofKeyword keyword = .schemaList ∧
      ∃ items, schema.get? keyword = some (.array items) ∧ items[index]? = some next := by
  rw [follow?, Option.ite_none_right_eq_some, Option.bind_eq_some_iff]
  simp only [Option.bind_eq_some_iff]
  refine and_congr_right fun _ => ⟨?_, ?_⟩
  · rintro ⟨items, ⟨held, under, array⟩, inner⟩
    cases held with
    | array _ =>
      cases array
      exact ⟨items, under, inner⟩
    | _ => contradiction
  · rintro ⟨items, under, inner⟩
    exact ⟨items, ⟨.array items, under, rfl⟩, inner⟩

/-- A step to a child leads to what the keyword of a schema has, unless it is a boolean that stands
for itself. -/
theorem follow?_child_iff {keyword : String} {schema next : JsonValue} :
    (child keyword).follow? schema = some next ↔ schema.get? keyword = some next ∧
      (Position.ofKeyword keyword = .schema ∨
        Position.ofKeyword keyword = .schemaOrFlag ∧ next.bool? = none) := by
  rw [follow?]
  split <;> rename_i position
  · simp [position]
  · simp [position, Option.filter_eq_some_iff]
  · simp_all

/-- A step to an element leads to what an array has at the index. -/
theorem follow?_element_iff {index : Nat} {schema next : JsonValue} :
    (element index).follow? schema = some next ↔
      ∃ items, schema = .array items ∧ items[index]? = some next := by
  cases schema <;> simp [follow?, items?]

/-- A step into a schema with distinct names leads to one. -/
theorem distinct {step : Step} {schema next : JsonValue} (distinct : schema.Distinct)
    (found : step.follow? schema = some next) : next.Distinct := by
  cases step with
  | member keyword name =>
    obtain ⟨-, members, under, inner⟩ := follow?_member_iff.mp found
    exact (distinct.get? under).of_get? inner
  | item keyword index =>
    obtain ⟨-, items, under, inner⟩ := follow?_item_iff.mp found
    exact (distinct.get? under).of_mem (List.mem_of_getElem? inner)
  | child keyword => exact distinct.get? (follow?_child_iff.mp found).1
  | element index =>
    obtain ⟨items, rfl, inner⟩ := follow?_element_iff.mp found
    exact distinct.of_mem (List.mem_of_getElem? inner)

/-- The context after a step. -/
def into (context : Context) : Step → Context
  | member keyword name =>
    ⟨keyword = "properties", context.literal || name ∈ literalKeywords, context.typed⟩
  | item _ _ | child _ => ⟨false, context.literal, context.typed⟩
  | element _ => ⟨false, context.literal, false⟩

/-- Whether a step passes no name that is taken for a keyword, and none called `properties`. -/
def Clear (literal : Bool) (schema : JsonValue) : Step → Prop
  | member keyword name => name ≠ "properties" ∧ ∀ members,
      schema.get? keyword = some (.object members) →
        ¬TakenForKeyword literal (keyword = "properties") members name
  | _ => True

/-- A step into a list leads, in the normal form, to the normal form of where it leads. -/
theorem follow?_item_normalizeIn (context : Context) (propertyMap : Bool) {keyword : String}
    {index : Nat} {schema next : JsonValue} (distinct : schema.Distinct)
    (found : (item keyword index).follow? schema = some next) :
    (item keyword index).follow? (normalizeIn context .schema propertyMap schema) =
      some (normalizeIn ⟨false, context.literal, context.typed⟩ .schema false next) := by
  obtain ⟨lists, items, under, inner⟩ := follow?_item_iff.mp found
  refine follow?_item_iff.mpr ⟨lists, _, ?_, by rw [List.getElem?_map, inner, Option.map_some]⟩
  rw [get?_normalizeIn context propertyMap distinct (by simp [lists]) under, lists,
    normalizeIn_list]

/-- A step to the schema under a keyword leads, in the normal form, to its normal form. In a map of
properties the schema is taken for a property's. -/
theorem follow?_child_normalizeIn (context : Context) (propertyMap : Bool) {keyword : String}
    {schema next : JsonValue} (distinct : schema.Distinct)
    (found : (child keyword).follow? schema = some next) :
    (child keyword).follow? (normalizeIn context .schema propertyMap schema) =
      some (normalizeIn ⟨propertyMap, context.literal, context.typed⟩ .schema false next) := by
  obtain ⟨under, position⟩ := follow?_child_iff.mp found
  have single : Position.ofKeyword keyword ≠ .data ∧ keyword ≠ "properties" := by
    refine ⟨by rcases position with same | ⟨same, -⟩ <;> simp [same], ?_⟩
    rintro rfl
    simp [show Position.ofKeyword "properties" = .schemaMap by decide] at position
  refine follow?_child_iff.mpr ⟨?_, position.imp_right fun both =>
    ⟨both.1, bool?_normalizeIn ⟨propertyMap, context.literal, context.typed⟩ false next⟩⟩
  rw [get?_normalizeIn context propertyMap distinct single.1 under, decide_eq_false single.2]
  rcases position with same | ⟨same, noFlag⟩
  · rw [same]
  · rw [same, normalizeIn_schemaOrFlag noFlag]

/-- A step into an array leads, in the normal form, to the normal form of where it leads. -/
theorem follow?_element_normalizeIn (context : Context) (propertyMap : Bool) {index : Nat}
    {schema next : JsonValue} (found : (element index).follow? schema = some next) :
    (element index).follow? (normalizeIn context .schema propertyMap schema) =
      some (normalizeIn ⟨false, context.literal, false⟩ .schema false next) := by
  obtain ⟨items, rfl, inner⟩ := follow?_element_iff.mp found
  refine follow?_element_iff.mpr ⟨_, normalizeIn_array context propertyMap items, ?_⟩
  rw [List.getElem?_map, inner, Option.map_some]

/-- A clear step leads, in the normal form, to the normal form of where it leads. -/
theorem follow?_normalizeIn {context : Context} {step : Step} {schema next : JsonValue}
    (distinct : schema.Distinct) (found : step.follow? schema = some next)
    (clear : step.Clear context.literal schema) :
    step.follow? (normalizeIn context .schema false schema) =
      some (normalizeIn (step.into context) .schema false next) := by
  cases step with
  | member keyword name =>
    obtain ⟨maps, members, under, inner⟩ := follow?_member_iff.mp found
    obtain ⟨after, same, normal⟩ := exists_normalMap context.literal context.typed
      (keyword = "properties") (distinct.get? under).1
    have entry := normal.get? inner (clear.2 members under)
    rw [decide_eq_false clear.1] at entry
    refine follow?_member_iff.mpr ⟨maps, after, ?_, entry⟩
    rw [get?_normalizeIn context false distinct (by simp [maps]) under, maps, same]
  | item keyword index => exact follow?_item_normalizeIn context false distinct found
  | child keyword => exact follow?_child_normalizeIn context false distinct found
  | element index => exact follow?_element_normalizeIn context false found

end Step

/-- The schema that a path of steps leads to. -/
def follow? : List Step → JsonValue → Option JsonValue
  | [], schema => some schema
  | step :: rest, schema => (step.follow? schema).bind (follow? rest)

/-- A path of clear steps leads from a schema, reached in a context, to a schema in it, reached in
another context. -/
inductive Leads : List Step → Context → JsonValue → Context → JsonValue → Prop where
  /-- No step leads anywhere else. -/
  | here {context : Context} {schema : JsonValue} : Leads [] context schema context schema
  /-- A clear step, and a path from where it leads. -/
  | step {step : Step} {rest : List Step} {context inner : Context}
      {schema next place : JsonValue} (found : step.follow? schema = some next)
      (clear : step.Clear context.literal schema)
      (onward : Leads rest (step.into context) next inner place) :
      Leads (step :: rest) context schema inner place

/-- Along a path of clear steps the normal form leads to the normal form of the place. -/
theorem Leads.follow?_normalizeIn {path : List Step} {context inner : Context}
    {schema place : JsonValue} (leads : Leads path context schema inner place)
    (distinct : schema.Distinct) :
    follow? path (normalizeIn context .schema false schema) =
      some (normalizeIn inner .schema false place) ∧ place.Distinct := by
  induction leads with
  | here => exact ⟨rfl, distinct⟩
  | step found clear _ ih =>
    rw [follow?, Step.follow?_normalizeIn distinct found clear]
    exact ih (Step.distinct distinct found)

end Raml.Schema
