import Raml.Proofs.PropertyNames

/-!
# Required properties

A property is projected as required when the schema whose declaration of it counts lists its name,
in the schema's normal form. A schema lists names under `required`, and a property's own schema may
mark the property instead; normalization adds the marked names to the list. It has no place for them
where something else than a list stands, and lists of other schemas do not count.
-/
namespace Raml.Schema

open JsonValue

/-- A schema lists a name as required. -/
def Lists (schema : JsonValue) (name : String) : Prop :=
  ∃ names, schema.get? "required" = some (.array names) ∧ JsonValue.string name ∈ names

/-- A property of a schema is marked as required in its own schema. -/
def Marks (schema : JsonValue) (name : String) : Prop :=
  ∃ properties property, schema.get? "properties" = some (.object properties) ∧
    Entries.get? name properties = some property ∧
    property.get? "required" = some (.bool true)

/-- A schema has a place for required names: a list or nothing stands under `required`. -/
def TakesNames (schema : JsonValue) : Prop :=
  ∀ value, schema.get? "required" = some value → value.items?.isSome

/-! ## The list of the normal form -/

section List

variable {members : List (String × JsonValue)} {name : String}

/-- A value has a text exactly when it is the text. -/
theorem string?_eq_some {value : JsonValue} : value.string? = some name ↔ value = .string name := by
  cases value <;> simp [string?]

/-- A pass that keeps texts keeps which texts a list has. -/
theorem string_mem_map {change : JsonValue → JsonValue}
    (texts : ∀ value, (change value).string? = value.string?) {items : List JsonValue} :
    JsonValue.string name ∈ items.map change ↔ JsonValue.string name ∈ items := by
  have same (value : JsonValue) : change value = .string name ↔ value = .string name := by
    rw [← string?_eq_some, texts, string?_eq_some]
  simp only [List.mem_map, same, exists_eq_right]

/-- A pass that goes into arrays item by item, makes no others and keeps texts keeps which names are
listed. -/
theorem lists_map {pass change : JsonValue → JsonValue}
    (arrays : ∀ items, pass (.array items) = .array (items.map change))
    (others : ∀ value, (pass value).items?.isSome = value.items?.isSome)
    (texts : ∀ value, (change value).string? = value.string?) {held : Option JsonValue} :
    (∃ names, held.map pass = some (.array names) ∧ JsonValue.string name ∈ names) ↔
      ∃ names, held = some (.array names) ∧ JsonValue.string name ∈ names := by
  cases held with
  | none => simp
  | some value =>
    cases shape : value.items? with
    | none =>
      have other (names : List JsonValue) : value ≠ .array names := by
        rintro rfl
        contradiction
      have moved (names : List JsonValue) : pass value ≠ .array names := by
        intro same
        have shape' := others value
        rw [same, shape] at shape'
        contradiction
      simp [other, moved]
    | some items =>
      have array : value = .array items := by
        cases value with
        | array _ => exact congrArg _ (Option.some.inj shape)
        | _ => contradiction
      rw [array, Option.map_some, arrays]
      simp [string_mem_map texts]

/-- The names of a list after some were added. -/
theorem string_mem_foldl_addName {names : List String} {listed : List JsonValue} :
    JsonValue.string name ∈ names.foldl addName listed ↔
      JsonValue.string name ∈ listed ∨ name ∈ names := by
  induction names generalizing listed with
  | nil => simp
  | cons first rest ih =>
    have added : JsonValue.string name ∈ addName listed first ↔
        JsonValue.string name ∈ listed ∨ name = first := by
      unfold addName
      split
      · rename_i present
        simp only [List.any_eq_true, decide_eq_true_eq] at present
        obtain ⟨value, inside, text⟩ := present
        refine (or_iff_left_of_imp ?_).symm
        rintro rfl
        exact string?_eq_some.mp text ▸ inside
      · simp
    rw [List.foldl_cons, ih, added, List.mem_cons, or_assoc]

/-- The names that properties mark are those that a schema marks. -/
theorem mem_requiredNames_iff (distinct : (JsonValue.object members).Distinct) :
    name ∈ requiredNames false members ↔ Marks (.object members) name := by
  have marked (property : JsonValue) :
      isMarkedRequired property = true ↔ property.get? "required" = some (.bool true) := by
    cases property with
    | object own =>
      rw [get?, isMarkedRequired]
      cases Entries.get? "required" own with
      | none => simp
      | some value => cases value <;> simp [bool?]
    | _ => simp [isMarkedRequired, get?]
  rw [requiredNames, Marks, get?]
  split
  · rename_i properties given
    have apart : (Entries.keys properties).Nodup := (distinct.of_get? given).1
    simp only [Bool.false_eq_true, ↓reduceIte, markedNames, List.mem_map, List.mem_filter, marked]
    constructor
    · rintro ⟨⟨_, property⟩, ⟨inside, mark⟩, rfl⟩
      exact ⟨properties, property, given, Entries.get?_of_mem apart inside, mark⟩
    · rintro ⟨others, property, same, found, mark⟩
      cases given.symm.trans same
      exact ⟨(name, property), ⟨Entries.mem_of_get? found, mark⟩, rfl⟩
  · rename_i other
    refine iff_of_false List.not_mem_nil ?_
    rintro ⟨properties, _, given, -⟩
    exact other properties given

/-- What stands under `required` in the normal form. -/
theorem get?_required_normalize (distinct : (JsonValue.object members).Distinct) :
    ∃ listed, listRequired false false (.object members) = .object listed ∧
      (normalize (.object members)).get? "required" =
        (Entries.get? "required" listed).map fun value => admitNulls (listConstants value) := by
  obtain ⟨listed, listing, first, -⟩ := rewrites_listRequired false false distinct.1
  obtain ⟨named, naming, second, -⟩ := rewrites_listConstantsUnless false first.distinct
  obtain ⟨after, finishing, third⟩ := rewrites_finishIn true second.distinct
  refine ⟨listed, listing, ?_⟩
  have normal : normalize (.object members) = .object after := by
    rw [normalize_eq, normalizeIn_eq, Context.root, listing, naming, finishing]
  have apart : ¬(("required" = "const") ∨ ("required" = "enum" ∨ "required" = "type") ∧
      "required" ∉ Entries.keys listed) := by simp
  rw [normal, get?, third.lookup "required" (by decide), second.lookup "required" fun edited =>
    apart edited.2, Option.map_map]
  congr 1
  funext value
  rw [Function.comp_apply, show Position.ofKeyword "required" = .data by decide, finishIn_data]
  rfl

/-- Adding names to a schema adds them to its list, or writes them into a new one. -/
theorem lists_addRequired_iff {names : List String} :
    Lists (.object (addRequired names members)) name ↔ Lists (.object members) name ∨
      name ∈ names ∧ TakesNames (.object members) := by
  have given : (JsonValue.object members).get? "required" = Entries.get? "required" members := rfl
  by_cases none : names = []
  · subst none
    have same : addRequired [] members = members := rfl
    simp [same]
  · rw [Lists, Lists, TakesNames, given, get?, get?_addRequired none]
    cases Entries.get? "required" members with
    | none => simp [listedWith, string_mem_foldl_addName]
    | some value =>
      cases value with
      | array items => simp [listedWith, string_mem_foldl_addName, items?]
      | _ => simp [listedWith, items?]

/-- What moving marks leaves under `required`. -/
theorem get?_required_listRequired {listed : List (String × JsonValue)}
    (listing : listRequired false false (.object members) = .object listed) :
    Entries.get? "required" listed =
      (Entries.get? "required" (addRequired (requiredNames false members) members)).map
        (listRequired false false) := by
  rw [listRequired_unmarked, listRequiredMembers_eq] at listing
  rw [← JsonValue.object.inj listing]
  exact Entries.get?_map (fun name => listRequired false (name = "properties")) "required" _

/-- Moving marks adds the marked names to the list of a schema, or writes them into a new one. -/
theorem lists_listRequired_iff {listed : List (String × JsonValue)}
    (distinct : (JsonValue.object members).Distinct)
    (listing : listRequired false false (.object members) = .object listed) :
    Lists (.object listed) name ↔ Lists (.object members) name ∨
      Marks (.object members) name ∧ TakesNames (.object members) := by
  have same : Lists (.object listed) name ↔
      Lists (.object (addRequired (requiredNames false members) members)) name := by
    rw [Lists, get?, get?_required_listRequired listing]
    exact lists_map (fun items => by rw [listRequired, listRequiredItems_eq])
      (fun value => by cases value <;> rfl) (string?_listRequired false false)
  rw [same, lists_addRequired_iff, mem_requiredNames_iff distinct]

/-- The normal form of a schema lists the listed names, and the marked ones where there is a place
for them. -/
theorem lists_normalize_iff (distinct : (JsonValue.object members).Distinct) :
    Lists (normalize (.object members)) name ↔ Lists (.object members) name ∨
      Marks (.object members) name ∧ TakesNames (.object members) := by
  obtain ⟨listed, listing, under⟩ := get?_required_normalize distinct
  rw [← lists_listRequired_iff distinct listing, Lists, under]
  exact lists_map (fun items => by
      rw [listConstants, admitNulls, listConstantsItems_eq, admitNullsItems_eq, List.map_map]
      rfl)
    (fun value => by cases value <;> rfl)
    (fun value => (string?_admitNulls _).trans (string?_listConstants value))

end List

/-! ## Projected requirements -/

/-- The requirement that a property states; none for a property that is missing. -/
def requirement? (properties : Properties) (name : String) : Option Bool :=
  ((properties.get? name).bind PropertyValue.facets?).bind fun facets =>
    (facets.get? "required").bind Node.bool?

/-- The names that are read for a schema are those that it lists. -/
theorem mem_requiredList_iff {members : List (String × JsonValue)} {name : String} :
    name ∈ requiredList members ↔ Lists (.object members) name := by
  rw [requiredList, Lists, get?]
  split
  · rename_i names given
    rw [given]
    simp [string?_eq_some]
  · rename_i other
    refine iff_of_false List.not_mem_nil ?_
    rintro ⟨names, given, -⟩
    exact other names given

/-- Every property is projected under its name. -/
theorem get?_projectAll {required : List String} {properties : List (String × JsonValue)}
    {found : List (String × PropertyValue)} (read : projectAll required properties = .ok found)
    {name : String} {schema : JsonValue} (given : Entries.get? name properties = some schema) :
    ∃ value, project required name schema = .ok value ∧
      Entries.get? name found = some value := by
  induction properties generalizing found with
  | nil => contradiction
  | cons property rest ih =>
    obtain ⟨first, other⟩ := property
    rw [projectAll] at read
    obtain ⟨value, projected, read⟩ := bind_eq_ok.mp read
    obtain ⟨others, later, read⟩ := bind_eq_ok.mp read
    cases read
    rw [Entries.get?] at given ⊢
    split at given
    · rename_i here
      cases given
      exact ⟨value, here ▸ projected, if_pos here⟩
    · rename_i apart
      rw [if_neg apart]
      exact ih later given

/-- A property is projected as its facets and whether its name is among the required ones. -/
theorem exists_of_project {required : List String} {name : String} {schema : JsonValue}
    {value : PropertyValue} (read : project required name schema = .ok value) :
    ∃ facets, propertyFacets name schema = .ok facets ∧
      value = .inline (facets.insert "required" (.bool (decide (name ∈ required)))) := by
  rw [project] at read
  cases given : propertyFacets name schema with
  | error failure => simp [given, Except.map] at read
  | ok facets =>
    rw [given] at read
    exact ⟨facets, rfl, (Except.ok.inj read).symm⟩

/-- The schema of a schema's own property. -/
def ownProperty? (name : String) (schema : JsonValue) : Option JsonValue :=
  (schema.get? "properties").bind (JsonValue.get? name)

/-- A schema has a property of a name exactly when there is a schema of the property. -/
theorem hasProperty_iff {schema : JsonValue} {name : String} :
    HasProperty schema name ↔ ∃ property, ownProperty? name schema = some property := by
  rw [HasProperty, ownProperty?]
  cases schema.get? "properties" with
  | none => simp
  | some held =>
    cases held with
    | object properties => simp [JsonValue.get?, Entries.mem_keys_iff, Option.isSome_iff_exists]
    | _ => simp [JsonValue.get?]

/-- A schema declares its properties under distinct names, each by the facets of its schema and the
requirement that the schema around it states. -/
theorem get?_ownDeclarations {schema property : JsonValue} {own : List (String × PropertyValue)}
    {name : String} (read : ownDeclarations schema = .ok own)
    (distinct : ∀ properties, schema.get? "properties" = some (.object properties) →
      (Entries.keys properties).Nodup) (given : ownProperty? name schema = some property) :
    (Entries.keys own).Nodup ∧ ∃ facets flag, propertyFacets name property = .ok facets ∧
      (flag = true ↔ Lists schema name) ∧
      Entries.get? name own = some (.inline (facets.insert "required" (.bool flag))) := by
  obtain ⟨held, under, given⟩ := Option.bind_eq_some_iff.mp given
  cases schema with
  | object members =>
    cases held with
    | object properties =>
      have apart := distinct properties under
      rw [JsonValue.get?] at under given
      rw [ownDeclarations, ownProperties, under] at read
      obtain ⟨value, projected, entry⟩ := get?_projectAll read given
      obtain ⟨facets, made, rfl⟩ := exists_of_project projected
      refine ⟨keys_projectAll read ▸ apart, facets, _, made, ?_, entry⟩
      rw [decide_eq_true_eq, mem_requiredList_iff]
    | _ => contradiction
  | _ => contradiction

/-- When something in a list has a property there is a last one that has it. -/
theorem exists_last {α : Type} {holds : α → Prop} {list : List α}
    (some : ∃ element ∈ list, holds element) :
    ∃ before element after, list = before ++ element :: after ∧ holds element ∧
      ∀ later ∈ after, ¬holds later := by
  induction list with
  | nil => simp at some
  | cons first rest ih =>
    by_cases later : ∃ element ∈ rest, holds element
    · obtain ⟨before, element, after, same, held, last⟩ := ih later
      exact ⟨first :: before, element, after, by rw [same, List.cons_append], held, last⟩
    · have held : holds first := by
        obtain ⟨element, inside, held⟩ := some
        rcases List.mem_cons.mp inside with rfl | inside
        · exact held
        · exact absurd ⟨element, inside, held⟩ later
      exact ⟨[], first, rest, rfl, held, fun element inside holds => later ⟨element, inside, holds⟩⟩

/-- A property is declared by the last schema on the walk whose properties, in normal form, have its
name, and states whether the normal form of that schema lists it. -/
theorem exists_last_declaration {schema : JsonValue} {found : Properties} {name : String}
    (distinct : schema.Distinct) (read : propertiesOf (normalize schema) = .ok found)
    (present : name ∈ found.keys) :
    ∃ before member after, walk schema = before ++ member :: after ∧
      HasProperty (normalize member) name ∧
      (∀ later ∈ after, ¬HasProperty (normalize later) name) ∧
      ∃ flag, requirement? found name = some flag ∧
        (flag = true ↔ Lists (normalize member) name) := by
  have declared : ∃ member ∈ walk schema, HasProperty (normalize member) name := by
    obtain ⟨normal, inside, held⟩ := declares_iff.mp ((mem_propertiesOf read).mp present)
    rw [walk_normalize distinct] at inside
    obtain ⟨member, visited, rfl⟩ := List.mem_map.mp inside
    exact ⟨member, visited, held⟩
  obtain ⟨before, member, after, visited, held, last⟩ := exists_last declared
  refine ⟨before, member, after, visited, held, last, ?_⟩
  obtain ⟨listed, gathered, rfl⟩ := propertiesOf_eq_ok.mp read
  rw [walk_normalize distinct, visited, List.map_append, List.map_cons] at gathered
  obtain ⟨earlier, own, later, -, first, second, rfl⟩ := gather_split gathered
  have inner : member.Distinct := by
    have within : member ∈ walk schema := by simp [visited]
    exact (mem_walk_iff.mp within).distinct distinct
  have apart (properties : List (String × JsonValue))
      (given : (normalize member).get? "properties" = some (.object properties)) :
      (Entries.keys properties).Nodup := by
    obtain ⟨before, under, same⟩ := (properties_normalize_root inner).mp given
    exact (NormalMap.of_eq (inner.get? under).1 same).rewrites.distinct
  obtain ⟨property, given⟩ := hasProperty_iff.mp held
  obtain ⟨distinct, facets, flag, -, listed, entry⟩ := get?_ownDeclarations first apart given
  have missing : name ∉ Entries.keys later := by
    rw [mem_gather second]
    rintro ⟨schema, inside, declared⟩
    obtain ⟨original, follows, rfl⟩ := List.mem_map.mp inside
    exact last original follows declared
  refine ⟨flag, ?_, listed⟩
  rw [requirement?, OrderedMap.get?_ofList_append distinct entry missing, Option.bind_some,
    PropertyValue.facets?, Option.bind_some, OrderedMap.get?_insert, if_pos rfl]
  rfl

/-! ## Properties of a single schema -/

section Single

variable {schema : JsonValue} {properties : List (String × JsonValue)} {found : Properties}
variable {name : String}

/-- The normal form of a schema has every property of the schema but one called `const`. -/
theorem hasProperty_normalize_iff (distinct : schema.Distinct)
    (given : schema.get? "properties" = some (.object properties))
    (present : name ∈ Entries.keys properties) :
    HasProperty (normalize schema) name ↔ name ≠ "const" := by
  obtain ⟨after, same, normal⟩ := exists_normalMap false true true (distinct.get? given).1
  have under : (normalize schema).get? "properties" = some (.object after) :=
    (properties_normalize_root distinct).mpr ⟨properties, given, same⟩
  have own : HasProperty (normalize schema) name ↔ name ∈ Entries.keys after := by
    simp [HasProperty, under]
  rw [own]
  constructor
  · rintro inside rfl
    exact normal.gone rfl inside
  · intro kept
    by_cases required : name = "required" ∧ requiredNames true properties ≠ []
    · exact required.1 ▸ normal.added required.2
    · refine (normal.rewrites.mem_keys_iff ?_).mpr present
      rintro ((⟨same, names, -⟩ | ⟨same, -⟩) | ⟨-, -, missing⟩)
      · exact required ⟨same, names⟩
      · exact kept same
      · exact missing present

/-- Names that are never taken for keywords are those of the properties of the schema. -/
theorem hasProperty_normalize_of_plain (distinct : schema.Distinct)
    (plain : name ∉ ["const", "enum", "type", "required"]) :
    HasProperty (normalize schema) name ↔ HasProperty schema name := by
  simp only [List.mem_cons, List.not_mem_nil, or_false, not_or] at plain
  obtain ⟨constant, listed, typed, required⟩ := plain
  have kept {properties after : List (String × JsonValue)}
      (normal : NormalMap false true true properties after) :
      name ∈ Entries.keys after ↔ name ∈ Entries.keys properties := by
    refine normal.rewrites.mem_keys_iff ?_
    rintro ((⟨same, -⟩ | ⟨same, -⟩) | ⟨-, same | same, -⟩)
    · exact required same
    · exact constant same
    · exact listed same
    · exact typed same
  constructor
  · rintro ⟨after, under, inside⟩
    obtain ⟨properties, given, same⟩ := (properties_normalize_root distinct).mp under
    exact ⟨properties, given, (kept (NormalMap.of_eq (distinct.get? given).1 same)).mp inside⟩
  · rintro ⟨properties, given, inside⟩
    obtain ⟨after, same, normal⟩ := exists_normalMap false true true (distinct.get? given).1
    exact ⟨after, (properties_normalize_root distinct).mpr ⟨properties, given, same⟩,
      (kept normal).mpr inside⟩

/-- Only an object has properties, and it lists and marks names as its normal form does. -/
theorem lists_of_hasProperty (distinct : schema.Distinct)
    (present : HasProperty (normalize schema) name) :
    Lists (normalize schema) name ↔ Lists schema name ∨ Marks schema name ∧ TakesNames schema := by
  obtain ⟨after, under, -⟩ := present
  obtain ⟨properties, given, -⟩ := (properties_normalize_root distinct).mp under
  cases schema with
  | object members => exact lists_normalize_iff distinct
  | _ => contradiction

/-- From a schema without `allOf` every property is projected but one called `const`. -/
theorem mem_keys_of_alone (distinct : schema.Distinct)
    (alone : ∀ items, schema.get? "allOf" ≠ some (.array items))
    (given : schema.get? "properties" = some (.object properties))
    (read : propertiesOf (normalize schema) = .ok found)
    (present : name ∈ Entries.keys properties) : name ∈ found.keys ↔ name ≠ "const" := by
  rw [mem_propertiesOf read, declares_iff, walk_normalize distinct, walk_of_other alone,
    ← hasProperty_normalize_iff distinct given present]
  simp

/-- A property of a schema without `allOf` is required when the schema lists its name, or marks it
and has a place for the name. -/
theorem requirement_of_alone (distinct : schema.Distinct)
    (alone : ∀ items, schema.get? "allOf" ≠ some (.array items))
    (read : propertiesOf (normalize schema) = .ok found) (projected : name ∈ found.keys) :
    ∃ flag, requirement? found name = some flag ∧
      (flag = true ↔ Lists schema name ∨ Marks schema name ∧ TakesNames schema) := by
  obtain ⟨before, member, after, visited, held, -, flag, stated, listed⟩ :=
    exists_last_declaration distinct read projected
  have same : member = schema := by
    have inside : member ∈ walk schema := by simp [visited]
    rw [walk_of_other alone] at inside
    exact List.mem_singleton.mp inside
  rw [same] at held listed
  exact ⟨flag, stated, listed.trans (lists_of_hasProperty distinct held)⟩

/-- Where names are listed there is a place for more. -/
theorem takesNames_of_lists (lists : Lists schema name) : TakesNames schema := by
  obtain ⟨names, under, -⟩ := lists
  intro value same
  cases under.symm.trans same
  rfl

end Single

/-- Both forms of requirement reach a property of a schema without `allOf`, with two exceptions. The
property is projected as required exactly when the schema lists its name, or marks it and has a
place for the name; a property called `const` is lost. So both forms count exactly when a marked
name finds a place, and when no lost property is listed or marked. -/
theorem required_marks_kept_iff {text : String} {members properties : List (String × JsonValue)}
    {found : Properties} {name : String}
    (read : JsonValue.ofText? (String.ofList (Text.trim text.toList)) = some (.object members))
    (alone : Entries.get? "allOf" members = none)
    (given : Entries.get? "properties" members = some (.object properties))
    (parsed : Schema.properties text = .ok found) (present : name ∈ Entries.keys properties) :
    (name ≠ "const" → ∃ flag, requirement? found name = some flag ∧
      (flag = true ↔ Lists (.object members) name ∨
        Marks (.object members) name ∧ TakesNames (.object members))) ∧
    (name = "const" → found.get? name = none) ∧
    ((requirement? found name = some true ↔
        Lists (.object members) name ∨ Marks (.object members) name) ↔
      (Marks (.object members) name → TakesNames (.object members)) ∧
        (name = "const" →
          ¬(Lists (.object members) name ∨ Marks (.object members) name))) := by
  have distinct := JsonValue.distinct_of_ofText? read
  rw [properties_of_ofText? read] at parsed
  have single (items : List JsonValue) :
      (JsonValue.object members).get? "allOf" ≠ some (.array items) := by
    rw [get?, alone]
    exact (Option.some_ne_none _).symm
  have kept : name ∈ found.keys ↔ name ≠ "const" :=
    mem_keys_of_alone distinct single given parsed present
  have flagged (other : name ≠ "const") :=
    requirement_of_alone distinct single parsed (kept.mpr other)
  have lost (same : name = "const") : found.get? name = none :=
    OrderedMap.get?_eq_none.mpr fun inside => kept.mp inside same
  refine ⟨flagged, lost, ?_⟩
  by_cases constant : name = "const"
  · have missing : requirement? found name = none := by
      rw [requirement?, lost constant]
      rfl
    have never : ¬requirement? found name = some true := by simp [missing]
    rw [iff_false_left never, forall_prop_of_true constant]
    exact ⟨fun clear => ⟨fun mark => absurd (.inr mark) clear, clear⟩, And.right⟩
  · obtain ⟨flag, stated, required⟩ := flagged constant
    have listed : Lists (.object members) name → TakesNames (.object members) :=
      takesNames_of_lists
    simp only [stated, Option.some.injEq, required, constant, false_imp_iff, and_true]
    grind

/-- Members with a property that is marked as required and one that is listed. -/
def requiredMembers : List (String × JsonValue) :=
  [("required", .array [.string "b"]),
    ("properties", .object
      [("a", .object [("type", .string "string"), ("required", .bool true)]),
        ("b", stringSchema)])]

/-- The text of the schema with those members. -/
def requiredText : String :=
  "\x7b\"required\":[\"b\"],\"properties\":\x7b" ++
    "\"a\":\x7b\"type\":\"string\",\"required\":true\x7d," ++
    "\"b\":\x7b\"type\":\"string\"\x7d\x7d\x7d"

/-- Both properties of the sample are required. -/
theorem required_marks_kept_iff_sample :
    JsonValue.ofText? (String.ofList (Text.trim requiredText.toList)) =
        some (.object requiredMembers) ∧
      Entries.get? "allOf" requiredMembers = none ∧
      ∃ found, Schema.properties requiredText = .ok found ∧
        requirement? found "a" = some true ∧ requirement? found "b" = some true := by
  have read : JsonValue.ofText? (String.ofList (Text.trim requiredText.toList)) =
      some (.object requiredMembers) := by decide +kernel
  have names : (propertiesOf (normalize (.object requiredMembers))).toOption.map OrderedMap.keys =
      some ["a", "b"] := by decide +kernel
  obtain ⟨found, parsed, -⟩ := exists_properties_of_ofText? read names
  have listed : Lists (.object requiredMembers) "b" := ⟨_, rfl, by simp⟩
  have marked : Marks (.object requiredMembers) "a" := ⟨_, _, rfl, rfl, rfl⟩
  have place : TakesNames (.object requiredMembers) := by
    intro value under
    cases under
    rfl
  obtain ⟨-, -, first⟩ := required_marks_kept_iff read rfl rfl parsed
    (show "a" ∈ _ by decide)
  obtain ⟨-, -, second⟩ := required_marks_kept_iff read rfl rfl parsed
    (show "b" ∈ _ by decide)
  exact ⟨read, rfl, found, parsed,
    (first.mpr ⟨fun _ => place, by simp⟩).mpr (.inr marked),
    (second.mpr ⟨fun _ => place, by simp⟩).mpr (.inl listed)⟩

/-- Members with a property that is marked as required, and a mark beside it. -/
def markedMembers : List (String × JsonValue) :=
  [("required", .bool true),
    ("properties", .object
      [("a", .object [("type", .string "string"), ("required", .bool true)])])]

/-- The text of the schema with those members. -/
def markedText : String :=
  "\x7b\"required\":true,\"properties\":\x7b" ++
    "\"a\":\x7b\"type\":\"string\",\"required\":true\x7d\x7d\x7d"

/-- Where a mark stands there is no place for names, and the mark of the property is lost. -/
theorem required_mark_lost :
    JsonValue.ofText? (String.ofList (Text.trim markedText.toList)) =
        some (.object markedMembers) ∧
      Entries.get? "allOf" markedMembers = none ∧ Marks (.object markedMembers) "a" ∧
      ∃ found, Schema.properties markedText = .ok found ∧
        requirement? found "a" = some false := by
  have read : JsonValue.ofText? (String.ofList (Text.trim markedText.toList)) =
      some (.object markedMembers) := by decide +kernel
  exact ⟨read, rfl, ⟨_, _, rfl, rfl, rfl⟩,
    exists_properties_of_ofText? read (by decide +kernel)⟩

/-! ## Properties of schemas joined by `allOf` -/

/-- A schema of the tree is the last one on the walk that has a property in normal form. -/
def DeclaresLast (schema member : JsonValue) (name : String) : Prop :=
  ∃ before after, walk schema = before ++ member :: after ∧
    HasProperty (normalize member) name ∧ ∀ later ∈ after, ¬HasProperty (normalize later) name

/-- Whether a property of joined schemas is required is said by the last schema that declares it.
The property is projected as required whenever that schema lists its name, and only when that schema
lists or marks it; what other schemas list does not count. Normal forms matter only for the few
names that are taken for keywords: any other property is one of a schema exactly when its normal
form has it. -/
theorem required_by_last_declaration {text : String} {schema : JsonValue} {found : Properties}
    {name : String}
    (read : JsonValue.ofText? (String.ofList (Text.trim text.toList)) = some schema)
    (parsed : Schema.properties text = .ok found) (present : name ∈ found.keys) :
    (∃ member, DeclaresLast schema member name ∧ ∃ flag, requirement? found name = some flag ∧
      (Lists member name → flag = true) ∧
      (flag = true → Lists member name ∨ Marks member name)) ∧
    (name ∉ ["const", "enum", "type", "required"] → ∀ member ∈ walk schema,
      (HasProperty (normalize member) name ↔ HasProperty member name)) := by
  have distinct := JsonValue.distinct_of_ofText? read
  have inner {member : JsonValue} (visited : member ∈ walk schema) : member.Distinct :=
    (mem_walk_iff.mp visited).distinct distinct
  rw [properties_of_ofText? read] at parsed
  constructor
  · obtain ⟨before, member, after, visited, held, last, flag, stated, listed⟩ :=
      exists_last_declaration distinct parsed present
    have within : member ∈ walk schema := by simp [visited]
    rw [lists_of_hasProperty (inner within) held] at listed
    exact ⟨member, ⟨before, after, visited, held, last⟩, flag, stated,
      fun lists => listed.mpr (.inl lists),
      fun required => (listed.mp required).imp_right And.left⟩
  · intro plain member visited
    exact hasProperty_normalize_of_plain (inner visited) plain

/-- A schema that declares a property which a schema of its `allOf` declares again and lists. -/
def joinedSchema : JsonValue :=
  .object [("properties", .object [("a", stringSchema)]),
    ("allOf", .array [.object [("required", .array [.string "a"]),
      ("properties", .object [("a", stringSchema)])]])]

/-- The text of that schema. -/
def joinedText : String :=
  "\x7b\"properties\":\x7b\"a\":\x7b\"type\":\"string\"\x7d\x7d," ++
    "\"allOf\":[\x7b\"required\":[\"a\"]," ++
    "\"properties\":\x7b\"a\":\x7b\"type\":\"string\"\x7d\x7d\x7d]\x7d"

/-- The property of the sample is required by its last declaration. -/
theorem required_by_last_declaration_sample :
    JsonValue.ofText? (String.ofList (Text.trim joinedText.toList)) = some joinedSchema ∧
      ¬Lists joinedSchema "a" ∧
      ∃ found, Schema.properties joinedText = .ok found ∧ "a" ∈ found.keys ∧
        requirement? found "a" = some true := by
  have read : JsonValue.ofText? (String.ofList (Text.trim joinedText.toList)) =
      some joinedSchema := by decide +kernel
  have unlisted : ¬Lists joinedSchema "a" := by
    rintro ⟨names, under, -⟩
    cases under
  have names : (propertiesOf (normalize joinedSchema)).toOption.map OrderedMap.keys =
      some ["a"] := by decide +kernel
  obtain ⟨found, parsed, keys⟩ := exists_properties_of_ofText? read names
  have present : "a" ∈ found.keys := by simp [keys]
  refine ⟨read, unlisted, found, parsed, present, ?_⟩
  obtain ⟨⟨member, ⟨before, after, visited, -, last⟩, flag, stated, lists, -⟩, plain⟩ :=
    required_by_last_declaration read parsed present
  rw [stated, lists ?_]
  cases before with
  | nil =>
    -- The schema itself is not the last one.
    cases visited
    have later := (plain (by decide) _ (List.mem_cons_of_mem _ (List.mem_singleton_self _))).mpr
      ⟨_, rfl, by simp⟩
    exact absurd later (last _ (List.mem_singleton_self _))
  | cons first rest =>
    cases rest with
    | nil =>
      cases visited
      exact ⟨_, rfl, by simp⟩
    | cons second others =>
      have short := congrArg List.length visited
      simp [joinedSchema, walk, walkOfAllOf, walkOfItems] at short

/-- A schema that lists a property which only a schema of its `allOf` declares. -/
def splitSchema : JsonValue :=
  .object [("required", .array [.string "a"]),
    ("allOf", .array [.object [("properties", .object [("a", stringSchema)])]])]

/-- The text of that schema. -/
def splitText : String :=
  "\x7b\"required\":[\"a\"],\"allOf\":[\x7b\"properties\":" ++
    "\x7b\"a\":\x7b\"type\":\"string\"\x7d\x7d\x7d]\x7d"

/-- A listed property that another schema declares is projected as not required. -/
theorem listed_elsewhere_not_required :
    JsonValue.ofText? (String.ofList (Text.trim splitText.toList)) = some splitSchema ∧
      Lists splitSchema "a" ∧
      ∃ found, Schema.properties splitText = .ok found ∧ requirement? found "a" = some false := by
  have read : JsonValue.ofText? (String.ofList (Text.trim splitText.toList)) =
      some splitSchema := by decide +kernel
  exact ⟨read, ⟨_, rfl, by simp⟩, exists_properties_of_ofText? read (by decide +kernel)⟩

end Raml.Schema
