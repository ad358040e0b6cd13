import Raml.Proofs.SchemaRoute

/-!
# Data in schemas

Defaults, examples, listed values and constants are data. The pass over constants leaves them as
they are, and so do the passes that go from a schema to the schemas in it; the passes over required
properties and over nullable schemas go into every value. So data is kept exactly when nothing in it
looks like a mark of theirs.
-/
namespace Raml.Schema

open JsonValue

/-! ## Values without marks -/

mutual

/-- No object in a value is flagged as nullable, and no property's schema in it is marked as
required. `marked` says that the value is itself taken for a property's schema, and `propertyMap`
that it is taken for a map of properties. -/
def FreeOfMarks (marked propertyMap : Bool) : JsonValue → Prop
  | .array items => FreeOfMarksItems items
  | .object members =>
    (marked = true → hasRequiredMark members = false) ∧
      hasFlag "nullable" members = false ∧ hasFlag "x-nullable" members = false ∧
      FreeOfMarksMembers propertyMap members
  | _ => True

/-- No item has a mark in it. -/
def FreeOfMarksItems : List JsonValue → Prop
  | [] => True
  | item :: rest => FreeOfMarks false false item ∧ FreeOfMarksItems rest

/-- No member has a mark in it. -/
def FreeOfMarksMembers (propertyMap : Bool) : List (String × JsonValue) → Prop
  | [] => True
  | (name, value) :: rest =>
    FreeOfMarks propertyMap (name = "properties") value ∧ FreeOfMarksMembers propertyMap rest

end

/-- Items are free of marks when each of them is. -/
theorem freeOfMarksItems_iff {items : List JsonValue} :
    FreeOfMarksItems items ↔ ∀ item ∈ items, FreeOfMarks false false item := by
  induction items with
  | nil => simp [FreeOfMarksItems]
  | cons item rest ih => simp [FreeOfMarksItems, ih]

/-- Members are free of marks when each of them is. -/
theorem freeOfMarksMembers_iff {propertyMap : Bool} {members : List (String × JsonValue)} :
    FreeOfMarksMembers propertyMap members ↔
      ∀ member ∈ members, FreeOfMarks propertyMap (member.1 = "properties") member.2 := by
  induction members with
  | nil => simp [FreeOfMarksMembers]
  | cons member rest ih => simp [FreeOfMarksMembers, ih]

section Unchanged

variable {marked propertyMap : Bool} {members : List (String × JsonValue)}

/-- Properties without marks mark no names. -/
theorem requiredNames_of_free
    (free : ∀ properties, Entries.get? "properties" members = some (.object properties) →
      FreeOfMarks propertyMap true (.object properties)) :
    requiredNames propertyMap members = [] := by
  unfold requiredNames
  split
  · rename_i properties found
    obtain ⟨unmarked, -, -, inner⟩ := free properties found
    have same : (if propertyMap then dropRequiredMark properties else properties) = properties := by
      split
      · rename_i inMap
        rw [dropRequiredMark, unmarked inMap, if_neg Bool.false_ne_true]
      · rfl
    have unlisted : ∀ property ∈ properties, ¬isMarkedRequired property.2 = true := by
      intro property inside
      have plain := freeOfMarksMembers_iff.mp inner property inside
      obtain ⟨name, schema⟩ := property
      cases schema with
      | object own =>
        have clear : hasRequiredMark own = false := plain.1 rfl
        intro mark
        have set : (Entries.get? "required" own).bind bool? = some true := by
          simpa [isMarkedRequired] using mark
        rw [hasRequiredMark, set] at clear
        contradiction
      | _ => simp [isMarkedRequired]
    rw [same, markedNames, List.filter_eq_nil_iff.mpr unlisted, List.map_nil]
  · rfl

/-- Members that are all changed to themselves stay. -/
theorem map_eq_self (change : String → JsonValue → JsonValue)
    (same : ∀ member ∈ members, change member.1 member.2 = member.2) :
    (members.map fun member => (member.1, change member.1 member.2)) = members := by
  calc
    (members.map fun member => (member.1, change member.1 member.2)) = members.map id :=
      List.map_congr_left fun member inside => Prod.ext rfl (same member inside)
    _ = members := List.map_id members

/-- Without marks no requirement moves. -/
theorem listRequired_of_free {value : JsonValue} (free : FreeOfMarks marked propertyMap value) :
    listRequired marked propertyMap value = value := by
  induction value using JsonValue.induction generalizing marked propertyMap with
  | array items ih =>
    have inner := freeOfMarksItems_iff.mp free
    rw [listRequired, listRequiredItems_eq,
      List.map_congr_left (g := id) fun item inside => ih item inside (inner item inside),
      List.map_id]
  | object members ih =>
    obtain ⟨unmarked, -, -, free⟩ := free
    have inner := freeOfMarksMembers_iff.mp free
    have same : listRequiredMembers propertyMap members = members := by
      rw [listRequiredMembers_eq]
      exact map_eq_self (fun name => listRequired propertyMap (name = "properties"))
        fun member inside => ih member inside (inner member inside)
    have unlisted : requiredNames propertyMap members = [] := by
      apply requiredNames_of_free
      intro properties found
      exact inner ("properties", .object properties) (Entries.mem_of_get? found)
    have own : (if marked then dropRequiredMark members else members) = members := by
      split
      · rename_i mark
        rw [dropRequiredMark, unmarked mark, if_neg Bool.false_ne_true]
      · rfl
    rw [listRequired, same, own, unlisted]
    rfl
  | _ => rfl

/-- Without flags no type changes. -/
theorem admitNulls_of_free {value : JsonValue} (free : FreeOfMarks marked propertyMap value) :
    admitNulls value = value := by
  induction value using JsonValue.induction generalizing marked propertyMap with
  | array items ih =>
    have inner := freeOfMarksItems_iff.mp free
    rw [admitNulls, admitNullsItems_eq,
      List.map_congr_left (g := id) fun item inside => ih item inside (inner item inside),
      List.map_id]
  | object members ih =>
    obtain ⟨-, nullable, extension, free⟩ := free
    have inner := freeOfMarksMembers_iff.mp free
    have same : admitNullsMembers members = members := by
      rw [admitNullsMembers_eq]
      exact map_eq_self (fun _ => admitNulls)
        fun member inside => ih member inside (inner member inside)
    rw [admitNulls, same, admitNullIfFlagged, nullable, extension]
    rfl
  | _ => rfl

/-- Moving marks sets no flag and takes none away. -/
theorem hasFlag_listRequired {listed : List (String × JsonValue)} {flag : String}
    (distinct : (Entries.keys members).Nodup)
    (listing : listRequired marked propertyMap (.object members) = .object listed)
    (apart : flag ≠ "required") : hasFlag flag listed = hasFlag flag members := by
  obtain ⟨_, same, rewritten, -⟩ := rewrites_listRequired marked propertyMap distinct
  cases listing.symm.trans same
  rw [hasFlag, hasFlag, rewritten.lookup flag fun edited => apart edited.1]
  cases Entries.get? flag members with
  | none => rfl
  | some value => rw [Option.map_some, Option.bind_some, bool?_listRequired, Option.bind_some]

/-- The schema of a property has no mark after its mark was moved. -/
theorem hasRequiredMark_listRequired {listed : List (String × JsonValue)}
    (distinct : (Entries.keys members).Nodup)
    (listing : listRequired true propertyMap (.object members) = .object listed) :
    hasRequiredMark listed = false := by
  have mapped := Rewrites.of_map
    (fun name => listRequired propertyMap (name = "properties")) distinct
  rw [listRequired, listRequiredMembers_eq, if_pos rfl] at listing
  rw [← JsonValue.object.inj listing]
  exact hasRequiredMark_addRequired (hasRequiredMark_dropRequiredMark mapped.distinct)

/-- Where no mark is taken out and no name is added, moving marks goes into every member. -/
theorem get?_listRequired {listed : List (String × JsonValue)} {name : String} {value : JsonValue}
    (distinct : (Entries.keys members).Nodup)
    (listing : listRequired marked propertyMap (.object members) = .object listed)
    (unmarked : marked = true → hasRequiredMark members = false)
    (unnamed : name = "required" → requiredNames propertyMap members = [])
    (found : Entries.get? name members = some value) :
    Entries.get? name listed = some (listRequired propertyMap (name = "properties") value) := by
  by_cases required : name = "required"
  · have mapped := Rewrites.of_map
      (fun name => listRequired propertyMap (name = "properties")) distinct
    have written := mapped.lookup name id
    rw [found, Option.map_some] at written
    rw [listRequired, listRequiredMembers_eq, unnamed required] at listing
    rw [← JsonValue.object.inj listing]
    show Entries.get? name (if marked then _ else _) = _
    split
    · rename_i mark
      have other : value.bool? = none := by
        have clear := unmarked mark
        rw [hasRequiredMark, ← required, found, Option.bind_some] at clear
        exact Option.isNone_iff_eq_none.mp (Option.isSome_eq_false_iff.mp clear)
      exact get?_dropRequiredMark mapped.distinct written
        ((bool?_listRequired _ _ value).trans other)
    · exact written
  · obtain ⟨_, same, rewritten, -⟩ := rewrites_listRequired marked propertyMap distinct
    cases listing.symm.trans same
    rw [rewritten.lookup name fun edited => required edited.1, found, Option.map_some]

/-- Turning flags into types leaves no flag, and where there was none it goes into every member. -/
theorem admitNulls_object {after : List (String × JsonValue)}
    (distinct : (Entries.keys members).Nodup)
    (admitting : admitNulls (.object members) = .object after) :
    (hasFlag "nullable" after = false ∧ hasFlag "x-nullable" after = false) ∧
      (hasFlag "nullable" members = false → hasFlag "x-nullable" members = false →
        ∀ name, Entries.get? name after = (Entries.get? name members).map admitNulls) := by
  have inside := Rewrites.of_map (fun _ => admitNulls) distinct
  have flags (flag : String) : hasFlag flag (members.map fun member =>
      (member.1, admitNulls member.2)) = hasFlag flag members := by
    rw [hasFlag, hasFlag, inside.lookup flag id]
    cases Entries.get? flag members with
    | none => rfl
    | some value => rw [Option.map_some, Option.bind_some, bool?_admitNulls, Option.bind_some]
  rw [admitNulls, admitNullsMembers_eq] at admitting
  rw [← JsonValue.object.inj admitting]
  refine ⟨hasFlag_admitNullIfFlagged inside.distinct, fun nullable extension name => ?_⟩
  rw [admitNullIfFlagged, flags, flags, nullable, extension]
  exact inside.lookup name id

/-- Members that both passes leave as they are have no marks of their own, and each member stays,
`required` when no names are added. -/
theorem clear_of_unchanged (distinct : (Entries.keys members).Nodup)
    (same : admitNulls (listRequired marked propertyMap (.object members)) = .object members) :
    (marked = true → hasRequiredMark members = false) ∧
      hasFlag "nullable" members = false ∧ hasFlag "x-nullable" members = false ∧
      ∀ member ∈ members, (member.1 = "required" → requiredNames propertyMap members = []) →
        admitNulls (listRequired propertyMap (member.1 = "properties") member.2) = member.2 := by
  obtain ⟨listed, listing, first, -⟩ := rewrites_listRequired marked propertyMap distinct
  rw [listing] at same
  obtain ⟨⟨nullable, extension⟩, kept⟩ := admitNulls_object first.distinct same
  -- No flag is set, so the second pass only goes into the members.
  have moved := kept ((hasFlag_listRequired distinct listing (by decide)).trans nullable)
    ((hasFlag_listRequired distinct listing (by decide)).trans extension)
  have unmarked : marked = true → hasRequiredMark members = false := by
    rintro rfl
    have dropped := hasRequiredMark_listRequired distinct listing
    rw [hasRequiredMark] at dropped
    rw [hasRequiredMark, moved]
    cases found : Entries.get? "required" listed with
    | none => rfl
    | some value =>
      rw [found] at dropped
      rw [Option.map_some, Option.bind_some, bool?_admitNulls]
      exact dropped
  refine ⟨unmarked, nullable, extension, fun member present unnamed => ?_⟩
  obtain ⟨name, value⟩ := member
  have found : Entries.get? name members = some value := Entries.get?_of_mem distinct present
  have after := moved name
  rw [found, get?_listRequired distinct listing unmarked unnamed found, Option.map_some,
    Option.some.injEq] at after
  exact after.symm

/-- A value that both passes leave as it is has no marks in it. -/
theorem freeOfMarks_of_unchanged {value : JsonValue} (distinct : value.Distinct)
    (same : admitNulls (listRequired marked propertyMap value) = value) :
    FreeOfMarks marked propertyMap value := by
  induction value using JsonValue.induction generalizing marked propertyMap with
  | array items ih =>
    rw [listRequired, admitNulls, listRequiredItems_eq, admitNullsItems_eq, List.map_map] at same
    have each := List.map_inj_left.mp ((JsonValue.array.inj same).trans (List.map_id items).symm)
    exact freeOfMarksItems_iff.mpr fun item inside =>
      ih item inside (distinct.of_mem inside) (each item inside)
  | object members ih =>
    obtain ⟨unmarked, nullable, extension, kept⟩ := clear_of_unchanged distinct.1 same
    have free (member : String × JsonValue) (inside : member ∈ members)
        (apart : member.1 = "required" → requiredNames propertyMap members = []) :
        FreeOfMarks propertyMap (member.1 = "properties") member.2 :=
      ih member inside (distinct.of_get? (Entries.get?_of_mem distinct.1 inside))
        (kept member inside apart)
    have unlisted : requiredNames propertyMap members = [] := by
      apply requiredNames_of_free
      intro properties found
      exact free ("properties", .object properties) (Entries.mem_of_get? found)
        fun (other : "properties" = "required") => absurd other (by decide)
    exact ⟨unmarked, nullable, extension,
      freeOfMarksMembers_iff.mpr fun member inside => free member inside fun _ => unlisted⟩
  | _ => trivial

/-- Both passes leave a value as it is exactly when it has no marks in it. -/
theorem unchanged_iff {value : JsonValue} (distinct : value.Distinct) :
    admitNulls (listRequired marked propertyMap value) = value ↔
      FreeOfMarks marked propertyMap value := by
  refine ⟨freeOfMarks_of_unchanged distinct, fun free => ?_⟩
  rw [listRequired_of_free free]
  exact admitNulls_of_free free

end Unchanged

/-! ## Data of a schema -/

section Data

variable {members : List (String × JsonValue)}

/-- What a schema has under a keyword that no pass edits and that holds no schemas goes through the
passes that go into every value. -/
theorem get?_keyword_normalizeIn (context : Context) (propertyMap : Bool)
    (distinct : (Entries.keys members).Nodup) {keyword : String}
    (position : Position.ofKeyword keyword = .data)
    (unedited : keyword ∉ "required" :: "const" :: nullableKeywords)
    (listed : keyword = "enum" → keyword ∈ Entries.keys members) :
    (normalizeIn context .schema propertyMap (.object members)).get? keyword =
      (Entries.get? keyword members).map fun value =>
        admitNulls (listConstantsUnless (context.literal || keyword ∈ literalKeywords)
          (listRequired propertyMap false value)) := by
  simp only [List.mem_cons, not_or] at unedited
  obtain ⟨required, constant, flag⟩ := unedited
  have properties : keyword ≠ "properties" := by
    rintro rfl
    contradiction
  have type : keyword ≠ "type" := by
    rintro rfl
    exact flag (by decide)
  obtain ⟨marked, marking, first, -⟩ := rewrites_listRequired context.marked propertyMap distinct
  obtain ⟨named, naming, second, -⟩ :=
    rewrites_listConstantsUnless context.literal first.distinct
  obtain ⟨after, finishing, third⟩ := rewrites_finishIn context.typed second.distinct
  have unmarked : ¬(keyword = "required" ∧ (context.marked = true ∨
      AddsRequired (requiredNames propertyMap members) members)) := fun edited => required edited.1
  have unnamed : ¬((context.literal = false ∧ "const" ∈ Entries.keys marked) ∧
      (keyword = "const" ∨ (keyword = "enum" ∨ keyword = "type") ∧
        keyword ∉ Entries.keys marked)) := by
    rintro ⟨-, same | ⟨same | same, missing⟩⟩
    · exact constant same
    · exact missing ((first.mem_keys_iff unmarked).mpr (listed same))
    · exact type same
  rw [normalizeIn_eq, marking, naming, finishing]
  show Entries.get? keyword after = _
  rw [third.lookup keyword flag, second.lookup keyword unnamed, first.lookup keyword unmarked,
    Option.map_map, Option.map_map, position, decide_eq_false properties]
  congr 1
  funext value
  exact finishIn_data _ _

/-- What a schema holds as data goes through the two passes that go into every value. -/
theorem get?_data_normalizeIn (context : Context) (propertyMap : Bool)
    (distinct : (Entries.keys members).Nodup) {keyword : String} {value : JsonValue}
    (data : keyword ∈ literalKeywords) (found : Entries.get? keyword members = some value) :
    (normalizeIn context .schema propertyMap (.object members)).get? keyword =
      some (admitNulls (listRequired propertyMap false value)) := by
  have known : ∀ keyword ∈ literalKeywords, Position.ofKeyword keyword = .data ∧
      keyword ∉ "required" :: "const" :: nullableKeywords := by decide
  obtain ⟨position, unedited⟩ := known keyword data
  have present : keyword ∈ Entries.keys members := by simp [Entries.mem_keys_iff, found]
  rw [get?_keyword_normalizeIn context propertyMap distinct position unedited fun _ => present,
    found, Option.map_some, decide_eq_true data, Bool.or_true]
  rfl

/-- Where constants are listed, the constant of a schema without listed values goes through the same
two passes and becomes the only listed value. -/
theorem get?_enum_normalizeIn {context : Context} (propertyMap : Bool)
    (distinct : (Entries.keys members).Nodup) {constant : JsonValue}
    (listing : context.literal = false) (missing : "enum" ∉ Entries.keys members)
    (found : Entries.get? "const" members = some constant) :
    (normalizeIn context .schema propertyMap (.object members)).get? "enum" =
      some (.array [admitNulls (listRequired propertyMap false constant)]) := by
  obtain ⟨listed, moving, first, -⟩ := rewrites_listRequired context.marked propertyMap distinct
  have inside := Rewrites.of_map listConstantsUnder first.distinct
  have moved : Entries.get? "const" listed = some (listRequired propertyMap false constant) := by
    rw [first.lookup "const" fun edited => absurd edited.1 (by decide), found]
    rfl
  have absent : "enum" ∉ Entries.keys (listed.map fun member =>
      (member.1, listConstantsUnder member.1 member.2)) := by
    rw [inside.mem_keys_iff id, first.mem_keys_iff fun edited => absurd edited.1 (by decide)]
    exact missing
  have named : listConstantsUnless context.literal (.object listed) =
      .object (listConstant (listRequired propertyMap false constant)
        (listed.map fun member => (member.1, listConstantsUnder member.1 member.2))) := by
    rw [listing, listConstantsUnless, if_neg Bool.false_ne_true, listConstants,
      listConstantsMembers_eq, moved]
  have value := get?_enum_listConstant (listRequired propertyMap false constant) inside.distinct
    absent
  obtain ⟨after, finishing, last⟩ := rewrites_finishIn context.typed
    (edits_listConstant (listRequired propertyMap false constant) inside.distinct).1.distinct
  rw [normalizeIn_eq, moving, named, finishing]
  show Entries.get? "enum" after = _
  rw [last.lookup "enum" (by decide), value, Option.map_some,
    show Position.ofKeyword "enum" = .data by decide, finishIn_data]
  rfl

end Data

/-! ## Data at a place -/

/-- Data is kept exactly when no mark is found in it. At every place of a schema, the normal form
holds the value of a keyword for data unchanged exactly when the place is in no schema that is taken
for a constant and nothing in the value looks like a mark; the same holds of a constant that becomes
the only listed value. A schema called `properties` is taken for a map of properties, so there the
value itself may look like a property's schema. -/
theorem data_kept_iff {schema : JsonValue} {path : List Step} {members : List (String × JsonValue)}
    (distinct : schema.Distinct) (led : follow? path schema = some (.object members)) :
    (∀ keyword ∈ literalKeywords, ∀ value, Entries.get? keyword members = some value →
      ((follow? path (normalize schema)).bind (get? keyword) = some value ↔
        Route.root.Keeps path ∧ FreeOfMarks (Route.root.after path).propertyMap false value)) ∧
    ∀ constant, Entries.get? "const" members = some constant → "enum" ∉ Entries.keys members →
      (Route.root.after path).literal = false →
      ((follow? path (normalize schema)).bind (get? "enum") = some (.array [constant]) ↔
        Route.root.Keeps path ∧
          FreeOfMarks (Route.root.after path).propertyMap false constant) := by
  have root : normalize schema = Route.root.normalize schema := normalize_eq schema
  by_cases kept : Route.root.Keeps path
  · obtain ⟨found, inner⟩ := Route.follow?_of_keeps distinct led kept
    rw [root, found]
    constructor
    · intro keyword data value given
      have moved := get?_data_normalizeIn (Route.root.after path).toContext
        (Route.root.after path).propertyMap inner.1 data given
      rw [Option.bind_some, Route.normalize, moved, Option.some.injEq,
        unchanged_iff (inner.of_get? given)]
      exact (and_iff_right kept).symm
    · intro constant given missing listing
      have moved := get?_enum_normalizeIn (Route.root.after path).propertyMap inner.1 listing
        missing given
      rw [Option.bind_some, Route.normalize, moved, Option.some.injEq, JsonValue.array.injEq,
        List.singleton_inj, unchanged_iff (inner.of_get? given)]
      exact (and_iff_right kept).symm
  · have gone : follow? path (normalize schema) = none :=
      Route.follow?_of_not_keeps distinct led rfl kept (.inl root)
    have lost {keyword : String} {value : JsonValue} :
        (follow? path (normalize schema)).bind (get? keyword) ≠ some value := by
      rw [gone, Option.bind_none]
      exact (Option.some_ne_none value).symm
    exact ⟨fun _ _ _ _ => iff_of_false lost fun both => kept both.1,
      fun _ _ _ _ => iff_of_false lost fun both => kept both.1⟩

/-- The members of a property's schema with a default and a constant. -/
def dataMembers : List (String × JsonValue) :=
  [("default", .object [("nullable", .string "yes"), ("b", .array [.null])]),
    ("const", .string "x")]

/-- A schema with that property. -/
def dataSchema : JsonValue := .object [("properties", .object [("a", .object dataMembers)])]

/-- The default and the constant of the sample are kept. -/
theorem data_kept_iff_sample :
    dataSchema.Distinct ∧
      follow? [.member "properties" "a"] dataSchema = some (.object dataMembers) ∧
      (follow? [.member "properties" "a"] (normalize dataSchema)).bind (get? "default") =
        some (.object [("nullable", .string "yes"), ("b", .array [.null])]) ∧
      (follow? [.member "properties" "a"] (normalize dataSchema)).bind (get? "enum") =
        some (.array [.string "x"]) := by
  have distinct : dataSchema.Distinct := by
    simp [dataSchema, dataMembers, Distinct, DistinctMembers, DistinctItems]
  have led : follow? [.member "properties" "a"] dataSchema = some (.object dataMembers) := rfl
  have kept : Route.root.Keeps [.member "properties" "a"] := by simp [Route.Keeps, Route.Loses]
  obtain ⟨values, constants⟩ := data_kept_iff distinct led
  refine ⟨distinct, led, (values "default" (by decide) _ rfl).mpr ⟨kept, ?_⟩,
    (constants (.string "x") rfl (by decide) rfl).mpr ⟨kept, trivial⟩⟩
  exact ⟨by rintro ⟨⟩, rfl, rfl, trivial, ⟨trivial, trivial⟩, trivial⟩

/-- A schema with a property whose default looks like a schema that is flagged as nullable. -/
def flaggedSchema : JsonValue :=
  .object [("properties", .object [("a", .object [("type", .string "object"),
    ("default", .object [("nullable", .bool true), ("x", .number (.int 1))])])])]

/-- The text of that schema. -/
def flaggedText : String :=
  "\x7b\"properties\":\x7b\"a\":\x7b\"type\":\"object\"," ++
    "\"default\":\x7b\"nullable\":true,\"x\":1\x7d\x7d\x7d\x7d"

/-- A flag in a default is taken for one of a schema and lost. -/
theorem default_flag_lost :
    JsonValue.ofText? flaggedText = some flaggedSchema ∧
      (follow? [.member "properties" "a"] flaggedSchema).bind (get? "default") =
        some (.object [("nullable", .bool true), ("x", .number (.int 1))]) ∧
      (follow? [.member "properties" "a"] (normalize flaggedSchema)).bind (get? "default") =
        some (.object [("x", .number (.int 1))]) := by
  decide +kernel

end Raml.Schema
