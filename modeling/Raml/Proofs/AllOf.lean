import Raml.Proofs.Json
import Raml.Proofs.Success
import Raml.Schema.Projection

/-!
# Schemas joined by `allOf`

A schema and the schemas of its `allOf`, and of theirs, form a tree. The properties that are
projected from a schema are those that the schemas of its tree declare.
-/
namespace Raml.Schema

open JsonValue

/-- A schema is in the tree that another one and the schemas of its `allOf` form. -/
inductive InAllOf : JsonValue → JsonValue → Prop where
  /-- The schema itself. -/
  | self {schema : JsonValue} : InAllOf schema schema
  /-- A schema in the tree of a schema of the `allOf`. -/
  | nested {schema item member : JsonValue} {items : List JsonValue}
      (joined : schema.get? "allOf" = some (.array items)) (inside : item ∈ items)
      (below : InAllOf item member) : InAllOf schema member

/-- Only the schema and the trees of its `allOf` are in its tree. -/
theorem inAllOf_iff {schema member : JsonValue} :
    InAllOf schema member ↔ member = schema ∨ ∃ items,
      schema.get? "allOf" = some (.array items) ∧ ∃ item ∈ items, InAllOf item member := by
  constructor
  · rintro (_ | ⟨joined, inside, below⟩)
    · exact .inl rfl
    · exact .inr ⟨_, joined, _, inside, below⟩
  · rintro (rfl | ⟨items, joined, item, inside, below⟩)
    · exact .self
    · exact .nested joined inside below

/-- The schemas in the tree of a schema with distinct names have distinct names. -/
theorem InAllOf.distinct {schema member : JsonValue} (within : InAllOf schema member)
    (distinct : schema.Distinct) : member.Distinct := by
  induction within with
  | self => exact distinct
  | nested joined inside _ ih => exact ih ((distinct.get? joined).of_mem inside)

mutual

/-- The schemas in the tree of a schema in order: the schema itself, and then the trees of the
schemas of its `allOf`. -/
def walk : JsonValue → List JsonValue
  | .object members => .object members :: walkOfAllOf members
  | other => [other]

/-- The trees of the schemas of the member `allOf`. -/
def walkOfAllOf : List (String × JsonValue) → List JsonValue
  | [] => []
  | (name, value) :: rest =>
    if name = "allOf" then
      match value with
      | .array items => walkOfItems items
      | _ => []
    else walkOfAllOf rest

/-- The trees of several schemas. -/
def walkOfItems : List JsonValue → List JsonValue
  | [] => []
  | item :: rest => walk item ++ walkOfItems rest

end

/-- The trees of several schemas, one after another. -/
theorem walkOfItems_eq (items : List JsonValue) : walkOfItems items = items.flatMap walk := by
  induction items with
  | nil => rfl
  | cons item rest ih => rw [walkOfItems, ih, List.flatMap_cons]

/-- Of the members only an array under `allOf` is walked. -/
theorem walkOfAllOf_eq (members : List (String × JsonValue)) :
    walkOfAllOf members = match Entries.get? "allOf" members with
      | some (.array items) => items.flatMap walk
      | _ => [] := by
  induction members with
  | nil => rfl
  | cons member rest ih =>
    obtain ⟨name, value⟩ := member
    rw [walkOfAllOf.eq_def, Entries.get?]
    simp only
    by_cases here : name = "allOf"
    · rw [if_pos here, if_pos here]
      cases value with
      | array items => exact walkOfItems_eq items
      | _ => rfl
    · rw [if_neg here, if_neg here]
      exact ih

/-- The walk of a schema with an `allOf` goes on with its schemas. -/
theorem walk_of_allOf {schema : JsonValue} {items : List JsonValue}
    (joined : schema.get? "allOf" = some (.array items)) :
    walk schema = schema :: items.flatMap walk := by
  cases schema with
  | object members =>
    rw [get?] at joined
    rw [walk, walkOfAllOf_eq, joined]
  | _ => contradiction

/-- The walk of any other schema visits it alone. -/
theorem walk_of_other {schema : JsonValue}
    (other : ∀ items, schema.get? "allOf" ≠ some (.array items)) : walk schema = [schema] := by
  cases schema with
  | object members =>
    rw [walk, walkOfAllOf_eq]
    split
    · rename_i items joined
      exact absurd joined (other items)
    · rfl
  | _ => rfl

/-- What holds of a schema when it holds of the schemas of its `allOf` holds of every schema. -/
@[elab_as_elim]
theorem tree_induction {motive : JsonValue → Prop}
    (step : ∀ schema, (∀ items, schema.get? "allOf" = some (.array items) →
      ∀ item ∈ items, motive item) → motive schema) (schema : JsonValue) : motive schema := by
  -- The schemas of an `allOf` lie two levels below, so arrays carry what holds of their items.
  have both : motive schema ∧ ∀ items, schema = .array items → ∀ item ∈ items, motive item := by
    induction schema using JsonValue.induction with
    | array items ih =>
      refine ⟨step _ nofun, ?_⟩
      intro others same item inside
      cases same
      exact (ih item inside).1
    | object members ih =>
      refine ⟨step _ fun items joined item inside => ?_, nofun⟩
      have below := ih ("allOf", .array items) (Entries.mem_of_get? joined)
      exact below.2 items rfl item inside
    | _ => exact ⟨step _ nofun, nofun⟩
  exact both.1

/-- A walk visits the schemas in the tree. -/
theorem mem_walk_iff {schema member : JsonValue} :
    member ∈ walk schema ↔ InAllOf schema member := by
  induction schema using tree_induction with
  | step schema ih =>
    by_cases array : ∃ items, schema.get? "allOf" = some (.array items)
    · obtain ⟨items, joined⟩ := array
      rw [walk_of_allOf joined, List.mem_cons, List.mem_flatMap, inAllOf_iff]
      refine or_congr_right ⟨?_, ?_⟩
      · rintro ⟨item, inside, below⟩
        exact ⟨items, joined, item, inside, (ih items joined item inside).mp below⟩
      · rintro ⟨others, same, item, inside, below⟩
        cases joined.symm.trans same
        exact ⟨item, inside, (ih items joined item inside).mpr below⟩
    · rw [walk_of_other (not_exists.mp array), List.mem_singleton, inAllOf_iff]
      refine (or_iff_left ?_).symm
      rintro ⟨items, joined, -⟩
      exact array ⟨items, joined⟩

/-- A schema itself has a property of a name. -/
def HasProperty (schema : JsonValue) (name : String) : Prop :=
  ∃ properties, schema.get? "properties" = some (.object properties) ∧
    name ∈ Entries.keys properties

/-- Some schema of the tree has a property of a name. -/
def Declares (schema : JsonValue) (name : String) : Prop :=
  ∃ member properties, InAllOf schema member ∧
    member.get? "properties" = some (.object properties) ∧ name ∈ Entries.keys properties

/-- A name is declared when some schema on the walk has it. -/
theorem declares_iff {schema : JsonValue} {name : String} :
    Declares schema name ↔ ∃ member ∈ walk schema, HasProperty member name := by
  constructor
  · rintro ⟨member, properties, within, given, present⟩
    exact ⟨member, mem_walk_iff.mpr within, properties, given, present⟩
  · rintro ⟨member, visited, properties, given, present⟩
    exact ⟨member, properties, mem_walk_iff.mp visited, given, present⟩

/-- Projecting properties keeps their names. -/
theorem keys_projectAll {required : List String} {properties : List (String × JsonValue)}
    {found : List (String × PropertyValue)} (read : projectAll required properties = .ok found) :
    Entries.keys found = Entries.keys properties := by
  induction properties generalizing found with
  | nil =>
    cases read
    rfl
  | cons property rest ih =>
    obtain ⟨name, schema⟩ := property
    rw [projectAll] at read
    obtain ⟨value, -, read⟩ := bind_eq_ok.mp read
    obtain ⟨others, later, read⟩ := bind_eq_ok.mp read
    cases read
    simp [Entries.keys, ← ih later]

/-- The declarations of the properties that one schema gives. -/
def ownDeclarations : JsonValue → Except SchemaError (List (String × PropertyValue))
  | .object members => ownProperties members
  | _ => .ok []

/-- The names of a schema's own properties, in order. -/
def ownNames (schema : JsonValue) : List String :=
  match schema.get? "properties" with
  | some (.object properties) => Entries.keys properties
  | _ => []

/-- The names of a schema's own properties are those that it has. -/
theorem mem_ownNames {schema : JsonValue} {name : String} :
    name ∈ ownNames schema ↔ HasProperty schema name := by
  rw [ownNames, HasProperty]
  split
  · rename_i properties given
    simp [given]
  · rename_i other
    refine iff_of_false List.not_mem_nil ?_
    rintro ⟨properties, given, -⟩
    exact other properties given

/-- A schema declares its own properties in their order. -/
theorem keys_ownDeclarations {schema : JsonValue} {found : List (String × PropertyValue)}
    (read : ownDeclarations schema = .ok found) : Entries.keys found = ownNames schema := by
  cases schema with
  | object members =>
    rw [ownDeclarations, ownProperties] at read
    rw [ownNames, get?]
    split at read
    · rename_i missing
      cases read
      simp [missing]
    · rename_i null
      cases read
      simp [null]
    · rename_i properties given
      rw [keys_projectAll read, given]
    · contradiction
  | _ =>
    cases read
    rfl

/-- The declarations that several schemas give, one after another. -/
def gather : List JsonValue → Except SchemaError (List (String × PropertyValue))
  | [] => .ok []
  | schema :: rest => do
    let own ← ownDeclarations schema
    let others ← gather rest
    return own ++ others

/-- Declarations are gathered from one part of a list after another. -/
theorem gather_append (first second : List JsonValue) :
    gather (first ++ second) = do
      let own ← gather first
      let others ← gather second
      return own ++ others := by
  induction first with
  | nil =>
    cases found : gather second <;> simp [gather, found, bind, Except.bind, pure, Except.pure]
  | cons schema rest ih =>
    rw [List.cons_append, gather, ih, gather]
    simp only [bind_assoc, pure_bind, List.append_assoc]

/-- Of the members only an array under `allOf` gives further declarations. -/
theorem declarationsOfAllOf_eq (members : List (String × JsonValue)) :
    declarationsOfAllOf members = match Entries.get? "allOf" members with
      | some (.array items) => declarationsOfItems items
      | _ => .ok [] := by
  induction members with
  | nil => rfl
  | cons member rest ih =>
    obtain ⟨name, value⟩ := member
    rw [declarationsOfAllOf.eq_def, Entries.get?]
    simp only
    by_cases here : name = "allOf"
    · rw [if_pos here, if_pos here]
      cases value <;> rfl
    · rw [if_neg here, if_neg here]
      exact ih

/-- The declarations of a schema are those that the schemas on its walk give. -/
theorem declarations_eq (schema : JsonValue) : declarations schema = gather (walk schema) := by
  induction schema using tree_induction with
  | step schema ih =>
    have items_eq (items : List JsonValue)
        (each : ∀ item ∈ items, declarations item = gather (walk item)) :
        declarationsOfItems items = gather (items.flatMap walk) := by
      induction items with
      | nil => rfl
      | cons item rest later =>
        rw [List.forall_mem_cons] at each
        rw [declarationsOfItems, each.1, later each.2, List.flatMap_cons, gather_append]
    cases schema with
    | object members =>
      rw [declarations, declarationsOfAllOf_eq, walk, walkOfAllOf_eq, gather, ownDeclarations]
      split
      · rename_i items joined
        rw [items_eq items (ih items joined)]
      · rfl
    | _ => rfl

/-- What is gathered from a list is gathered from each schema. -/
theorem gather_split {before after : List JsonValue} {schema : JsonValue}
    {found : List (String × PropertyValue)}
    (read : gather (before ++ schema :: after) = .ok found) :
    ∃ earlier own later, gather before = .ok earlier ∧ ownDeclarations schema = .ok own ∧
      gather after = .ok later ∧ found = earlier ++ own ++ later := by
  rw [gather_append, gather] at read
  obtain ⟨earlier, first, read⟩ := bind_eq_ok.mp read
  obtain ⟨rest, second, read⟩ := bind_eq_ok.mp read
  obtain ⟨own, third, second⟩ := bind_eq_ok.mp second
  obtain ⟨later, fourth, second⟩ := bind_eq_ok.mp second
  cases second
  cases read
  exact ⟨earlier, own, later, first, third, fourth, (List.append_assoc _ _ _).symm⟩

/-- The names that are gathered are those of the schemas, one schema after another. -/
theorem keys_gather {schemas : List JsonValue} {found : List (String × PropertyValue)}
    (read : gather schemas = .ok found) : Entries.keys found = schemas.flatMap ownNames := by
  induction schemas generalizing found with
  | nil =>
    cases read
    rfl
  | cons schema rest ih =>
    rw [gather] at read
    obtain ⟨own, first, read⟩ := bind_eq_ok.mp read
    obtain ⟨others, later, read⟩ := bind_eq_ok.mp read
    cases read
    rw [Entries.keys, List.map_append, List.flatMap_cons, ← ih later, ← keys_ownDeclarations first]

/-- The names that are gathered are those of the properties of the schemas. -/
theorem mem_gather {schemas : List JsonValue} {found : List (String × PropertyValue)}
    {name : String} (read : gather schemas = .ok found) :
    name ∈ Entries.keys found ↔ ∃ schema ∈ schemas, HasProperty schema name := by
  simp only [keys_gather read, List.mem_flatMap, mem_ownNames]

/-- A schema has properties exactly when what its walk gives can be gathered. -/
theorem propertiesOf_eq_ok {schema : JsonValue} {found : Properties} :
    propertiesOf schema = .ok found ↔
      ∃ listed, gather (walk schema) = .ok listed ∧ found = OrderedMap.ofList listed := by
  rw [propertiesOf, declarations_eq]
  cases gather (walk schema) with
  | error failure => simp [Except.map]
  | ok listed => simp [Except.map, eq_comm]

/-- The names of the properties of a schema are those that it declares. -/
theorem mem_propertiesOf {schema : JsonValue} {found : Properties} {name : String}
    (read : propertiesOf schema = .ok found) : name ∈ found.keys ↔ Declares schema name := by
  obtain ⟨listed, gathered, rfl⟩ := propertiesOf_eq_ok.mp read
  rw [OrderedMap.mem_keys_ofList, mem_gather gathered, declares_iff]

end Raml.Schema
