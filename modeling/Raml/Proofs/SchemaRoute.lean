import Raml.Proofs.SchemaPlace

/-!
# Routes through schemas

Every schema in a schema is reached by a path, and how the passes of normalization reach it is known
from the steps of the path alone. A schema called `const` in a map of schemas is taken for a
constant and goes; along every other path the normal form leads to the normal form of the place, up
to names that are added to a list.
-/
namespace Raml.Schema

open JsonValue

/-! ## Values that extend each other -/

/-- One value is another, or a list that begins with the items of the other. -/
def Extends (value other : JsonValue) : Prop :=
  other = value ∨ ∃ items more, value = .array items ∧ other = .array (items ++ more)

namespace Extends

variable {value other : JsonValue}

/-- A pass that goes into arrays item by item keeps how values extend each other. -/
theorem map {pass change : JsonValue → JsonValue} (extended : Extends value other)
    (arrays : ∀ items, pass (.array items) = .array (items.map change)) :
    Extends (pass value) (pass other) := by
  rcases extended with rfl | ⟨items, more, rfl, rfl⟩
  · exact .inl rfl
  · exact .inr ⟨items.map change, more.map change, arrays items,
      (arrays _).trans (congrArg _ List.map_append)⟩

/-- A step leads to the same place in a value that extends another. -/
theorem follow? {step : Step} {next : JsonValue} (extended : Extends value other)
    (found : step.follow? value = some next) : step.follow? other = some next := by
  rcases extended with rfl | ⟨items, more, rfl, rfl⟩
  · exact found
  · cases step with
    | element index =>
      obtain ⟨_, same, inner⟩ := Step.follow?_element_iff.mp found
      cases same
      have inside : index < items.length := (List.getElem?_eq_some_iff.mp inner).1
      exact Step.follow?_element_iff.mpr
        ⟨_, rfl, (List.getElem?_append_left inside).trans inner⟩
    | member keyword name =>
      obtain ⟨-, _, under, -⟩ := Step.follow?_member_iff.mp found
      contradiction
    | item keyword index =>
      obtain ⟨-, _, under, -⟩ := Step.follow?_item_iff.mp found
      contradiction
    | child keyword =>
      have under := (Step.follow?_child_iff.mp found).1
      contradiction

end Extends

/-- Adding names to the list `required` extends what stands there and leaves the rest. -/
theorem exists_extends_addRequired (names : List String) {members : List (String × JsonValue)}
    {name : String} {value : JsonValue} (distinct : (Entries.keys members).Nodup)
    (found : Entries.get? name members = some value) :
    ∃ held, Entries.get? name (addRequired names members) = some held ∧ Extends value held := by
  by_cases added : name = "required" ∧ names ≠ []
  · obtain ⟨rfl, some⟩ := added
    refine ⟨_, get?_addRequired some, ?_⟩
    rw [found]
    cases value with
    | array listed =>
      obtain ⟨more, same⟩ := exists_foldl_addName names listed
      exact .inr ⟨listed, more, rfl, congrArg JsonValue.array same⟩
    | _ => exact .inl rfl
  · refine ⟨value, ?_, .inl rfl⟩
    rw [(edits_addRequired names distinct).lookup name fun edited =>
      added ⟨edited.1, edited.2.1⟩, found]
    rfl

/-- Moving marks keeps what is no boolean under its name, up to names added to a list. -/
theorem exists_extends_listRequired (marked propertyMap : Bool)
    {members : List (String × JsonValue)} {name : String} {value : JsonValue}
    (distinct : (Entries.keys members).Nodup) (found : Entries.get? name members = some value)
    (other : value.bool? = none) :
    ∃ listed held, listRequired marked propertyMap (.object members) = .object listed ∧
      (Entries.keys listed).Nodup ∧ Entries.get? name listed = some held ∧
      Extends (listRequired propertyMap (name = "properties") value) held := by
  have inside := Rewrites.of_map
    (fun name => listRequired propertyMap (name = "properties")) distinct
  have mapped := inside.lookup name id
  rw [found, Option.map_some] at mapped
  have moved : (listRequired propertyMap (name = "properties") value).bool? = none :=
    (bool?_listRequired _ _ value).trans other
  simp only [listRequired, listRequiredMembers_eq]
  cases marked with
  | true =>
    have dropped := (edits_dropRequiredMark inside.distinct).distinct
    obtain ⟨held, entry, extended⟩ := exists_extends_addRequired
      (requiredNames propertyMap members) dropped
      (get?_dropRequiredMark inside.distinct mapped moved)
    exact ⟨_, held, rfl, (edits_addRequired _ dropped).distinct, entry, extended⟩
  | false =>
    obtain ⟨held, entry, extended⟩ := exists_extends_addRequired
      (requiredNames propertyMap members) inside.distinct mapped
    exact ⟨_, held, rfl, (edits_addRequired _ inside.distinct).distinct, entry, extended⟩

/-! ## Steps of a route -/

/-- How the passes reach a schema, and whether they take it for a map of properties. -/
structure Route extends Context where
  /-- It is called `properties` in a map of schemas. -/
  propertyMap : Bool

namespace Route

variable {route : Route} {step : Step} {path : List Step} {schema next place : JsonValue}

/-- How the passes reach the whole schema. -/
def root : Route := ⟨.root, false⟩

/-- What normalization makes of a schema that the passes reach on a route. -/
def normalize (route : Route) (schema : JsonValue) : JsonValue :=
  normalizeIn route.toContext .schema route.propertyMap schema

/-- The route after a step. A schema called `properties` is taken for a map of properties, and the
constants of one whose name holds data stay. -/
def into (route : Route) : Step → Route
  | .member keyword name =>
    ⟨⟨keyword = "properties", route.literal || name ∈ literalKeywords, route.typed⟩,
      name = "properties"⟩
  | .item _ _ => ⟨⟨false, route.literal, route.typed⟩, false⟩
  | .child _ => ⟨⟨route.propertyMap, route.literal, route.typed⟩, false⟩
  | .element _ => ⟨⟨false, route.literal, false⟩, false⟩

/-- The route after the steps of a path. -/
def after (route : Route) (path : List Step) : Route := path.foldl into route

/-- A step to a schema called `const` in a map of schemas leads to one that is taken for a constant
and goes, where constants are listed. -/
def Loses (route : Route) : Step → Prop
  | .member _ name => name = "const" ∧ route.literal = false
  | _ => False

/-- No step of a path leads to a schema that is taken for a constant. -/
def Keeps (route : Route) : List Step → Prop
  | [] => True
  | step :: rest => ¬route.Loses step ∧ (route.into step).Keeps rest

/-- A map of schemas in a normal form. -/
theorem get?_map_normalize (route : Route) {keyword : String} {members : List (String × JsonValue)}
    (distinct : schema.Distinct) (maps : Position.ofKeyword keyword = .schemaMap)
    (under : schema.get? keyword = some (.object members)) :
    (route.normalize schema).get? keyword = some (finishIn route.typed .schemaMap
      (listConstantsUnless route.literal
        (listRequired route.propertyMap (keyword = "properties") (.object members)))) := by
  rw [normalize, get?_normalizeIn route.toContext route.propertyMap distinct (by simp [maps]) under,
    maps, normalizeIn_eq]

/-- A schema under a name is normalized where it stands, unless it is taken for a constant. -/
theorem exists_follow?_member {keyword name : String} (distinct : schema.Distinct)
    (found : (Step.member keyword name).follow? schema = some next) (other : next.bool? = none)
    (kept : ¬route.Loses (.member keyword name)) :
    ∃ normal, (Step.member keyword name).follow? (route.normalize schema) = some normal ∧
      Extends ((route.into (.member keyword name)).normalize next) normal := by
  obtain ⟨maps, members, under, inner⟩ := Step.follow?_member_iff.mp found
  obtain ⟨listed, held, moving, first, entry, extended⟩ := exists_extends_listRequired
    route.propertyMap (keyword = "properties") (distinct.get? under).1 inner other
  obtain ⟨named, naming, second, -⟩ := rewrites_listConstantsUnless route.literal first
  obtain ⟨after, finishing, third⟩ := rewrites_finishIn_map route.typed second.distinct
  have mapped := get?_map_normalize route distinct maps under
  rw [moving, naming, finishing] at mapped
  have present : name ∈ Entries.keys listed := by simp [Entries.mem_keys_iff, entry]
  have named : Entries.get? name after = some (finishIn route.typed .schema
      (listConstantsUnless (route.literal || name ∈ literalKeywords) held)) := by
    rw [third.lookup name id, second.lookup name fun edited => edited.2.elim
      (fun constant => kept ⟨constant, edited.1.1⟩) fun missing => missing.2 present, entry]
    rfl
  refine ⟨_, Step.follow?_member_iff.mpr ⟨maps, after, mapped, named⟩, ?_⟩
  exact (extended.map (listConstantsUnless_array _)).map (finishIn_array _)

/-- Of a schema that is taken for a constant nothing is left under its name. -/
theorem follow?_of_loses {value : JsonValue} (distinct : schema.Distinct)
    (found : step.follow? schema = some next) (lost : route.Loses step)
    (extended : Extends (route.normalize schema) value) : step.follow? value = none := by
  cases step with
  | member keyword name =>
    obtain ⟨rfl, literal⟩ := lost
    obtain ⟨maps, members, under, inner⟩ := Step.follow?_member_iff.mp found
    obtain ⟨listed, moving, first, -⟩ := rewrites_listRequired route.propertyMap
      (keyword = "properties") (distinct.get? under).1
    obtain ⟨named, naming, second, gone⟩ :=
      rewrites_listConstantsUnless route.literal first.distinct
    obtain ⟨after, finishing, third⟩ := rewrites_finishIn_map route.typed second.distinct
    have mapped := get?_map_normalize route distinct maps under
    rw [moving, naming, finishing] at mapped
    have same : value = route.normalize schema := by
      rcases extended with same | ⟨items, more, array, -⟩
      · exact same
      · rw [array] at mapped
        contradiction
    have absent : Entries.get? "const" after = none :=
      Entries.get?_eq_none.mpr (mt (third.mem_keys_iff id).mp (gone literal))
    rw [same, Step.follow?, if_pos maps, mapped]
    exact absent
  | _ => contradiction

/-- A step that loses nothing leads, in the normal form of a schema on a route, to the normal form
of where it leads, up to names added to a list. -/
theorem exists_follow?_step (distinct : schema.Distinct) (found : step.follow? schema = some next)
    (other : next.bool? = none) (kept : ¬route.Loses step) :
    ∃ normal, step.follow? (route.normalize schema) = some normal ∧
      Extends ((route.into step).normalize next) normal := by
  cases step with
  | member keyword name => exact exists_follow?_member distinct found other kept
  | item keyword index => exact ⟨_, Step.follow?_item_normalizeIn _ _ distinct found, .inl rfl⟩
  | child keyword => exact ⟨_, Step.follow?_child_normalizeIn _ _ distinct found, .inl rfl⟩
  | element index => exact ⟨_, Step.follow?_element_normalizeIn _ _ found, .inl rfl⟩

/-- A boolean has no schemas in it. -/
theorem bool?_of_follow? (found : Schema.follow? path schema = some place)
    (other : place.bool? = none) : schema.bool? = none := by
  cases path with
  | nil =>
    cases found
    exact other
  | cons step rest =>
    obtain ⟨next, found, -⟩ := Option.bind_eq_some_iff.mp found
    cases schema with
    | bool flag =>
      cases step with
      | child keyword => exact absurd (Step.follow?_child_iff.mp found).1 nofun
      | _ => simp [Step.follow?, get?, items?] at found
    | _ => rfl

/-- A path on which no schema is taken for a constant leads, in the normal form of a schema on a
route, to the normal form of its place, up to names added to a list. -/
theorem exists_follow? {value : JsonValue} (distinct : schema.Distinct)
    (led : Schema.follow? path schema = some place) (other : place.bool? = none)
    (kept : route.Keeps path) (extended : Extends (route.normalize schema) value) :
    ∃ normal, Schema.follow? path value = some normal ∧
      Extends ((route.after path).normalize place) normal ∧ place.Distinct := by
  induction path generalizing route schema value with
  | nil =>
    cases led
    exact ⟨value, rfl, extended, distinct⟩
  | cons step rest ih =>
    obtain ⟨next, found, led⟩ := Option.bind_eq_some_iff.mp led
    obtain ⟨normal, stepped, onward⟩ := exists_follow?_step distinct found
      (bool?_of_follow? led other) kept.1
    have first : step.follow? value = some normal := extended.follow? stepped
    rw [Schema.follow?, first, Option.bind_some]
    exact ih (Step.distinct distinct found) led kept.2 onward

/-- A path to a schema in one that is taken for a constant leads nowhere in the normal form. -/
theorem follow?_of_not_keeps {value : JsonValue} (distinct : schema.Distinct)
    (led : Schema.follow? path schema = some place) (other : place.bool? = none)
    (lost : ¬route.Keeps path) (extended : Extends (route.normalize schema) value) :
    Schema.follow? path value = none := by
  induction path generalizing route schema value with
  | nil => exact absurd trivial lost
  | cons step rest ih =>
    obtain ⟨next, found, led⟩ := Option.bind_eq_some_iff.mp led
    by_cases here : route.Loses step
    · rw [Schema.follow?, follow?_of_loses distinct found here extended, Option.bind_none]
    · obtain ⟨normal, stepped, onward⟩ := exists_follow?_step distinct found
        (bool?_of_follow? led other) here
      have first : step.follow? value = some normal := extended.follow? stepped
      rw [Schema.follow?, first, Option.bind_some]
      exact ih (Step.distinct distinct found) led (fun keeps => lost ⟨here, keeps⟩) onward

/-- A path to an object on which no schema is taken for a constant leads, in the normal form of a
schema on a route, to the normal form of the object. -/
theorem follow?_of_keeps {members : List (String × JsonValue)} (distinct : schema.Distinct)
    (led : Schema.follow? path schema = some (.object members)) (kept : route.Keeps path) :
    Schema.follow? path (route.normalize schema) =
        some ((route.after path).normalize (.object members)) ∧
      (JsonValue.object members).Distinct := by
  obtain ⟨normal, found, extended, inner⟩ := exists_follow? distinct led rfl kept (.inl rfl)
  have object : ∃ after, (route.after path).normalize (.object members) = .object after := by
    obtain ⟨after, same, -⟩ := rewrites_normalizeIn_schema (route.after path).toContext
      (route.after path).propertyMap inner.1
    exact ⟨after, same⟩
  refine ⟨?_, inner⟩
  rcases extended with same | ⟨items, more, array, -⟩
  · rw [found, same]
  · obtain ⟨after, same⟩ := object
    rw [same] at array
    contradiction

end Route

end Raml.Schema
