import Raml.Proofs.SchemaData

/-!
# The form of normalized schemas

Each pass of normalization establishes one law about the objects and booleans of a value, and the
later passes keep it although they go elsewhere: a law is stated for the place at which its own pass
reaches a value. After the last pass all laws hold.
-/
namespace Raml.Schema

open JsonValue

/-! ## Sites -/

/-- What stands under a name, by what stands around it. -/
def Position.below : Position → String → Position
  | .schema, name | .schemaOrFlag, name => .ofKeyword name
  | .schemaMap, _ => .schema
  | .schemaList, _ | .data, _ => .data

/-- Where a value stands for the passes. -/
structure Site where
  /-- It is a property's schema. -/
  marked : Bool
  /-- It is a map of properties. -/
  propertyMap : Bool
  /-- It is data, where constants stay. -/
  literal : Bool
  /-- What the pass over booleans takes it for. -/
  flags : Position
  /-- What the pass over types takes it for. -/
  types : Position

namespace Site

/-- The site of the whole schema. -/
def root : Site := ⟨false, false, false, .schema, .schema⟩

/-- The site of an object's member. -/
def member (site : Site) (name : String) : Site where
  marked := site.propertyMap
  propertyMap := name = "properties"
  literal := site.literal || name ∈ literalKeywords
  flags := site.flags.below name
  types := site.types.below name

/-- The site of an array's items. The pass over types goes into lists of schemas only. -/
def item (site : Site) : Site where
  marked := false
  propertyMap := false
  literal := site.literal
  flags := if site.flags = .schema ∨ site.flags = .schemaOrFlag ∨ site.flags = .schemaList then
    .schema else .data
  types := if site.types = .schemaList then .schema else .data

end Site

/-! ## Laws -/

/-- A schema's type is not `any`, and without type and reference it has neither properties nor
items. -/
structure Typed (members : List (String × JsonValue)) : Prop where
  /-- The type says something. -/
  known : ∀ type, Entries.get? "type" members = some type → isAnyType type = false
  /-- What implies a type comes with one. -/
  implied : "type" ∉ Entries.keys members → "$ref" ∉ Entries.keys members →
    "properties" ∉ Entries.keys members ∧ "items" ∉ Entries.keys members

/-- The laws of an object's members after the first passes. -/
structure Lawful (passes : Nat) (site : Site) (members : List (String × JsonValue)) : Prop where
  /-- The names are distinct. -/
  distinct : (Entries.keys members).Nodup
  /-- A property's schema is not marked. -/
  unmarked : 1 ≤ passes → site.marked = true → hasRequiredMark members = false
  /-- There is no constant. -/
  unlisted : 2 ≤ passes → site.literal = false → "const" ∉ Entries.keys members
  /-- A schema is typed. -/
  typed : 4 ≤ passes → site.types = .schema ∨ site.types = .schemaOrFlag → Typed members
  /-- No flag is set. -/
  unflagged : 5 ≤ passes → hasFlag "nullable" members = false ∧ hasFlag "x-nullable" members = false

/-- A value is in the form that the first passes give it: no boolean stands in the place of a
schema after the third, and every object in it is lawful. -/
inductive InForm (passes : Nat) : Site → JsonValue → Prop
  | null {site : Site} : InForm passes site .null
  | bool {site : Site} {flag : Bool} (admitted : 3 ≤ passes → site.flags ≠ .schema) :
    InForm passes site (.bool flag)
  | number {site : Site} {number : Number} : InForm passes site (.number number)
  | string {site : Site} {text : String} : InForm passes site (.string text)
  | array {site : Site} {items : List JsonValue}
      (inner : ∀ item ∈ items, InForm passes site.item item) : InForm passes site (.array items)
  | object {site : Site} {members : List (String × JsonValue)}
      (own : Lawful passes site members)
      (inner : ∀ member ∈ members, InForm passes (site.member member.1) member.2) :
    InForm passes site (.object members)

namespace InForm

variable {passes : Nat} {site : Site} {items : List JsonValue}
variable {members : List (String × JsonValue)}

/-- The items of an array in form are so. -/
theorem of_mem (form : InForm passes site (.array items)) {item : JsonValue}
    (inside : item ∈ items) : InForm passes site.item item := by
  cases form with
  | array inner => exact inner item inside

/-- The members of an object in form are lawful. -/
theorem own (form : InForm passes site (.object members)) : Lawful passes site members := by
  cases form with
  | object own _ => exact own

/-- What an object in form holds is so. -/
theorem of_get? (form : InForm passes site (.object members)) {name : String} {value : JsonValue}
    (found : Entries.get? name members = some value) : InForm passes (site.member name) value := by
  cases form with
  | object _ inner => exact inner (name, value) (Entries.mem_of_get? found)

/-- Before any pass the form says that names are distinct. -/
theorem of_distinct {value : JsonValue} (distinct : value.Distinct) : InForm 0 site value := by
  induction value using JsonValue.induction generalizing site with
  | null => exact .null
  | bool flag => exact .bool (by simp)
  | number number => exact .number
  | string text => exact .string
  | array items ih => exact .array fun item inside => ih item inside (distinct.of_mem inside)
  | object members ih =>
    refine .object ⟨distinct.1, by simp, by simp, by simp, by simp⟩ fun member inside => ?_
    exact ih member inside (distinct.of_get? (Entries.get?_of_mem distinct.1 inside))

/-- A constant that becomes a listed value is data, so it is in form after the pass over constants
too. -/
theorem listed {value : JsonValue} {other : Site} (form : InForm 1 site value)
    (literal : other.literal = true) (marked : other.marked = true → site.marked = true)
    (propertyMap : other.propertyMap = site.propertyMap) : InForm 2 other value := by
  induction form generalizing other with
  | null => exact .null
  | bool => exact .bool (by simp)
  | number => exact .number
  | string => exact .string
  | array inner ih =>
    exact .array fun item inside => ih item inside literal (fun mark => mark) rfl
  | object own inner ih =>
    refine .object ⟨own.distinct, fun _ mark => own.unmarked (by simp) (marked mark),
      by simp [literal], by simp, by simp⟩ fun member inside => ?_
    exact ih member inside (by simp [Site.member, literal])
      (fun mark => propertyMap.symm.trans mark) rfl

end InForm

/-! ## Passes -/

/-- A pass goes into the items of every array and into the members of every object, and then edits
the object. -/
structure Pass where
  /-- What the pass makes of a value. -/
  run : Site → JsonValue → JsonValue
  /-- How it edits an object, by the object's members as they were and as they are rewritten. -/
  edit : Site → List (String × JsonValue) → List (String × JsonValue) → List (String × JsonValue)
  /-- Null stays. -/
  null (site : Site) : run site .null = .null
  /-- Numbers stay. -/
  number (site : Site) (number : Number) : run site (.number number) = .number number
  /-- Texts stay. -/
  string (site : Site) (text : String) : run site (.string text) = .string text
  /-- Items are rewritten. -/
  array (site : Site) (items : List JsonValue) :
    run site (.array items) = .array (items.map (run site.item))
  /-- Members are rewritten and edited. -/
  object (site : Site) (members : List (String × JsonValue)) :
    run site (.object members) = .object (edit site members
      (members.map fun member => (member.1, run (site.member member.1) member.2)))

namespace Pass

/-- An object's members, each rewritten by a pass. -/
def rewritten (pass : Pass) (site : Site) (members : List (String × JsonValue)) :
    List (String × JsonValue) :=
  members.map fun member => (member.1, pass.run (site.member member.1) member.2)

/-- Apart from its edits a pass only rewrites the members of an object. -/
theorem rewrites (pass : Pass) (site : Site) {members : List (String × JsonValue)}
    (distinct : (Entries.keys members).Nodup) :
    Rewrites (fun _ => False) (fun name => pass.run (site.member name)) members
      (pass.rewritten site members) :=
  .of_map (fun name => pass.run (site.member name)) distinct

/-- A pass establishes its law and keeps those of the passes before. -/
structure Establishes (pass : Pass) (before after : Nat) : Prop where
  /-- The members of an object become lawful. -/
  own {site : Site} {members changed : List (String × JsonValue)} :
    Lawful before site members → pass.run site (.object members) = .object changed →
      Lawful after site changed
  /-- What the edit of an object puts in is in form. -/
  inner {site : Site} {members : List (String × JsonValue)} :
    InForm before site (.object members) →
      (∀ name value, Entries.get? name (pass.rewritten site members) = some value →
        InForm after (site.member name) value) →
      ∀ name value, Entries.get? name (pass.edit site members (pass.rewritten site members)) =
        some value → InForm after (site.member name) value
  /-- What it makes of a boolean is in form. -/
  bool {site : Site} {flag : Bool} :
    InForm before site (.bool flag) → InForm after site (pass.run site (.bool flag))

/-- A pass that establishes its law on objects and booleans does so throughout a value. -/
theorem Establishes.inForm_run {pass : Pass} {before after : Nat}
    (establishes : pass.Establishes before after) {site : Site} {value : JsonValue}
    (form : InForm before site value) : InForm after site (pass.run site value) := by
  induction form with
  | null =>
    rw [pass.null]
    exact .null
  | bool admitted => exact establishes.bool (.bool admitted)
  | number =>
    rw [pass.number]
    exact .number
  | string =>
    rw [pass.string]
    exact .string
  | array inner ih =>
    rw [pass.array]
    exact .array (List.forall_mem_map.mpr ih)
  | @object site members own inner ih =>
    -- The members are in form by the induction, before the object itself is edited.
    have lawful := establishes.own own (pass.object site members)
    have each : ∀ member ∈ pass.rewritten site members,
        InForm after (site.member member.1) member.2 := List.forall_mem_map.mpr ih
    have given (name : String) (value : JsonValue)
        (found : Entries.get? name (pass.rewritten site members) = some value) :
        InForm after (site.member name) value := each (name, value) (Entries.mem_of_get? found)
    rw [pass.object]
    refine .object lawful fun member inside => ?_
    exact establishes.inner (.object own inner) given member.1 member.2
      (Entries.get?_of_mem lawful.distinct inside)

/-- A pass that edits no lawful object and no admitted boolean leaves a value in form as it is. -/
theorem run_eq_self {pass : Pass} {passes : Nat}
    (own : ∀ {site members}, Lawful passes site members → pass.edit site members members = members)
    (bool : ∀ {site flag}, InForm passes site (.bool flag) →
      pass.run site (.bool flag) = .bool flag) {site : Site} {value : JsonValue}
    (form : InForm passes site value) : pass.run site value = value := by
  induction form with
  | null => exact pass.null _
  | bool admitted => exact bool (.bool admitted)
  | number => exact pass.number _ _
  | string => exact pass.string _ _
  | array inner ih => rw [pass.array, List.map_congr_left (g := id) ih, List.map_id]
  | @object site members lawful inner ih =>
    have same : (members.map fun member =>
        (member.1, pass.run (site.member member.1) member.2)) = members :=
      map_eq_self (fun name => pass.run (site.member name)) ih
    rw [pass.object, same, own lawful]

end Pass

end Raml.Schema
