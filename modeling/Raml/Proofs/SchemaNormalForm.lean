import Raml.Proofs.SchemaLaw

/-!
# Normal forms of schemas

The laws of the passes say what a normal form looks like. A value that obeys them is left as it is
by every pass, so normalization is done after one run, and at every schema that the projection
reaches they give the shape that it expects.
-/
namespace Raml.Schema

open JsonValue

variable {site : Site} {value : JsonValue} {members : List (String × JsonValue)}

/-! ## Values in normal form stay -/

namespace InForm

/-- What a value in form holds under a name is so. -/
theorem get? {passes : Nat} (form : InForm passes site value) {name : String} {held : JsonValue}
    (found : value.get? name = some held) : InForm passes (site.member name) held := by
  cases value with
  | object members => exact form.of_get? found
  | _ => contradiction

/-- Names are distinct in a value in form. -/
theorem distinct {passes : Nat} (form : InForm passes site value) : value.Distinct := by
  induction form with
  | array _ ih => exact distinctItems_iff.mpr ih
  | object own _ ih => exact ⟨own.distinct, distinctMembers_iff.mpr ih⟩
  | _ => trivial

/-- A value in the form of all passes has no marks in it. -/
theorem freeOfMarks (form : InForm 5 site value) :
    FreeOfMarks site.marked site.propertyMap value := by
  induction form with
  | array _ ih => exact freeOfMarksItems_iff.mpr ih
  | object own _ ih =>
    obtain ⟨nullable, extension⟩ := own.unflagged (by simp)
    exact ⟨own.unmarked (by simp), nullable, extension, freeOfMarksMembers_iff.mpr ih⟩
  | _ => trivial

/-- The pass over constants finds none. -/
theorem run_constantPass (form : InForm 5 site value) : constantPass.run site value = value := by
  refine Pass.run_eq_self (fun {site members} lawful => ?_) (fun {site flag} _ => ?_) form
  · rw [constantPass_edit]
    split
    · rfl
    · rename_i listed
      rw [Entries.get?_eq_none.mpr (lawful.unlisted (by simp) (Bool.not_eq_true _ ▸ listed))]
  · cases literal : site.literal <;> simp [constantPass, listConstantsUnless, listConstants]

/-- The pass over booleans finds none in the place of a schema. -/
theorem run_flagPass (form : InForm 5 site value) : flagPass.run site value = value := by
  refine Pass.run_eq_self (fun _ => rfl) (fun {site flag} form => ?_) form
  cases form with
  | bool admitted => exact if_neg (admitted (by simp))

/-- The pass over types finds every schema typed. -/
theorem run_typePass (form : InForm 5 site value) : typePass.run site value = value := by
  refine Pass.run_eq_self (fun {site members} lawful => ?_) (fun _ => rfl) form
  rw [typePass_edit]
  split
  · rename_i schema
    exact (lawful.typed (by simp) schema).inferType_dropAnyType
  · rfl

end InForm

/-- A value is in normal form exactly when normalization leaves it as it is. -/
theorem normalize_eq_self_iff (distinct : value.Distinct) :
    normalize value = value ↔ InForm 5 .root value := by
  refine ⟨fun same => same ▸ inForm_normalize distinct, fun form => ?_⟩
  have free := form.freeOfMarks
  have required : listRequired false false value = value := listRequired_of_free free
  have constant : listConstants value = value := form.run_constantPass
  have flag : replaceFlags .schema value = value := form.run_flagPass
  have type : inferTypes .schema value = value := form.run_typePass
  rw [normalize, required, constant, flag, type, admitNulls_of_free free]

/-- Normalization is done after one run: a normal form stays as it is, the order of its members
included. -/
theorem normalize_normalize (distinct : value.Distinct) :
    normalize (normalize value) = normalize value := by
  have form := inForm_normalize distinct
  exact (normalize_eq_self_iff form.distinct).mpr form

/-- A schema with something for every pass, and with a property called `required`. -/
def layeredSchema : JsonValue :=
  .object [("properties", .object
      [("required", .bool true),
        ("a", .object [("required", .bool true), ("nullable", .bool true), ("type", .string "any"),
          ("items", .bool false)]),
        ("b", .object [("const", .array []), ("x-nullable", .bool true),
          ("properties", .object [("properties", .object [("required", .bool false)])])])]),
    ("additionalProperties", .bool true)]

/-- The sample is no normal form, and its normal form stays. -/
theorem normalize_normalize_sample :
    layeredSchema.Distinct ∧ normalize layeredSchema ≠ layeredSchema ∧
      normalize (normalize layeredSchema) = normalize layeredSchema := by
  have distinct : layeredSchema.Distinct := by
    simp [layeredSchema, Distinct, DistinctMembers, DistinctItems]
  exact ⟨distinct, by decide +kernel, normalize_normalize distinct⟩

/-! ## The shape of normal forms -/

/-- Whether a step leads from an object. -/
def Step.FromObject : Step → Prop
  | .element _ => False
  | _ => True

/-- The shape of a schema that the projection expects. -/
structure InShape (members : List (String × JsonValue)) : Prop where
  /-- No boolean stands in the place of a schema in it, but under `additionalProperties`, where a
  boolean is no schema, one may stand. -/
  schemas : ∀ step next, Step.FromObject step → step.follow? (.object members) = some next →
    next.bool? = none
  /-- Its type says something, and what implies a type comes with one. -/
  typed : Typed members
  /-- It has no flag. -/
  unflagged : hasFlag "nullable" members = false ∧ hasFlag "x-nullable" members = false
  /-- None of its properties is marked as required. -/
  unmarked : ∀ properties name own, Entries.get? "properties" members = some (.object properties) →
    Entries.get? name properties = some (.object own) → hasRequiredMark own = false

/-- Whether both passes over schemas take what stands at a site for one. -/
def Site.HoldsSchema (site : Site) : Prop :=
  (site.flags = .schema ∨ site.flags = .schemaOrFlag) ∧ site.types = site.flags

/-- Below a schema both passes take what stands under a keyword for the same. -/
theorem Site.HoldsSchema.member (holds : site.HoldsSchema) (keyword : String) :
    (site.member keyword).flags = .ofKeyword keyword ∧
      (site.member keyword).types = .ofKeyword keyword := by
  obtain ⟨schema | schema, same⟩ := holds <;> simp [Site.member, Position.below, same, schema]

/-- A step from a schema in form leads to one, which is no boolean. -/
theorem InForm.follow? (form : InForm 5 site value) (holds : site.HoldsSchema) {step : Step}
    (object : step.FromObject) {next : JsonValue} (found : step.follow? value = some next) :
    next.bool? = none ∧ ∃ inner : Site, inner.HoldsSchema ∧ InForm 5 inner next := by
  have noFlag {inner : Site} {next : JsonValue} (form : InForm 5 inner next)
      (schema : inner.flags = .schema) : next.bool? = none := by
    cases form with
    | bool admitted => exact absurd schema (admitted (by simp))
    | _ => rfl
  cases step with
  | member keyword name =>
    obtain ⟨map, members, under, inner⟩ := Step.follow?_member_iff.mp found
    obtain ⟨flags, types⟩ := holds.member keyword
    have held := (form.get? under).of_get? inner
    have schema : ((site.member keyword).member name).flags = .schema := by
      rw [Site.member, flags, map]
      rfl
    refine ⟨noFlag held schema, _, ⟨.inl schema, ?_⟩, held⟩
    rw [schema, Site.member, types, map]
    rfl
  | item keyword index =>
    obtain ⟨list, items, under, inner⟩ := Step.follow?_item_iff.mp found
    obtain ⟨flags, types⟩ := holds.member keyword
    have held := (form.get? under).of_mem (List.mem_of_getElem? inner)
    have schema : (site.member keyword).item.flags = .schema := by simp [Site.item, flags, list]
    refine ⟨noFlag held schema, _, ⟨.inl schema, ?_⟩, held⟩
    rw [schema, Site.item, types, list]
    rfl
  | child keyword =>
    obtain ⟨under, position⟩ := Step.follow?_child_iff.mp found
    obtain ⟨flags, types⟩ := holds.member keyword
    have held := form.get? under
    refine ⟨?_, site.member keyword, ⟨?_, types.trans flags.symm⟩, held⟩
    · rcases position with schema | ⟨-, other⟩
      · exact noFlag held (flags.trans schema)
      · exact other
    · exact position.imp flags.trans fun both => flags.trans both.1
  | element index => exact absurd object id

/-- A path of steps from schemas in form leads to one. -/
theorem InForm.follow?_path (form : InForm 5 site value) (holds : site.HoldsSchema)
    {path : List Step} (objects : ∀ step ∈ path, step.FromObject) {place : JsonValue}
    (led : Schema.follow? path value = some place) :
    ∃ inner : Site, inner.HoldsSchema ∧ InForm 5 inner place := by
  induction path generalizing site value with
  | nil =>
    cases led
    exact ⟨site, holds, form⟩
  | cons step rest ih =>
    rw [List.forall_mem_cons] at objects
    obtain ⟨next, found, onward⟩ := Option.bind_eq_some_iff.mp led
    obtain ⟨-, inner, held, formed⟩ := form.follow? holds objects.1 found
    exact ih formed held objects.2 onward

/-- Every object in form in the place of a schema has the shape that the projection expects. -/
theorem InForm.inShape (form : InForm 5 site (.object members)) (holds : site.HoldsSchema) :
    InShape members where
  schemas _ _ object found := (form.follow? holds object found).1
  typed := by
    obtain ⟨schema, same⟩ := holds
    exact form.own.typed (by simp) (by rwa [same])
  unflagged := form.own.unflagged (by simp)
  unmarked properties name own under inner :=
    ((form.of_get? under).of_get? inner).own.unmarked (by simp) rfl

/-- Every object in the place of a schema of a normal form has the shape that the projection
expects: the whole schema, and what steps through objects lead to. -/
theorem inShape_of_follow? {schema : JsonValue} {path : List Step}
    (distinct : schema.Distinct) (objects : ∀ step ∈ path, step.FromObject)
    (led : follow? path (normalize schema) = some (.object members)) : InShape members := by
  have root : Site.root.HoldsSchema := ⟨.inl rfl, rfl⟩
  obtain ⟨site, holds, form⟩ := (inForm_normalize distinct).follow?_path root objects led
  exact form.inShape holds

/-- What the sample holds at a property. -/
theorem inShape_of_follow?_sample :
    layeredSchema.Distinct ∧
      follow? [.member "properties" "a"] (normalize layeredSchema) = some (.object
        [("items", .object [("type", .string "object"), ("additionalProperties", .bool false),
            ("required", .array [.string "__never__"])]),
          ("type", .array [.string "array", .string "null"])]) ∧
      InShape
        [("items", .object [("type", .string "object"), ("additionalProperties", .bool false),
            ("required", .array [.string "__never__"])]),
          ("type", .array [.string "array", .string "null"])] := by
  have distinct : layeredSchema.Distinct := by
    simp [layeredSchema, Distinct, DistinctMembers, DistinctItems]
  have led : follow? [.member "properties" "a"] (normalize layeredSchema) = some (.object
      [("items", .object [("type", .string "object"), ("additionalProperties", .bool false),
          ("required", .array [.string "__never__"])]),
        ("type", .array [.string "array", .string "null"])]) := by decide +kernel
  exact ⟨distinct, led, inShape_of_follow? distinct (by simp [Step.FromObject]) led⟩

end Raml.Schema
