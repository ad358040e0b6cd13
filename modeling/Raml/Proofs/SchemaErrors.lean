import Raml.Error
import Raml.Proofs.PropertyNames

/-!
# Schemas that cannot be read

Reading the properties of a schema fails when a schema of its tree has something else than an object
under `properties`, or there an entry that is no schema. Entries are read in normal form, so three
things count besides: a short list of texts is read as a reference, the entry `const` is taken for a
constant, and names that properties mark are listed among the entries.
-/
namespace Raml.Schema

open JsonValue

/-! ## Entries that are read -/

/-- Whether items are one to three texts, which are read as a reference. -/
def AreReference (items : List JsonValue) : Prop :=
  items ≠ [] ∧ items.length ≤ 3 ∧ ∀ item ∈ items, item.string?.isSome

/-- Whether an entry is read as the schema of a property. -/
def Readable : JsonValue → Prop
  | .object _ => True
  | .bool _ => True
  | .array items => AreReference items
  | _ => False

/-- The items of a reference. -/
theorem isSome_ofItems?_iff {items : List JsonValue} :
    (Reference.ofItems? items).isSome ↔ AreReference items := by
  have text {item : JsonValue} (given : item.string?.isSome) : ∃ text, item = .string text := by
    cases item with
    | string text => exact ⟨text, rfl⟩
    | _ => contradiction
  constructor
  · intro read
    rw [Reference.ofItems?.eq_def] at read
    split at read
    · simp [AreReference, string?]
    · simp [AreReference, string?]
    · simp [AreReference, string?]
    · contradiction
  · rintro ⟨some, short, texts⟩
    rcases items with _ | ⟨first, _ | ⟨second, _ | ⟨third, _ | ⟨_, _⟩⟩⟩⟩
    · contradiction
    · obtain ⟨_, rfl⟩ := text (texts first (by simp))
      rfl
    · obtain ⟨_, rfl⟩ := text (texts first (by simp))
      obtain ⟨_, rfl⟩ := text (texts second (by simp))
      rfl
    · obtain ⟨_, rfl⟩ := text (texts first (by simp))
      obtain ⟨_, rfl⟩ := text (texts second (by simp))
      obtain ⟨_, rfl⟩ := text (texts third (by simp))
      rfl
    · simp only [List.length_cons] at short
      omega

/-- The schema of a property is read unless it is unreadable, or a boolean that no pass replaced. -/
theorem propertyFacets_error_iff {name : String} {schema : JsonValue} {failure : SchemaError} :
    propertyFacets name schema = .error failure ↔
      ¬(Readable schema ∧ schema.bool? = none) ∧ failure = .property name schema := by
  cases schema with
  | object members =>
    have read : ∃ facets, propertyFacets name (.object members) = .ok facets := by
      unfold propertyFacets
      split <;> exact ⟨_, rfl⟩
    obtain ⟨facets, read⟩ := read
    simp [read, Readable, bool?]
  | array items =>
    have listed : (Reference.ofItems? items).isSome ↔ AreReference items := isSome_ofItems?_iff
    cases given : Reference.ofItems? items with
    | some reference =>
      have short : AreReference items := listed.mp (by simp [given])
      simp [propertyFacets, model?, Reference.ofJson?, given, Readable, short, bool?]
    | none =>
      have long : ¬AreReference items := fun short => by simpa [given] using listed.mpr short
      simp [propertyFacets, model?, Reference.ofJson?, given, readNested, Nested.admitsReference,
        Readable, long, eq_comm]
  | _ =>
    simp [propertyFacets, model?, Reference.ofJson?, readNested, Nested.admitsNull,
      Nested.admitsFlag, Readable, bool?, eq_comm]

/-! ## Reading one after another -/

/-- A pass reads the elements of a list one after another and joins what it reads. -/
structure Traverses {α β γ : Type} (pass : List α → Except SchemaError β)
    (read : α → Except SchemaError γ) (empty : β) (join : α → γ → β → β) : Prop where
  /-- Nothing is read from the empty list. -/
  nil : pass [] = .ok empty
  /-- The first element is read before the others. -/
  cons : ∀ first rest, pass (first :: rest) = do
    let value ← read first
    let others ← pass rest
    return join first value others

namespace Traverses

variable {α β γ : Type} {pass : List α → Except SchemaError β} {read : α → Except SchemaError γ}
variable {empty : β} {join : α → γ → β → β} {list : List α}

/-- A pass succeeds only when each element is read. -/
theorem exists_ok (traverses : Traverses pass read empty join) {result : β}
    (succeeded : pass list = .ok result) {element : α} (inside : element ∈ list) :
    ∃ value, read element = .ok value := by
  induction list generalizing result with
  | nil => contradiction
  | cons first rest ih =>
    rw [traverses.cons] at succeeded
    obtain ⟨value, here, succeeded⟩ := bind_eq_ok.mp succeeded
    obtain ⟨others, later, -⟩ := bind_eq_ok.mp succeeded
    rcases List.mem_cons.mp inside with rfl | below
    · exact ⟨value, here⟩
    · exact ih later below

/-- A pass fails only with the error of an element. -/
theorem exists_error (traverses : Traverses pass read empty join) {failure : SchemaError}
    (failed : pass list = .error failure) : ∃ element ∈ list, read element = .error failure := by
  induction list with
  | nil =>
    rw [traverses.nil] at failed
    contradiction
  | cons first rest ih =>
    rw [traverses.cons] at failed
    cases here : read first with
    | error cause =>
      rw [here] at failed
      cases failed
      exact ⟨first, List.mem_cons_self, here⟩
    | ok value =>
      rw [here] at failed
      cases later : pass rest with
      | error cause =>
        rw [later] at failed
        cases failed
        obtain ⟨element, inside, same⟩ := ih later
        exact ⟨element, List.mem_cons_of_mem _ inside, same⟩
      | ok others =>
        rw [later] at failed
        contradiction

/-- A pass fails exactly when an element is not read. -/
theorem fails_iff (traverses : Traverses pass read empty join) :
    (∃ failure, pass list = .error failure) ↔
      ∃ element ∈ list, ∃ failure, read element = .error failure := by
  constructor
  · rintro ⟨failure, failed⟩
    obtain ⟨element, inside, same⟩ := traverses.exists_error failed
    exact ⟨element, inside, failure, same⟩
  · rintro ⟨element, inside, failure, failed⟩
    cases result : pass list with
    | error cause => exact ⟨cause, rfl⟩
    | ok others =>
      obtain ⟨value, same⟩ := traverses.exists_ok result inside
      rw [failed] at same
      contradiction

end Traverses

/-- Properties are projected one after another. -/
theorem traverses_projectAll (required : List String) :
    Traverses (projectAll required) (fun property => project required property.1 property.2) []
      fun property value others => (property.1, value) :: others :=
  ⟨rfl, fun _ _ => rfl⟩

/-- Declarations are gathered from one schema after another. -/
theorem traverses_gather : Traverses gather ownDeclarations [] fun _ own others => own ++ others :=
  ⟨rfl, fun _ _ => rfl⟩

/-- A property is projected unless its schema is not read. -/
theorem project_error_iff {required : List String} {name : String} {schema : JsonValue}
    {failure : SchemaError} : project required name schema = .error failure ↔
      ¬(Readable schema ∧ schema.bool? = none) ∧ failure = .property name schema := by
  rw [← propertyFacets_error_iff, project]
  cases propertyFacets name schema with
  | error cause => simp [Except.map]
  | ok facets => simp [Except.map]

/-- A schema has something else than null under `properties`, and no object with admitted
entries. -/
def Rejects (admits : List (String × JsonValue) → Prop) (schema : JsonValue) : Prop :=
  ∃ held, schema.get? "properties" = some held ∧ held ≠ .null ∧
    ∀ properties, held = .object properties → ¬admits properties

/-- Every entry is read, and no boolean is left. -/
def AllRead (properties : List (String × JsonValue)) : Prop :=
  ∀ property ∈ properties, Readable property.2 ∧ property.2.bool? = none

/-- A schema gives no declarations exactly when its properties are neither an object nor null, or
when one of them is not read. -/
theorem ownDeclarations_fails_iff {schema : JsonValue} :
    (∃ failure, ownDeclarations schema = .error failure) ↔ Rejects AllRead schema := by
  cases schema with
  | object members =>
    rw [ownDeclarations, ownProperties, Rejects, get?]
    cases Entries.get? "properties" members with
    | none => simp
    | some held =>
      cases held with
      | null => simp
      | object properties =>
        have failing : (∃ failure, projectAll (requiredList members) properties = .error failure) ↔
            _ := (traverses_projectAll _).fails_iff
        simp [failing, project_error_iff, AllRead]
      | _ => exact iff_of_true ⟨_, rfl⟩ ⟨_, rfl, by simp, by simp⟩
  | _ => simp [ownDeclarations, Rejects, get?]

/-- What is wrong with a schema is said of its properties or of a property that is no object. -/
theorem cause_of_ownDeclarations {schema : JsonValue} {failure : SchemaError}
    (failed : ownDeclarations schema = .error failure) : failure = .properties ∨
      ∃ name found, failure = .property name found ∧ found.members? = none := by
  cases schema with
  | object members =>
    rw [ownDeclarations, ownProperties] at failed
    split at failed
    · contradiction
    · contradiction
    · obtain ⟨⟨name, found⟩, -, failed⟩ := (traverses_projectAll _).exists_error failed
      obtain ⟨unread, same⟩ := project_error_iff.mp failed
      refine .inr ⟨name, found, same, ?_⟩
      cases found with
      | object own => exact absurd ⟨trivial, rfl⟩ unread
      | _ => rfl
    · exact .inl (Except.error.inj failed).symm
  | _ => contradiction

/-! ## Entries in normal form -/

/-- Passes that keep texts and go into arrays keep what is read as a reference. -/
theorem areReference_map {change : JsonValue → JsonValue}
    (texts : ∀ value, (change value).string? = value.string?) {items : List JsonValue} :
    AreReference (items.map change) ↔ AreReference items := by
  simp [AreReference, texts]

/-- Moving marks of required properties changes nothing about what can be read. -/
theorem readable_listRequired (marked propertyMap : Bool) (value : JsonValue) :
    Readable (listRequired marked propertyMap value) ↔ Readable value := by
  cases value with
  | array items =>
    rw [listRequired, listRequiredItems_eq]
    exact areReference_map (string?_listRequired false false)
  | _ => rfl

/-- Listing constants changes nothing about what can be read. -/
theorem readable_listConstantsUnder (name : String) (value : JsonValue) :
    Readable (listConstantsUnder name value) ↔ Readable value := by
  unfold listConstantsUnder
  split
  · rfl
  · cases value with
    | array items =>
      rw [listConstants, listConstantsItems_eq]
      exact areReference_map string?_listConstants
    | _ => rfl

/-- In the place of a schema the last three passes change nothing about what can be read. -/
theorem readable_finishIn (value : JsonValue) :
    Readable (finishIn true .schema value) ↔ Readable value := by
  have texts (value : JsonValue) : (finishIn false .schema value).string? = value.string? := by
    cases value with
    | bool flag => cases flag <;> rfl
    | _ => rfl
  cases value with
  | bool flag => cases flag <;> exact iff_of_true trivial trivial
  | array items =>
    rw [finishIn_array]
    exact areReference_map texts
  | _ => rfl

/-- Whether what stands under a name can be read. -/
def ReadableAt (members : List (String × JsonValue)) (name : String) : Prop :=
  ∀ value, Entries.get? name members = some value → Readable value

/-- Whether the entries other than `const` can be read, and a constant leaves such entries: what is
listed for it, unless values are listed, and its type, unless a type is given. -/
def ReadableWithConstant (members : List (String × JsonValue)) : Prop :=
  (∀ name, name ≠ "const" → ReadableAt members name) ∧
    ∀ constant, Entries.get? "const" members = some constant →
      ("enum" ∈ Entries.keys members ∨ constant.string?.isSome) ∧
        ("type" ∈ Entries.keys members ∨ constant = .null)

/-- Whether the entries of a map of properties are read in normal form. Names that they mark are
listed among them. -/
def Projectable (properties : List (String × JsonValue)) : Prop :=
  ReadableWithConstant (addRequired (requiredNames true properties) properties)

section Members

variable {members : List (String × JsonValue)}

/-- A change of each member that keeps what can be read keeps where it stands. -/
theorem readableAt_map {change : String → JsonValue → JsonValue}
    (same : ∀ name value, Readable (change name value) ↔ Readable value) (name : String) :
    ReadableAt (members.map fun member => (member.1, change member.1 member.2)) name ↔
      ReadableAt members name := by
  rw [ReadableAt, Entries.get?_map change]
  simp [ReadableAt, same]

/-- A missing member can be read with the others when it is added. -/
theorem readable_addMissing {name : String} {value : JsonValue} :
    (∀ other, ReadableAt (addMissing name value members) other) ↔
      (∀ other, ReadableAt members other) ∧ (name ∈ Entries.keys members ∨ Readable value) := by
  unfold addMissing
  by_cases present : name ∈ Entries.keys members
  · rw [if_pos (Entries.contains_iff.mpr present)]
    simp [present]
  · rw [if_neg (mt Entries.contains_iff.mp present), ← Entries.insert_of_not_mem value present]
    have written (other : String) : ReadableAt (Entries.insert name value members) other ↔
        if other = name then Readable value else ReadableAt members other := by
      rw [ReadableAt, Entries.get?_insert]
      split
      · simp
      · rfl
    have missing : ReadableAt members name := by
      intro found given
      rw [Entries.get?_eq_none.mpr present] at given
      contradiction
    simp only [written, present, false_or]
    constructor
    · intro all
      refine ⟨fun other => ?_, by simpa using all name⟩
      by_cases here : other = name
      · exact here ▸ missing
      · simpa [here] using all other
    · rintro ⟨all, added⟩ other
      split
      · exact added
      · exact all other

/-- Listing a constant leaves readable members exactly when the others are and so is what is added
for the constant. -/
theorem readable_listConstant {constant : JsonValue} (distinct : (Entries.keys members).Nodup) :
    (∀ name, ReadableAt (listConstant constant members) name) ↔
      (∀ name, name ≠ "const" → ReadableAt members name) ∧
        ("enum" ∈ Entries.keys members ∨ constant.string?.isSome) ∧
        ("type" ∈ Entries.keys members ∨ constant = .null) := by
  have erased : Edits (· = "const") members (Entries.swapErase "const" members) :=
    .swapErase distinct
  have others (name : String) : ReadableAt (Entries.swapErase "const" members) name ↔
      (name ≠ "const" → ReadableAt members name) := by
    rw [ReadableAt, Entries.get?_swapErase distinct]
    by_cases here : name = "const" <;> simp [here, ReadableAt]
  have single : Readable (.array [constant]) ↔ constant.string?.isSome := by
    simp [Readable, AreReference]
  have valued := edits_addMissing "enum" (.array [constant]) erased.distinct
  have listed : "enum" ∈ Entries.keys (Entries.swapErase "const" members) ↔
      "enum" ∈ Entries.keys members := erased.mem_keys_iff (by decide)
  have typed : "type" ∈ Entries.keys (addMissing "enum" (.array [constant])
      (Entries.swapErase "const" members)) ↔ "type" ∈ Entries.keys members :=
    (valued.mem_keys_iff (by simp)).trans (erased.mem_keys_iff (by decide))
  unfold listConstant
  cases type : typeOfConstant constant with
  | none =>
    have null : constant = .null := by
      cases constant with
      | null => rfl
      | number number => cases number <;> contradiction
      | _ => contradiction
    subst null
    simp only [readable_addMissing, others, listed, single, or_true, and_true]
  | some name =>
    have given : constant ≠ .null := by
      rintro rfl
      contradiction
    have unread : ¬Readable (.string name) := id
    simp only [readable_addMissing, others, listed, single, typed, given, unread, or_false,
      and_assoc]

/-- Listing the constant of a map leaves readable members exactly when its members are readable with
the constant. -/
theorem readable_listConstants {after : List (String × JsonValue)}
    (distinct : (Entries.keys members).Nodup)
    (same : listConstants (.object members) = .object after) :
    (∀ name, ReadableAt after name) ↔ ReadableWithConstant members := by
  have mapped := Rewrites.of_map listConstantsUnder distinct
  have others (name : String) : ReadableAt _ name ↔ ReadableAt members name :=
    readableAt_map readable_listConstantsUnder name
  rw [listConstants, listConstantsMembers_eq] at same
  rw [← JsonValue.object.inj same, ReadableWithConstant]
  cases found : Entries.get? "const" members with
  | none =>
    have missing : ReadableAt members "const" := by simp [ReadableAt, found]
    simp only [others, reduceCtorEq, false_imp_iff, implies_true, and_true]
    refine ⟨fun all name _ => all name, fun all name => ?_⟩
    by_cases here : name = "const"
    · exact here ▸ missing
    · exact all name here
  | some constant =>
    rw [readable_listConstant mapped.distinct, mapped.mem_keys_iff id, mapped.mem_keys_iff id]
    simp only [others, Option.some.injEq, forall_eq']

/-- Moving marks inside members changes nothing about what can be read. -/
theorem readableWithConstant_listRequired (distinct : (Entries.keys members).Nodup)
    (propertyMap : Bool) :
    ReadableWithConstant (listRequiredMembers propertyMap members) ↔
      ReadableWithConstant members := by
  have mapped := Rewrites.of_map
    (fun name => listRequired propertyMap (name = "properties")) distinct
  have others (name : String) : ReadableAt _ name ↔ ReadableAt members name :=
    readableAt_map (fun name => readable_listRequired propertyMap (name = "properties")) name
  have null (inner : Bool) (value : JsonValue) :
      listRequired propertyMap inner value = .null ↔ value = .null := by
    cases value <;> simp [listRequired]
  rw [listRequiredMembers_eq, ReadableWithConstant, ReadableWithConstant, mapped.mem_keys_iff id,
    mapped.mem_keys_iff id, mapped.lookup _ id]
  simp [others, string?_listRequired, null]

/-- The last passes make every entry readable that can be read, and leave no boolean. -/
theorem allRead_finishIn {named after : List (String × JsonValue)}
    (distinct : (Entries.keys named).Nodup)
    (finishing : finishIn true .schemaMap (.object named) = .object after) :
    AllRead after ↔ ∀ name, ReadableAt named name := by
  obtain ⟨_, same, mapped⟩ := rewrites_finishIn_map true distinct
  cases finishing.symm.trans same
  constructor
  · intro all name value given
    have moved := mapped.lookup name id
    rw [given, Option.map_some] at moved
    exact (readable_finishIn value).mp (all (name, _) (Entries.mem_of_get? moved)).1
  · rintro all ⟨name, value⟩ inside
    have moved := mapped.lookup name id
    rw [Entries.get?_of_mem mapped.distinct inside, eq_comm, Option.map_eq_some_iff] at moved
    obtain ⟨earlier, given, rfl⟩ := moved
    have replaced : (finishIn true .schema earlier).bool? = none := by
      rw [finishIn, bool?_admitNulls, bool?_inferTypesIf, bool?_replaceFlags]
    exact ⟨(readable_finishIn earlier).mpr (all name earlier given), replaced⟩

/-- A map of properties is projected exactly when its normal form is read. -/
theorem allRead_iff {after : List (String × JsonValue)} (distinct : (Entries.keys members).Nodup)
    (same : normalizeIn .root .schemaMap true (.object members) = .object after) :
    AllRead after ↔ Projectable members := by
  have added := (edits_addRequired (requiredNames true members) distinct).distinct
  have apart : (Entries.keys (listRequiredMembers true
      (addRequired (requiredNames true members) members))).Nodup := by
    rw [listRequiredMembers_eq]
    exact (Rewrites.of_map (fun name => listRequired true (name = "properties")) added).distinct
  obtain ⟨named, naming, second, -⟩ := rewrites_listConstants apart
  have finishing : finishIn true .schemaMap (.object named) = .object after := by
    rw [normalizeIn_eq, Context.root, listRequired_unmarked, listConstantsUnless,
      if_neg Bool.false_ne_true, naming] at same
    exact same
  rw [allRead_finishIn second.distinct finishing, readable_listConstants apart naming,
    readableWithConstant_listRequired added, Projectable]

end Members

/-- A schema in normal form gives no declarations exactly when its properties are neither an object
nor null, or when they cannot be projected. -/
theorem rejects_normalize_iff {schema : JsonValue} (distinct : schema.Distinct) :
    Rejects AllRead (normalize schema) ↔ Rejects Projectable schema := by
  rw [Rejects, Rejects, get?_normalize distinct (by decide)]
  cases given : schema.get? "properties" with
  | none => simp
  | some held =>
    have position : Position.ofKeyword "properties" = .schemaMap := by decide
    rw [position, Option.map_some]
    cases held with
    | object properties =>
      have apart := (distinct.get? given).1
      obtain ⟨after, same, -⟩ := exists_normalMap false true true apart
      have read : AllRead after ↔ Projectable properties := allRead_iff apart same
      have moved : normalizeIn .root .schemaMap true (.object properties) = .object after := same
      simp [moved, read]
    | null => simp [normalizeIn, listRequired, listConstantsUnless, Context.root, listConstants,
        replaceFlags, inferTypesIf, inferTypes, admitNulls]
    | _ => exact iff_of_true ⟨_, rfl, by rintro ⟨⟩, by rintro _ ⟨⟩⟩ ⟨_, rfl, by simp, by simp⟩

/-! ## Texts that cannot be read -/

/-- Whether every entry is a schema, an object or a boolean. -/
def AllSchemas (properties : List (String × JsonValue)) : Prop :=
  ∀ name value, Entries.get? name properties = some value →
    value.members?.isSome ∨ value.bool?.isSome

/-- Whether no entry is taken for anything else than what it is: none is called `const`, none is a
list that is read as a reference, and no names are listed among them. -/
def Unmistaken (properties : List (String × JsonValue)) : Prop :=
  "const" ∉ Entries.keys properties ∧ requiredNames true properties = [] ∧
    ∀ name items, Entries.get? name properties = some (.array items) → ¬AreReference items

/-- Entries that are not mistaken are projected exactly when they are schemas. -/
theorem projectable_iff {properties : List (String × JsonValue)}
    (unmistaken : Unmistaken properties) : Projectable properties ↔ AllSchemas properties := by
  obtain ⟨unlisted, unnamed, long⟩ := unmistaken
  have missing := Entries.get?_eq_none.mpr unlisted
  have readable (name : String) (value : JsonValue)
      (given : Entries.get? name properties = some value) :
      Readable value ↔ value.members?.isSome ∨ value.bool?.isSome := by
    cases value with
    | array items => exact iff_of_false (long name items given) (by simp [members?, bool?])
    | _ => simp [Readable, members?, bool?]
  have same : addRequired [] properties = properties := rfl
  rw [Projectable, unnamed, same, ReadableWithConstant, missing]
  constructor
  · rintro ⟨others, -⟩ name value given
    have apart : name ≠ "const" := by
      rintro rfl
      rw [missing] at given
      contradiction
    exact (readable name value given).mp (others name apart value given)
  · intro schemas
    exact ⟨fun name _ value given => (readable name value given).mpr (schemas name value given),
      by simp⟩

/-- The properties of a schema cannot be read exactly when those of a schema on its walk cannot. -/
theorem propertiesOf_fails_iff {schema : JsonValue} :
    (∃ failure, propertiesOf schema = .error failure) ↔
      ∃ member ∈ walk schema, Rejects AllRead member := by
  simp only [← ownDeclarations_fails_iff, ← traverses_gather.fails_iff, propertiesOf,
    declarations_eq]
  cases gather (walk schema) with
  | error failure => simp [Except.map]
  | ok listed => simp [Except.map]

/-- What is wrong with a schema is said of properties or of a property that is no object. -/
theorem cause_of_propertiesOf {schema : JsonValue} {failure : SchemaError}
    (failed : propertiesOf schema = .error failure) : failure = .properties ∨
      ∃ name found, failure = .property name found ∧ found.members? = none := by
  rw [propertiesOf, declarations_eq] at failed
  cases gathered : gather (walk schema) with
  | error cause =>
    rw [gathered] at failed
    cases failed
    obtain ⟨member, -, own⟩ := traverses_gather.exists_error gathered
    exact cause_of_ownDeclarations own
  | ok listed =>
    rw [gathered] at failed
    contradiction

/-- An error that names a property says so after the words for schemas. -/
theorem exists_message_property (name : String) (found : JsonValue) :
    ∃ detail, (Error.decode (.schema (.property name found))).message =
      "Decode Error: Failed to parse JSON Schema: " ++ detail := by
  have opening : "Decode Error: " ++ "Failed to parse JSON Schema: property '" =
      "Decode Error: Failed to parse JSON Schema: " ++ "property '" := by decide +kernel
  have joined (first second start middle third last : String)
      (same : first ++ second = start ++ middle) :
      ∃ detail, first ++ (second ++ name ++ third ++ last) = start ++ detail :=
    ⟨middle ++ name ++ third ++ last, by simp only [← String.append_assoc, same]⟩
  exact joined _ _ _ _ _ _ opening

/-- A text that is JSON cannot be read exactly when a schema of its tree has properties that are
neither an object nor null, or that cannot be projected. Where no property is mistaken for anything
else this is the case exactly when one of them is no schema. Every failure is a decode error that
says what is wrong with the schema. -/
theorem properties_fail_iff {text : String} {schema : JsonValue}
    (read : JsonValue.ofText? (String.ofList (Text.trim text.toList)) = some schema) :
    ((∃ failure, Schema.properties text = .error failure) ↔
      ∃ member, InAllOf schema member ∧ Rejects Projectable member) ∧
    ((∀ member properties, InAllOf schema member →
        member.get? "properties" = some (.object properties) → Unmistaken properties) →
      ((∃ failure, Schema.properties text = .error failure) ↔
        ∃ member, InAllOf schema member ∧ Rejects AllSchemas member)) ∧
    ∀ failure, Schema.properties text = .error failure →
      (failure = .properties ∨
        ∃ name found, failure = .property name found ∧ found.members? = none) ∧
      ∃ detail, (Error.decode (.schema failure)).message =
        "Decode Error: Failed to parse JSON Schema: " ++ detail := by
  have distinct := JsonValue.distinct_of_ofText? read
  have exact : (∃ failure, Schema.properties text = .error failure) ↔
      ∃ member, InAllOf schema member ∧ Rejects Projectable member := by
    have rejected {member : JsonValue} (within : InAllOf schema member) :
        Rejects AllRead (normalize member) ↔ Rejects Projectable member :=
      rejects_normalize_iff (within.distinct distinct)
    rw [properties_of_ofText? read, propertiesOf_fails_iff, walk_normalize distinct]
    constructor
    · rintro ⟨_, normal, rejects⟩
      obtain ⟨member, visited, rfl⟩ := List.mem_map.mp normal
      have within := mem_walk_iff.mp visited
      exact ⟨member, within, (rejected within).mp rejects⟩
    · rintro ⟨member, within, rejects⟩
      exact ⟨normalize member, List.mem_map_of_mem (mem_walk_iff.mpr within),
        (rejected within).mpr rejects⟩
  refine ⟨exact, fun unmistaken => ?_, fun failure failed => ?_⟩
  · rw [exact]
    refine exists_congr fun member => and_congr_right fun within => ?_
    refine exists_congr fun held => and_congr_right fun given => and_congr_right fun _ => ?_
    refine forall₂_congr fun properties same => not_congr ?_
    exact projectable_iff (unmistaken member properties within (same ▸ given))
  · rw [properties_of_ofText? read] at failed
    have cause := cause_of_propertiesOf failed
    refine ⟨cause, ?_⟩
    rcases cause with rfl | ⟨name, found, rfl, -⟩
    · exact ⟨"properties must be an object", by decide +kernel⟩
    · exact exists_message_property name found

/-- A property that is a list of one text is read, though a list is no schema. -/
example : (propertiesOf (normalize (.object [("properties", .object
    [("a", .array [.string "Other"])])]))).toOption.map OrderedMap.keys = some ["a"] := by
  decide +kernel

/-- A schema with a schema in its `allOf` that has a number for a property's schema. -/
def numberSchema : JsonValue :=
  .object [("allOf", .array [.object [("properties", .object
    [("a", stringSchema), ("b", .number (.int 5))])]])]

/-- The text of that schema. -/
def numberText : String :=
  "\x7b\"allOf\":[\x7b\"properties\":\x7b" ++
    "\"a\":\x7b\"type\":\"string\"\x7d,\"b\":5\x7d\x7d]\x7d"

/-- No property of the sample is mistaken, and the number makes it fail. -/
theorem properties_fail_iff_sample :
    JsonValue.ofText? (String.ofList (Text.trim numberText.toList)) = some numberSchema ∧
      (∀ member properties, InAllOf numberSchema member →
        member.get? "properties" = some (.object properties) → Unmistaken properties) ∧
      ∃ failure, Schema.properties numberText = .error failure := by
  have read : JsonValue.ofText? (String.ofList (Text.trim numberText.toList)) =
      some numberSchema := by decide +kernel
  have visited : walk numberSchema = [numberSchema, .object [("properties", .object
      [("a", stringSchema), ("b", .number (.int 5))])]] := rfl
  have unmistaken (member : JsonValue) (properties : List (String × JsonValue))
      (within : InAllOf numberSchema member)
      (given : member.get? "properties" = some (.object properties)) :
      Unmistaken properties := by
    rw [← mem_walk_iff, visited, List.mem_cons, List.mem_singleton] at within
    rcases within with rfl | rfl
    · cases given
    · cases given
      refine ⟨by decide, rfl, fun name items found => ?_⟩
      have inside := Entries.mem_of_get? found
      simp [stringSchema] at inside
  refine ⟨read, unmistaken, ((properties_fail_iff read).2.1 unmistaken).mpr ?_⟩
  have within : InAllOf numberSchema (.object [("properties", .object
      [("a", stringSchema), ("b", .number (.int 5))])]) := by
    rw [← mem_walk_iff, visited]
    simp
  refine ⟨_, within, _, rfl, nofun, ?_⟩
  intro properties same schemas
  cases same
  rcases schemas "b" _ rfl with object | flag
  · contradiction
  · contradiction

/-- A schema whose only property is called `const`. -/
def constantSchema : JsonValue :=
  .object [("properties", .object [("const", stringSchema)])]

/-- The text of that schema. -/
def constantText : String :=
  "\x7b\"properties\":\x7b\"const\":\x7b\"type\":\"string\"\x7d\x7d\x7d"

/-- A property called `const` is taken for a constant, and its schema for a value that is listed
among the properties and read for one. -/
theorem property_const_fails :
    JsonValue.ofText? (String.ofList (Text.trim constantText.toList)) = some constantSchema ∧
      (∀ member, InAllOf constantSchema member → ¬Rejects AllSchemas member) ∧
      Schema.properties constantText =
        .error (.property "enum" (.array [stringSchema])) := by
  have read : JsonValue.ofText? (String.ofList (Text.trim constantText.toList)) =
      some constantSchema := by decide +kernel
  refine ⟨read, ?_, ?_⟩
  · rintro member within ⟨held, given, -, other⟩
    have visited : walk constantSchema = [constantSchema] := rfl
    rw [← mem_walk_iff, visited, List.mem_singleton] at within
    subst within
    cases given
    refine other _ rfl fun name value found => ?_
    have inside := Entries.mem_of_get? found
    simp only [List.mem_singleton, Prod.mk.injEq] at inside
    rw [inside.2]
    exact .inl rfl
  · rw [properties_of_ofText? read]
    rfl

end Raml.Schema
