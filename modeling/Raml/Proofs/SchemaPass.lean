import Raml.Proofs.Json
import Raml.Schema.Normal

/-!
# Passes over schemas

A pass over a schema edits an object under a few names and rewrites the other members one by one.
Each pass is described by the names that it edits and by what it makes of every other member, so
that passes are put together without opening them.
-/
namespace Raml.Schema

open JsonValue

/-- A pass that goes through a list changes its elements one by one. -/
theorem eq_map {α β : Type} {pass : List α → List β} {change : α → β} (empty : pass [] = [])
    (step : ∀ first rest, pass (first :: rest) = change first :: pass rest) (list : List α) :
    pass list = list.map change := by
  induction list with
  | nil => exact empty
  | cons first rest ih => rw [step, ih, List.map_cons]

/-- One object's members become another's: apart from the edited names every member is rewritten in
its own way, and names stay distinct. -/
structure Rewrites (edited : String → Prop) (change : String → JsonValue → JsonValue)
    (before after : List (String × JsonValue)) : Prop where
  /-- The names stay distinct. -/
  distinct : (Entries.keys after).Nodup
  /-- What stands under any other name is rewritten. -/
  lookup : ∀ name, ¬edited name →
    Entries.get? name after = (Entries.get? name before).map (change name)

namespace Rewrites

variable {edited other : String → Prop} {change further : String → JsonValue → JsonValue}
variable {before between after : List (String × JsonValue)}

/-- Members that are only rewritten. -/
theorem of_map (change : String → JsonValue → JsonValue)
    (distinct : (Entries.keys before).Nodup) :
    Rewrites (fun _ => False) change before
      (before.map fun member => (member.1, change member.1 member.2)) where
  distinct := by simpa [Entries.keys, Function.comp_def] using distinct
  lookup name _ := Entries.get?_map change name before

/-- Passes one after another edit what either edits. -/
theorem trans (first : Rewrites edited change before between)
    (second : Rewrites other further between after) :
    Rewrites (fun name => edited name ∨ other name)
      (fun name value => further name (change name value)) before after where
  distinct := second.distinct
  lookup name apart := by
    rw [not_or] at apart
    rw [second.lookup name apart.2, first.lookup name apart.1, Option.map_map]
    rfl

/-- More names may be taken as edited, and what is done with the edited ones does not count. -/
theorem mono (rewritten : Rewrites edited change before after)
    (more : ∀ name, edited name → other name)
    (same : ∀ name, ¬other name → change name = further name) :
    Rewrites other further before after where
  distinct := rewritten.distinct
  lookup name apart := by
    rw [rewritten.lookup name fun inside => apart (more name inside), same name apart]

/-- A name that is not edited is present when it was. -/
theorem mem_keys_iff (rewritten : Rewrites edited change before after) {name : String}
    (apart : ¬edited name) : name ∈ Entries.keys after ↔ name ∈ Entries.keys before := by
  rw [Entries.mem_keys_iff, Entries.mem_keys_iff, rewritten.lookup name apart, Option.isSome_map]

end Rewrites

/-- One object's members become another's: only the edited names change. -/
abbrev Edits (edited : String → Prop) (before after : List (String × JsonValue)) : Prop :=
  Rewrites edited (fun _ value => value) before after

namespace Edits

variable {edited : String → Prop} {members : List (String × JsonValue)} {name : String}

/-- Leaving members as they are edits nothing. -/
theorem refl (distinct : (Entries.keys members).Nodup) : Edits edited members members :=
  ⟨distinct, by simp⟩

/-- A removal edits its name. -/
theorem swapErase (distinct : (Entries.keys members).Nodup) :
    Edits (· = name) members (Entries.swapErase name members) :=
  ⟨Entries.nodup_swapErase distinct, fun other apart => by
    rw [Entries.get?_swapErase distinct, if_neg apart, Option.map_id']⟩

/-- A write edits its name. -/
theorem insert (value : JsonValue) (distinct : (Entries.keys members).Nodup) :
    Edits (· = name) members (Entries.insert name value members) :=
  ⟨Entries.nodup_insert distinct, fun other apart => by
    rw [Entries.get?_insert, if_neg apart, Option.map_id']⟩

/-- A missing name is written at the end. -/
theorem append (value : JsonValue) (missing : name ∉ Entries.keys members)
    (distinct : (Entries.keys members).Nodup) :
    Edits (· = name) members (members ++ [(name, value)]) :=
  Entries.insert_of_not_mem value missing ▸ insert value distinct

/-- More names may be taken as edited. -/
theorem mono {other : String → Prop} {after : List (String × JsonValue)}
    (edits : Edits edited members after) (more : ∀ name, edited name → other name) :
    Edits other members after := Rewrites.mono edits more fun _ _ => rfl

end Edits

/-! ## Required properties -/

section Required

variable {members : List (String × JsonValue)}

/-- Marks are moved in every item, none of which is a property. -/
theorem listRequiredItems_eq (items : List JsonValue) :
    listRequiredItems items = items.map (listRequired false false) :=
  eq_map rfl (fun _ _ => rfl) items

/-- Marks are moved in every member: those of a map of properties are marked themselves, and the
member called `properties` is such a map. -/
theorem listRequiredMembers_eq (propertyMap : Bool) (members : List (String × JsonValue)) :
    listRequiredMembers propertyMap members = members.map fun member =>
      (member.1, listRequired propertyMap (member.1 = "properties") member.2) :=
  eq_map rfl (fun _ _ => rfl) members

/-- Moving marks makes no boolean and takes none away. -/
theorem bool?_listRequired (marked propertyMap : Bool) (value : JsonValue) :
    (listRequired marked propertyMap value).bool? = value.bool? := by
  cases value <;> rfl

/-- Moving marks makes no text and changes none. -/
theorem string?_listRequired (marked propertyMap : Bool) (value : JsonValue) :
    (listRequired marked propertyMap value).string? = value.string? := by
  cases value <;> rfl

/-- A mark that is taken out is gone. -/
theorem hasRequiredMark_dropRequiredMark (distinct : (Entries.keys members).Nodup) :
    hasRequiredMark (dropRequiredMark members) = false := by
  unfold dropRequiredMark
  split
  · rw [hasRequiredMark, Entries.get?_swapErase distinct, if_pos rfl]
    rfl
  · rename_i unmarked
    exact Bool.not_eq_true _ ▸ unmarked

/-- Taking out the mark touches nothing that is no boolean. -/
theorem get?_dropRequiredMark {name : String} {value : JsonValue}
    (distinct : (Entries.keys members).Nodup) (found : Entries.get? name members = some value)
    (other : value.bool? = none) : Entries.get? name (dropRequiredMark members) = some value := by
  unfold dropRequiredMark
  split
  · rename_i marked
    have apart : name ≠ "required" := by
      rintro rfl
      simp [hasRequiredMark, found, other] at marked
    rw [Entries.get?_swapErase distinct, if_neg apart, found]
  · exact found

/-- Taking out the mark edits only `required`. -/
theorem edits_dropRequiredMark (distinct : (Entries.keys members).Nodup) :
    Edits (· = "required") members (dropRequiredMark members) := by
  unfold dropRequiredMark
  split
  · exact .swapErase distinct
  · exact .refl distinct

/-- Whether names are added to the list `required` of members: there are some, and the list is
missing or is one. -/
def AddsRequired (names : List String) (members : List (String × JsonValue)) : Prop :=
  names ≠ [] ∧ ∀ value, Entries.get? "required" members = some value → value.items?.isSome

/-- Adding required names edits only `required`, and only where a list can take them. -/
theorem edits_addRequired (names : List String) (distinct : (Entries.keys members).Nodup) :
    Edits (fun name => name = "required" ∧ AddsRequired names members) members
      (addRequired names members) := by
  unfold addRequired
  split
  · exact .refl distinct
  rename_i some
  have added : names ≠ [] := by simpa using some
  split
  · rename_i missing
    have adds : AddsRequired names members := ⟨added, by simp [missing]⟩
    exact (Edits.append _ (Entries.get?_eq_none.mp missing) distinct).mono fun _ same =>
      ⟨same, adds⟩
  · rename_i listed found
    have adds : AddsRequired names members := ⟨added, by simp [found, items?]⟩
    exact (Edits.insert _ distinct).mono fun _ same => ⟨same, adds⟩
  · exact .refl distinct

/-- Names are added to a list at its end. -/
theorem exists_foldl_addName (names : List String) (listed : List JsonValue) :
    ∃ more, names.foldl addName listed = listed ++ more := by
  induction names generalizing listed with
  | nil => exact ⟨[], (List.append_nil listed).symm⟩
  | cons name rest ih =>
    have first : ∃ more, addName listed name = listed ++ more := by
      unfold addName
      split
      · exact ⟨[], (List.append_nil listed).symm⟩
      · exact ⟨_, rfl⟩
    obtain ⟨more, added⟩ := first
    obtain ⟨others, same⟩ := ih (listed ++ more)
    exact ⟨more ++ others, by rw [List.foldl_cons, added, same, List.append_assoc]⟩

/-- What stands under `required` when names are added to what stood there. -/
def listedWith (names : List String) : Option JsonValue → JsonValue
  | none => .array (names.foldl addName [])
  | some (.array listed) => .array (names.foldl addName listed)
  | some other => other

/-- What adding names leaves under `required`. -/
theorem get?_addRequired {names : List String} (some : names ≠ []) :
    Entries.get? "required" (addRequired names members) =
      Option.some (listedWith names (Entries.get? "required" members)) := by
  unfold addRequired
  rw [if_neg (by simpa using some)]
  split
  · rename_i missing
    rw [← Entries.insert_of_not_mem _ (Entries.get?_eq_none.mp missing), Entries.get?_insert,
      if_pos rfl, missing]
    rfl
  · rename_i listed found
    rw [Entries.get?_insert, if_pos rfl, found]
    rfl
  · rename_i value other found
    rw [found]
    cases value with
    | array items => exact absurd rfl (other items)
    | _ => rfl

/-- Adding names makes no mark. -/
theorem hasRequiredMark_addRequired {names : List String}
    (unmarked : hasRequiredMark members = false) :
    hasRequiredMark (addRequired names members) = false := by
  by_cases some : names = []
  · rw [some]
    exact unmarked
  · unfold hasRequiredMark at unmarked ⊢
    rw [get?_addRequired some]
    cases found : Entries.get? "required" members with
    | none => rfl
    | some value =>
      rw [found] at unmarked
      cases value with
      | bool flag => contradiction
      | _ => rfl

/-- The names to add are there afterwards. -/
theorem mem_keys_addRequired {names : List String} (some : names ≠ []) :
    "required" ∈ Entries.keys (addRequired names members) := by
  rw [Entries.mem_keys_iff, get?_addRequired some]
  rfl

/-- Names are added to changed items as to the items themselves. -/
theorem foldl_addName_map {change : JsonValue → JsonValue}
    (texts : ∀ value, (change value).string? = value.string?) (names : List String)
    (items : List JsonValue) :
    names.foldl addName (items.map change) = (names.foldl addName items).map change := by
  induction names generalizing items with
  | nil => rfl
  | cons name rest ih =>
    have kept : change (.string name) = .string name := by
      have text := texts (.string name)
      cases same : change (.string name) with
      | string other =>
        rw [same] at text
        exact congrArg _ (Option.some.inj text)
      | _ => simp [same, string?] at text
    have added : addName (items.map change) name = (addName items name).map change := by
      simp only [addName, List.any_map, Function.comp_def, texts]
      split
      · rfl
      · simp [kept]
    rw [List.foldl_cons, added, ih, List.foldl_cons]

/-- Names are added to changed members as to the members themselves. -/
theorem addRequired_listRequired (names : List String) (propertyMap : Bool) :
    addRequired names (listRequiredMembers propertyMap members) =
      listRequiredMembers propertyMap (addRequired names members) := by
  have array (inner : Bool) (items : List JsonValue) : listRequired propertyMap inner
      (.array items) = .array (items.map (listRequired false false)) := by
    rw [listRequired, listRequiredItems_eq]
  have added (items : List JsonValue) :
      names.foldl addName (items.map (listRequired false false)) =
        (names.foldl addName items).map (listRequired false false) :=
    foldl_addName_map (string?_listRequired false false) names items
  rw [listRequiredMembers_eq, listRequiredMembers_eq]
  unfold addRequired
  split
  · rfl
  · rw [Entries.get?_map fun name => listRequired propertyMap (name = "properties")]
    cases Entries.get? "required" members with
    | none =>
      have new := added []
      rw [List.map_nil] at new
      simp only [Option.map_none, List.map_append, List.map_singleton]
      rw [array, ← new]
    | some value =>
      cases value with
      | array items =>
        rw [Option.map_some, array]
        simp only
        rw [added, Entries.map_insert fun name => listRequired propertyMap (name = "properties"),
          array]
      | _ => rfl

/-- Moving the marks in an object that is no property's schema: the names are added, and then each
member is gone into. -/
theorem listRequired_unmarked (propertyMap : Bool) :
    listRequired false propertyMap (.object members) = .object (listRequiredMembers propertyMap
      (addRequired (requiredNames propertyMap members) members)) := by
  rw [listRequired, ← addRequired_listRequired]
  rfl

/-- Moving the marks in an object. As a property's schema it loses its own mark. -/
theorem rewrites_listRequired (marked propertyMap : Bool)
    (distinct : (Entries.keys members).Nodup) :
    ∃ after, listRequired marked propertyMap (.object members) = .object after ∧
      Rewrites (fun name => name = "required" ∧
          (marked = true ∨ AddsRequired (requiredNames propertyMap members) members))
        (fun name => listRequired propertyMap (name = "properties")) members after ∧
      (marked = false → requiredNames propertyMap members ≠ [] →
        "required" ∈ Entries.keys after) := by
  cases marked with
  | true =>
    have inside := Rewrites.of_map
      (fun name => listRequired propertyMap (name = "properties")) distinct
    have own := edits_dropRequiredMark inside.distinct
    refine ⟨_, by rw [listRequired, listRequiredMembers_eq, if_pos rfl], ?_, by simp⟩
    refine ((inside.trans own).trans (edits_addRequired _ own.distinct)).mono ?_ fun _ _ => rfl
    rintro name ((none | same) | added)
    · contradiction
    · exact ⟨same, .inl rfl⟩
    · exact ⟨added.1, .inl rfl⟩
  | false =>
    have added := edits_addRequired (requiredNames propertyMap members) distinct
    have inside := Rewrites.of_map
      (fun name => listRequired propertyMap (name = "properties")) added.distinct
    refine ⟨_, by rw [listRequired_unmarked, listRequiredMembers_eq],
      (added.trans inside).mono ?_ fun _ _ => rfl, fun _ some => ?_⟩
    · rintro name (⟨same, adds⟩ | none)
      · exact ⟨same, .inr adds⟩
      · contradiction
    · exact (inside.mem_keys_iff id).mpr (mem_keys_addRequired some)

end Required

/-! ## Constants -/

section Constant

variable {members : List (String × JsonValue)}

/-- Constants are listed in every item. -/
theorem listConstantsItems_eq (items : List JsonValue) :
    listConstantsItems items = items.map listConstants :=
  eq_map rfl (fun _ _ => rfl) items

/-- Listing constants makes no text and changes none. -/
theorem string?_listConstants (value : JsonValue) :
    (listConstants value).string? = value.string? := by
  cases value <;> rfl

/-- List the constants of what stands under a name, unless it is data. -/
def listConstantsUnder (name : String) (value : JsonValue) : JsonValue :=
  if name ∈ literalKeywords then value else listConstants value

/-- Constants are listed in every member that is no data. -/
theorem listConstantsMembers_eq (members : List (String × JsonValue)) :
    listConstantsMembers members = members.map fun member =>
      (member.1, listConstantsUnder member.1 member.2) :=
  eq_map rfl (fun _ _ => rfl) members

/-- Adding a missing member edits its name only when it is missing. -/
theorem edits_addMissing (name : String) (value : JsonValue)
    (distinct : (Entries.keys members).Nodup) :
    Edits (fun other => other = name ∧ name ∉ Entries.keys members) members
      (addMissing name value members) := by
  unfold addMissing
  split
  · exact .refl distinct
  · rename_i missing
    rw [Entries.contains_iff] at missing
    exact (Edits.append value missing distinct).mono fun _ same => ⟨same, missing⟩

/-- Without listed values a constant becomes the only one. -/
theorem get?_enum_listConstant (constant : JsonValue) (distinct : (Entries.keys members).Nodup)
    (missing : "enum" ∉ Entries.keys members) :
    Entries.get? "enum" (listConstant constant members) = some (.array [constant]) := by
  have erased : Edits (· = "const") members (Entries.swapErase "const" members) :=
    .swapErase distinct
  have unlisted : "enum" ∉ Entries.keys (Entries.swapErase "const" members) :=
    mt (erased.mem_keys_iff (by decide)).mp missing
  have absent : Entries.contains "enum" (Entries.swapErase "const" members) = false := by
    rw [← Bool.not_eq_true, Entries.contains_iff]
    exact unlisted
  have listed : Entries.get? "enum" (addMissing "enum" (.array [constant])
      (Entries.swapErase "const" members)) = some (.array [constant]) := by
    rw [addMissing, absent, if_neg Bool.false_ne_true, ← Entries.insert_of_not_mem _ unlisted,
      Entries.get?_insert, if_pos rfl]
  unfold listConstant
  split
  · have valued := edits_addMissing "enum" (.array [constant]) erased.distinct
    have apart (missing : Prop) : ¬("enum" = "type" ∧ missing) := fun same =>
      absurd same.1 (by decide)
    rw [(edits_addMissing "type" _ valued.distinct).lookup "enum" (apart _), listed]
    rfl
  · exact listed

/-- Listing a constant takes `const` away, and adds values and a type only where they are
missing. -/
theorem edits_listConstant (constant : JsonValue) (distinct : (Entries.keys members).Nodup) :
    Edits (fun name => name = "const" ∨
        (name = "enum" ∨ name = "type") ∧ name ∉ Entries.keys members)
      members (listConstant constant members) ∧
    "const" ∉ Entries.keys (listConstant constant members) := by
  have erased : Edits (· = "const") members (Entries.swapErase "const" members) :=
    .swapErase distinct
  have gone : "const" ∉ Entries.keys (Entries.swapErase "const" members) := by
    rw [← Entries.get?_eq_none, Entries.get?_swapErase distinct, if_pos rfl]
  have valued := edits_addMissing "enum" (.array [constant]) erased.distinct
  have listed := erased.trans valued
  have still := mt (valued.mem_keys_iff (by simp)).mp gone
  unfold listConstant
  cases typeOfConstant constant with
  | none =>
    refine ⟨listed.mono ?_ fun _ _ => rfl, still⟩
    rintro name (same | ⟨rfl, missing⟩)
    · exact .inl same
    · exact .inr ⟨.inl rfl, mt (erased.mem_keys_iff (by simp)).mpr missing⟩
  | some type =>
    have typed := edits_addMissing "type" (.string type) listed.distinct
    refine ⟨(listed.trans typed).mono ?_ fun _ _ => rfl,
      mt (typed.mem_keys_iff (by simp)).mp still⟩
    rintro name ((same | ⟨rfl, missing⟩) | ⟨rfl, missing⟩)
    · exact .inl same
    · exact .inr ⟨.inl rfl, mt (erased.mem_keys_iff (by simp)).mpr missing⟩
    · exact .inr ⟨.inr rfl, mt (listed.mem_keys_iff (by simp)).mpr missing⟩

/-- Listing constants takes `const` away, and adds values and a type only where they are missing;
without `const` every member is only rewritten. -/
theorem rewrites_listConstants (distinct : (Entries.keys members).Nodup) :
    ∃ after, listConstants (.object members) = .object after ∧
      Rewrites (fun name => "const" ∈ Entries.keys members ∧ (name = "const" ∨
          (name = "enum" ∨ name = "type") ∧ name ∉ Entries.keys members))
        listConstantsUnder members after ∧
      "const" ∉ Entries.keys after := by
  have inside := Rewrites.of_map listConstantsUnder distinct
  simp only [listConstants, listConstantsMembers_eq]
  cases found : Entries.get? "const" members with
  | none =>
    rw [Entries.get?_eq_none] at found
    exact ⟨_, rfl, inside.mono (by simp) fun _ _ => rfl, mt (inside.mem_keys_iff id).mp found⟩
  | some constant =>
    obtain ⟨edited, gone⟩ := edits_listConstant constant inside.distinct
    have present : "const" ∈ Entries.keys members := by simp [Entries.mem_keys_iff, found]
    refine ⟨_, rfl, (inside.trans edited).mono ?_ fun _ _ => rfl, gone⟩
    rintro name (none | same | ⟨added, missing⟩)
    · contradiction
    · exact ⟨present, .inl same⟩
    · exact ⟨present, .inr ⟨added, mt (inside.mem_keys_iff id).mpr missing⟩⟩

end Constant

/-! ## Boolean schemas -/

section Flag

variable {members : List (String × JsonValue)}

/-- Every item stands in the place of a schema when booleans are replaced. -/
theorem replaceFlagsItems_eq (items : List JsonValue) :
    replaceFlagsItems items = items.map (replaceFlags .schema) :=
  eq_map rfl (fun _ _ => rfl) items

/-- When booleans are replaced, a member stands in the position that its keyword gives. -/
theorem replaceFlagsMembers_eq (members : List (String × JsonValue)) :
    replaceFlagsMembers members = members.map fun member =>
      (member.1, replaceFlags (.ofKeyword member.1) member.2) :=
  eq_map rfl (fun _ _ => rfl) members

/-- Every schema of a map stands in the place of a schema when booleans are replaced. -/
theorem replaceFlagsMap_eq (members : List (String × JsonValue)) :
    replaceFlagsMap members = members.map fun member =>
      (member.1, replaceFlags .schema member.2) :=
  eq_map rfl (fun _ _ => rfl) members

/-- The schemas in a schema are rewritten where they stand. -/
theorem rewrites_replaceFlags (distinct : (Entries.keys members).Nodup) :
    ∃ after, replaceFlags .schema (.object members) = .object after ∧
      Rewrites (fun _ => False) (fun name => replaceFlags (.ofKeyword name)) members after :=
  ⟨_, by rw [replaceFlags, replaceFlagsMembers_eq],
    .of_map (fun name => replaceFlags (.ofKeyword name)) distinct⟩

/-- Every schema of a map is rewritten. -/
theorem rewrites_replaceFlags_map (distinct : (Entries.keys members).Nodup) :
    ∃ after, replaceFlags .schemaMap (.object members) = .object after ∧
      Rewrites (fun _ => False) (fun _ => replaceFlags .schema) members after :=
  ⟨_, by rw [replaceFlags, replaceFlagsMap_eq], .of_map (fun _ => replaceFlags .schema) distinct⟩

/-- In the place of a schema no boolean is left. -/
theorem bool?_replaceFlags (value : JsonValue) : (replaceFlags .schema value).bool? = none := by
  cases value with
  | bool flag => cases flag <;> rfl
  | _ => rfl

/-- A value that is no boolean stands for itself nowhere. -/
theorem replaceFlags_schemaOrFlag {value : JsonValue} (other : value.bool? = none) :
    replaceFlags .schemaOrFlag value = replaceFlags .schema value := by
  cases value with
  | bool flag => contradiction
  | _ => simp [replaceFlags]

end Flag

/-! ## Types -/

section Typing

variable {members : List (String × JsonValue)}

/-- Every item stands in the place of a schema when types are inferred. -/
theorem inferTypesItems_eq (items : List JsonValue) :
    inferTypesItems items = items.map (inferTypes .schema) :=
  eq_map rfl (fun _ _ => rfl) items

/-- When types are inferred, a member stands in the position that its keyword gives. -/
theorem inferTypesMembers_eq (members : List (String × JsonValue)) :
    inferTypesMembers members = members.map fun member =>
      (member.1, inferTypes (.ofKeyword member.1) member.2) :=
  eq_map rfl (fun _ _ => rfl) members

/-- Every schema of a map stands in the place of a schema when types are inferred. -/
theorem inferTypesMap_eq (members : List (String × JsonValue)) :
    inferTypesMap members = members.map fun member => (member.1, inferTypes .schema member.2) :=
  eq_map rfl (fun _ _ => rfl) members

/-- Inferring types makes no boolean and takes none away. -/
theorem bool?_inferTypes (position : Position) (value : JsonValue) :
    (inferTypes position value).bool? = value.bool? := by
  cases value with
  | array items => cases position <;> rfl
  | object members => cases position <;> rfl
  | _ => rfl

/-- Types are inferred in the same way where a boolean stands for itself. -/
theorem inferTypes_schemaOrFlag (value : JsonValue) :
    inferTypes .schemaOrFlag value = inferTypes .schema value := by
  cases value <;> simp [inferTypes]

/-- Dropping the type `any` edits only `type`. -/
theorem edits_dropAnyType (distinct : (Entries.keys members).Nodup) :
    Edits (· = "type") members (dropAnyType members) := by
  unfold dropAnyType
  split
  · exact .swapErase distinct
  · exact .refl distinct

/-- Adding the implied type edits only `type`. -/
theorem edits_inferType (distinct : (Entries.keys members).Nodup) :
    Edits (· = "type") members (inferType members) := by
  unfold inferType
  split
  · exact .refl distinct
  · rename_i given
    have missing : "type" ∉ Entries.keys members := by
      rw [← Entries.contains_iff]
      simp_all
    split
    · exact .append _ missing distinct
    · split
      · exact .append _ missing distinct
      · exact .refl distinct

/-- Giving a schema its type edits only `type`. -/
theorem rewrites_inferTypes (distinct : (Entries.keys members).Nodup) :
    ∃ after, inferTypes .schema (.object members) = .object after ∧
      Rewrites (· = "type") (fun name => inferTypes (.ofKeyword name)) members after := by
  have inside := Rewrites.of_map (fun name => inferTypes (.ofKeyword name)) distinct
  have dropped := edits_dropAnyType inside.distinct
  have inferred := edits_inferType dropped.distinct
  refine ⟨_, by rw [inferTypes, inferTypesMembers_eq], ?_⟩
  refine ((inside.trans dropped).trans inferred).mono ?_ fun _ _ => rfl
  rintro name ((none | same) | same)
  · contradiction
  · exact same
  · exact same

/-- Every schema of a map is given its type. -/
theorem rewrites_inferTypes_map (distinct : (Entries.keys members).Nodup) :
    ∃ after, inferTypes .schemaMap (.object members) = .object after ∧
      Rewrites (fun _ => False) (fun _ => inferTypes .schema) members after :=
  ⟨_, by rw [inferTypes, inferTypesMap_eq], .of_map (fun _ => inferTypes .schema) distinct⟩

end Typing

/-! ## Nullable schemas -/

section Nullable

variable {members : List (String × JsonValue)}

/-- Null is admitted in every item. -/
theorem admitNullsItems_eq (items : List JsonValue) :
    admitNullsItems items = items.map admitNulls :=
  eq_map rfl (fun _ _ => rfl) items

/-- Null is admitted in every member. -/
theorem admitNullsMembers_eq (members : List (String × JsonValue)) :
    admitNullsMembers members = members.map fun member => (member.1, admitNulls member.2) :=
  eq_map rfl (fun _ _ => rfl) members

/-- Admitting null makes no boolean and takes none away. -/
theorem bool?_admitNulls (value : JsonValue) : (admitNulls value).bool? = value.bool? := by
  cases value <;> rfl

/-- Admitting null makes no text and changes none. -/
theorem string?_admitNulls (value : JsonValue) : (admitNulls value).string? = value.string? := by
  cases value <;> rfl

/-- Where a flag is turned into a type no flag is left. -/
theorem hasFlag_admitNullIfFlagged (distinct : (Entries.keys members).Nodup) :
    hasFlag "nullable" (admitNullIfFlagged members) = false ∧
      hasFlag "x-nullable" (admitNullIfFlagged members) = false := by
  unfold admitNullIfFlagged
  split
  · have first : Edits (· = "nullable") members _ := .swapErase distinct
    have gone (name : String) (flag : name = "nullable" ∨ name = "x-nullable") :
        Entries.get? name (Entries.swapErase "x-nullable"
          (Entries.swapErase "nullable" members)) = none := by
      rw [Entries.get?_swapErase first.distinct, Entries.get?_swapErase distinct]
      rcases flag with rfl | rfl <;> rfl
    have unset (name : String) (flag : name = "nullable" ∨ name = "x-nullable")
        (type : JsonValue) : hasFlag name (Entries.insert "type" type
          (Entries.swapErase "x-nullable" (Entries.swapErase "nullable" members))) = false := by
      have apart : name ≠ "type" := by rcases flag with rfl | rfl <;> decide
      rw [hasFlag, Entries.get?_insert, if_neg apart, gone name flag]
      rfl
    simp only
    split
    · exact ⟨unset _ (.inl rfl) _, unset _ (.inr rfl) _⟩
    · simp [hasFlag, gone]
  · rename_i unset
    simpa using unset

/-- The names that admitting null edits. -/
def nullableKeywords : List String := ["nullable", "x-nullable", "type"]

/-- Turning a flag into a type edits only the flags and the type. -/
theorem edits_admitNullIfFlagged (distinct : (Entries.keys members).Nodup) :
    Edits (· ∈ nullableKeywords) members (admitNullIfFlagged members) := by
  unfold admitNullIfFlagged
  split
  · have first : Edits (· = "nullable") members _ := .swapErase distinct
    have second : Edits (· = "x-nullable") _ _ := .swapErase first.distinct
    have both := first.trans second
    have flags : ∀ name, name = "nullable" ∨ name = "x-nullable" → name ∈ nullableKeywords := by
      rintro name (rfl | rfl) <;> decide
    simp only
    split
    · refine (both.trans (Edits.insert _ both.distinct)).mono ?_ fun _ _ => rfl
      rintro name (flag | rfl)
      · exact flags name flag
      · decide
    · exact both.mono flags fun _ _ => rfl
  · exact .refl distinct

/-- Turning the flags of an object into types edits only the flags and the type. -/
theorem rewrites_admitNulls (distinct : (Entries.keys members).Nodup) :
    ∃ after, admitNulls (.object members) = .object after ∧
      Rewrites (· ∈ nullableKeywords) (fun _ => admitNulls) members after := by
  have inside := Rewrites.of_map (fun _ => admitNulls) distinct
  have edited := edits_admitNullIfFlagged inside.distinct
  refine ⟨_, by rw [admitNulls, admitNullsMembers_eq], (inside.trans edited).mono ?_ fun _ _ => rfl⟩
  rintro name (none | same)
  · contradiction
  · exact same

/-- In an object without booleans every member is only rewritten. -/
theorem rewrites_admitNulls_of_noFlags (distinct : (Entries.keys members).Nodup)
    (noFlags : ∀ name value, Entries.get? name members = some value → value.bool? = none) :
    ∃ after, admitNulls (.object members) = .object after ∧
      Rewrites (fun _ => False) (fun _ => admitNulls) members after := by
  have inside := Rewrites.of_map (fun _ => admitNulls) distinct
  have unset (name : String) : hasFlag name (members.map fun member =>
      (member.1, admitNulls member.2)) = false := by
    rw [hasFlag, inside.lookup name id]
    cases found : Entries.get? name members with
    | none => rfl
    | some value =>
      have other := noFlags name value found
      cases value <;> simp_all [admitNulls, bool?]
  refine ⟨_, by rw [admitNulls, admitNullsMembers_eq, admitNullIfFlagged], ?_⟩
  simpa [unset] using inside

end Nullable

end Raml.Schema
