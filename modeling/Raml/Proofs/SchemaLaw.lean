import Raml.Proofs.SchemaForm

/-!
# The laws of the passes

Every pass of normalization establishes its law: the one over required properties takes the marks
away, the one over constants the constants, and so on to the flags of nullable schemas. What a pass
puts into an object is made of what stood there and of texts, so the laws of the passes before it
stay.
-/
namespace Raml.Schema

open JsonValue

variable {members : List (String × JsonValue)} {site : Site} {passes : Nat}

/-- A mark that is not there is made by no rewriting that makes no boolean. -/
theorem Rewrites.unmarked {edited : String → Prop} {change : String → JsonValue → JsonValue}
    {after : List (String × JsonValue)} (rewritten : Rewrites edited change members after)
    (apart : ¬edited "required")
    (plain : ∀ value, value.bool? = none → (change "required" value).bool? = none)
    (unmarked : hasRequiredMark members = false) : hasRequiredMark after = false := by
  unfold hasRequiredMark at unmarked ⊢
  rw [rewritten.lookup "required" apart]
  cases found : Entries.get? "required" members with
  | none => rfl
  | some value =>
    rw [found, Option.bind_some, Option.isSome_eq_false_iff, Option.isNone_iff_eq_none] at unmarked
    rw [Option.map_some, Option.bind_some, plain value unmarked]
    rfl

/-! ## The pass over required properties -/

section Required

/-- The pass over required properties. -/
def requiredPass : Pass where
  run site := listRequired site.marked site.propertyMap
  edit site members rewritten := addRequired (requiredNames site.propertyMap members)
    (if site.marked then dropRequiredMark rewritten else rewritten)
  null _ := rfl
  number _ _ := rfl
  string _ _ := rfl
  array _ items := congrArg _ (listRequiredItems_eq items)
  object site members := by rw [listRequired, listRequiredMembers_eq]; rfl

/-- Taking out the mark puts nothing in. -/
theorem get?_of_get?_dropRequiredMark {name : String} {value : JsonValue}
    (distinct : (Entries.keys members).Nodup)
    (found : Entries.get? name (dropRequiredMark members) = some value) :
    Entries.get? name members = some value := by
  unfold dropRequiredMark at found
  split at found
  · rw [Entries.get?_swapErase distinct, Option.ite_none_left_eq_some] at found
    exact found.2
  · exact found

/-- Adding names puts in nothing but a list of what was listed and of texts. -/
theorem inForm_addRequired {names : List String} (distinct : (Entries.keys members).Nodup)
    (given : ∀ name value, Entries.get? name members = some value →
      InForm passes (site.member name) value)
    (name : String) (value : JsonValue)
    (found : Entries.get? name (addRequired names members) = some value) :
    InForm passes (site.member name) value := by
  have texts (listed : List JsonValue) (held : ∀ item ∈ listed,
      InForm passes (site.member "required").item item) :
      InForm passes (site.member "required") (.array (names.foldl addName listed)) := by
    clear found
    refine .array ?_
    induction names generalizing listed with
    | nil => exact held
    | cons first rest ih =>
      refine ih _ ?_
      unfold addName
      split
      · exact held
      · exact List.forall_mem_append.mpr ⟨held, by simpa using .string⟩
  by_cases edited : name = "required" ∧ AddsRequired names members
  · obtain ⟨rfl, some, list⟩ := edited
    rw [get?_addRequired some] at found
    cases there : Entries.get? "required" members with
    | none =>
      rw [there] at found
      cases found
      exact texts [] (by simp)
    | some listed =>
      have array := list listed there
      rw [there] at found
      cases listed with
      | array items =>
        cases found
        exact texts items fun item => (given _ _ there).of_mem
      | _ => contradiction
  · rw [(edits_addRequired names distinct).lookup name edited, Option.map_id'] at found
    exact given name value found

/-- After the pass over required properties no property's schema is marked. -/
theorem establishes_required : requiredPass.Establishes 0 1 where
  own {site members changed} lawful same := by
    obtain ⟨after, listed, rewritten, -⟩ :=
      rewrites_listRequired site.marked site.propertyMap lawful.distinct
    cases same.symm.trans listed
    refine ⟨rewritten.distinct, fun _ mark => ?_, by simp, by simp, by simp⟩
    rw [mark] at listed
    exact hasRequiredMark_listRequired lawful.distinct listed
  inner {site members} form given := by
    have distinct := (requiredPass.rewrites site form.own.distinct).distinct
    refine inForm_addRequired ?_ fun name value found => ?_
    · split
      · exact (edits_dropRequiredMark distinct).distinct
      · exact distinct
    · split at found
      · exact given name value (get?_of_get?_dropRequiredMark distinct found)
      · exact given name value found
  bool _ := .bool (by simp)

end Required

/-! ## The pass over constants -/

section Constant

/-- The pass over constants. -/
def constantPass : Pass where
  run site := listConstantsUnless site.literal
  edit site members rewritten :=
    if site.literal then rewritten
    else match Entries.get? "const" members with
      | some constant => listConstant constant rewritten
      | none => rewritten
  null site := by cases site.literal <;> rfl
  number site _ := by cases site.literal <;> rfl
  string site _ := by cases site.literal <;> rfl
  array site items := listConstantsUnless_array site.literal items
  object site members := by
    cases literal : site.literal with
    | true =>
      have same : (members.map fun member => (member.1,
          listConstantsUnless (site.member member.1).literal member.2)) = members :=
        map_eq_self (fun name => listConstantsUnless (site.member name).literal)
          fun _ _ => by simp [Site.member, literal, listConstantsUnless]
      rw [same]
      rfl
    | false =>
      have same (name : String) : listConstantsUnless (site.member name).literal =
          listConstantsUnder name := by
        funext value
        simp [Site.member, literal, listConstantsUnless, listConstantsUnder]
      simp only [same]
      rw [listConstantsUnless, if_neg Bool.false_ne_true, listConstants, listConstantsMembers_eq]
      rfl

/-- The pass over constants edits a schema that has one, unless it stands in data. -/
theorem constantPass_edit (rewritten : List (String × JsonValue)) :
    constantPass.edit site members rewritten =
      if site.literal then rewritten
      else match Entries.get? "const" members with
        | some constant => listConstant constant rewritten
        | none => rewritten := rfl

/-- Adding a missing member puts in nothing else. -/
theorem get?_of_get?_addMissing {name other : String} {new value : JsonValue}
    (found : Entries.get? other (addMissing name new members) = some value) :
    Entries.get? other members = some value ∨ other = name ∧ value = new := by
  unfold addMissing at found
  split at found
  · exact .inl found
  · rename_i missing
    rw [Entries.contains_iff] at missing
    rw [← Entries.insert_of_not_mem new missing, Entries.get?_insert] at found
    split at found
    · cases found
      exact .inr ⟨‹_›, rfl⟩
    · exact .inl found

/-- Listing a constant puts in only the list of it and a name of a type. -/
theorem get?_of_get?_listConstant {constant value : JsonValue} {name : String}
    (distinct : (Entries.keys members).Nodup)
    (found : Entries.get? name (listConstant constant members) = some value) :
    Entries.get? name members = some value ∨ name = "enum" ∧ value = .array [constant] ∨
      name = "type" ∧ ∃ type, value = .string type := by
  have listed (found : Entries.get? name (addMissing "enum" (.array [constant])
      (Entries.swapErase "const" members)) = some value) :
      Entries.get? name members = some value ∨ name = "enum" ∧ value = .array [constant] := by
    refine (get?_of_get?_addMissing found).imp_left ?_
    rw [Entries.get?_swapErase distinct, Option.ite_none_left_eq_some]
    exact And.right
  unfold listConstant at found
  split at found
  · rcases get?_of_get?_addMissing found with earlier | ⟨type, same⟩
    · exact (listed earlier).imp_right .inl
    · exact .inr (.inr ⟨type, _, same⟩)
  · exact (listed found).imp_right .inl

/-- Listing constants makes no boolean and takes none away. -/
theorem bool?_listConstantsUnless (literal : Bool) (value : JsonValue) :
    (listConstantsUnless literal value).bool? = value.bool? := by
  cases literal <;> cases value <;> rfl

/-- After the pass over constants no constant is left outside data. -/
theorem establishes_constant : constantPass.Establishes 1 2 where
  own {site members changed} lawful same := by
    obtain ⟨after, listed, rewritten, gone⟩ :=
      rewrites_listConstantsUnless site.literal lawful.distinct
    cases same.symm.trans listed
    refine ⟨rewritten.distinct, fun _ mark => ?_, fun _ => gone, by simp, by simp⟩
    exact rewritten.unmarked (by simp)
      (fun value plain => (bool?_listConstantsUnless _ value).trans plain)
      (lawful.unmarked (by simp) mark)
  inner {site members} form given name value found := by
    have distinct := (constantPass.rewrites site form.own.distinct).distinct
    rw [constantPass_edit] at found
    split at found
    · exact given name value found
    · split at found
      · rename_i constant there
        rcases get?_of_get?_listConstant distinct found with
          earlier | ⟨rfl, rfl⟩ | ⟨rfl, type, rfl⟩
        · exact given name value earlier
        · have data : InForm 2 (site.member "enum").item constant := (form.of_get? there).listed
            (by simp [Site.member, Site.item, literalKeywords]) (by simp [Site.item]) rfl
          exact .array (by simpa using data)
        · exact .string
      · exact given name value found
  bool {site flag} _ := by
    cases literal : site.literal <;> simp only [constantPass, literal] <;> exact .bool (by simp)

end Constant

/-! ## The pass over booleans -/

section Flag

/-- Data holds no schemas. -/
theorem replaceFlags_data : replaceFlags .data = id := by
  funext value
  cases value <;> simp [replaceFlags]

/-- Replacing booleans makes none. -/
theorem bool?_replaceFlags_of_plain (position : Position) {value : JsonValue}
    (plain : value.bool? = none) : (replaceFlags position value).bool? = none := by
  cases value with
  | bool flag => contradiction
  | array items => cases position <;> rfl
  | object members => cases position <;> rfl
  | _ => rfl

/-- The pass over booleans. -/
def flagPass : Pass where
  run site := replaceFlags site.flags
  edit _ _ rewritten := rewritten
  null _ := rfl
  number _ _ := rfl
  string _ _ := rfl
  array site items := by
    cases position : site.flags <;>
      simp [replaceFlags, replaceFlagsItems_eq, Site.item, position, replaceFlags_data]
  object site members := by
    cases position : site.flags <;>
      simp [replaceFlags, replaceFlagsMembers_eq, replaceFlagsMap_eq, Site.member, Position.below,
        position, replaceFlags_data]

/-- The schema that a boolean stands for is in form. -/
theorem inForm_ofFlag {site : Site} (schema : site.flags = .schema) (flag : Bool) :
    InForm 3 site (ofFlag flag) := by
  cases flag with
  | true => exact .object ⟨by simp, fun _ _ => rfl, by simp, by simp, by simp⟩ (by simp)
  | false =>
    have kept : (site.member "additionalProperties").flags ≠ .schema := by
      simp [Site.member, schema, Position.below]
      decide
    refine .object ⟨by decide, fun _ _ => rfl, fun _ _ => by decide, by simp, by simp⟩ ?_
    simp only [List.forall_mem_cons, List.not_mem_nil, false_imp_iff, implies_true, and_true]
    exact ⟨.string, .bool fun _ => kept, .array (by simpa using .string)⟩

/-- After the pass over booleans none stands in the place of a schema. -/
theorem establishes_flag : flagPass.Establishes 2 3 where
  own {site members changed} lawful same := by
    have rewritten : Rewrites (fun _ => False) (fun name => flagPass.run (site.member name))
        members changed := by
      cases same.symm.trans (flagPass.object site members)
      exact .of_map (fun name => flagPass.run (site.member name)) lawful.distinct
    refine ⟨rewritten.distinct, fun _ mark => ?_, fun _ literal => ?_, by simp, by simp⟩
    · exact rewritten.unmarked id (fun _ => bool?_replaceFlags_of_plain _)
        (lawful.unmarked (by simp) mark)
    · exact mt (rewritten.mem_keys_iff id).mp (lawful.unlisted (by simp) literal)
  inner _ given := given
  bool {site flag} _ := by
    simp only [flagPass, replaceFlags]
    split
    · exact inForm_ofFlag ‹_› flag
    · exact .bool fun _ => ‹_›

end Flag

/-! ## The pass over types -/

section Typing

/-- No types are inferred in data. -/
theorem inferTypes_data : inferTypes .data = id := by
  funext value
  cases value <;> simp [inferTypes]

/-- The pass over types. -/
def typePass : Pass where
  run site := inferTypes site.types
  edit site _ rewritten :=
    if site.types = .schema ∨ site.types = .schemaOrFlag then inferType (dropAnyType rewritten)
    else rewritten
  null _ := rfl
  number _ _ := rfl
  string _ _ := rfl
  array site items := by
    cases position : site.types <;>
      simp [inferTypes, inferTypesItems_eq, Site.item, position, inferTypes_data]
  object site members := by
    cases position : site.types <;>
      simp [inferTypes, inferTypesMembers_eq, inferTypesMap_eq, Site.member, Position.below,
        position, inferTypes_data]

/-- The pass over types edits what stands in the place of a schema. -/
theorem typePass_edit (rewritten : List (String × JsonValue)) :
    typePass.edit site members rewritten =
      if site.types = .schema ∨ site.types = .schemaOrFlag then inferType (dropAnyType rewritten)
      else rewritten := rfl

/-- What a lookup finds after the type `any` is dropped. -/
theorem get?_dropAnyType (distinct : (Entries.keys members).Nodup) (name : String) :
    Entries.get? name (dropAnyType members) =
      if name = "type" then (Entries.get? "type" members).filter fun type => !isAnyType type
      else Entries.get? name members := by
  unfold dropAnyType
  cases found : Entries.get? "type" members with
  | none =>
    split
    · rename_i dropped
      simp at dropped
    · split
      · rename_i same
        rw [same, found]
        rfl
      · rfl
  | some type =>
    simp only [Option.map_some, Option.getD_some, Option.filter_some]
    split
    · rename_i any
      rw [Entries.get?_swapErase distinct, any]
      rfl
    · rename_i known
      rw [Bool.not_eq_true] at known
      split
      · rename_i same
        rw [same, found, known]
        rfl
      · rfl

/-- The type that a schema's keywords imply when none is given. -/
def impliedType (members : List (String × JsonValue)) : Option JsonValue :=
  if Entries.contains "$ref" members then none
  else if Entries.contains "properties" members then some (.string "object")
  else if Entries.contains "items" members then some (.string "array")
  else none

/-- A schema without type is given the one that its keywords imply. -/
theorem inferType_of_untyped (untyped : "type" ∉ Entries.keys members) :
    inferType members = members ++ (impliedType members).toList.map fun type => ("type", type) := by
  rw [← Entries.contains_iff, Bool.not_eq_true] at untyped
  unfold inferType impliedType
  rw [untyped, Bool.false_or]
  repeat' split
  all_goals simp

/-- What a lookup finds after the type is inferred. -/
theorem get?_inferType (name : String) :
    Entries.get? name (inferType members) =
      if name = "type" then (Entries.get? "type" members).or (impliedType members)
      else Entries.get? name members := by
  cases found : Entries.get? "type" members with
  | some type =>
    have typed : Entries.contains "type" members = true := by rw [Entries.contains, found]; rfl
    rw [inferType, typed, Bool.true_or, if_pos rfl, Option.some_or]
    split
    · rename_i same
      rw [same, found]
    · rfl
  | none =>
    have missing : "type" ∉ Entries.keys members := Entries.get?_eq_none.mp found
    rw [inferType_of_untyped missing, Option.none_or]
    cases impliedType members with
    | none =>
      rw [Option.toList_none, List.map_nil, List.append_nil]
      split
      · rename_i same
        rw [same, found]
      · rfl
    | some type =>
      rw [Option.toList_some, List.map_singleton, ← Entries.insert_of_not_mem type missing,
        Entries.get?_insert]

/-- An implied type is not `any`. -/
theorem isAnyType_of_impliedType {type : JsonValue} (implied : impliedType members = some type) :
    isAnyType type = false := by
  unfold impliedType at implied
  repeat' split at implied
  all_goals cases implied <;> decide

/-- Without an implied type a schema refers to another or has neither properties nor items. -/
theorem not_mem_keys_of_impliedType (implied : impliedType members = none)
    (unreferenced : "$ref" ∉ Entries.keys members) :
    "properties" ∉ Entries.keys members ∧ "items" ∉ Entries.keys members := by
  rw [← Entries.contains_iff, Bool.not_eq_true] at unreferenced
  unfold impliedType at implied
  rw [unreferenced, if_neg Bool.false_ne_true] at implied
  rw [← Entries.contains_iff, ← Entries.contains_iff, Bool.not_eq_true, Bool.not_eq_true]
  repeat' split at implied
  all_goals simp_all

/-- A schema whose type is inferred is typed. -/
theorem typed_inferType (distinct : (Entries.keys members).Nodup) :
    Typed (inferType (dropAnyType members)) where
  known type found := by
    rw [get?_inferType, if_pos rfl, Option.or_eq_some_iff, get?_dropAnyType distinct,
      if_pos rfl] at found
    rcases found with given | ⟨-, implied⟩
    · simpa using (Option.filter_eq_some_iff.mp given).2
    · exact isAnyType_of_impliedType implied
  implied untyped unreferenced := by
    have inferred : Edits (· = "type") (dropAnyType members) (inferType (dropAnyType members)) :=
      edits_inferType (edits_dropAnyType distinct).distinct
    rw [inferred.mem_keys_iff (by decide)] at unreferenced
    rw [← Entries.get?_eq_none, get?_inferType, if_pos rfl, Option.or_eq_none_iff] at untyped
    rw [inferred.mem_keys_iff (by decide), inferred.mem_keys_iff (by decide)]
    exact not_mem_keys_of_impliedType untyped.2 unreferenced

/-- A typed schema keeps its type and needs no other. -/
theorem Typed.inferType_dropAnyType (typed : Typed members) :
    inferType (dropAnyType members) = members := by
  have kept : dropAnyType members = members := by
    unfold dropAnyType
    cases found : Entries.get? "type" members with
    | none => rfl
    | some type =>
      rw [Option.map_some, Option.getD_some, typed.known type found, if_neg Bool.false_ne_true]
  rw [kept]
  unfold inferType
  split
  · rfl
  · rename_i untyped
    rw [Bool.or_eq_true, Entries.contains_iff, Entries.contains_iff, not_or] at untyped
    have absent := typed.implied untyped.1 untyped.2
    rw [← Entries.contains_iff, ← Entries.contains_iff] at absent
    rw [if_neg absent.1, if_neg absent.2]

/-- After the pass over types every schema is typed. -/
theorem establishes_type : typePass.Establishes 3 4 where
  own {site members changed} lawful same := by
    have inside := typePass.rewrites site lawful.distinct
    have edited : Edits (· = "type") (typePass.rewritten site members) changed := by
      cases same.symm.trans (typePass.object site members)
      show Edits _ _ (typePass.edit site members (typePass.rewritten site members))
      rw [typePass_edit]
      split
      · have dropped := edits_dropAnyType inside.distinct
        exact (dropped.trans (edits_inferType dropped.distinct)).mono
          (fun _ => or_self_iff.mp) fun _ _ => rfl
      · exact .refl inside.distinct
    have rewritten := inside.trans edited
    refine ⟨rewritten.distinct, fun _ mark => ?_, fun _ literal => ?_, fun _ schema => ?_, by simp⟩
    · exact rewritten.unmarked (by simp) (fun value plain => (bool?_inferTypes _ value).trans plain)
        (lawful.unmarked (by simp) mark)
    · exact mt (rewritten.mem_keys_iff (by simp)).mp (lawful.unlisted (by simp) literal)
    · cases same.symm.trans (typePass.object site members)
      show Typed (typePass.edit site members (typePass.rewritten site members))
      rw [typePass_edit, if_pos schema]
      exact typed_inferType inside.distinct
  inner {site members} form given name value found := by
    have inside := typePass.rewrites site form.own.distinct
    rw [typePass_edit] at found
    split at found
    · rw [get?_inferType, get?_dropAnyType inside.distinct, get?_dropAnyType inside.distinct,
        if_pos rfl] at found
      split at found
      · rename_i same
        rw [same]
        rcases Option.or_eq_some_iff.mp found with kept | ⟨-, implied⟩
        · exact given "type" value (Option.filter_eq_some_iff.mp kept).1
        · unfold impliedType at implied
          repeat' split at implied
          all_goals cases implied <;> exact .string
      · exact given name value found
    · exact given name value found
  bool {site flag} form := by
    cases form with
    | bool admitted => exact .bool fun _ => admitted (by simp)

end Typing

/-! ## The pass over flags of nullable schemas -/

section Nullable

/-- The pass over flags of nullable schemas. -/
def nullablePass : Pass where
  run _ := admitNulls
  edit _ _ rewritten := admitNullIfFlagged rewritten
  null _ := rfl
  number _ _ := rfl
  string _ _ := rfl
  array _ items := congrArg _ (admitNullsItems_eq items)
  object _ members := by rw [admitNulls, admitNullsMembers_eq]

/-- The pass over flags of nullable schemas edits wherever it finds a flag. -/
theorem nullablePass_edit (rewritten : List (String × JsonValue)) :
    nullablePass.edit site members rewritten = admitNullIfFlagged rewritten := rfl

/-- Whether a schema is flagged as nullable. -/
def isFlagged (members : List (String × JsonValue)) : Bool :=
  hasFlag "nullable" members || hasFlag "x-nullable" members

/-- What a lookup finds after flags are turned into a type. -/
theorem get?_admitNullIfFlagged (distinct : (Entries.keys members).Nodup) (name : String) :
    Entries.get? name (admitNullIfFlagged members) =
      if isFlagged members = true then
        if name = "nullable" ∨ name = "x-nullable" then none
        else if name = "type" then (Entries.get? "type" members).map admitNull
        else Entries.get? name members
      else Entries.get? name members := by
  have first : Edits (· = "nullable") members _ := .swapErase distinct
  have rest (other : String) : Entries.get? other (Entries.swapErase "x-nullable"
      (Entries.swapErase "nullable" members)) =
        if other = "nullable" ∨ other = "x-nullable" then none else Entries.get? other members := by
    rw [Entries.get?_swapErase first.distinct, Entries.get?_swapErase distinct]
    by_cases flag : other = "nullable" <;> by_cases extension : other = "x-nullable" <;>
      simp [flag, extension]
  have type := rest "type"
  rw [if_neg (by decide)] at type
  unfold admitNullIfFlagged
  have flags : (hasFlag "nullable" members || hasFlag "x-nullable" members) = isFlagged members :=
    rfl
  rw [flags]
  split
  · simp only [type]
    cases found : Entries.get? "type" members with
    | none =>
      rw [rest]
      split
      · rfl
      · split
        · rename_i same
          rw [same, found]
          rfl
        · rfl
    | some type =>
      rw [Entries.get?_insert, rest]
      split
      · rename_i same
        rw [if_neg (by rw [same]; decide)]
        rfl
      · rfl
  · rfl

/-- A type that admits null is `any` when the type is. -/
theorem isAnyType_admitNull (type : JsonValue) : isAnyType (admitNull type) = isAnyType type := by
  cases type with
  | string name =>
    rw [admitNull]
    split <;> simp [isAnyType, string?]
  | array names =>
    rw [admitNull]
    split <;> simp [isAnyType, string?]
  | _ => rfl

/-- Turning the flags in a type into types does not make it `any`. -/
theorem isAnyType_admitNulls (type : JsonValue) : isAnyType (admitNulls type) = isAnyType type := by
  cases type with
  | array names =>
    rw [admitNulls, admitNullsItems_eq, isAnyType, isAnyType, List.any_map]
    simp [Function.comp_def, string?_admitNulls]
  | _ => rfl

/-- Turning flags into a type keeps a schema typed. -/
theorem Typed.admitNullIfFlagged (typed : Typed members) (distinct : (Entries.keys members).Nodup) :
    Typed (admitNullIfFlagged members) where
  known type found := by
    rw [get?_admitNullIfFlagged distinct, if_neg (by decide : ¬("type" = "nullable" ∨ _)),
      if_pos rfl] at found
    split at found
    · obtain ⟨earlier, given, rfl⟩ := Option.map_eq_some_iff.mp found
      rw [isAnyType_admitNull]
      exact typed.known earlier given
    · exact typed.known type found
  implied untyped unreferenced := by
    have kept (name : String) (apart : name ≠ "nullable" ∧ name ≠ "x-nullable") :
        name ∈ Entries.keys (Raml.Schema.admitNullIfFlagged members) ↔
          name ∈ Entries.keys members := by
      rw [Entries.mem_keys_iff, Entries.mem_keys_iff, get?_admitNullIfFlagged distinct,
        if_neg (by simp [apart] : ¬(name = "nullable" ∨ name = "x-nullable"))]
      repeat' split
      all_goals simp_all
    rw [kept _ (by decide)] at untyped unreferenced
    rw [kept _ (by decide), kept _ (by decide)]
    exact typed.implied untyped unreferenced

/-- Rewriting the members of a schema without making types `any` keeps it typed. -/
theorem Typed.rewrite {change : String → JsonValue → JsonValue} {after : List (String × JsonValue)}
    (typed : Typed members) (rewritten : Rewrites (fun _ => False) change members after)
    (same : ∀ type, isAnyType (change "type" type) = isAnyType type) : Typed after where
  known type found := by
    rw [rewritten.lookup "type" id] at found
    obtain ⟨earlier, given, rfl⟩ := Option.map_eq_some_iff.mp found
    rw [same]
    exact typed.known earlier given
  implied untyped unreferenced := by
    rw [rewritten.mem_keys_iff id] at untyped unreferenced
    rw [rewritten.mem_keys_iff id, rewritten.mem_keys_iff id]
    exact typed.implied untyped unreferenced

/-- A type that admits null is in form when the type is. -/
theorem inForm_admitNull {type : JsonValue} (form : InForm passes site type) :
    InForm passes site (admitNull type) := by
  cases type with
  | string name =>
    rw [admitNull]
    split
    · exact .string
    · refine .array (List.forall_mem_cons.mpr ⟨.string, fun item inside => ?_⟩)
      rw [List.mem_singleton.mp inside]
      exact .string
  | array names =>
    rw [admitNull]
    split
    · exact form
    · refine .array (List.forall_mem_append.mpr ⟨fun _ => form.of_mem, fun item inside => ?_⟩)
      rw [List.mem_singleton.mp inside]
      exact .string
  | _ => exact form

/-- After the last pass no flag is left. -/
theorem establishes_nullable : nullablePass.Establishes 4 5 where
  own {site members changed} lawful same := by
    have inside := Rewrites.of_map (fun _ => admitNulls) lawful.distinct
    have edited := edits_admitNullIfFlagged inside.distinct
    cases same.symm.trans (nullablePass.object site members)
    have rewritten := inside.trans edited
    refine ⟨rewritten.distinct, fun _ mark => ?_, fun _ literal => ?_, fun _ schema => ?_,
      fun _ => hasFlag_admitNullIfFlagged inside.distinct⟩
    · exact rewritten.unmarked (by simp [nullableKeywords])
        (fun value plain => (bool?_admitNulls value).trans plain) (lawful.unmarked (by simp) mark)
    · exact mt (rewritten.mem_keys_iff (by simp [nullableKeywords])).mp
        (lawful.unlisted (by simp) literal)
    · exact ((lawful.typed (by simp) schema).rewrite inside
        isAnyType_admitNulls).admitNullIfFlagged inside.distinct
  inner {site members} form given name value found := by
    have inside := nullablePass.rewrites site form.own.distinct
    rw [nullablePass_edit, get?_admitNullIfFlagged inside.distinct] at found
    split at found
    · split at found
      · contradiction
      · split at found
        · rename_i same
          rw [same]
          obtain ⟨type, earlier, rfl⟩ := Option.map_eq_some_iff.mp found
          exact inForm_admitNull (given "type" type earlier)
        · exact given name value found
    · exact given name value found
  bool {site flag} form := by
    cases form with
    | bool admitted => exact .bool fun _ => admitted (by simp)

end Nullable

/-- A normalized schema is in the form of all passes. -/
theorem inForm_normalize {schema : JsonValue} (distinct : schema.Distinct) :
    InForm 5 .root (normalize schema) := by
  have required : InForm 1 .root (requiredPass.run .root schema) :=
    establishes_required.inForm_run (.of_distinct distinct)
  have constant := establishes_constant.inForm_run required
  have flag := establishes_flag.inForm_run constant
  have type := establishes_type.inForm_run flag
  exact establishes_nullable.inForm_run type

end Raml.Schema
