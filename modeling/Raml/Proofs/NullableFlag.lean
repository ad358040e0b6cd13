import Raml.Proofs.SchemaLaw
import Raml.Proofs.SchemaReading

/-!
# A flag at the end of a property's schema

Normalization of a map of properties, beside normalization of the same map where one property's
schema has `nullable` at its end. Every pass leaves the two maps alike: they have the same names in
the same order, and apart from the flagged property only a list that is made out of the map's own
names can differ.
-/
namespace Raml

namespace Entries

variable {α β : Type}

/-- The names after a removal that moves the last entry depend on the names only. -/
theorem keys_swapErase_congr {key : String} {entries : List (String × α)}
    {others : List (String × β)} (same : keys entries = keys others) :
    keys (swapErase key entries) = keys (swapErase key others) := by
  have step {γ : Type} (name : String) (value : γ) (rest : List (String × γ)) :
      keys (swapErase key ((name, value) :: rest)) =
        if name = key then (keys rest).getLast?.toList ++ (keys rest).dropLast
        else name :: keys (swapErase key rest) := by
    rw [swapErase]
    split
    · rcases List.eq_nil_or_concat rest with rfl | ⟨before, last, rfl⟩ <;> simp [keys]
    · rfl
  induction entries generalizing others with
  | nil =>
    cases others with
    | nil => rfl
    | cons => contradiction
  | cons entry rest ih =>
    cases others with
    | nil => contradiction
    | cons other more =>
      obtain ⟨name, tail⟩ := List.cons.inj same
      obtain ⟨first, value⟩ := entry
      obtain ⟨second, held⟩ := other
      simp only at name
      subst name
      rw [step, step]
      have rests : keys rest = keys more := tail
      rw [rests, ih rests]

end Entries

namespace Schema

open JsonValue

/-! ## One schema -/

/-- The same members with `nullable` set besides; the order may differ. -/
structure Flagged (plain flagged : List (String × JsonValue)) : Prop where
  /-- The names are distinct. -/
  distinct : (Entries.keys plain).Nodup
  /-- They are so with the flag. -/
  distinct_flagged : (Entries.keys flagged).Nodup
  /-- There was no flag. -/
  unflagged : "nullable" ∉ Entries.keys plain ∧ "x-nullable" ∉ Entries.keys plain
  /-- Only the flag is new. -/
  lookup : ∀ name, Entries.get? name flagged =
    if name = "nullable" then some (.bool true) else Entries.get? name plain

namespace Flagged

variable {plain flagged : List (String × JsonValue)} {name : String}

/-- A flag at the end. -/
theorem append (distinct : (Entries.keys plain).Nodup)
    (unflagged : "nullable" ∉ Entries.keys plain ∧ "x-nullable" ∉ Entries.keys plain) :
    Flagged plain (plain ++ [("nullable", .bool true)]) := by
  have inserted := Entries.insert_of_not_mem (.bool true) unflagged.1
  refine ⟨distinct, ?_, unflagged, fun name => ?_⟩
  · exact inserted ▸ Entries.nodup_insert distinct
  · rw [← inserted, Entries.get?_insert]

/-- What stands under another name is the same. -/
theorem get?_eq (held : Flagged plain flagged) (other : name ≠ "nullable") :
    Entries.get? name flagged = Entries.get? name plain := by
  rw [held.lookup, if_neg other]

/-- Another name is present when it was. -/
theorem contains (held : Flagged plain flagged) (other : name ≠ "nullable") :
    Entries.contains name flagged = Entries.contains name plain := by
  rw [Entries.contains, Entries.contains, held.get?_eq other]

/-- The flag stays when another name is removed. -/
theorem swapErase (held : Flagged plain flagged) (other : name ≠ "nullable") :
    Flagged (Entries.swapErase name plain) (Entries.swapErase name flagged) where
  distinct := Entries.nodup_swapErase held.distinct
  distinct_flagged := Entries.nodup_swapErase held.distinct_flagged
  unflagged := by
    have gone (key : String) (absent : key ∉ Entries.keys plain) :
        key ∉ Entries.keys (Entries.swapErase name plain) := by
      rw [← Entries.get?_eq_none] at absent ⊢
      rw [Entries.get?_swapErase held.distinct, absent, ite_self]
    exact ⟨gone _ held.unflagged.1, gone _ held.unflagged.2⟩
  lookup key := by
    rw [Entries.get?_swapErase held.distinct_flagged, Entries.get?_swapErase held.distinct,
      held.lookup]
    split
    · rename_i here
      rw [if_neg (here ▸ other)]
    · rfl

/-- The flag stays when another name is written. -/
theorem insert (held : Flagged plain flagged) (value : JsonValue)
    (other : name ≠ "nullable" ∧ name ≠ "x-nullable") :
    Flagged (Entries.insert name value plain) (Entries.insert name value flagged) where
  distinct := Entries.nodup_insert held.distinct
  distinct_flagged := Entries.nodup_insert held.distinct_flagged
  unflagged := by
    have gone (key : String) (apart : name ≠ key) (absent : key ∉ Entries.keys plain) :
        key ∉ Entries.keys (Entries.insert name value plain) := by
      rw [← Entries.get?_eq_none] at absent ⊢
      rw [Entries.get?_insert, if_neg apart.symm, absent]
    exact ⟨gone _ other.1 held.unflagged.1, gone _ other.2 held.unflagged.2⟩
  lookup key := by
    rw [Entries.get?_insert, Entries.get?_insert, held.lookup]
    split
    · rename_i here
      rw [if_neg (here ▸ other.1)]
    · rfl

/-- The flag stays when a missing member is added. -/
theorem addMissing (held : Flagged plain flagged) (value : JsonValue)
    (other : name ≠ "nullable" ∧ name ≠ "x-nullable") :
    Flagged (addMissing name value plain) (Schema.addMissing name value flagged) := by
  rw [Schema.addMissing, Schema.addMissing, held.contains other.1]
  split
  · exact held
  · rename_i missing
    have absent : name ∉ Entries.keys plain := fun inside =>
      missing (Entries.contains_iff.mpr inside)
    have absent_flagged : name ∉ Entries.keys flagged := by
      rw [← Entries.contains_iff, held.contains other.1]
      exact missing
    rw [← Entries.insert_of_not_mem value absent, ← Entries.insert_of_not_mem value absent_flagged]
    exact held.insert value other

/-- The flag stays when members are rewritten. -/
theorem map (held : Flagged plain flagged) (change : String → JsonValue → JsonValue)
    (kept : change "nullable" (.bool true) = .bool true) :
    Flagged (plain.map fun member => (member.1, change member.1 member.2))
      (flagged.map fun member => (member.1, change member.1 member.2)) where
  distinct := (Rewrites.of_map change held.distinct).distinct
  distinct_flagged := (Rewrites.of_map change held.distinct_flagged).distinct
  unflagged := by
    have rewritten := Rewrites.of_map change held.distinct
    rw [rewritten.mem_keys_iff id, rewritten.mem_keys_iff id]
    exact held.unflagged
  lookup key := by
    rw [Entries.get?_map, Entries.get?_map, held.lookup]
    split
    · rename_i here
      rw [here, Option.map_some, kept]
    · rfl

end Flagged

/-- The members of an object after a pass. -/
def Pass.after (pass : Pass) (site : Site) (members : List (String × JsonValue)) :
    List (String × JsonValue) :=
  pass.edit site members (pass.rewritten site members)

/-- A pass makes an object of an object. -/
theorem Pass.run_object (pass : Pass) (site : Site) (members : List (String × JsonValue)) :
    pass.run site (.object members) = .object (pass.after site members) := pass.object site members

/-- A pass makes nothing of a flag at a site. -/
def Pass.KeepsFlag (pass : Pass) (site : Site) : Prop :=
  pass.run (site.member "nullable") (.bool true) = .bool true

section Passes

variable {plain flagged : List (String × JsonValue)} {site : Site}

/-- A pass rewrites the members beside the flag. -/
theorem Flagged.rewritten (held : Flagged plain flagged) {pass : Pass}
    (keeps : pass.KeepsFlag site) :
    Flagged (pass.rewritten site plain) (pass.rewritten site flagged) :=
  held.map (fun name => pass.run (site.member name)) keeps

/-- The pass over marks of required properties takes out the mark of a property and lists the names
that were marked. -/
theorem requiredPass_edit (members rewritten : List (String × JsonValue)) :
    requiredPass.edit site members rewritten =
      addRequired (requiredNames site.propertyMap members)
        (if site.marked then dropRequiredMark rewritten else rewritten) := rfl

/-- The flag stays when the mark of a required property is taken out. -/
theorem Flagged.dropRequiredMark (held : Flagged plain flagged) :
    Flagged (dropRequiredMark plain) (Schema.dropRequiredMark flagged) := by
  have same : hasRequiredMark flagged = hasRequiredMark plain := by
    rw [hasRequiredMark, hasRequiredMark, held.get?_eq (by decide)]
  rw [Schema.dropRequiredMark, Schema.dropRequiredMark, same]
  split
  · exact held.swapErase (by decide)
  · exact held

/-- The flag stays when required names are added. -/
theorem Flagged.addRequired (held : Flagged plain flagged) (names : List String) :
    Flagged (addRequired names plain) (Schema.addRequired names flagged) := by
  have written (value : JsonValue) : Flagged (Entries.insert "required" value plain)
      (Entries.insert "required" value flagged) := held.insert value (by decide)
  have same : Entries.get? "required" flagged = Entries.get? "required" plain :=
    held.get?_eq (by decide)
  rw [Schema.addRequired, Schema.addRequired, same]
  split
  · exact held
  · cases found : Entries.get? "required" plain with
    | none =>
      have absent := Entries.get?_eq_none.mp found
      have absent_flagged := Entries.get?_eq_none.mp (same.trans found)
      simp only
      rw [← Entries.insert_of_not_mem _ absent, ← Entries.insert_of_not_mem _ absent_flagged]
      exact written _
    | some value =>
      cases value with
      | array listed => exact written _
      | _ => exact held

/-- The pass over required properties keeps the flag. -/
theorem Flagged.after_required (held : Flagged plain flagged) :
    Flagged (requiredPass.after site plain) (requiredPass.after site flagged) := by
  have names : requiredNames site.propertyMap flagged = requiredNames site.propertyMap plain := by
    rw [requiredNames, requiredNames, held.get?_eq (by decide)]
  have inside : Flagged (requiredPass.rewritten site plain) (requiredPass.rewritten site flagged) :=
    held.rewritten rfl
  rw [Pass.after, Pass.after, requiredPass_edit, requiredPass_edit, names]
  split
  · exact inside.dropRequiredMark.addRequired _
  · exact inside.addRequired _

/-- The flag stays when a constant is listed. -/
theorem Flagged.listConstant (held : Flagged plain flagged) (constant : JsonValue) :
    Flagged (listConstant constant plain) (Schema.listConstant constant flagged) := by
  have erased : Flagged (Entries.swapErase "const" plain) (Entries.swapErase "const" flagged) :=
    held.swapErase (by decide)
  have listed : Flagged
      (Schema.addMissing "enum" (.array [constant]) (Entries.swapErase "const" plain))
      (Schema.addMissing "enum" (.array [constant]) (Entries.swapErase "const" flagged)) :=
    erased.addMissing _ (by decide)
  rw [Schema.listConstant, Schema.listConstant]
  split
  · exact listed.addMissing _ (by decide)
  · exact listed

/-- The pass over constants keeps the flag. -/
theorem Flagged.after_constant (held : Flagged plain flagged) :
    Flagged (constantPass.after site plain) (constantPass.after site flagged) := by
  have keeps : constantPass.KeepsFlag site := by
    simp only [Pass.KeepsFlag, constantPass, listConstantsUnless, listConstants, ite_self]
  have inside := held.rewritten keeps
  rw [Pass.after, Pass.after, constantPass_edit, constantPass_edit, held.get?_eq (by decide)]
  split
  · exact inside
  · split
    · exact inside.listConstant _
    · exact inside

/-- In a schema the pass over booleans keeps the flag. -/
theorem Flagged.after_flag (held : Flagged plain flagged) (schema : site.flags = .schema) :
    Flagged (flagPass.after site plain) (flagPass.after site flagged) := by
  have keeps : flagPass.KeepsFlag site := by
    have data : (site.member "nullable").flags = .data := by
      show site.flags.below "nullable" = .data
      rw [schema]
      decide
    show replaceFlags (site.member "nullable").flags (.bool true) = .bool true
    rw [data, replaceFlags_data, id]
  exact held.rewritten keeps

/-- The flag stays when the type `any` is dropped and another is inferred. -/
theorem Flagged.inferType (held : Flagged plain flagged) :
    Flagged (inferType (dropAnyType plain)) (Schema.inferType (dropAnyType flagged)) := by
  have dropped : Flagged (dropAnyType plain) (dropAnyType flagged) := by
    rw [dropAnyType, dropAnyType, held.get?_eq (by decide)]
    split
    · exact held.swapErase (by decide)
    · exact held
  have typed (type : JsonValue) (missing : Entries.contains "type" (dropAnyType plain) = false) :
      Flagged (dropAnyType plain ++ [("type", type)])
        (dropAnyType flagged ++ [("type", type)]) := by
    have added : Flagged (Schema.addMissing "type" type (dropAnyType plain))
        (Schema.addMissing "type" type (dropAnyType flagged)) :=
      dropped.addMissing type (by decide)
    rwa [Schema.addMissing, Schema.addMissing, dropped.contains (by decide), missing,
      if_neg Bool.false_ne_true, if_neg Bool.false_ne_true] at added
  -- The type, the reference, the properties and the items are present alike.
  rw [Schema.inferType, Schema.inferType, dropped.contains (by decide),
    dropped.contains (by decide), dropped.contains (by decide), dropped.contains (by decide)]
  split
  · exact dropped
  · rename_i untyped
    have missing : Entries.contains "type" (dropAnyType plain) = false := by simp_all
    split
    · exact typed _ missing
    · split
      · exact typed _ missing
      · exact dropped

/-- The pass over types keeps the flag. -/
theorem Flagged.after_type (held : Flagged plain flagged) :
    Flagged (typePass.after site plain) (typePass.after site flagged) := by
  have inside : Flagged (typePass.rewritten site plain) (typePass.rewritten site flagged) :=
    held.rewritten rfl
  rw [Pass.after, Pass.after, typePass_edit, typePass_edit]
  split
  · exact inside.inferType
  · exact inside

/-- Without a flag nothing is made to admit null, and with it the type is. -/
theorem Flagged.after_nullable (held : Flagged plain flagged) :
    Matches AdmitsNull (nullablePass.after site plain) (nullablePass.after site flagged) := by
  have inside : Flagged (nullablePass.rewritten site plain) (nullablePass.rewritten site flagged) :=
    held.rewritten rfl
  have absent := inside.unflagged
  rw [← Entries.get?_eq_none, ← Entries.get?_eq_none] at absent
  have set : isFlagged (nullablePass.rewritten site flagged) = true := by
    rw [isFlagged, hasFlag, inside.lookup, if_pos rfl]
    rfl
  have unset : isFlagged (nullablePass.rewritten site plain) = false := by
    rw [isFlagged, hasFlag, hasFlag, absent.1, absent.2]
    rfl
  rw [Pass.after, Pass.after, nullablePass_edit, nullablePass_edit]
  -- The flag is set on one side only, where it goes and null comes into the type.
  refine ⟨(edits_admitNullIfFlagged inside.distinct).distinct,
    (edits_admitNullIfFlagged inside.distinct_flagged).distinct, fun name => ?_⟩
  rw [get?_admitNullIfFlagged inside.distinct, get?_admitNullIfFlagged inside.distinct_flagged,
    unset, set, if_neg Bool.false_ne_true, if_pos rfl]
  split
  · rename_i flag
    rcases flag with rfl | rfl
    · rw [absent.1]
      exact .none
    · rw [absent.2]
      exact .none
  · rename_i other
    rw [not_or] at other
    rw [inside.get?_eq (by decide), inside.get?_eq other.1]
    split
    · rename_i here
      subst here
      cases Entries.get? "type" (nullablePass.rewritten site plain) with
      | none => exact .none
      | some type => exact .some (if_pos rfl).symm
    · rename_i here
      exact rel_self (fun _ => (if_neg here).symm) _

end Passes

/-! ## The map of properties -/

/-- Two maps have the same names in the same order, and under each name values that match. -/
structure Alike (same : String → JsonValue → JsonValue → Prop)
    (left right : List (String × JsonValue)) : Prop extends Matches same left right where
  /-- The names stand in one order. -/
  keys : Entries.keys left = Entries.keys right

namespace Alike

variable {same other : String → JsonValue → JsonValue → Prop}
variable {left right : List (String × JsonValue)} {name : String}

/-- Maps stay alike when matching values are rewritten as matching values. -/
theorem map (alike : Alike same left right) (change : String → JsonValue → JsonValue)
    (each : ∀ name first second, same name first second →
      other name (change name first) (change name second)) :
    Alike other (left.map fun member => (member.1, change member.1 member.2))
      (right.map fun member => (member.1, change member.1 member.2)) where
  distinct := (Rewrites.of_map change alike.distinct).distinct
  distinct_right := (Rewrites.of_map change alike.distinct_right).distinct
  lookup name := by
    rw [Entries.get?_map, Entries.get?_map, Option.map_eq_bind, Option.map_eq_bind]
    exact rel_bind (alike.lookup name) fun _ _ held => .some (each name _ _ held)
  keys := by
    simpa [Entries.keys, Function.comp_def] using alike.keys

/-- Maps stay alike when a name is removed. -/
theorem swapErase (alike : Alike same left right) :
    Alike same (Entries.swapErase name left) (Entries.swapErase name right) where
  distinct := Entries.nodup_swapErase alike.distinct
  distinct_right := Entries.nodup_swapErase alike.distinct_right
  lookup key := by
    rw [Entries.get?_swapErase alike.distinct, Entries.get?_swapErase alike.distinct_right]
    split
    · exact .none
    · exact alike.lookup key
  keys := Entries.keys_swapErase_congr alike.keys

/-- Maps stay alike when matching values are written. -/
theorem insert (alike : Alike same left right) {first second : JsonValue}
    (held : same name first second) :
    Alike same (Entries.insert name first left) (Entries.insert name second right) where
  distinct := Entries.nodup_insert alike.distinct
  distinct_right := Entries.nodup_insert alike.distinct_right
  lookup key := by
    rw [Entries.get?_insert, Entries.get?_insert]
    split
    · rename_i here
      exact .some (here ▸ held)
    · exact alike.lookup key
  keys := by rw [Entries.keys_insert, Entries.keys_insert, alike.keys]

/-- Maps stay alike when matching values are added at the end under a missing name. -/
theorem append (alike : Alike same left right) {first second : JsonValue}
    (held : same name first second) (missing : name ∉ Entries.keys left) :
    Alike same (left ++ [(name, first)]) (right ++ [(name, second)]) := by
  have missing_right : name ∉ Entries.keys right := alike.keys ▸ missing
  rw [← Entries.insert_of_not_mem first missing, ← Entries.insert_of_not_mem second missing_right]
  exact alike.insert held

/-- Maps stay alike when matching values are added under a name that may be missing. -/
theorem addMissing (alike : Alike same left right) {first second : JsonValue}
    (held : same name first second) :
    Alike same (addMissing name first left) (Schema.addMissing name second right) := by
  rw [Schema.addMissing, Schema.addMissing, alike.contains]
  split
  · exact alike
  · rename_i missing
    rw [← alike.contains, Entries.contains_iff] at missing
    exact alike.append held missing

end Alike

/-- How what stands under a name of the two maps can differ: it is the flagged property, the list
of required names that a flagged property called `properties` shuffles, or the list of the constant
that a flagged property called `const` is taken for. -/
inductive Related (name : String) (shuffles : Prop)
    (flag : List (String × JsonValue) → List (String × JsonValue) → Prop) (key : String) :
    JsonValue → JsonValue → Prop
  | same {value : JsonValue} : Related name shuffles flag key value value
  | flagged {plain flagged : List (String × JsonValue)} (here : key = name)
      (held : flag plain flagged) :
    Related name shuffles flag key (.object plain) (.object flagged)
  | shuffled {items : List JsonValue} {names others : List String} (here : key = "required")
      (shuffled : shuffles) (order : names.Perm others) :
    Related name shuffles flag key (.array (items ++ names.map .string))
      (.array (items ++ others.map .string))
  | constant {plain flagged : List (String × JsonValue)} (here : key = "enum")
      (taken : name = "const") :
    Related name shuffles flag key (.array [.object plain]) (.array [.object flagged])

section Map

variable {name : String} {shuffles : Prop}
variable {flag other : List (String × JsonValue) → List (String × JsonValue) → Prop}
variable {left right : List (String × JsonValue)}

/-- A pass leaves related what was related. -/
theorem Related.run {pass : Pass} {site : Site}
    (keeps : ∀ plain flagged, flag plain flagged →
      other (pass.after (site.member name) plain) (pass.after (site.member name) flagged))
    {key : String} {first second : JsonValue}
    (related : Related name shuffles flag key first second) :
    Related name shuffles other key (pass.run (site.member key) first)
      (pass.run (site.member key) second) := by
  cases related with
  | same => exact .same
  | flagged here held =>
    rw [pass.run_object, pass.run_object]
    exact .flagged here (here ▸ keeps _ _ held)
  | shuffled here shuffled order =>
    have texts (names : List String) : (names.map JsonValue.string).map
        (pass.run (site.member key).item) = names.map .string := by
      rw [List.map_map]
      exact List.map_congr_left fun text _ => pass.string _ text
    rw [pass.array, pass.array, List.map_append, List.map_append, texts, texts]
    exact .shuffled here shuffled order
  | constant here taken =>
    rw [pass.array, pass.array, List.map_singleton, List.map_singleton, pass.run_object,
      pass.run_object]
    exact .constant here taken

/-- A pass that rewrites related maps leaves them related. -/
theorem Alike.rewritten {pass : Pass} {site : Site}
    (alike : Alike (Related name shuffles flag) left right)
    (keeps : ∀ plain flagged, flag plain flagged →
      other (pass.after (site.member name) plain) (pass.after (site.member name) flagged)) :
    Alike (Related name shuffles other) (pass.rewritten site left) (pass.rewritten site right) :=
  alike.map (fun key => pass.run (site.member key)) fun _ _ _ related => related.run keeps

/-! ### Required names -/

/-- New names with distinct texts are added in order. -/
theorem foldl_addName_eq {names : List String} (distinct : names.Nodup) (listed : List JsonValue) :
    names.foldl addName listed = listed ++ (names.filter fun name =>
      !listed.any fun item => item.string? = some name).map .string := by
  induction names generalizing listed with
  | nil => exact (List.append_nil listed).symm
  | cons first rest ih =>
    rw [List.nodup_cons] at distinct
    rw [List.foldl_cons, ih distinct.2, addName]
    cases known : listed.any fun item => item.string? = some first with
    | true => simp [known]
    | false =>
      have later : (rest.filter fun name => !(listed ++ [JsonValue.string first]).any
          fun item => item.string? = some name) =
          rest.filter fun name => !listed.any fun item => item.string? = some name := by
        refine List.filter_congr fun name inside => ?_
        have apart : first ≠ name := by
          rintro rfl
          exact distinct.1 inside
        simp [string?, apart]
      rw [if_neg Bool.false_ne_true, later, List.filter_cons, if_pos (by rw [known]; rfl)]
      simp

/-- Lists of required names that are made of the same names are related. -/
theorem related_foldl_addName {names others : List String}
    (made : names = others ∨ shuffles ∧ names.Perm others ∧ names.Nodup) (listed : List JsonValue) :
    Related name shuffles flag "required" (.array (names.foldl addName listed))
      (.array (others.foldl addName listed)) := by
  rcases made with rfl | ⟨shuffled, order, distinct⟩
  · exact .same
  · rw [foldl_addName_eq distinct, foldl_addName_eq (order.nodup_iff.mp distinct)]
    exact .shuffled rfl shuffled (order.filter _)

/-- Maps stay related when the same names are added to their lists. -/
theorem Alike.addRequired {names others : List String}
    (alike : Alike (Related name False flag) left right)
    (made : names = others ∨ shuffles ∧ names.Perm others ∧ names.Nodup) :
    Alike (Related name shuffles flag) (addRequired names left)
      (Schema.addRequired others right) := by
  have weaker : Alike (Related name shuffles flag) left right := by
    refine ⟨⟨alike.distinct, alike.distinct_right, fun key => ?_⟩, alike.keys⟩
    refine rel_mono (alike.lookup key) fun first second related => ?_
    cases related with
    | same => exact .same
    | flagged here held => exact .flagged here held
    | shuffled _ shuffled _ => exact shuffled.elim
    | constant here taken => exact .constant here taken
  have empty : names.isEmpty = others.isEmpty := by
    rcases made with rfl | ⟨-, order, -⟩
    · rfl
    · rw [Bool.eq_iff_iff, List.isEmpty_iff, List.isEmpty_iff]
      exact ⟨fun none => List.nil_perm.mp (none ▸ order),
        fun none => List.perm_nil.mp (none ▸ order)⟩
  have rel := alike.lookup "required"
  rw [Schema.addRequired, Schema.addRequired, empty]
  split
  · exact weaker
  · cases first : Entries.get? "required" left with
    | none =>
      cases second : Entries.get? "required" right with
      | none => exact weaker.append (related_foldl_addName made []) (Entries.get?_eq_none.mp first)
      | some value =>
        rw [first, second] at rel
        nomatch rel
    | some value =>
      cases second : Entries.get? "required" right with
      | none =>
        rw [first, second] at rel
        nomatch rel
      | some held =>
        rw [first, second] at rel
        cases rel with
        | some related =>
          cases related with
          | same =>
            cases value with
            | array listed => exact weaker.insert (related_foldl_addName made listed)
            | _ => exact weaker
          | flagged => exact weaker
          | shuffled _ shuffled _ => exact shuffled.elim
          | constant here => exact absurd here (by decide)

/-- The names that properties mark are distinct, and each of them has a marked schema. -/
theorem mem_markedNames {properties : List (String × JsonValue)}
    (distinct : (Entries.keys properties).Nodup) :
    (markedNames properties).Nodup ∧ ∀ key, key ∈ markedNames properties ↔
      ∃ schema, Entries.get? key properties = some schema ∧ isMarkedRequired schema = true := by
  refine ⟨distinct.sublist (List.filter_sublist.map _), fun key => ?_⟩
  simp only [markedNames, List.mem_map, List.mem_filter]
  constructor
  · rintro ⟨⟨name, schema⟩, ⟨inside, marked⟩, rfl⟩
    exact ⟨schema, Entries.get?_of_mem distinct inside, marked⟩
  · rintro ⟨schema, found, marked⟩
    exact ⟨(key, schema), ⟨Entries.mem_of_get? found, marked⟩, rfl⟩

/-- Beside a flag the same names are marked. -/
theorem Flagged.markedNames_perm {plain flagged : List (String × JsonValue)}
    (held : Flagged plain flagged) : (markedNames plain).Perm (markedNames flagged) := by
  obtain ⟨distinct, mem⟩ := mem_markedNames held.distinct
  obtain ⟨distinct_flagged, mem_flagged⟩ := mem_markedNames held.distinct_flagged
  refine (List.perm_ext_iff_of_nodup distinct distinct_flagged).mpr fun key => ?_
  rw [mem, mem_flagged, held.lookup]
  split
  · rename_i here
    rw [here, Entries.get?_eq_none.mpr held.unflagged.1]
    simp [isMarkedRequired]
  · rfl

/-- A property's schema with `nullable` at its end. -/
def addFlag (own : List (String × JsonValue)) : JsonValue :=
  .object (own ++ [("nullable", .bool true)])

/-- A flag changes which names a property marks only in their order, and only when the property is
called `properties` and is marked itself. -/
theorem requiredNames_addFlag {entries own : List (String × JsonValue)}
    (property : Entries.get? name entries = some (.object own))
    (held : Flagged own (own ++ [("nullable", .bool true)])) :
    requiredNames true entries = requiredNames true (Entries.insert name (addFlag own) entries) ∨
      (name = "properties" ∧ hasRequiredMark own = true) ∧
        (requiredNames true entries).Perm
          (requiredNames true (Entries.insert name (addFlag own) entries)) ∧
        (requiredNames true entries).Nodup := by
  by_cases here : name = "properties"
  · subst here
    have before : requiredNames true entries = markedNames (dropRequiredMark own) := by
      rw [requiredNames, property]
      rfl
    have after : requiredNames true (Entries.insert "properties" (addFlag own) entries) =
        markedNames (dropRequiredMark (own ++ [("nullable", .bool true)])) := by
      rw [requiredNames, Entries.get?_insert, if_pos rfl]
      rfl
    rw [before, after]
    cases marked : hasRequiredMark own with
    | true =>
      have dropped := held.dropRequiredMark
      exact .inr ⟨⟨rfl, rfl⟩, dropped.markedNames_perm, (mem_markedNames dropped.distinct).1⟩
    | false =>
      have unmarked : hasRequiredMark (own ++ [("nullable", .bool true)]) = false := by
        rw [hasRequiredMark, held.get?_eq (by decide)]
        exact marked
      rw [dropRequiredMark, dropRequiredMark, marked, unmarked, if_neg Bool.false_ne_true,
        if_neg Bool.false_ne_true]
      exact .inl (by simp [markedNames, isMarkedRequired])
  · refine .inl ?_
    rw [requiredNames, requiredNames, Entries.get?_insert, if_neg (Ne.symm here)]

/-! ### The passes -/

/-- The site of the properties of the whole schema. -/
def Site.properties : Site := Site.root.member "properties"

/-- The pass over required properties leaves the maps related. -/
theorem alike_required {entries own : List (String × JsonValue)}
    (distinct : (Entries.keys entries).Nodup)
    (property : Entries.get? name entries = some (.object own))
    (held : Flagged own (own ++ [("nullable", .bool true)])) :
    Alike (Related name (name = "properties" ∧ hasRequiredMark own = true) Flagged)
      (requiredPass.after .properties entries)
      (requiredPass.after .properties (Entries.insert name (addFlag own) entries)) := by
  have start : Alike (Related name False Flagged) entries
      (Entries.insert name (addFlag own) entries) := by
    refine ⟨⟨distinct, Entries.nodup_insert distinct, fun key => ?_⟩, ?_⟩
    · rw [Entries.get?_insert]
      split
      · rename_i here
        rw [here, property]
        exact .some (.flagged rfl held)
      · exact rel_self (fun _ => .same) _
    · have present : name ∈ Entries.keys entries := by simp [Entries.mem_keys_iff, property]
      rw [Entries.keys_insert, if_pos present]
  have inside : Alike (Related name False Flagged) (requiredPass.rewritten .properties entries)
      (requiredPass.rewritten .properties (Entries.insert name (addFlag own) entries)) :=
    start.rewritten
    fun _ _ => Flagged.after_required
  exact inside.addRequired (requiredNames_addFlag property held)

/-- Maps stay related when a constant is listed for both. -/
theorem Alike.listConstant {first second : JsonValue}
    (alike : Alike (Related name shuffles flag) left right)
    (type : typeOfConstant first = typeOfConstant second)
    (listed : Related name shuffles flag "enum" (.array [first]) (.array [second])) :
    Alike (Related name shuffles flag) (listConstant first left)
      (Schema.listConstant second right) := by
  have erased : Alike (Related name shuffles flag) (Entries.swapErase "const" left)
      (Entries.swapErase "const" right) := alike.swapErase
  have valued := erased.addMissing listed
  rw [Schema.listConstant, Schema.listConstant, type]
  split
  · exact valued.addMissing .same
  · exact valued

/-- The pass over constants leaves the maps related. -/
theorem Alike.constant (alike : Alike (Related name shuffles Flagged) left right) :
    Alike (Related name shuffles Flagged) (constantPass.after .properties left)
      (constantPass.after .properties right) := by
  have inside : Alike (Related name shuffles Flagged) (constantPass.rewritten .properties left)
      (constantPass.rewritten .properties right) := alike.rewritten
    fun _ _ => Flagged.after_constant
  have rel := alike.lookup "const"
  rw [Pass.after, Pass.after, constantPass_edit, constantPass_edit,
    show Site.properties.literal = false by decide, if_neg Bool.false_ne_true,
    if_neg Bool.false_ne_true]
  generalize Entries.get? "const" left = first at rel ⊢
  generalize Entries.get? "const" right = second at rel ⊢
  cases rel with
  | none => exact inside
  | some related =>
    cases related with
    | same => exact inside.listConstant rfl .same
    | flagged here => exact inside.listConstant rfl (.constant rfl here.symm)
    | shuffled here => exact absurd here (by decide)
    | constant here => exact absurd here (by decide)

/-- In a map of properties the pass over types only goes into the schemas. -/
theorem after_type_properties (members : List (String × JsonValue)) :
    typePass.after .properties members = typePass.rewritten .properties members := by
  rw [Pass.after, typePass_edit, if_neg (by decide)]

/-- The passes over booleans and types leave the maps related. -/
theorem Alike.flag_type (alike : Alike (Related name shuffles Flagged) left right) :
    Alike (Related name shuffles Flagged)
      (typePass.after .properties (flagPass.after .properties left))
      (typePass.after .properties (flagPass.after .properties right)) := by
  have flags : Alike (Related name shuffles Flagged) (flagPass.after .properties left)
      (flagPass.after .properties right) :=
    alike.rewritten fun _ _ held => held.after_flag rfl
  have types : Alike (Related name shuffles Flagged)
      (typePass.rewritten .properties (flagPass.after .properties left))
      (typePass.rewritten .properties (flagPass.after .properties right)) := flags.rewritten
    fun _ _ => Flagged.after_type
  rw [after_type_properties, after_type_properties]
  exact types

/-- Without booleans no flag is set. -/
theorem admitNullIfFlagged_of_noFlags {members : List (String × JsonValue)}
    (noFlags : ∀ key value, Entries.get? key members = some value → value.bool? = none) :
    admitNullIfFlagged members = members := by
  have unset (key : String) : hasFlag key members = false := by
    rw [hasFlag]
    cases found : Entries.get? key members with
    | none => rfl
    | some value =>
      rw [Option.bind_some, noFlags key value found]
      rfl
  rw [admitNullIfFlagged, unset, unset]
  rfl

/-- In a map of properties the last pass only goes into the schemas. -/
theorem after_nullable_properties (members : List (String × JsonValue)) :
    nullablePass.after .properties
        (typePass.after .properties (flagPass.after .properties members)) =
      nullablePass.rewritten .properties
        (typePass.after .properties (flagPass.after .properties members)) := by
  rw [Pass.after, nullablePass_edit, after_type_properties]
  refine admitNullIfFlagged_of_noFlags fun key value found => ?_
  have replaced : flagPass.after .properties members = flagPass.rewritten .properties members := rfl
  rw [replaced, Pass.rewritten, Pass.rewritten, Pass.rewritten,
    Entries.get?_map fun name => nullablePass.run (Site.properties.member name),
    Entries.get?_map fun name => typePass.run (Site.properties.member name),
    Entries.get?_map fun name => flagPass.run (Site.properties.member name), Option.map_map,
    Option.map_map] at found
  obtain ⟨earlier, -, rfl⟩ := Option.map_eq_some_iff.mp found
  have schema : flagPass.run (Site.properties.member key) earlier = replaceFlags .schema earlier :=
    rfl
  show (admitNulls (inferTypes _ (flagPass.run _ earlier))).bool? = none
  rw [bool?_admitNulls, bool?_inferTypes, schema, bool?_replaceFlags]

/-- The last pass leaves the maps related, the flagged property being made to admit null. -/
theorem Alike.nullable (alike : Alike (Related name shuffles Flagged) left right) :
    Alike (Related name shuffles (Matches AdmitsNull)) (nullablePass.rewritten .properties left)
      (nullablePass.rewritten .properties right) :=
  alike.rewritten fun _ _ => Flagged.after_nullable

end Map

/-- The normal form of a map of properties is what the passes make of it one after another. -/
theorem normalizeIn_properties (entries : List (String × JsonValue)) :
    normalizeIn .root .schemaMap true (.object entries) = .object
      (nullablePass.after .properties (typePass.after .properties (flagPass.after .properties
        (constantPass.after .properties (requiredPass.after .properties entries))))) := by
  have passes : normalizeIn .root .schemaMap true (.object entries) =
      nullablePass.run .properties (typePass.run .properties (flagPass.run .properties
        (constantPass.run .properties (requiredPass.run .properties (.object entries))))) := rfl
  rw [passes, Pass.run_object, Pass.run_object, Pass.run_object, Pass.run_object, Pass.run_object]

/-- Normalization leaves a map of properties related to the same map with a flagged property. -/
theorem alike_normalizeIn {entries own : List (String × JsonValue)} {name : String}
    (distinct : (JsonValue.object entries).Distinct)
    (property : Entries.get? name entries = some (.object own))
    (unflagged : "nullable" ∉ Entries.keys own ∧ "x-nullable" ∉ Entries.keys own) :
    ∃ normal flagged, normalizeIn .root .schemaMap true (.object entries) = .object normal ∧
      normalizeIn .root .schemaMap true (.object (Entries.insert name (addFlag own) entries)) =
        .object flagged ∧
      Alike (Related name (name = "properties" ∧ hasRequiredMark own = true) (Matches AdmitsNull))
        normal flagged := by
  have held : Flagged own (own ++ [("nullable", .bool true)]) :=
    .append (distinct.of_get? property).1 unflagged
  have required := alike_required distinct.1 property held
  refine ⟨_, _, normalizeIn_properties _, normalizeIn_properties _, ?_⟩
  rw [after_nullable_properties, after_nullable_properties]
  exact required.constant.flag_type.nullable

end Schema

end Raml
