import Raml.Proofs.KindCell
import Raml.Proofs.TypeExpr

/-!
# Parents that are built in

A text that is no list between brackets has no parent but itself, and it has none when it is the
name of a built-in type. The names of a list between brackets are its parents whatever they are, so
a built-in type is a parent exactly where such a list has its name.
-/
namespace Raml.TypeExpr

open Text

/-- The name of a built-in type: of objects, of arrays or of a scalar type. -/
inductive BuiltinName : String → Prop where
  | object : BuiltinName objectName
  | array : BuiltinName arrayName
  | scalar (type : ScalarType) : BuiltinName type.name

/-- A name stands in a list between brackets. -/
def Listed (text name : String) : Prop :=
  ∃ list names, Bracketed text list ∧ Lists list names ∧ name ∈ names

/-- The parents of a list of names are the names, however many there are. -/
theorem parents_inheritance (names : List String) : (inheritance names).parents = names := by
  match names with
  | [] | [_] | _ :: _ :: _ => rfl

/-- The parents of a list between brackets are its names. -/
theorem parents_of_bracketed {text list : String} {names : List String}
    (bracketed : Bracketed text list) (lists : Lists list names) :
    (classify text).parents = names := by
  rw [classify_of_bracketed bracketed lists, parents_inheritance]

/-- The name of a built-in type has a form of its own. -/
theorem exists_hasForm_of_builtin {name : String} (builtin : BuiltinName name) :
    ∃ kind, HasForm name kind := by
  cases builtin with
  | object => exact ⟨.object, rfl⟩
  | array => exact ⟨.array none, rfl⟩
  | scalar type => exact ⟨.builtin type, rfl⟩

/-- A text that is no list between brackets has no parent but itself, and that only when it does not
name a built-in type. -/
theorem parent_of_unbracketed {text parent : String}
    (unbracketed : ∀ list, ¬Bracketed text list) (inside : parent ∈ (classify text).parents) :
    parent = text ∧ ¬BuiltinName text := by
  cases kind : classify text with
  | multipleInheritance parents =>
    obtain ⟨-, list, bracketed, -⟩ : Denotes text (.multipleInheritance parents) :=
      classify_eq_iff.mp kind
    exact absurd bracketed (unbracketed list)
  | singleInheritance single =>
    obtain ⟨formless, named⟩ : Denotes text (.singleInheritance single) := classify_eq_iff.mp kind
    rw [kind, Kind.parents, List.mem_singleton] at inside
    constructor
    · rcases named with ⟨list, bracketed, -⟩ | ⟨-, same⟩
      · exact absurd bracketed (unbracketed list)
      · exact inside.trans same
    · intro builtin
      obtain ⟨form, has⟩ := exists_hasForm_of_builtin builtin
      exact formless form has
  | _ =>
    rw [kind] at inside
    contradiction

/-- A built-in type is a parent of a text exactly when a list between brackets has its name. -/
theorem mem_parents_of_builtin {text name : String} (builtin : BuiltinName name) :
    name ∈ (classify text).parents ↔ Listed text name := by
  constructor
  · intro inside
    by_cases unbracketed : ∀ list, ¬Bracketed text list
    · obtain ⟨rfl, other⟩ := parent_of_unbracketed unbracketed inside
      exact absurd builtin other
    · simp only [not_forall, not_not] at unbracketed
      obtain ⟨list, bracketed⟩ := unbracketed
      have lists : Lists list (commaNames list) := commaNames_eq_iff.mp rfl
      exact ⟨list, _, bracketed, lists, parents_of_bracketed bracketed lists ▸ inside⟩
  · rintro ⟨list, names, bracketed, lists, inside⟩
    rw [parents_of_bracketed bracketed lists]
    exact inside

/-- Where built-in types are parents: a text has the name of a built-in type among its parents
exactly when it is a list between brackets that has the name, and so does every type by the text
of its expression. Any other text has no parent but itself, and none when it names a built-in
type. -/
theorem builtin_parent_iff {name : String} (builtin : BuiltinName name) :
    (∀ text, name ∈ (classify text).parents ↔ Listed text name) ∧
      (∀ type : Classified, type.Current →
        (name ∈ type.parents ↔ Listed type.declaration.text name)) ∧
      ∀ text parent, (∀ list, ¬Bracketed text list) → parent ∈ (classify text).parents →
        parent = text ∧ parent ≠ name := by
  refine ⟨fun _ => mem_parents_of_builtin builtin, fun type current => ?_, ?_⟩
  · rw [Classified.parents, current.kind_eq]
    exact mem_parents_of_builtin builtin
  · intro text parent unbracketed inside
    obtain ⟨rfl, other⟩ := parent_of_unbracketed unbracketed inside
    refine ⟨rfl, ?_⟩
    rintro rfl
    exact other builtin

/-- A type that is given by a sequence of a scalar type and a name. -/
def listedSample : Classified :=
  .ofDeclaration
    (.ofParts "Sample" (some (.sequence [.string "integer", .string "Base"])) .empty)

/-- The scalar type is a parent of the sample, and it is none of the text that is its name. -/
theorem builtin_parent_iff_sample :
    BuiltinName "integer" ∧ listedSample.Current ∧ (∀ list, ¬Bracketed "integer" list) ∧
      "integer" ∈ listedSample.parents ∧ "integer" ∉ (classify "integer").parents := by
  have builtin : BuiltinName "integer" := .scalar .integer
  have current : listedSample.Current := Classified.current_ofDeclaration _
  have unbracketed : ∀ list, ¬Bracketed "integer" list := by
    rw [← bracketed?_eq_none_iff]
    decide +kernel
  obtain ⟨-, types, others⟩ := builtin_parent_iff builtin
  refine ⟨builtin, current, unbracketed, (types _ current).mpr ?_, ?_⟩
  · exact ⟨"integer,Base", ["integer", "Base"], ⟨by decide +kernel, by decide, by decide⟩,
      commaNames_eq_iff.mp (by decide +kernel), by decide⟩
  · intro inside
    exact (others _ _ unbracketed inside).2 rfl

/-- Lists between brackets have built-in types as parents: objects, arrays and scalar types. -/
theorem listed_builtins_are_parents :
    (classify "[object]").parents = ["object"] ∧
      (classify "[array, Base]").parents = ["array", "Base"] ∧
      (classify "[Base, integer]").parents = ["Base", "integer"] := by
  decide +kernel

end Raml.TypeExpr
