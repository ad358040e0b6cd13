import Raml.Proofs.Declaration
import Raml.Proofs.Lift
import Raml.Proofs.OptionalName
import Raml.Resolution

/-!
# Ill-formed declarations

What makes a single declaration ill-formed, without reading it: a key that is no scalar, properties
that are no mapping, an optional property that is neither a type name nor facets, a schema that is
rejected. Of several defects the first one in the order of the entries gives the error, and reading
finds exactly that one.
-/
namespace Raml

universe u v w

/-- The first element of a list that has a defect gives the error. -/
def FirstWith {α : Type u} {ε : Type v} (defect : α → ε → Prop) (list : List α) (error : ε) :
    Prop :=
  ∃ before element after, list = before ++ element :: after ∧
    (∀ other ∈ before, ∀ error, ¬defect other error) ∧ defect element error

namespace FirstWith

variable {α : Type u} {ε : Type v} {defect other : α → ε → Prop} {error : ε}

/-- No element of the empty list has a defect. -/
theorem nil_iff : FirstWith defect [] error ↔ False := by
  simp [FirstWith]

/-- The first element has a defect, or it has none and the others are looked at. -/
theorem cons_iff {element : α} {rest : List α} :
    FirstWith defect (element :: rest) error ↔
      defect element error ∨ (∀ error, ¬defect element error) ∧ FirstWith defect rest error := by
  constructor
  · rintro ⟨before, found, after, same, sound, defective⟩
    cases before with
    | nil =>
      rw [List.nil_append, List.cons.injEq] at same
      exact .inl (same.1 ▸ defective)
    | cons first before =>
      rw [List.cons_append, List.cons.injEq] at same
      rw [List.forall_mem_cons] at sound
      exact .inr ⟨same.1 ▸ sound.1, before, found, after, same.2, sound.2, defective⟩
  · rintro (defective | ⟨good, before, found, after, rfl, sound, defective⟩)
    · exact ⟨[], element, rest, rfl, by simp, defective⟩
    · exact ⟨element :: before, found, after, rfl, List.forall_mem_cons.mpr ⟨good, sound⟩,
        defective⟩

/-- What the elements of a list have is all that counts. -/
theorem congr {list : List α} (same : ∀ element ∈ list, ∀ error,
    defect element error ↔ other element error) :
    FirstWith defect list error ↔ FirstWith other list error := by
  induction list with
  | nil => rw [nil_iff, nil_iff]
  | cons element rest ih =>
    rw [List.forall_mem_cons] at same
    rw [cons_iff, cons_iff, ih same.2, same.1 error]
    simp only [same.1]

/-- There is a first element with a defect exactly when some element has one. -/
theorem exists_iff {list : List α} :
    (∃ error, FirstWith defect list error) ↔ ∃ element ∈ list, ∃ error, defect element error := by
  induction list with
  | nil => simp [nil_iff]
  | cons element rest ih =>
    simp only [List.mem_cons, exists_eq_or_imp, ← ih]
    constructor
    · rintro ⟨error, first⟩
      rcases cons_iff.mp first with defective | ⟨_, later⟩
      · exact .inl ⟨error, defective⟩
      · exact .inr ⟨error, later⟩
    · intro some
      by_cases own : ∃ error, defect element error
      · obtain ⟨error, defective⟩ := own
        exact ⟨error, cons_iff.mpr (.inl defective)⟩
      · obtain ⟨error, later⟩ := some.resolve_left own
        exact ⟨error, cons_iff.mpr (.inr ⟨not_exists.mp own, later⟩)⟩

/-- Among the elements of a list with some mark only marked ones count. -/
theorem filter_iff (marked : α → Bool) (list : List α) :
    FirstWith defect (list.filter marked) error ↔
      FirstWith (fun element error => marked element = true ∧ defect element error) list error := by
  induction list with
  | nil => rw [List.filter_nil, nil_iff, nil_iff]
  | cons element rest ih =>
    by_cases mark : marked element = true
    · rw [List.filter_cons_of_pos mark, cons_iff, cons_iff, ih]
      simp only [mark, true_and]
    · rw [List.filter_cons_of_neg mark, cons_iff, ih]
      simp only [mark, Bool.false_eq_true, false_and, not_false_eq_true, implies_true, true_and,
        false_or]

/-- The elements that a list is made from may be looked at instead. -/
theorem map_iff {β : Type w} (change : β → α) (list : List β) :
    FirstWith defect (list.map change) error ↔
      FirstWith (fun element error => defect (change element) error) list error := by
  induction list with
  | nil => rw [List.map_nil, nil_iff, nil_iff]
  | cons element rest ih => rw [List.map_cons, cons_iff, cons_iff, ih]

end FirstWith

/-- An entry of a mapping whose key has no text. -/
def Node.Unnamed (entry : Node × Node) (key : Node) : Prop :=
  entry.1 = key ∧ key.scalarText? = none

/-- Reading facets stops at the first key without a text. -/
theorem Facets.named_eq_error {entries : List (Node × Node)} {key : Node} :
    named entries = .error key ↔ FirstWith Node.Unnamed entries key := by
  induction entries with
  | nil => simp [named, FirstWith.nil_iff]
  | cons entry rest ih =>
    obtain ⟨first, value⟩ := entry
    rw [FirstWith.cons_iff, named]
    cases text : first.scalarText? with
    | none =>
      constructor
      · rintro ⟨⟩
        exact .inl ⟨rfl, text⟩
      · rintro (⟨rfl, _⟩ | ⟨good, _⟩)
        · rfl
        · exact absurd ⟨rfl, text⟩ (good first)
    | some name =>
      have good : ∀ key, ¬Node.Unnamed (first, value) key := by
        rintro key ⟨rfl, absent⟩
        simp [text] at absent
      have later : (named rest).map ((name, value) :: ·) = .error key ↔
          named rest = .error key := by
        cases named rest <;> simp [Except.map]
      rw [later, ih]
      exact ⟨fun found => .inr ⟨good, found⟩, fun found => (found.resolve_left (good key)).2⟩

/-- A mapping cannot be read as facets because of its first key without a text. -/
theorem Facets.ofMapping_eq_error {entries : List (Node × Node)} {cause : KeyError} :
    ofMapping entries = .error cause ↔
      ∃ key, cause = .facet key ∧ FirstWith Node.Unnamed entries key := by
  simp only [ofMapping, ← named_eq_error]
  cases named entries with
  | ok found => simp
  | error key => simp [eq_comm]

namespace Properties

/-- An entry of a mapping that declares no property: its key has no text, or it is a mapping in
which a key has none. -/
inductive Undeclared : Node × Node → KeyError → Prop where
  | name {key value : Node} (unnamed : key.scalarText? = none) :
      Undeclared (key, value) (.property key)
  | facet {key facetKey : Node} {text : String} {entries : List (Node × Node)}
      (named : key.scalarText? = some text) (first : FirstWith Node.Unnamed entries facetKey) :
      Undeclared (key, .mapping entries) (.facet facetKey)

/-- A property cannot be declared by a mapping in which a key has no text. -/
theorem ofNode_eq_error {node : Node} {cause : KeyError} :
    PropertyValue.ofNode node = .error cause ↔
      ∃ entries, node = .mapping entries ∧
        ∃ key, cause = .facet key ∧ FirstWith Node.Unnamed entries key := by
  unfold PropertyValue.ofNode
  split
  · simp
  · rename_i entries
    simp only [Node.mapping.injEq, exists_eq_left', ← Facets.ofMapping_eq_error]
    cases Facets.ofMapping entries <;> simp [Except.map]
  · rename_i other
    simp only [reduceCtorEq, false_iff, not_exists, not_and]
    exact fun entries same => absurd same (other entries)

/-- Reading properties stops at the first entry that declares none. -/
theorem read_eq_error {entries : List (Node × Node)} {cause : KeyError} :
    read entries = .error cause ↔ FirstWith Undeclared entries cause := by
  induction entries with
  | nil => simp [read, FirstWith.nil_iff]
  | cons entry rest ih =>
    obtain ⟨key, node⟩ := entry
    rw [FirstWith.cons_iff, read]
    cases text : key.scalarText? with
    | none =>
      constructor
      · rintro ⟨⟩
        exact .inl (.name text)
      · rintro (defect | ⟨good, _⟩)
        · cases defect with
          | name => rfl
          | facet named => simp [text] at named
        · exact absurd (.name text) (good _)
    | some name =>
      have own (cause : KeyError) : Undeclared (key, node) cause ↔
          PropertyValue.ofNode node = .error cause := by
        rw [ofNode_eq_error]
        constructor
        · rintro (⟨unnamed⟩ | ⟨_, first⟩)
          · simp [text] at unnamed
          · exact ⟨_, rfl, _, rfl, first⟩
        · rintro ⟨entries, rfl, facetKey, rfl, first⟩
          exact .facet text first
      simp only [own]
      cases PropertyValue.ofNode node with
      | error other => simp
      | ok value =>
        rw [← ih]
        cases read rest <;> simp [Except.map]

/-- A mapping cannot be read as properties because of its first entry that declares none. -/
theorem ofMapping_eq_error {entries : List (Node × Node)} {cause : KeyError} :
    ofMapping entries = .error cause ↔ FirstWith Undeclared entries cause := by
  rw [← read_eq_error, ofMapping]
  cases read entries <;> simp [Except.map]

/-- A declaration that cannot be optional is any other node. -/
theorem optional_eq_error {value : PropertyValue} {node : Node} :
    value.optional = .error node ↔ value = .raw node := by
  cases value <;> simp [PropertyValue.optional]

/-- A marked name that is changed leaves the other marked names as they were. -/
theorem get?_unmark_of_ne {properties : Properties} {name other : String}
    (marked : TypeName.isOptional other = true) (apart : other ≠ name) :
    (properties.unmark name).reached.get? other = properties.get? other := by
  have bare : other ≠ TypeName.base name := by
    intro same
    rw [same, TypeName.isOptional_base] at marked
    contradiction
  unfold unmark
  split
  · rfl
  · split
    · exact OrderedMap.get?_rename_of_ne apart bare
    · exact (OrderedMap.get?_erase _ _ _).trans (if_neg apart)

/-- The declaration under a name is neither a type name nor facets. -/
def RawUnder (properties : Properties) (name : String) (cause : OptionalValueError) : Prop :=
  name = cause.name ∧ properties.get? name = some (.raw cause.node)

/-- The change of a name is stopped when its declaration cannot be optional. -/
theorem stopped_unmark {properties : Properties} {name : String} {cause : OptionalValueError} :
    (properties.unmark name).stopped = some cause ↔ properties.RawUnder name cause := by
  unfold unmark RawUnder
  cases found : properties.get? name with
  | none => simp [Attempt.done]
  | some value =>
    have raw {node : Node} : value.optional = .error node ↔ value = .raw node := optional_eq_error
    simp only [Option.some.injEq]
    rw [← raw]
    cases value.optional with
    | ok bare => simp [Attempt.done]
    | error node =>
      obtain ⟨marked, declared⟩ := cause
      simp [Attempt.failed]

/-- The change of marked names is stopped by the first one whose declaration cannot be optional. -/
theorem stopped_each_unmark {names : List String} {properties : Properties}
    {cause : OptionalValueError} (distinct : names.Nodup)
    (marked : ∀ name ∈ names, TypeName.isOptional name = true) :
    (Attempt.each unmark names properties).stopped = some cause ↔
      FirstWith properties.RawUnder names cause := by
  induction names generalizing properties with
  | nil => simp [Attempt.each, Attempt.done, FirstWith.nil_iff]
  | cons name rest ih =>
    rw [List.nodup_cons] at distinct
    rw [List.forall_mem_cons] at marked
    have others : FirstWith (RawUnder (properties.unmark name).reached) rest cause ↔
        FirstWith properties.RawUnder rest cause := by
      apply FirstWith.congr
      intro other inside cause
      have apart : other ≠ name := fun same => distinct.1 (same ▸ inside)
      rw [RawUnder, RawUnder, get?_unmark_of_ne (marked.2 other inside) apart]
    rw [Attempt.each, Attempt.stopped_andThen, FirstWith.cons_iff, ih distinct.2 marked.2, others,
      stopped_unmark, Option.eq_none_iff_forall_ne_some]
    simp only [ne_eq, stopped_unmark]

/-- A marked name whose declaration is neither a type name nor facets. -/
def RawOptional (entry : String × PropertyValue) (cause : OptionalValueError) : Prop :=
  entry = (cause.name, .raw cause.node) ∧ TypeName.isOptional cause.name = true

/-- The marked names cannot all be changed because of the first one whose declaration cannot be
optional. -/
theorem stopped_unmarkAll {properties : Properties} {cause : OptionalValueError} :
    properties.unmarkAll.stopped = some cause ↔
      FirstWith RawOptional properties.entries cause := by
  have distinct : properties.optionalNames.Nodup := properties.distinct.filter _
  rw [unmarkAll, stopped_each_unmark distinct fun name inside => (mem_optionalNames.mp inside).2,
    optionalNames, FirstWith.filter_iff, OrderedMap.keys, Entries.keys, FirstWith.map_iff]
  apply FirstWith.congr
  rintro ⟨name, value⟩ inside ⟨marked, node⟩
  simp only [RawOptional, RawUnder, OrderedMap.get?_eq_some.mpr inside, Prod.mk.injEq,
    Option.some.injEq]
  constructor
  · rintro ⟨optional, rfl, raw⟩
    exact ⟨⟨rfl, raw⟩, optional⟩
  · rintro ⟨⟨rfl, raw⟩, optional⟩
    exact ⟨optional, rfl, raw⟩

end Properties

namespace Lift

variable {owner property : String}

/-- A node under a facet `properties` that declares no properties: it is no mapping, or an entry
declares no property. -/
inductive Malformed (owner property : String) : Node → LiftError → Prop where
  | kind {node : Node} (other : ∀ entries, node ≠ .mapping entries) :
      Malformed owner property node (.notMapping owner property node)
  | entry {entries : List (Node × Node)} {cause : KeyError}
      (first : FirstWith Properties.Undeclared entries cause) :
      Malformed owner property (.mapping entries) (.key cause)

/-- The properties of an inline declaration cannot be read exactly when it is malformed. -/
theorem properties_eq_error {node : Node} {cause : LiftError} :
    properties owner property node = .error cause ↔ Malformed owner property node cause := by
  unfold properties
  split
  · rename_i entries
    have first {cause : KeyError} : Properties.ofMapping entries = .error cause ↔
        FirstWith Properties.Undeclared entries cause := Properties.ofMapping_eq_error
    cases read : Properties.ofMapping entries with
    | ok found =>
      simp only [read, reduceCtorEq, false_iff] at first ⊢
      rintro (⟨other⟩ | ⟨defect⟩)
      · exact other entries rfl
      · exact first defect
    | error cause =>
      simp only [read, Except.error.injEq] at first ⊢
      constructor
      · rintro rfl
        exact .entry (first.mp rfl)
      · rintro (⟨other⟩ | ⟨defect⟩)
        · exact absurd rfl (other entries)
        · rw [first.mpr defect]
  · rename_i other
    simp only [Except.error.injEq]
    constructor
    · rintro rfl
      exact .kind other
    · rintro (⟨_⟩ | ⟨_⟩)
      · rfl
      · exact absurd rfl (other _)

/-- A property that cannot be lifted. Its own facet `properties` is malformed. Or, after the lift of
its own declaration, it is an array, and the mapping of its items has a key without a text or a
malformed facet `properties`. -/
inductive IllFormed (owner property : String) (value : PropertyValue) : LiftError → Prop where
  | object {facets : Facets} {node : Node} {cause : LiftError} (inline : value = .inline facets)
      (present : facets.get? "properties" = some node)
      (malformed : Malformed owner property node cause) : IllFormed owner property value cause
  | items {made : Option Lift} {facets : Facets} {fields : List (Node × Node)} {key : Node}
      (lifted : object owner property value = .ok made)
      (inline : Lifting.valueAfter value made = .inline facets)
      (array : items? facets = some fields) (first : FirstWith Node.Unnamed fields key) :
      IllFormed owner property value (.key (.facet key))
  | item {made : Option Lift} {facets items : Facets} {fields : List (Node × Node)} {node : Node}
      {cause : LiftError} (lifted : object owner property value = .ok made)
      (inline : Lifting.valueAfter value made = .inline facets)
      (array : items? facets = some fields) (named : Facets.ofMapping fields = .ok items)
      (present : items.get? "properties" = some node)
      (malformed : Malformed owner property node cause) : IllFormed owner property value cause

/-- A property cannot be lifted as an object exactly when its facet `properties` is malformed. -/
theorem object_eq_error {value : PropertyValue} {cause : LiftError} :
    object owner property value = .error cause ↔
      ∃ facets node, value = .inline facets ∧ facets.get? "properties" = some node ∧
        Malformed owner property node cause := by
  cases value with
  | inline facets =>
    simp only [object, PropertyValue.inline.injEq, exists_and_left, exists_eq_left',
      ← properties_eq_error]
    split
    · rename_i absent
      simp [absent]
    · rename_i node present
      simp only [present, Option.some.injEq, exists_eq_left']
      cases properties owner property node <;> simp
  | _ => simp [object]

/-- A property cannot be lifted as an array exactly when the mapping of its items has a key without
a text or a malformed facet `properties`. -/
theorem item_eq_error {value : PropertyValue} {cause : LiftError} :
    item owner property value = .error cause ↔
      ∃ facets fields, value = .inline facets ∧ items? facets = some fields ∧
        ((∃ key, cause = .key (.facet key) ∧ FirstWith Node.Unnamed fields key) ∨
          ∃ items node, Facets.ofMapping fields = .ok items ∧
            items.get? "properties" = some node ∧ Malformed owner property node cause) := by
  cases value with
  | inline facets =>
    simp only [item, PropertyValue.inline.injEq, exists_and_left, exists_eq_left',
      ← properties_eq_error]
    split
    · rename_i absent
      simp [absent]
    · rename_i fields array
      simp only [array, Option.some.injEq, exists_eq_left']
      have unnamed : (∃ key, cause = .key (.facet key) ∧ FirstWith Node.Unnamed fields key) ↔
          ∃ failure, cause = .key failure ∧ Facets.ofMapping fields = .error failure := by
        simp only [Facets.ofMapping_eq_error]
        constructor
        · rintro ⟨key, rfl, first⟩
          exact ⟨_, rfl, key, rfl, first⟩
        · rintro ⟨_, rfl, key, rfl, first⟩
          exact ⟨key, rfl, first⟩
      rw [unnamed]
      cases Facets.ofMapping fields with
      | error failure => simp [eq_comm]
      | ok items =>
        simp only [reduceCtorEq, and_false, exists_false, false_or, Except.ok.injEq,
          exists_eq_left']
        cases items.get? "properties" with
        | none => simp
        | some node =>
          simp only [Option.some.injEq, exists_eq_left']
          cases properties owner property node <;> simp
  | _ => simp [item]

end Lift

/-- The lifts of a property are stopped exactly when it is ill-formed. -/
theorem Lifting.stopped_ofProperty_iff {owner property : String} {value : PropertyValue}
    {cause : LiftError} :
    (ofProperty owner property value).stopped = some cause ↔
      Lift.IllFormed owner property value cause := by
  cases first : Lift.object owner property value with
  | error other =>
    rw [ofProperty_of_error first]
    simp only [Option.some.injEq]
    constructor
    · rintro rfl
      obtain ⟨facets, node, inline, present, malformed⟩ := Lift.object_eq_error.mp first
      exact .object inline present malformed
    · rintro (⟨inline, present, malformed⟩ | ⟨lifted⟩ | ⟨lifted⟩)
      · have again := Lift.object_eq_error.mpr ⟨_, _, inline, present, malformed⟩
        exact Except.error.inj (first.symm.trans again)
      · simp [first] at lifted
      · simp [first] at lifted
  | ok made =>
    have stopped : (ofProperty owner property value).stopped = some cause ↔
        Lift.item owner property (valueAfter value made) = .error cause := by
      cases second : Lift.item owner property (valueAfter value made) with
      | error other => simp [ofProperty_of_ok_of_error first second]
      | ok item => simp [ofProperty_of_ok first second]
    rw [stopped, Lift.item_eq_error]
    constructor
    · rintro ⟨facets, fields, inline, array, ⟨key, rfl, unnamed⟩ |
        ⟨found, node, named, present, malformed⟩⟩
      · exact .items first inline array unnamed
      · exact .item first inline array named present malformed
    · rintro (⟨inline, present, malformed⟩ | ⟨lifted, inline, array, unnamed⟩ |
        ⟨lifted, inline, array, named, present, malformed⟩)
      · have failed := Lift.object_eq_error.mpr ⟨_, _, inline, present, malformed⟩
        simp [first] at failed
      · obtain rfl : _ = made := Except.ok.inj (lifted.symm.trans first)
        exact ⟨_, _, inline, array, .inl ⟨_, rfl, unnamed⟩⟩
      · obtain rfl : _ = made := Except.ok.inj (lifted.symm.trans first)
        exact ⟨_, _, inline, array, .inr ⟨_, _, named, present, malformed⟩⟩

end Raml
