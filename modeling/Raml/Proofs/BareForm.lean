import Raml.Proofs.IllFormed
import Raml.Proofs.Registry

/-!
# Properties under bare names

The change of optional names goes through the properties that it changes, and takes entries out and
puts others in on the way. What it reaches can be told in one pass over the properties as they were.
Every bare name has one entry, in the place of the property that is written under it, or else of the
first marked one with that base; its value comes from the last marked one, if there is one. A change
that an error stops has done the same to the marked entries before the one that caused it, and has
lost that one.
-/
namespace Raml

namespace TypeName

/-- A name without a mark is its own base. -/
theorem base_of_bare {name : String} (bare : isOptional name = false) : base name = name := by
  have last : name.toList.reverse.head? ≠ some '?' := by
    simpa [isOptional, List.head?_reverse] using bare
  have kept : name.toList.reverse.dropWhile (· = '?') = name.toList.reverse := by
    cases reversed : name.toList.reverse with
    | nil => rfl
    | cons char rest =>
      rw [reversed] at last
      exact List.dropWhile_cons_of_neg (by simpa using last)
  rw [base, kept, List.reverse_reverse, String.ofList_toList]

/-- A marked name is no base. -/
theorem base_ne_of_marked {name other : String} (marked : isOptional name = true) :
    base other ≠ name := by
  intro same
  rw [← same, isOptional_base] at marked
  contradiction

end TypeName

namespace PropertyValue

/-- The facets of a declaration that is made optional: those of a type name are the type and the
requirement, and facets stay as they are but for the requirement, which is in its place or else
comes last. -/
def optionalFacets : PropertyValue → List (String × Node)
  | reference type => [("type", .string type), ("required", .bool false)]
  | inline facets =>
    if "required" ∈ facets.keys then
      facets.entries.map fun entry =>
        if entry.1 = "required" then ("required", .bool false) else entry
    else facets.entries ++ [("required", .bool false)]
  | raw _ => []

/-- A declaration that is made optional. -/
def madeOptional (value : PropertyValue) : PropertyValue :=
  inline (OrderedMap.ofList value.optionalFacets)

/-- Every declaration but a raw node can be made optional. -/
theorem optional_of_plain {value : PropertyValue} (plain : ∀ node, value ≠ raw node) :
    value.optional = .ok value.madeOptional := by
  cases value with
  | reference type => rfl
  | inline facets =>
    have same : (facets.insert "required" (.bool false)).entries =
        (inline facets).optionalFacets := by
      rw [optionalFacets]
      split
      · rename_i present
        exact Entries.insert_eq_map _ facets.distinct present
      · rename_i absent
        exact Entries.insert_of_not_mem _ absent
    rw [optional, madeOptional, ← same, OrderedMap.ofList_entries]
  | raw node => exact absurd rfl (plain node)

/-- Facets that are made optional are not required. -/
theorem madeOptional_inline (facets : Facets) :
    (inline facets).madeOptional = inline (facets.insert "required" (.bool false)) :=
  Except.ok.inj (optional_of_plain fun _ => PropertyValue.noConfusion).symm

end PropertyValue

namespace Properties

/-- Those of some entries whose names have a base, in order. -/
def sharing (marked : List (String × PropertyValue)) (base : String) :
    List (String × PropertyValue) :=
  marked.filter fun entry => TypeName.base entry.1 = base

/-- The name of an entry after the change of some marked entries. -/
def bareName (marked : List (String × PropertyValue)) (entry : String × PropertyValue) : String :=
  if entry ∈ marked then TypeName.base entry.1 else entry.1

/-- The value that is under the name of an entry after the change: the last marked entry with the
base gives it. -/
def bareValue (marked : List (String × PropertyValue)) (entry : String × PropertyValue) :
    PropertyValue :=
  match (sharing marked (bareName marked entry)).getLast? with
  | some last => last.2.madeOptional
  | none => entry.2

/-- Whether the name of an entry after the change stands in the place of the entry. Of marked
entries it is the first with the base, when no entry is written under the base itself. -/
def HasPlace (entries marked : List (String × PropertyValue)) (entry : String × PropertyValue) :
    Prop :=
  entry ∈ marked → TypeName.base entry.1 ∉ Entries.keys entries ∧
    (sharing marked (TypeName.base entry.1)).head? = some entry

/-- Both lists are finite, so it can be tested whether an entry has a place. -/
instance (entries marked : List (String × PropertyValue)) (entry : String × PropertyValue) :
    Decidable (HasPlace entries marked entry) :=
  inferInstanceAs (Decidable (_ → _))

/-- The entries after the change of some marked ones, in one pass over the entries as they were. -/
def bareForm (entries marked : List (String × PropertyValue)) : List (String × PropertyValue) :=
  (entries.filter fun entry => HasPlace entries marked entry).map fun entry =>
    (bareName marked entry, bareValue marked entry)

/-- The entries with marked names, in order. -/
def optionalEntries (properties : Properties) : List (String × PropertyValue) :=
  properties.entries.filter fun entry => TypeName.isOptional entry.1

/-- Some entries of properties whose names are marked. -/
structure Marks (properties : Properties) (marked : List (String × PropertyValue)) : Prop where
  /-- They are entries of the properties. -/
  inside : ∀ entry ∈ marked, entry ∈ properties.entries
  /-- Their names are marked. -/
  optional : ∀ entry ∈ marked, TypeName.isOptional entry.1 = true
  /-- None of them comes twice. -/
  distinct : marked.Nodup

/-- All entries with marked names are some. -/
theorem marks_optionalEntries (properties : Properties) :
    properties.Marks properties.optionalEntries := by
  have distinct : properties.entries.Nodup := List.Pairwise.of_map Prod.fst
    (fun _ _ apart same => apart (congrArg Prod.fst same)) properties.distinct
  exact ⟨fun _ inside => (List.mem_filter.mp inside).1,
    fun _ inside => (List.mem_filter.mp inside).2, List.Pairwise.filter _ distinct⟩

section Form

variable {properties : Properties} {marked : List (String × PropertyValue)}
  {entry other : String × PropertyValue}

/-- The entries that share a base are marked and have it. -/
theorem mem_sharing {base : String} :
    entry ∈ sharing marked base ↔ entry ∈ marked ∧ TypeName.base entry.1 = base := by
  simp [sharing]

/-- A further marked entry comes last among those that share its base. -/
theorem sharing_append (marked : List (String × PropertyValue)) (entry : String × PropertyValue)
    (base : String) :
    sharing (marked ++ [entry]) base =
      sharing marked base ++ if TypeName.base entry.1 = base then [entry] else [] := by
  rw [sharing, List.filter_append]
  by_cases same : TypeName.base entry.1 = base <;> simp [sharing, same]

/-- No marked entry shares a name with a mark as its base. -/
theorem sharing_of_marked {name : String} (optional : TypeName.isOptional name = true) :
    sharing marked name = [] := by
  rw [List.eq_nil_iff_forall_not_mem]
  intro entry inside
  exact TypeName.base_ne_of_marked optional (mem_sharing.mp inside).2

/-- An entry that is not changed keeps its name. -/
theorem bareName_of_not_mem (kept : entry ∉ marked) : bareName marked entry = entry.1 :=
  if_neg kept

/-- A changed entry has its base as its name. -/
theorem bareName_of_mem (changed : entry ∈ marked) :
    bareName marked entry = TypeName.base entry.1 :=
  if_pos changed

/-- When all marked entries are changed every entry has its base as its name. -/
theorem bareName_optionalEntries (inside : entry ∈ properties.entries) :
    bareName properties.optionalEntries entry = TypeName.base entry.1 := by
  by_cases changed : entry ∈ properties.optionalEntries
  · exact bareName_of_mem changed
  · rw [bareName_of_not_mem changed, TypeName.base_of_bare]
    simpa [optionalEntries, inside] using changed

/-- Two entries with one name are the same. -/
theorem eq_of_name (inside : entry ∈ properties.entries) (there : other ∈ properties.entries)
    (same : entry.1 = other.1) : entry = other := by
  have found := OrderedMap.get?_eq_some.mpr inside
  have again := OrderedMap.get?_eq_some.mpr there
  rw [same, again, Option.some.injEq] at found
  exact Prod.ext same found.symm

/-- Every entry has its name and value after the change in the one-pass form. -/
theorem mem_bareForm (marks : properties.Marks marked) (inside : entry ∈ properties.entries) :
    (bareName marked entry, bareValue marked entry) ∈ bareForm properties.entries marked := by
  have placed (other : String × PropertyValue) (there : other ∈ properties.entries)
      (place : HasPlace properties.entries marked other) :
      (bareName marked other, bareValue marked other) ∈ bareForm properties.entries marked :=
    List.mem_map.mpr ⟨other, List.mem_filter.mpr ⟨there, decide_eq_true place⟩, rfl⟩
  by_cases changed : entry ∈ marked
  · -- Another entry may give the name its place; which one gives the value is said by the name.
    have shares : entry ∈ sharing marked (TypeName.base entry.1) :=
      mem_sharing.mpr ⟨changed, rfl⟩
    have moved (other : String × PropertyValue)
        (same : bareName marked other = TypeName.base entry.1) :
        bareValue marked other = bareValue marked entry := by
      rw [bareValue, bareValue, same, bareName_of_mem changed]
      cases last : (sharing marked (TypeName.base entry.1)).getLast? with
      | none => simp [List.getLast?_eq_none_iff.mp last] at shares
      | some last => rfl
    rw [bareName_of_mem changed]
    by_cases written : TypeName.base entry.1 ∈ Entries.keys properties.entries
    · obtain ⟨other, there, name⟩ := List.mem_map.mp written
      have kept : other ∉ marked := by
        intro also
        exact TypeName.base_ne_of_marked (marks.optional other also) name.symm
      have same : bareName marked other = TypeName.base entry.1 :=
        (bareName_of_not_mem kept).trans name
      rw [← moved other same, ← same]
      exact placed other there fun also => absurd also kept
    · cases first : (sharing marked (TypeName.base entry.1)).head? with
      | none => simp [List.head?_eq_none_iff.mp first] at shares
      | some leading =>
        obtain ⟨also, base⟩ := mem_sharing.mp (List.mem_of_head? first)
        have same : bareName marked leading = TypeName.base entry.1 :=
          (bareName_of_mem also).trans base
        rw [← moved leading same, ← same]
        refine placed leading (marks.inside leading also) fun _ => ?_
        rw [base]
        exact ⟨written, first⟩
  · exact placed entry inside fun also => absurd also changed

/-- The names of the one-pass form are those that the entries have after the change. -/
theorem mem_keys_bareForm (marks : properties.Marks marked) {name : String} :
    name ∈ Entries.keys (bareForm properties.entries marked) ↔
      ∃ entry ∈ properties.entries, bareName marked entry = name := by
  constructor
  · intro inside
    obtain ⟨made, there, rfl⟩ := List.mem_map.mp inside
    obtain ⟨entry, placed, rfl⟩ := List.mem_map.mp there
    exact ⟨entry, (List.mem_filter.mp placed).1, rfl⟩
  · rintro ⟨entry, inside, rfl⟩
    exact List.mem_map_of_mem (mem_bareForm marks inside)

/-- A base is a name of the one-pass form when an entry is written under it or a changed one has
it. -/
theorem base_mem_keys_bareForm (marks : properties.Marks marked) (name : String) :
    TypeName.base name ∈ Entries.keys (bareForm properties.entries marked) ↔
      TypeName.base name ∈ Entries.keys properties.entries ∨
        ∃ other ∈ marked, TypeName.base other.1 = TypeName.base name := by
  rw [mem_keys_bareForm marks]
  constructor
  · rintro ⟨other, there, same⟩
    by_cases changed : other ∈ marked
    · exact .inr ⟨other, changed, (bareName_of_mem changed).symm.trans same⟩
    · rw [bareName_of_not_mem changed] at same
      exact .inl (List.mem_map.mpr ⟨other, there, same⟩)
  · rintro (written | ⟨other, changed, same⟩)
    · obtain ⟨other, there, same⟩ := List.mem_map.mp written
      have kept : other ∉ marked := fun changed =>
        TypeName.base_ne_of_marked (marks.optional other changed) same.symm
      exact ⟨other, there, (bareName_of_not_mem kept).trans same⟩
    · exact ⟨other, marks.inside other changed, (bareName_of_mem changed).trans same⟩

/-- When no entry is changed the one-pass form is the entries as they are. -/
theorem bareForm_nil (entries : List (String × PropertyValue)) : bareForm entries [] = entries := by
  simp [bareForm, HasPlace, bareName, bareValue, sharing]

end Form

section Step

variable {properties : Properties} {marked : List (String × PropertyValue)}
  {entry other : String × PropertyValue}

/-- Fewer marked entries are some. -/
theorem Marks.left {more : List (String × PropertyValue)}
    (marks : properties.Marks (marked ++ more)) : properties.Marks marked :=
  ⟨fun entry inside => marks.inside entry (List.mem_append_left _ inside),
    fun entry inside => marks.optional entry (List.mem_append_left _ inside),
    (List.nodup_append.mp marks.distinct).1⟩

/-- The last of some marked entries is an entry. -/
theorem Marks.last_mem (marks : properties.Marks (marked ++ [entry])) :
    entry ∈ properties.entries :=
  marks.inside entry (List.mem_append_right _ List.mem_cons_self)

/-- The last of some marked entries has a marked name. -/
theorem Marks.last_optional (marks : properties.Marks (marked ++ [entry])) :
    TypeName.isOptional entry.1 = true :=
  marks.optional entry (List.mem_append_right _ List.mem_cons_self)

/-- The last of some marked entries is none of the others. -/
theorem Marks.fresh (marks : properties.Marks (marked ++ [entry])) : entry ∉ marked := fun inside =>
  (List.nodup_append.mp marks.distinct).2.2 entry inside entry List.mem_cons_self rfl

/-- The change of a further entry gives no other entry another name. -/
theorem bareName_append (apart : other ≠ entry) :
    bareName (marked ++ [entry]) other = bareName marked other := by
  simp [bareName, apart]

/-- An entry that is not changed yet is the only one under its name. -/
theorem bareName_eq_iff (marks : properties.Marks (marked ++ [entry]))
    (there : other ∈ properties.entries) : bareName marked other = entry.1 ↔ other = entry := by
  constructor
  · intro same
    by_cases changed : other ∈ marked
    · rw [bareName_of_mem changed] at same
      exact absurd same (TypeName.base_ne_of_marked marks.last_optional)
    · rw [bareName_of_not_mem changed] at same
      exact eq_of_name there marks.last_mem same
  · rintro rfl
    exact bareName_of_not_mem marks.fresh

/-- The change of a further entry takes no other entry its place and gives it none. -/
theorem hasPlace_append (apart : other ≠ entry) :
    HasPlace properties.entries (marked ++ [entry]) other ↔
      HasPlace properties.entries marked other := by
  have member : other ∈ marked ++ [entry] ↔ other ∈ marked := by simp [apart]
  rw [HasPlace, HasPlace, member]
  refine forall_congr' fun changed => and_congr_right fun _ => ?_
  -- The entry itself shares its base, so it is not the further one that comes first.
  have shares : other ∈ sharing marked (TypeName.base other.1) := mem_sharing.mpr ⟨changed, rfl⟩
  rw [sharing_append, List.head?_append]
  cases first : (sharing marked (TypeName.base other.1)).head? with
  | none => simp [List.head?_eq_none_iff.mp first] at shares
  | some leading => rfl

/-- A further entry has the place of its base exactly when there is no entry under the base. -/
theorem hasPlace_last (marks : properties.Marks (marked ++ [entry])) :
    HasPlace properties.entries (marked ++ [entry]) entry ↔
      TypeName.base entry.1 ∉ Entries.keys (bareForm properties.entries marked) := by
  have member : entry ∈ marked ++ [entry] := List.mem_append_right _ List.mem_cons_self
  have first : (sharing (marked ++ [entry]) (TypeName.base entry.1)).head? = some entry ↔
      ∀ other ∈ marked, TypeName.base other.1 ≠ TypeName.base entry.1 := by
    rw [sharing_append, if_pos rfl, List.head?_append]
    constructor
    · intro leads other changed same
      have shares : other ∈ sharing marked (TypeName.base entry.1) :=
        mem_sharing.mpr ⟨changed, same⟩
      cases leading : (sharing marked (TypeName.base entry.1)).head? with
      | none => simp [List.head?_eq_none_iff.mp leading] at shares
      | some found =>
        rw [leading, Option.some_or, Option.some.injEq] at leads
        exact marks.fresh (leads ▸ (mem_sharing.mp (List.mem_of_head? leading)).1)
    · intro others
      have none : sharing marked (TypeName.base entry.1) = [] := by
        rw [List.eq_nil_iff_forall_not_mem]
        intro other shares
        obtain ⟨changed, same⟩ := mem_sharing.mp shares
        exact others other changed same
      rw [none]
      rfl
  rw [HasPlace, first, base_mem_keys_bareForm marks.left, not_or]
  constructor
  · intro place
    exact ⟨(place member).1, fun ⟨other, changed, same⟩ => (place member).2 other changed same⟩
  · intro free _
    exact ⟨free.1, fun other changed same => free.2 ⟨other, changed, same⟩⟩

/-- The last of the changed entries has the value that it is made into. -/
theorem bareValue_last (marked : List (String × PropertyValue))
    (entry : String × PropertyValue) :
    bareValue (marked ++ [entry]) entry = entry.2.madeOptional := by
  have member : entry ∈ marked ++ [entry] := List.mem_append_right _ List.mem_cons_self
  simp [bareValue, bareName_of_mem member, sharing_append]

/-- The change of a further entry gives its value to every entry of its base. -/
theorem bareValue_append (apart : other ≠ entry) :
    bareValue (marked ++ [entry]) other =
      if bareName marked other = TypeName.base entry.1 then entry.2.madeOptional
      else bareValue marked other := by
  rw [bareValue, bareName_append apart, sharing_append]
  by_cases same : bareName marked other = TypeName.base entry.1
  · simp [same]
  · have other' : ¬TypeName.base entry.1 = bareName marked other := fun h => same h.symm
    simp [same, other', bareValue]

/-- A further entry whose base is free keeps its place, and every other entry all that it has. -/
theorem replace_bareForm (marks : properties.Marks (marked ++ [entry]))
    (distinct : (Entries.keys (bareForm properties.entries marked)).Nodup)
    (absent : TypeName.base entry.1 ∉ Entries.keys (bareForm properties.entries marked)) :
    Entries.replace entry.1 (TypeName.base entry.1) entry.2.madeOptional
        (bareForm properties.entries marked) =
      bareForm properties.entries (marked ++ [entry]) := by
  have own : bareName (marked ++ [entry]) entry = TypeName.base entry.1 :=
    bareName_of_mem (List.mem_append_right _ List.mem_cons_self)
  have places : (properties.entries.filter fun other =>
        HasPlace properties.entries (marked ++ [entry]) other) =
      properties.entries.filter fun other => HasPlace properties.entries marked other := by
    apply List.filter_congr
    intro other there
    rw [decide_eq_decide]
    by_cases here : other = entry
    · subst here
      exact iff_of_true ((hasPlace_last marks).mpr absent) fun changed => absurd changed marks.fresh
    · exact hasPlace_append here
  rw [Entries.replace_eq_map _ _ distinct, bareForm, bareForm, List.map_map, places]
  apply List.map_congr_left
  intro other inside
  have there := (List.mem_filter.mp inside).1
  rw [Function.comp_apply]
  by_cases here : other = entry
  · subst here
    rw [if_pos (bareName_of_not_mem marks.fresh), own, bareValue_last]
  · have other_name : bareName marked other ≠ entry.1 :=
      (not_congr (bareName_eq_iff marks there)).mpr here
    have free : bareName marked other ≠ TypeName.base entry.1 := fun taken =>
      absent (List.mem_map.mpr ⟨_, List.mem_map_of_mem inside, taken⟩)
    rw [if_neg other_name, bareName_append here, bareValue_append here, if_neg free]

/-- A further entry whose base is taken gives its value to the entry of the base, and goes. -/
theorem insert_erase_bareForm (marks : properties.Marks (marked ++ [entry]))
    (distinct : (Entries.keys (bareForm properties.entries marked)).Nodup)
    (present : TypeName.base entry.1 ∈ Entries.keys (bareForm properties.entries marked)) :
    Entries.insert (TypeName.base entry.1) entry.2.madeOptional
        (Entries.erase entry.1 (bareForm properties.entries marked)) =
      bareForm properties.entries (marked ++ [entry]) := by
  have taken : TypeName.base entry.1 ∈
      Entries.keys (Entries.erase entry.1 (bareForm properties.entries marked)) := by
    rw [Entries.keys_erase, distinct.mem_erase_iff]
    exact ⟨TypeName.base_ne_of_marked marks.last_optional, present⟩
  have places : (properties.entries.filter fun other =>
        HasPlace properties.entries (marked ++ [entry]) other) =
      properties.entries.filter fun other =>
        decide (bareName marked other ≠ entry.1) &&
          decide (HasPlace properties.entries marked other) := by
    apply List.filter_congr
    intro other there
    rw [← Bool.decide_and, decide_eq_decide, ne_eq, bareName_eq_iff marks there]
    by_cases here : other = entry
    · subst here
      have replaced : ¬HasPlace properties.entries (marked ++ [other]) other := fun place =>
        (hasPlace_last marks).mp place present
      simp [replaced]
    · rw [hasPlace_append here, and_iff_right here]
  rw [Entries.insert_eq_map _ (Entries.nodup_erase distinct) taken,
    Entries.erase_eq_filter distinct, bareForm, bareForm, List.filter_map, List.filter_filter,
    List.map_map, places]
  apply List.map_congr_left
  intro other inside
  obtain ⟨there, both⟩ := List.mem_filter.mp inside
  rw [Bool.and_eq_true, Function.comp_apply, decide_eq_true_eq] at both
  have apart : other ≠ entry := fun same =>
    both.1 ((bareName_eq_iff marks there).mpr same)
  rw [Function.comp_apply, bareName_append apart, bareValue_append apart]
  by_cases here : bareName marked other = TypeName.base entry.1
  · rw [if_pos here, if_pos here, here]
  · rw [if_neg here, if_neg here]

/-- The change of a further entry is the same in the entries and in their one-pass form. -/
theorem entries_rename (marks : properties.Marks (marked ++ [entry]))
    {state : Properties} (same : state.entries = bareForm properties.entries marked) :
    (state.rename entry.1 (TypeName.base entry.1) entry.2.madeOptional).entries =
      bareForm properties.entries (marked ++ [entry]) := by
  have distinct : (Entries.keys (bareForm properties.entries marked)).Nodup :=
    same ▸ state.distinct
  unfold OrderedMap.rename
  split
  · rename_i absent
    rw [same] at absent
    show Entries.replace _ _ _ state.entries = _
    rw [same, replace_bareForm marks distinct absent]
  · rename_i present
    rw [Classical.not_not, same] at present
    show Entries.insert _ _ (Entries.erase _ state.entries) = _
    rw [same, insert_erase_bareForm marks distinct present]

end Step

section Run

variable {properties state : Properties} {marked rest : List (String × PropertyValue)}
  {entry : String × PropertyValue} {cause : OptionalValueError}

/-- An entry that is not changed yet is found under its name. -/
theorem get?_last (marks : properties.Marks (marked ++ [entry]))
    (same : state.entries = bareForm properties.entries marked) :
    state.get? entry.1 = some entry.2 := by
  have value : bareValue marked entry = entry.2 := by
    rw [bareValue, bareName_of_not_mem marks.fresh, sharing_of_marked marks.last_optional]
    rfl
  have inside := mem_bareForm marks.left marks.last_mem
  rw [bareName_of_not_mem marks.fresh, value, ← same] at inside
  exact OrderedMap.get?_eq_some.mpr inside

/-- The change of a further entry is a step of the one-pass form. -/
theorem unmark_of_plain (marks : properties.Marks (marked ++ [entry]))
    (same : state.entries = bareForm properties.entries marked)
    (plain : ∀ node, entry.2 ≠ .raw node) :
    ∃ next : Properties, state.unmark entry.1 = .done next ∧
      next.entries = bareForm properties.entries (marked ++ [entry]) := by
  refine ⟨_, ?_, entries_rename marks same⟩
  simp only [unmark, get?_last marks same, PropertyValue.optional_of_plain plain]

/-- A further entry that cannot be made optional is taken out. -/
theorem unmark_of_raw {node : Node} (marks : properties.Marks (marked ++ [entry]))
    (same : state.entries = bareForm properties.entries marked)
    (raw : entry.2 = .raw node) :
    state.unmark entry.1 = .failed (state.erase entry.1) ⟨entry.1, node⟩ := by
  simp only [unmark, get?_last marks same, raw, PropertyValue.optional]

/-- A change of further entries in order that comes to its end reaches the one-pass form. -/
theorem entries_each_unmark (marks : properties.Marks (marked ++ rest))
    (same : state.entries = bareForm properties.entries marked)
    (ended : (Attempt.each unmark (Entries.keys rest) state).stopped = none) :
    (Attempt.each unmark (Entries.keys rest) state).reached.entries =
      bareForm properties.entries (marked ++ rest) := by
  induction rest generalizing marked state with
  | nil => rw [List.append_nil]; exact same
  | cons entry rest ih =>
    rw [List.append_cons] at marks ⊢
    rw [Entries.keys, List.map_cons, Attempt.each] at ended ⊢
    by_cases plain : ∀ node, entry.2 ≠ .raw node
    · obtain ⟨next, step, form⟩ := unmark_of_plain marks.left same plain
      rw [step, Attempt.andThen_done] at ended ⊢
      exact ih marks form ended
    · obtain ⟨node, raw⟩ : ∃ node, entry.2 = .raw node := by simpa using plain
      rw [unmark_of_raw marks.left same raw, Attempt.andThen_failed] at ended
      contradiction

/-- A change of further entries in order that an error stops reaches the one-pass form of those
before the one that caused it, without that one. -/
theorem exists_stopped_each_unmark (marks : properties.Marks (marked ++ rest))
    (same : state.entries = bareForm properties.entries marked)
    (failed : (Attempt.each unmark (Entries.keys rest) state).stopped = some cause) :
    ∃ before after, rest = before ++ (cause.name, .raw cause.node) :: after ∧
      ∃ changed : Properties, changed.entries = bareForm properties.entries (marked ++ before) ∧
        (Attempt.each unmark (Entries.keys rest) state).reached = changed.erase cause.name := by
  induction rest generalizing marked state with
  | nil => simp [Attempt.each, Attempt.done] at failed
  | cons entry rest ih =>
    rw [List.append_cons] at marks
    rw [Entries.keys, List.map_cons, Attempt.each] at failed ⊢
    by_cases plain : ∀ node, entry.2 ≠ .raw node
    · obtain ⟨next, step, form⟩ := unmark_of_plain marks.left same plain
      rw [step, Attempt.andThen_done] at failed ⊢
      obtain ⟨before, after, rfl, changed, reached, last⟩ := ih marks form failed
      refine ⟨entry :: before, after, rfl, changed, ?_, last⟩
      rw [reached, List.append_assoc, List.singleton_append]
    · obtain ⟨node, raw⟩ : ∃ node, entry.2 = .raw node := by simpa using plain
      rw [unmark_of_raw marks.left same raw, Attempt.andThen_failed] at failed ⊢
      obtain rfl : (⟨entry.1, node⟩ : OptionalValueError) = cause := Option.some.inj failed
      exact ⟨[], rest, by rw [List.nil_append, ← raw], state, by rw [List.append_nil, same], rfl⟩

/-- The names of the entries with marked names are the marked names. -/
theorem keys_optionalEntries (properties : Properties) :
    Entries.keys properties.optionalEntries = properties.optionalNames := by
  rw [optionalEntries, optionalNames, OrderedMap.keys, Entries.keys, Entries.keys, List.filter_map]
  rfl

/-- A change of all marked names that comes to its end reaches the one-pass form. -/
theorem entries_unmarkAll (ended : properties.unmarkAll.stopped = none) :
    properties.unmarkAll.reached.entries =
      bareForm properties.entries properties.optionalEntries := by
  have marks : properties.Marks ([] ++ properties.optionalEntries) :=
    properties.marks_optionalEntries
  rw [unmarkAll, ← keys_optionalEntries] at ended ⊢
  exact entries_each_unmark marks (bareForm_nil properties.entries).symm ended

/-- After a change of all marked names a property is found under its base. -/
theorem get?_unmarkAll (ended : properties.unmarkAll.stopped = none)
    (inside : entry ∈ properties.entries) :
    properties.unmarkAll.reached.get? (TypeName.base entry.1) =
      some (bareValue properties.optionalEntries entry) := by
  have made := mem_bareForm properties.marks_optionalEntries inside
  rw [bareName_optionalEntries inside, ← entries_unmarkAll ended] at made
  exact OrderedMap.get?_eq_some.mpr made

/-- The last marked property of a base is there before the change of all marked names, and what it
is made into is there under the base after the change. -/
theorem get?_of_last {name : String} {value : PropertyValue}
    (ended : properties.unmarkAll.stopped = none)
    (last : (sharing properties.optionalEntries (TypeName.base name)).getLast? =
      some (name, value)) :
    properties.get? name = some value ∧
      properties.unmarkAll.reached.get? (TypeName.base name) = some value.madeOptional := by
  have changed : (name, value) ∈ properties.optionalEntries :=
    (mem_sharing.mp (List.mem_of_getLast? last)).1
  have inside : (name, value) ∈ properties.entries :=
    properties.marks_optionalEntries.inside _ changed
  have made := get?_unmarkAll ended inside
  rw [bareValue, bareName_of_mem changed, last] at made
  exact ⟨OrderedMap.get?_eq_some.mpr inside, made⟩

/-- A change of all marked names that an error stops has reached the one-pass form for those before
the one that caused it, and lacks that one. -/
theorem exists_stopped_unmarkAll (failed : properties.unmarkAll.stopped = some cause) :
    ∃ before after, properties.optionalEntries =
        before ++ (cause.name, .raw cause.node) :: after ∧
      ∃ changed : Properties, changed.entries = bareForm properties.entries before ∧
        properties.unmarkAll.reached = changed.erase cause.name := by
  have marks : properties.Marks ([] ++ properties.optionalEntries) :=
    properties.marks_optionalEntries
  rw [unmarkAll, ← keys_optionalEntries] at failed ⊢
  exact exists_stopped_each_unmark marks (bareForm_nil properties.entries).symm failed

end Run

section Left

variable {properties changed : Properties} {marked : List (String × PropertyValue)}
  {entry other : String × PropertyValue}

/-- When an entry is taken out of the one-pass form every other one is found under its name. -/
theorem get?_erase_bareName (marks : properties.Marks (marked ++ [entry]))
    (form : changed.entries = bareForm properties.entries marked)
    (there : other ∈ properties.entries) (apart : other ≠ entry) :
    (changed.erase entry.1).get? (bareName marked other) = some (bareValue marked other) := by
  have name : bareName marked other ≠ entry.1 :=
    (not_congr (bareName_eq_iff marks there)).mpr apart
  rw [OrderedMap.get?_erase, if_neg name, OrderedMap.get?_eq_some, form]
  exact mem_bareForm marks.left there

/-- When an entry is taken out of the one-pass form a property is left under its own name or its
base, unless it is that entry and nothing else has come under the base. -/
theorem mem_keys_erase_iff (marks : properties.Marks (marked ++ [entry]))
    (form : changed.entries = bareForm properties.entries marked)
    (there : other ∈ properties.entries) :
    (other.1 ∈ (changed.erase entry.1).keys ∨
        TypeName.base other.1 ∈ (changed.erase entry.1).keys) ↔
      (other.1 = entry.1 → TypeName.base entry.1 ∈ properties.keys ∨
        ∃ earlier ∈ marked, TypeName.base earlier.1 = TypeName.base entry.1) := by
  have keys (name : String) : name ∈ (changed.erase entry.1).keys ↔
      name ≠ entry.1 ∧ name ∈ Entries.keys (bareForm properties.entries marked) := by
    rw [OrderedMap.keys_erase, ← form]
    exact List.Nodup.mem_erase_iff changed.distinct
  by_cases here : other = entry
  · subst here
    have base : TypeName.base other.1 ≠ other.1 := TypeName.base_ne_of_marked marks.last_optional
    rw [keys, keys, base_mem_keys_bareForm marks.left]
    simp [base, OrderedMap.keys]
  · have apart : other.1 ≠ entry.1 := fun same => here (eq_of_name there marks.last_mem same)
    have left : bareName marked other ∈ (changed.erase entry.1).keys :=
      OrderedMap.mem_keys_iff.mpr ⟨_, get?_erase_bareName marks form there here⟩
    refine iff_of_true ?_ fun same => absurd same apart
    by_cases moved : other ∈ marked
    · exact .inr (bareName_of_mem moved ▸ left)
    · exact .inl (bareName_of_not_mem moved ▸ left)

/-- When an entry is taken out of the one-pass form a property that was not changed keeps its value,
unless it is that entry or a changed one was written over it. -/
theorem get?_erase_iff (marks : properties.Marks (marked ++ [entry]))
    (form : changed.entries = bareForm properties.entries marked)
    (there : other ∈ properties.entries) (kept : other ∉ marked) :
    (changed.erase entry.1).get? other.1 = some other.2 ↔
      other.1 ≠ entry.1 ∧ ∀ last, (sharing marked other.1).getLast? = some last →
        last.2.madeOptional = other.2 := by
  by_cases here : other.1 = entry.1
  · rw [OrderedMap.get?_erase, if_pos here]
    simp [here]
  · have apart : other ≠ entry := fun same => here (congrArg Prod.fst same)
    have found := get?_erase_bareName marks form there apart
    rw [bareName_of_not_mem kept] at found
    rw [found, bareValue, bareName_of_not_mem kept]
    cases last : (sharing marked other.1).getLast? with
    | none => simp [here]
    | some last => simp [here]

end Left

/-- No property with a marked name is a raw node exactly when the change of all comes to its end. -/
theorem unmarkAll_ended_iff {properties : Properties} :
    properties.unmarkAll.stopped = none ↔
      ∀ entry ∈ properties.entries, TypeName.isOptional entry.1 = true →
        ∀ node, entry.2 ≠ .raw node := by
  have defects : (∃ cause, properties.unmarkAll.stopped = some cause) ↔
      ∃ entry ∈ properties.entries, ∃ cause, RawOptional entry cause := by
    rw [← FirstWith.exists_iff]
    exact exists_congr fun cause => stopped_unmarkAll
  rw [Option.eq_none_iff_forall_ne_some, ← not_exists, defects]
  constructor
  · rintro none ⟨name, value⟩ inside marked node raw
    exact none ⟨_, inside, ⟨name, node⟩, congrArg (Prod.mk name) raw, marked⟩
  · rintro plain ⟨entry, inside, cause, rfl, marked⟩
    exact plain _ inside marked cause.node rfl

/-- The change of optional names comes to its end exactly when no property with a marked name is a
raw node. It has then reached the one-pass form of the properties, in which every base has one
entry, and doing it again changes nothing. In a registry it fails with the configuration defect of
the first property with a marked name that is a raw node. -/
theorem unmarkAll_one_pass (properties : Properties) :
    (properties.unmarkAll.stopped = none ↔
        ∀ entry ∈ properties.entries, TypeName.isOptional entry.1 = true →
          ∀ node, entry.2 ≠ .raw node) ∧
      (properties.unmarkAll.stopped = none →
        properties.unmarkAll.reached.entries =
            bareForm properties.entries properties.optionalEntries ∧
          (∀ name, name ∈ properties.unmarkAll.reached.keys ↔
            ∃ entry ∈ properties.entries, TypeName.base entry.1 = name) ∧
          properties.unmarkAll.reached.unmarkAll = .done properties.unmarkAll.reached) ∧
      ∀ (registry : Registry) (name : String) (type : Classified),
        registry.get? name = some type → type.declaration.properties = properties →
          ∀ error, (registry.unmark name).stopped = some error ↔
            ∃ cause, error = .configuration (.optionalValue cause) ∧
              FirstWith RawOptional properties.entries cause := by
  refine ⟨unmarkAll_ended_iff, fun ended => ⟨entries_unmarkAll ended, fun name => ?_, ?_⟩, ?_⟩
  · rw [OrderedMap.keys, entries_unmarkAll ended,
      mem_keys_bareForm properties.marks_optionalEntries]
    refine exists_congr fun entry => and_congr_right fun inside => ?_
    rw [bareName_optionalEntries inside]
  · exact unmarkAll_of_bare fun name inside => isOptional_of_mem_unmarkAll ended inside
  · rintro registry name type found rfl error
    simp only [Registry.unmark, found, Option.map_eq_some_iff, stopped_unmarkAll]
    exact exists_congr fun cause => by rw [and_comm, eq_comm]

/-- Properties in which a base has a place of its own between two marked names, and another has none
and two marked names. -/
def sampleMarked : Properties :=
  .ofList [("b??", .reference "T"), ("a?", .reference "T"), ("c", .reference "U"),
    ("b?", .inline (.ofList [("required", .bool true), ("minimum", .number (.int 1))])),
    ("a", .reference "U"), ("a??", .reference "V")]

/-- Properties of which two with marked names cannot be made optional. -/
def sampleRaw : Properties :=
  .ofList [("id?", .reference "T"), ("tags?", .raw (.sequence [.string "a"])),
    ("id", .reference "U"), ("name?", .reference "T"), ("size?", .raw .null),
    ("kind", .reference "U")]

/-- In the first sample the last marked names give the values, and in the second the first raw node
gives the error. -/
theorem unmarkAll_one_pass_sample :
    (sampleMarked.unmarkAll.stopped = none ∧
      sampleMarked.unmarkAll.reached.entries =
        [("b", .inline (.ofList [("required", .bool false), ("minimum", .number (.int 1))])),
          ("c", .reference "U"),
          ("a", .inline (.ofList [("type", .string "V"), ("required", .bool false)]))]) ∧
      ((Registry.declare .empty (.ofParts "N" none sampleRaw)).unmark "N").stopped =
        some (.configuration (.optionalValue ⟨"tags?", .sequence [.string "a"]⟩)) := by
  have ended : sampleMarked.unmarkAll.stopped = none :=
    Option.isNone_iff_eq_none.mp (by decide +kernel)
  refine ⟨⟨ended, ?_⟩, ?_⟩
  · rw [((unmarkAll_one_pass sampleMarked).2.1 ended).1]
    decide +kernel
  · refine ((unmarkAll_one_pass sampleRaw).2.2 _ "N"
      (.ofDeclaration (.ofParts "N" none sampleRaw)) rfl rfl _).mpr ⟨_, rfl, ?_⟩
    refine ⟨[("id?", .reference "T")], _, _, rfl, ?_, rfl, by decide⟩
    simp [RawOptional]

/-- A change of optional names that an error stops has done its part for the marked names before the
one that caused it: what is left is their one-pass form without the entry of that one. So a property
is left under its own name or under its base, unless it is the one that caused the error and no
other property is written under its base or was changed to it. A property that was not changed is
left with its value, unless it is the one that caused the error or a changed one was written over
it; a changed one has given its base the value that the last of its kind gives. -/
theorem unmarkAll_stopped_keeps_others (properties : Properties) (cause : OptionalValueError)
    (failed : properties.unmarkAll.stopped = some cause) :
    let reached := properties.unmarkAll.reached
    ∃ before after,
      properties.optionalEntries = before ++ (cause.name, .raw cause.node) :: after ∧
      reached.entries = Entries.erase cause.name (bareForm properties.entries before) ∧
      ∀ entry ∈ properties.entries,
        (entry.1 ∈ reached.keys ∨ TypeName.base entry.1 ∈ reached.keys ↔
          (entry.1 = cause.name → TypeName.base cause.name ∈ properties.keys ∨
            ∃ earlier ∈ before, TypeName.base earlier.1 = TypeName.base cause.name)) ∧
        (entry ∈ before →
          reached.get? (TypeName.base entry.1) = some (bareValue before entry)) ∧
        (entry ∉ before → (reached.get? entry.1 = some entry.2 ↔
          entry.1 ≠ cause.name ∧ ∀ last, (sharing before entry.1).getLast? = some last →
            last.2.madeOptional = entry.2)) := by
  intro reached
  obtain ⟨before, after, split, changed, form, erased⟩ := exists_stopped_unmarkAll failed
  have left : reached = changed.erase cause.name := erased
  have marks : properties.Marks (before ++ [(cause.name, .raw cause.node)]) := by
    have all := properties.marks_optionalEntries
    rw [split, List.append_cons] at all
    exact all.left
  rw [left]
  refine ⟨before, after, split, ?_, fun entry inside => ⟨?_, fun moved => ?_, fun kept => ?_⟩⟩
  · rw [← form]
    rfl
  · exact mem_keys_erase_iff marks form inside
  · have apart : entry ≠ (cause.name, .raw cause.node) := fun same => marks.fresh (same ▸ moved)
    have found := get?_erase_bareName marks form inside apart
    rwa [bareName_of_mem moved] at found
  · exact get?_erase_iff marks form inside kept

/-- In the sample every property but the first raw node is left under its name or its base. -/
theorem unmarkAll_stopped_keeps_others_sample :
    sampleRaw.unmarkAll.stopped = some ⟨"tags?", .sequence [.string "a"]⟩ ∧
      ∀ entry ∈ sampleRaw.entries, entry.1 ≠ "tags?" →
        entry.1 ∈ sampleRaw.unmarkAll.reached.keys ∨
          TypeName.base entry.1 ∈ sampleRaw.unmarkAll.reached.keys := by
  have failed : sampleRaw.unmarkAll.stopped = some ⟨"tags?", .sequence [.string "a"]⟩ := by
    decide +kernel
  obtain ⟨before, after, -, -, left⟩ := unmarkAll_stopped_keeps_others sampleRaw _ failed
  exact ⟨failed, fun entry inside apart => (left entry inside).1.mpr fun same => absurd same apart⟩

/-- The property that causes the error is left neither under its own name nor under its base. -/
theorem unmarkAll_drops_raw :
    let properties : Properties := .ofList [("tags?", .raw (.sequence [.string "a"]))]
    properties.unmarkAll.stopped ≠ none ∧ "tags?" ∈ properties.keys ∧
      ¬("tags?" ∈ properties.unmarkAll.reached.keys ∨
        TypeName.base "tags?" ∈ properties.unmarkAll.reached.keys) := by
  refine ⟨?_, by decide +kernel, by decide +kernel⟩
  rw [← Option.isSome_iff_ne_none]
  decide +kernel

end Properties

end Raml
