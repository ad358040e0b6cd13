import Raml.Proofs.Independence
import Raml.Proofs.LiftedNames

/-!
# What a resolution of all types reaches

A resolution of all types that no error ends brings every type that was there into its resolved
form, which the other types have no part in. The names that were there keep their places, and every
name that comes after them is synthesized: it is put together from the name of a type, the name of a
property and an ending.
-/
namespace Raml

/-- A name of a type that is lifted from a property of a type with one of some names. -/
def TypeName.SynthesizedFrom (owners : List String) (name : String) : Prop :=
  ∃ owner ∈ owners, ∃ property ending, (ending = "" ∨ ending = itemEnding) ∧
    name = synthesized owner property ending

/-- A synthesized name is so from more names. -/
theorem TypeName.SynthesizedFrom.mono {owners others : List String} {name : String}
    (origin : SynthesizedFrom owners name) (among : ∀ owner ∈ owners, owner ∈ others) :
    SynthesizedFrom others name := by
  obtain ⟨owner, inside, parts⟩ := origin
  exact ⟨owner, among owner inside, parts⟩

namespace Declarations

open Resolution

variable {types : Declarations} {name : String}

/-- The names that a resolution adds are synthesized. -/
theorem exists_synthesized_resolve (types : Declarations) (name : String) :
    ∃ added, (types.resolve name).reached.keys = types.keys ++ added ∧
      ∀ other ∈ added, TypeName.SynthesizedFrom (types.resolve name).reached.keys other := by
  cases found : types.get? name with
  | none => exact ⟨[], by simp [resolve, found, Attempt.failed], by simp⟩
  | some declaration =>
    have follows := follows_resolve found
    have present : name ∈ types.keys := OrderedMap.mem_keys_iff.mpr ⟨declaration, found⟩
    refine ⟨_, follows.keys_eq, fun other inside => ?_⟩
    obtain ⟨made, created, rfl⟩ := List.mem_map.mp inside
    obtain ⟨lifted, new, rfl⟩ := List.mem_map.mp created
    have there := (List.mem_filter.mp new).1
    -- The owner is the resolved type or a created one.
    rcases Trace.origin_all.1 _ _ _ lifted there with ⟨-, origin⟩ | ⟨owner, before, -, origin⟩
    · obtain ⟨ending, known, same⟩ := origin.name_eq
      exact ⟨lifted.owner, origin.1 ▸ follows.mem_keys present, lifted.property, ending, known,
        same⟩
    · obtain ⟨ending, known, same⟩ := origin.name_eq
      have owned : owner.name ∈ (types.resolve name).reached.keys :=
        follows.mem_keys_iff.mpr (.inr ⟨owner, before, rfl⟩)
      exact ⟨lifted.owner, origin.1 ▸ owned, lifted.property, ending, known, same⟩

/-- The names that resolutions add one after another are synthesized. -/
theorem exists_synthesized_each (types : Declarations) (names : List String) :
    ∃ added, (Attempt.each resolve names types).reached.keys = types.keys ++ added ∧
      ∀ other ∈ added,
        TypeName.SynthesizedFrom (Attempt.each resolve names types).reached.keys other := by
  induction names generalizing types with
  | nil => exact ⟨[], (List.append_nil _).symm, by simp⟩
  | cons name rest ih =>
    obtain ⟨first, start, early⟩ := exists_synthesized_resolve types name
    rw [Attempt.each, Attempt.andThen]
    cases ended : (types.resolve name).stopped with
    | some cause => exact ⟨first, start, early⟩
    | none =>
      obtain ⟨later, grown, others⟩ := ih (types.resolve name).reached
      refine ⟨first ++ later, ?_, fun other inside => ?_⟩
      · simp only
        rw [grown, start, List.append_assoc]
      · rcases List.mem_append.mp inside with own | new
        · refine (early other own).mono fun owner present => ?_
          simp only
          rw [grown]
          exact List.mem_append_left _ present
        · exact others other new

/-- Resolutions touch no declared type of another name. -/
theorem get?_each_of_not_mem {names : List String} (present : name ∈ types.keys)
    (apart : name ∉ names) :
    (Attempt.each resolve names types).reached.get? name = types.get? name := by
  induction names generalizing types with
  | nil => rfl
  | cons first rest ih =>
    rw [List.mem_cons, not_or] at apart
    have step := get?_resolve_of_ne present apart.1
    rw [Attempt.each, Attempt.andThen]
    cases ended : (types.resolve first).stopped with
    | some cause => exact step
    | none =>
      have there : name ∈ (types.resolve first).reached.keys :=
        (keys_prefix_resolve types first).subset present
      exact (ih there apart.2).trans step

/-- Resolutions that no error ends bring every type into its resolved form. -/
theorem exists_form_each {names : List String} (distinct : names.Nodup)
    (present : ∀ other ∈ names, other ∈ types.keys)
    (ended : (Attempt.each resolve names types).stopped = none) (inside : name ∈ names)
    {declaration : Declaration} (found : types.get? name = some declaration) :
    ∃ form, (Attempt.each resolve names types).reached.get? name = some form ∧
      ResolvesTo name declaration form := by
  induction names generalizing types with
  | nil => contradiction
  | cons first rest ih =>
    rw [List.nodup_cons] at distinct
    rw [List.forall_mem_cons] at present
    rw [Attempt.each, Attempt.andThen] at ended ⊢
    cases passed : (types.resolve first).stopped with
    | some cause =>
      rw [passed] at ended
      simp [passed] at ended
    | none =>
      rw [passed] at ended
      have grown : ∀ other ∈ types.keys, other ∈ (types.resolve first).reached.keys :=
        fun other known => (keys_prefix_resolve types first).subset known
      by_cases here : name = first
      · subst here
        have follows := follows_resolve found
        have settled := follows.settled (follows.stopped_eq.symm.trans passed)
          (name, declaration) List.mem_cons_self
        obtain ⟨form, reached, resolved⟩ := settled.found
        have kept := get?_each_of_not_mem (grown name present.1) distinct.1
        exact ⟨form, kept.trans reached, resolved⟩
      · have later : name ∈ rest := (List.mem_cons.mp inside).resolve_left here
        have kept := get?_resolve_of_ne (present.2 name later) here
        exact ih distinct.2 (fun other known => grown other (present.2 other known)) ended later
          (kept.trans found)

end Declarations

/-- A type that takes over a declaration has it. -/
theorem Classified.declaration_adopt (type : Classified) (declaration : Declaration) :
    (type.adopt declaration).declaration = declaration := by
  unfold adopt
  split <;> rfl

namespace Registry

open Resolution

variable {registry : Registry}

/-- The names that a resolution of all types adds are synthesized. -/
theorem exists_synthesized_resolveAll (registry : Registry) :
    ∃ added, registry.resolveAll.reached.keys = registry.keys ++ added ∧
      ∀ name ∈ added, TypeName.SynthesizedFrom registry.resolveAll.reached.keys name := by
  have keys : registry.resolveAll.reached.keys = registry.declarations.resolveAll.reached.keys :=
    OrderedMap.keys_map _ _
  rw [keys, ← keys_declarations registry]
  exact registry.declarations.exists_synthesized_each registry.declarations.keys

/-- A resolution of all types that no error ends brings every type into its resolved form. -/
theorem exists_form_resolveAll (ended : registry.resolveAll.stopped = none) {name : String}
    {type : Classified} (found : registry.get? name = some type) :
    ∃ reached, registry.resolveAll.reached.get? name = some reached ∧
      ResolvesTo name type.declaration reached.declaration := by
  have declared := declared_of_get? found
  have inside : name ∈ registry.declarations.keys := OrderedMap.mem_keys_iff.mpr ⟨_, declared⟩
  obtain ⟨form, reached, resolved⟩ := Declarations.exists_form_each registry.declarations.distinct
    (fun _ => id) ended inside declared
  exact ⟨type.adopt form, get?_adopt found reached, by rwa [type.declaration_adopt]⟩

end Registry

end Raml
