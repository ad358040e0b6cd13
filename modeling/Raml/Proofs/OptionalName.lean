import Raml.Proofs.OrderedMap
import Raml.Property.Optional

/-!
# Properties without optional names

When every marked name could be changed no name is marked any more, and where no name is marked
there is nothing to change.
-/
namespace Raml

namespace TypeName

/-- A name without its marks carries no mark. -/
theorem isOptional_base (name : String) : isOptional (base name) = false := by
  have last : ∀ reversed : List Char, (reversed.dropWhile (· = '?')).head? ≠ some '?' := by
    intro reversed
    induction reversed with
    | nil => simp
    | cons char rest ih =>
      by_cases mark : char = '?'
      · simpa [mark] using ih
      · simp [mark]
  simpa [isOptional, base, List.getLast?_reverse] using last name.toList.reverse

end TypeName

namespace Properties

/-- The marked names are the names with a mark. -/
theorem mem_optionalNames {properties : Properties} {name : String} :
    name ∈ properties.optionalNames ↔
      name ∈ properties.keys ∧ TypeName.isOptional name = true := by
  simp [optionalNames]

/-- After the change of a marked name every marked name is an earlier one, and another. -/
theorem mem_keys_unmark {properties : Properties} {name other : String}
    (marked : TypeName.isOptional other = true)
    (inside : other ∈ (properties.unmark name).reached.keys) :
    other ∈ properties.keys ∧ other ≠ name := by
  have bare : other ≠ TypeName.base name := by
    intro same
    rw [same, TypeName.isOptional_base] at marked
    contradiction
  have erased (present : other ∈ (properties.erase name).keys) :
      other ∈ properties.keys ∧ other ≠ name := by
    rw [OrderedMap.keys_erase] at present
    have apart := (List.Nodup.mem_erase_iff properties.distinct).mp present
    exact ⟨apart.2, apart.1⟩
  unfold unmark at inside
  split at inside
  · rename_i absent
    exact ⟨inside, fun same => OrderedMap.get?_eq_none.mp absent (same ▸ inside)⟩
  · split at inside
    · simp only [Attempt.done, OrderedMap.rename] at inside
      split at inside
      · exact (Entries.mem_keys_replace properties.distinct inside).resolve_left bare
      · rw [OrderedMap.keys_insert] at inside
        split at inside
        · exact erased inside
        · simp only [List.mem_append, List.mem_singleton, bare, or_false] at inside
          exact erased inside
    · exact erased inside

/-- After the change of several marked names every marked name is an earlier one, and another. -/
theorem mem_keys_each_unmark {names : List String} {properties : Properties} {other : String}
    (marked : TypeName.isOptional other = true)
    (success : (Attempt.each unmark names properties).stopped = none)
    (inside : other ∈ (Attempt.each unmark names properties).reached.keys) :
    other ∈ properties.keys ∧ other ∉ names := by
  induction names generalizing properties with
  | nil => exact ⟨inside, by simp⟩
  | cons name rest ih =>
    simp only [Attempt.each, Attempt.andThen] at success inside
    split at success
    · rename_i first
      simp only [first] at inside
      have later := ih success inside
      have step := mem_keys_unmark marked later.1
      exact ⟨step.1, by simp [step.2, later.2]⟩
    · rename_i cause stopped
      rw [stopped] at success
      contradiction

/-- When every marked name could be changed, none is left. -/
theorem isOptional_of_mem_unmarkAll {properties : Properties} {name : String}
    (success : properties.unmarkAll.stopped = none)
    (inside : name ∈ properties.unmarkAll.reached.keys) : TypeName.isOptional name = false := by
  cases marked : TypeName.isOptional name with
  | false => rfl
  | true =>
    have before := mem_keys_each_unmark marked success inside
    exact absurd (mem_optionalNames.mpr ⟨before.1, marked⟩) before.2

/-- Where no name is marked nothing is changed. -/
theorem unmarkAll_of_bare {properties : Properties}
    (bare : ∀ name ∈ properties.keys, TypeName.isOptional name = false) :
    properties.unmarkAll = .done properties := by
  have none : properties.optionalNames = [] := by
    rw [List.eq_nil_iff_forall_not_mem]
    intro name inside
    have marked := mem_optionalNames.mp inside
    rw [bare name marked.1] at marked
    simp at marked
  rw [unmarkAll, none]
  rfl

end Properties

end Raml
