import Mathlib.Algebra.GroupWithZero.Nat
import Raml.Proofs.Reentry
import Raml.Proofs.Registry

/-!
# The bounds of a resolution

In every registry, whatever refers to what and whichever names are taken, the resolution of a name
that goes back to the registry each time comes to an end, and creates at most as many types as there
are inline declarations in the properties of the type. Resolving every type creates at most as many
types as there are inline declarations in them all.
-/
namespace Raml

namespace Declarations

variable {types : Declarations} {name : String}

/-- The bound of a name is that of its type. -/
theorem inlineBound_congr {before after : Declarations}
    (kept : after.get? name = before.get? name) :
    after.inlineBound name = before.inlineBound name := by
  rw [inlineBound, kept, inlineBound]

/-- A resolution adds at most as many names as its bound says. -/
theorem exists_keys_resolve (types : Declarations) (name : String) :
    ∃ added, (types.resolve name).reached.keys = types.keys ++ added ∧
      added.length ≤ types.inlineBound name := by
  cases found : types.get? name with
  | none => exact ⟨[], by simp [resolve, found, Attempt.failed], Nat.zero_le _⟩
  | some declaration =>
    refine ⟨_, (follows_resolve found).keys_eq, ?_⟩
    rw [Trace.names, List.length_map, inlineBound, found]
    exact Trace.length_created_le_all.1 name declaration types.keys

/-- The resolution of a name changes the bound of no other declared name. -/
theorem map_inlineBound_resolve {rest : List String} (distinct : (name :: rest).Nodup)
    (present : ∀ other ∈ rest, other ∈ types.keys) :
    rest.map (types.resolve name).reached.inlineBound = rest.map types.inlineBound := by
  apply List.map_congr_left
  intro other inside
  apply inlineBound_congr
  apply get?_resolve_of_ne (present other inside)
  exact fun same => (List.nodup_cons.mp distinct).1 (same ▸ inside)

/-- Going back to the registered types for several names, deep enough for all of them, reaches what
their resolution in order reaches. -/
theorem each?_resolveWithin {depth : Nat} {names : List String} (distinct : names.Nodup)
    (present : ∀ name ∈ names, name ∈ types.keys)
    (enough : (names.map types.inlineBound).sum < depth) :
    Attempt.each? (resolveWithin depth) names types = some (Attempt.each resolve names types) := by
  induction names generalizing types with
  | nil => rfl
  | cons name rest ih =>
    rw [List.forall_mem_cons] at present
    rw [List.map_cons, List.sum_cons] at enough
    have first : resolveWithin depth types name = some (types.resolve name) :=
      resolveWithin_eq depth types name (by omega)
    simp only [Attempt.each?, first, Attempt.each, Attempt.andThen]
    cases ended : (types.resolve name).stopped with
    | some cause => rfl
    | none =>
      apply ih (List.nodup_cons.mp distinct).2
      · intro other inside
        exact (keys_prefix_resolve types name).subset (present.2 other inside)
      · rw [map_inlineBound_resolve distinct present.2]
        omega

/-- Resolutions in order add at most as many names as their bounds say together. -/
theorem exists_keys_each_resolve {names : List String} (distinct : names.Nodup)
    (present : ∀ name ∈ names, name ∈ types.keys) :
    ∃ added, (Attempt.each resolve names types).reached.keys = types.keys ++ added ∧
      added.length ≤ (names.map types.inlineBound).sum := by
  induction names generalizing types with
  | nil => exact ⟨[], (List.append_nil _).symm, Nat.zero_le _⟩
  | cons name rest ih =>
    rw [List.forall_mem_cons] at present
    obtain ⟨first, start, few⟩ := exists_keys_resolve types name
    rw [Attempt.each, Attempt.andThen, List.map_cons, List.sum_cons]
    cases ended : (types.resolve name).stopped with
    | some cause => exact ⟨first, start, Nat.le_trans few (Nat.le_add_right _ _)⟩
    | none =>
      obtain ⟨later, grown, others⟩ := ih (List.nodup_cons.mp distinct).2 fun other inside =>
        (keys_prefix_resolve types name).subset (present.2 other inside)
      rw [map_inlineBound_resolve distinct present.2] at others
      refine ⟨first ++ later, by rw [grown, start, List.append_assoc], ?_⟩
      rw [List.length_append]
      exact Nat.add_le_add few others

end Declarations

namespace Registry

/-- How many types the resolution of a name may create. -/
def inlineBound (registry : Registry) (name : String) : Nat :=
  match registry.get? name with
  | none => 0
  | some type => type.declaration.inlineBound

/-- Resolve the type of a name by going back to the registry, to some depth. -/
def resolveWithin (depth : Nat) (registry : Registry) (name : String) :
    Option (Attempt Error Registry) :=
  (Declarations.resolveWithin depth registry.declarations name).map fun attempt =>
    ⟨registry.adopt attempt.reached, attempt.stopped⟩

/-- Resolve every type by going back to the registry, to some depth. -/
def resolveAllWithin (depth : Nat) (registry : Registry) : Option (Attempt Error Registry) :=
  (Declarations.resolveAllWithin depth registry.declarations).map fun attempt =>
    ⟨registry.adopt attempt.reached, attempt.stopped⟩

/-- The bound of a name is that of its declaration. -/
theorem inlineBound_declarations (registry : Registry) (name : String) :
    registry.declarations.inlineBound name = registry.inlineBound name := by
  rw [Declarations.inlineBound, get?_declarations, inlineBound]
  cases registry.get? name <;> rfl

/-- The names of a registry are those of its declarations, also after a takeover. -/
theorem keys_adopt (registry : Registry) (types : Declarations) :
    (registry.adopt types).keys = types.keys := OrderedMap.keys_map _ types

/-- In every registry the resolution of a name and that of all names come to an end when they go
back to the registry each time, to the depth of their bounds and to any greater one, and reach what
`resolve` and `resolveAll` reach. The names of the registry stay in front, and the resolution of a
name adds at most as many as there are inline declarations in the properties of its type, that of
all names at most as many as there are in them together. -/
theorem resolve_within_inlineBound (registry : Registry) :
    (∀ name extra,
      registry.resolveWithin (registry.inlineBound name + 1 + extra) name =
          some (registry.resolve name) ∧
        ∃ added, (registry.resolve name).reached.keys = registry.keys ++ added ∧
          added.length ≤ registry.inlineBound name) ∧
      ∀ extra,
        registry.resolveAllWithin ((registry.keys.map registry.inlineBound).sum + 1 + extra) =
            some registry.resolveAll ∧
          ∃ added, registry.resolveAll.reached.keys = registry.keys ++ added ∧
            added.length ≤ (registry.keys.map registry.inlineBound).sum := by
  have distinct : registry.declarations.keys.Nodup := registry.declarations.distinct
  have bounds : registry.declarations.keys.map registry.declarations.inlineBound =
      registry.keys.map registry.inlineBound := by
    rw [keys_declarations, funext registry.inlineBound_declarations]
  refine ⟨fun name extra => ⟨?_, ?_⟩, fun extra => ⟨?_, ?_⟩⟩
  · rw [resolveWithin, Declarations.resolveWithin_eq, Option.map_some, resolve]
    rw [inlineBound_declarations]
    omega
  · obtain ⟨added, grown, few⟩ := registry.declarations.exists_keys_resolve name
    rw [inlineBound_declarations] at few
    refine ⟨added, ?_, few⟩
    show (registry.adopt (registry.declarations.resolve name).reached).keys = _
    rw [keys_adopt, grown, keys_declarations]
  · rw [resolveAllWithin, Declarations.resolveAllWithin,
      Declarations.each?_resolveWithin distinct (fun _ => id), Option.map_some, resolveAll,
      Declarations.resolveAll]
    rw [bounds]
    omega
  · obtain ⟨added, grown, few⟩ := Declarations.exists_keys_each_resolve distinct fun _ => id
    rw [bounds] at few
    refine ⟨added, ?_, few⟩
    show (registry.adopt registry.declarations.resolveAll.reached).keys = _
    rw [keys_adopt, Declarations.resolveAll, grown, keys_declarations]

end Registry

end Raml
