import Raml.Proofs.Exchange
import Raml.Proofs.Frame

/-!
# Types that are resolved beside others

What a type is resolved to is read off its own declaration. The types beside it decide which of the
lifted declarations create a type and whether an error is met in a created one, and nothing else. So
a type reaches one form in every registry, and types that lift their declarations under different
names are resolved in either order with the same outcome.
-/
namespace Raml

namespace Trace

/-- No name is lifted in both traces, whether it creates a type or one of the name exists. -/
def Apart (first second : Trace) : Prop :=
  ∀ lifted ∈ first.lifted, ∀ other ∈ second.lifted, lifted.name ≠ other.name

variable {first second : Trace}

/-- It does not matter which of two traces is named first. -/
theorem Apart.symm (apart : first.Apart second) : second.Apart first :=
  fun lifted inside other there same => apart other there lifted inside same.symm

/-- The types that a trace creates do not change a trace that is apart from it. -/
theorem Apart.ofType_eq {name : String} {declaration : Declaration} {taken : List String}
    (apart : first.Apart (ofType name declaration taken)) :
    ofType name declaration (taken ++ first.names) = ofType name declaration taken := by
  refine congr_all.1 name declaration taken _ fun lifted inside => ?_
  rw [List.mem_append]
  refine ⟨.inl, fun known => known.elim id fun clash => ?_⟩
  obtain ⟨other, there, same⟩ := exists_lifted_of_mem_names clash
  exact absurd same (apart other there lifted inside)

end Trace

namespace Resolution

variable {own more : List (String × Declaration)} {trace other : Trace}
  {before after final : Declarations}

/-- Two successful resolutions of the same types agree on every name when they resolve and create
the same declarations, in whichever order. -/
theorem Follows.get?_eq (left : Follows own trace before after none)
    (right : Follows more other before final none)
    (same : ∀ entry, entry ∈ own ++ trace.created.map named ↔
      entry ∈ more ++ other.created.map named) (key : String) :
    after.get? key = final.get? key := by
  have leftEnded : trace.stopped = none := left.stopped_eq.symm
  have rightEnded : other.stopped = none := right.stopped_eq.symm
  by_cases touched : ∃ entry ∈ own ++ trace.created.map named, entry.1 = key
  · obtain ⟨entry, inside, rfl⟩ := touched
    exact (left.settled leftEnded entry inside).get?_eq
      (right.settled rightEnded entry ((same entry).mp inside))
  · have untouched : ∀ entry ∈ more ++ other.created.map named, entry.1 ≠ key :=
      fun entry inside clash => touched ⟨entry, (same entry).mpr inside, clash⟩
    have apart {given : List (String × Declaration)} {made : List Declaration}
        (free : ∀ entry ∈ given ++ made.map named, entry.1 ≠ key) :
        key ∉ given.map Prod.fst ∧ ¬∃ declaration ∈ made, declaration.name = key := by
      constructor
      · intro clash
        obtain ⟨entry, inside, named⟩ := List.mem_map.mp clash
        exact free entry (List.mem_append_left _ inside) named
      · rintro ⟨declaration, inside, named⟩
        exact free _ (List.mem_append_right _ (List.mem_map_of_mem inside)) named
    obtain ⟨leftOwn, leftMade⟩ := apart fun entry inside clash => touched ⟨entry, inside, clash⟩
    obtain ⟨rightOwn, rightMade⟩ := apart untouched
    by_cases old : key ∈ before.keys
    · rw [left.kept key old leftOwn, right.kept key old rightOwn]
    · rw [OrderedMap.get?_eq_none.mpr (mt left.mem_keys_iff.mp (not_or.mpr ⟨old, leftMade⟩)),
        OrderedMap.get?_eq_none.mpr (mt right.mem_keys_iff.mp (not_or.mpr ⟨old, rightMade⟩))]

end Resolution

namespace Declarations

open Resolution

variable {types : Declarations} {left right : String} {first second : Declaration}

/-- After the resolution of one type, however it ended, the resolution of another one follows the
trace that it has without it, when no name is lifted from both. -/
theorem follows_resolve_after (there : types.get? right = some second) (distinct : left ≠ right)
    (found : types.get? left = some first)
    (apart : (Trace.ofType left first types.keys).Apart
      (Trace.ofType right second types.keys)) :
    Follows [(right, second)] (Trace.ofType right second types.keys) (types.resolve left).reached
      ((types.resolve left).reached.resolve right).reached
      ((types.resolve left).reached.resolve right).stopped := by
  have present : right ∈ types.keys := OrderedMap.mem_keys_iff.mpr ⟨second, there⟩
  have kept : (types.resolve left).reached.get? right = some second :=
    (get?_resolve_of_ne present distinct.symm).trans there
  have follows := follows_resolve kept
  rw [(follows_resolve found).keys_eq, apart.ofType_eq] at follows
  exact follows

/-- Two types that are resolved one after the other reach, when both resolutions succeed, what the
two traces in order lead to. -/
theorem follows_both (found : types.get? left = some first) (there : types.get? right = some second)
    (distinct : left ≠ right)
    (apart : (Trace.ofType left first types.keys).Apart (Trace.ofType right second types.keys))
    (leftEnded : (types.resolve left).stopped = none)
    (rightEnded : (types.resolve right).stopped = none) :
    Follows [(left, first), (right, second)]
      ((Trace.ofType left first types.keys).followedBy (Trace.ofType right second types.keys))
      types ((types.resolve left).reached.resolve right).reached none := by
  have start := follows_resolve found
  have later := follows_resolve_after there distinct found apart
  rw [leftEnded] at start
  rw [later.stopped_eq, ← (follows_resolve there).stopped_eq, rightEnded] at later
  refine start.andThen later ?_ ?_
  · intro entry inside
    rw [List.mem_singleton] at inside
    subst inside
    exact OrderedMap.mem_keys_iff.mpr ⟨second, there⟩
  · intro entry inside
    rw [List.mem_singleton] at inside
    subst inside
    simpa using distinct

/-- Two types that lift nothing under the same name are resolved in either order. Each resolution
ends as it does without the other, and when both succeed every name has the same declaration in the
end. -/
theorem resolve_comm (found : types.get? left = some first) (there : types.get? right = some second)
    (distinct : left ≠ right)
    (apart : (Trace.ofType left first types.keys).Apart (Trace.ofType right second types.keys)) :
    ((types.resolve right).reached.resolve left).stopped = (types.resolve left).stopped ∧
      ((types.resolve left).reached.resolve right).stopped = (types.resolve right).stopped ∧
      ((types.resolve left).stopped = none → (types.resolve right).stopped = none → ∀ key,
        ((types.resolve left).reached.resolve right).reached.get? key =
          ((types.resolve right).reached.resolve left).reached.get? key) := by
  have afterLeft := follows_resolve_after there distinct found apart
  have afterRight := follows_resolve_after found distinct.symm there apart.symm
  refine ⟨?_, ?_, fun leftEnded rightEnded => ?_⟩
  · rw [afterRight.stopped_eq, (follows_resolve found).stopped_eq]
  · rw [afterLeft.stopped_eq, (follows_resolve there).stopped_eq]
  · have one := follows_both found there distinct apart leftEnded rightEnded
    have other := follows_both there found distinct.symm apart.symm rightEnded leftEnded
    have leftDone := (follows_resolve found).stopped_eq.symm.trans leftEnded
    have rightDone := (follows_resolve there).stopped_eq.symm.trans rightEnded
    refine one.get?_eq other fun entry => ?_
    rw [Trace.created_followedBy leftDone, Trace.created_followedBy rightDone]
    simp only [List.map_append, List.mem_append, List.mem_cons, List.not_mem_nil, or_false]
    exact or_congr or_comm or_comm

end Declarations

namespace Registry

variable {registry : Registry} {name : String} {type : Classified}

/-- A registered type takes over the declaration that is reached under its name. -/
theorem get?_adopt {types : Declarations} {form : Declaration}
    (found : registry.get? name = some type) (reached : types.get? name = some form) :
    (registry.adopt types).get? name = some (type.adopt form) := by
  rw [adopt, OrderedMap.get?_map, reached, Option.map_some, found]

/-- A type whose resolution succeeds reaches its resolved form. -/
theorem exists_form (found : registry.get? name = some type)
    (success : (registry.resolve name).stopped = none) :
    ∃ form, Resolution.ResolvesTo name type.declaration form ∧
      (registry.resolve name).reached.declarations.get? name = some form := by
  have follows := follows_resolve found
  have ended := follows.stopped_eq.symm.trans success
  obtain ⟨form, reached, resolved⟩ :=
    (follows.settled ended (name, type.declaration) List.mem_cons_self).found
  exact ⟨form, resolved, reached⟩

/-- A type has one resolved form, in every registry. When two registries hold types of the same
declaration under a name, whatever else they hold, and the name is resolved with success in both,
then both hold the resolved form of that declaration. Where the types are the same with the cells
for their kinds, they are so in the end. -/
theorem resolve_form_unique (left right : Registry) (name : String) (type other : Classified)
    (found : left.get? name = some type) (there : right.get? name = some other)
    (same : other.declaration = type.declaration)
    (success : (left.resolve name).stopped = none)
    (again : (right.resolve name).stopped = none) :
    let first := (left.resolve name).reached
    let second := (right.resolve name).reached
    ∃ form, Resolution.ResolvesTo name type.declaration form ∧
      first.declarations.get? name = some form ∧ second.declarations.get? name = some form ∧
      (other = type → first.get? name = second.get? name) := by
  intro first second
  obtain ⟨form, resolved, reached⟩ := exists_form found success
  obtain ⟨final, alike, finished⟩ := exists_form there again
  rw [same] at alike
  rw [alike.unique resolved] at finished
  refine ⟨form, resolved, reached, finished, ?_⟩
  rintro rfl
  rw [declarations_resolve] at reached finished
  exact (get?_adopt found reached).trans (get?_adopt there finished).symm

/-- A registry in which the name of the type that is lifted from the sample's address is taken. -/
def sampleTaken : Registry := declare (declare .empty (.blank "PersonAddress")) samplePerson

/-- The sample is resolved to one form, whether the type of its address is created or not. -/
theorem resolve_form_unique_sample :
    sample.get? "Person" = some (.ofDeclaration samplePerson) ∧
      sampleTaken.get? "Person" = some (.ofDeclaration samplePerson) ∧
      (sample.resolve "Person").stopped = none ∧ (sampleTaken.resolve "Person").stopped = none ∧
      (sample.resolve "Person").reached.keys =
        ["Person", "PersonAddress", "PersonAddressGeo", "PersonPhonesItem"] ∧
      (sampleTaken.resolve "Person").reached.keys =
        ["PersonAddress", "Person", "PersonPhonesItem"] ∧
      (sample.resolve "Person").reached.get? "Person" =
        (sampleTaken.resolve "Person").reached.get? "Person" := by
  have again : (sampleTaken.resolve "Person").stopped = none :=
    Option.isNone_iff_eq_none.mp (by decide +kernel)
  obtain ⟨_, _, _, _, same⟩ := resolve_form_unique sample sampleTaken "Person"
    (.ofDeclaration samplePerson) (.ofDeclaration samplePerson) rfl rfl rfl stopped_sample again
  exact ⟨rfl, rfl, stopped_sample, again, by decide +kernel, by decide +kernel, same rfl⟩

/-- Independent types are resolved in either order. When two registered types lift nothing under the
same name, whether a type is created under it or one exists, then the resolution of each ends as it
does without the other, and with the same error if it fails. When both succeed, every name has the
same declaration in the end, whichever was resolved first. -/
theorem resolve_in_either_order (registry : Registry) (left right : String)
    (type other : Classified) (found : registry.get? left = some type)
    (there : registry.get? right = some other) (distinct : left ≠ right)
    (apart : (Trace.ofType left type.declaration registry.keys).Apart
      (Trace.ofType right other.declaration registry.keys)) :
    let first := registry.resolve left
    let second := registry.resolve right
    (second.reached.resolve left).stopped = first.stopped ∧
      (first.reached.resolve right).stopped = second.stopped ∧
      (first.stopped = none → second.stopped = none → ∀ key,
        (first.reached.resolve right).reached.declarations.get? key =
          (second.reached.resolve left).reached.declarations.get? key) := by
  intro first second
  rw [← keys_declarations] at apart
  have both := Declarations.resolve_comm (declared_of_get? found) (declared_of_get? there) distinct
    apart
  simp only [first, second, declarations_resolve]
  simpa only [resolve, declarations_adopt] using both

/-- A type with an array whose items are declared inline, one of them optional. -/
def sampleOrder : Declaration :=
  .ofParts "Order" none (.ofList [
    ("lines?", .inline (.ofList [("type", .string "array"), ("items", .mapping [
      (.string "properties", .mapping [(.string "price", .mapping [
        (.string "properties", .mapping [(.string "amount", .string "number")])])])])])) ])

/-- The registry of the two samples. -/
def sampleBoth : Registry := declare sample sampleOrder

/-- The two samples lift nothing under the same name, and are resolved in either order. -/
theorem resolve_in_either_order_sample :
    let first := sampleBoth.resolve "Person"
    let second := sampleBoth.resolve "Order"
    sampleBoth.get? "Person" = some (.ofDeclaration samplePerson) ∧
      sampleBoth.get? "Order" = some (.ofDeclaration sampleOrder) ∧
      (Trace.ofType "Person" samplePerson sampleBoth.keys).Apart
        (Trace.ofType "Order" sampleOrder sampleBoth.keys) ∧
      first.stopped = none ∧ second.stopped = none ∧
      (first.reached.resolve "Order").reached.keys = ["Person", "Order", "PersonAddress",
        "PersonAddressGeo", "PersonPhonesItem", "OrderLinesItem", "OrderLinesItemPrice"] ∧
      ∀ key, (first.reached.resolve "Order").reached.declarations.get? key =
        (second.reached.resolve "Person").reached.declarations.get? key := by
  intro first second
  have apart : (Trace.ofType "Person" samplePerson sampleBoth.keys).Apart
      (Trace.ofType "Order" sampleOrder sampleBoth.keys) := by
    unfold Trace.Apart
    decide +kernel
  have firstEnded : first.stopped = none := Option.isNone_iff_eq_none.mp (by decide +kernel)
  have secondEnded : second.stopped = none := Option.isNone_iff_eq_none.mp (by decide +kernel)
  obtain ⟨_, _, same⟩ := resolve_in_either_order sampleBoth "Person" "Order"
    (.ofDeclaration samplePerson) (.ofDeclaration sampleOrder) rfl rfl (by decide) apart
  exact ⟨rfl, rfl, apart, firstEnded, secondEnded, by decide +kernel, same firstEnded secondEnded⟩

end Registry

end Raml
