import Raml.Proofs.Retry
import Raml.Proofs.Termination

/-!
# What an interrupted resolution leaves

While the properties of a type are gone through, the type itself is registered without any, and an
error can come from either lift of a property and from any type below it. Whichever it is, the
properties are written back into the type, split at the one where the error came up: those before it
have been lifted, those after it are untouched, and no created type is taken away.
-/
namespace Raml

namespace Lifting

variable {owner property : String} {value : PropertyValue} {failure : LiftError}

/-- A value is what a property is after both of its lifts. -/
def FullyLifted (owner property : String) (value lifted : PropertyValue) : Prop :=
  ∃ object item, Lift.object owner property value = .ok object ∧
    Lift.item owner property (valueAfter value object) = .ok item ∧
    lifted = valueAfter (valueAfter value object) item

/-- What an error leaves of the property at which it came up. -/
inductive LeftBy (owner property : String) (value : PropertyValue) (cause : Error) :
    PropertyValue → Prop where
  /-- The lift as an object cannot be made, and the property is as it was. -/
  | untouched {failure : LiftError} (object : Lift.object owner property value = .error failure)
      (same : cause = .decode (.lift failure)) : LeftBy owner property value cause value
  /-- The lift as an array cannot be made, and the property is as it is after that as an object. -/
  | objectLifted {object : Option Lift} {failure : LiftError}
      (first : Lift.object owner property value = .ok object)
      (item : Lift.item owner property (valueAfter value object) = .error failure)
      (same : cause = .decode (.lift failure)) :
      LeftBy owner property value cause (valueAfter value object)
  /-- Both lifts are made, and a type below cannot be resolved. -/
  | lifted {lifted : PropertyValue} (lifts : FullyLifted owner property value lifted) :
      LeftBy owner property value cause lifted

/-- Lifts that are not stopped lift the property fully. -/
theorem fullyLifted_ofProperty (made : (ofProperty owner property value).stopped = none) :
    FullyLifted owner property value (ofProperty owner property value).value := by
  obtain ⟨object, item, first, second⟩ := exists_lifts made
  exact ⟨object, item, first, second, by rw [ofProperty_of_ok first second]⟩

/-- Lifts that are stopped leave the property at the one that could not be made. -/
theorem leftBy_ofProperty (stopped : (ofProperty owner property value).stopped = some failure) :
    LeftBy owner property value (.decode (.lift failure))
      (ofProperty owner property value).value := by
  cases first : Lift.object owner property value with
  | error cause =>
    rw [ofProperty_of_error first] at stopped ⊢
    exact .untouched first (by rw [← Option.some.inj stopped])
  | ok object =>
    cases second : Lift.item owner property (valueAfter value object) with
    | error cause =>
      rw [ofProperty_of_ok_of_error first second] at stopped ⊢
      exact .objectLifted first second (by rw [← Option.some.inj stopped])
    | ok item =>
      rw [ofProperty_of_ok first second] at stopped
      contradiction

end Lifting

namespace Resolution

variable {name owner : String} {declaration : Declaration} {types : Declarations} {cause : Error}

/-- Every given type exists after the new ones are created. -/
theorem mem_keys_createAll_of_mem {given : List Declaration} (inside : declaration ∈ given) :
    declaration.name ∈ (Declarations.createAll given types).2.keys := by
  induction given generalizing types with
  | nil => contradiction
  | cons first rest ih =>
    unfold Declarations.createAll
    rcases List.mem_cons.mp inside with rfl | later
    · split
      · rename_i known
        exact mem_keys_createAll rest (OrderedMap.contains_iff.mp known)
      · apply mem_keys_createAll rest
        rw [OrderedMap.mem_keys_iff]
        exact ⟨declaration, by rw [OrderedMap.get?_insert, if_pos rfl]⟩
    · split
      · exact ih later
      · exact ih later

/-- A walk through properties that an error ended, and what it leaves. -/
structure Interrupted (owner : String) (entries : List (String × PropertyValue)) (walk : Walk)
    (cause : Error) (before : List (String × PropertyValue)) (property : String)
    (value : PropertyValue) (after : List (String × PropertyValue)) : Prop
    extends Halted owner entries walk before property value after where
  /-- The property at which the error came up is left by it. -/
  left : Lifting.LeftBy owner property value cause (Lifting.ofProperty owner property value).value
  /-- Every type that was lifted from it or from those before it exists. -/
  covered : Covers walk.types.keys owner (before ++ [(property, value)])

/-- What has its lifted types keeps them while no name is lost. -/
theorem Covers.mono {names more : List String} {entries : List (String × PropertyValue)}
    (covers : Covers names owner entries) (grown : ∀ key ∈ names, key ∈ more) :
    Covers more owner entries :=
  fun entry inside declaration lifted => grown _ (covers entry inside declaration lifted)

/-- Properties that have their lifted types have them together. -/
theorem Covers.append {names : List String} {first second : List (String × PropertyValue)}
    (left : Covers names owner first) (right : Covers names owner second) :
    Covers names owner (first ++ second) :=
  fun entry inside => (List.mem_append.mp inside).elim (left entry) (right entry)

/-- Every type that is lifted from a property exists after the new ones are created. -/
theorem covers_createAll (owner property : String) (value : PropertyValue)
    (types : Declarations) :
    Covers (Declarations.createAll (Lifting.ofProperty owner property value).declarations
      types).2.keys owner [(property, value)] := by
  intro entry inside declaration lifted
  rw [List.mem_singleton.mp inside] at lifted
  exact mem_keys_createAll_of_mem lifted

/-- An error that ends a walk through properties interrupts it at one of them. -/
theorem exists_interrupted {entries : List (String × PropertyValue)} {types : Declarations}
    (failed : (resolveProperties owner entries types).stopped = some cause) :
    ∃ before property value after,
      Interrupted owner entries (resolveProperties owner entries types) cause before property value
        after := by
  induction entries generalizing types with
  | nil => simp [resolveProperties] at failed
  | cons entry rest ih =>
    obtain ⟨property, value⟩ := entry
    -- The error is that of a lift of the first property, of a type below it, or of the others.
    cases lifts : (Lifting.ofProperty owner property value).stopped with
    | some failure =>
      have walk : resolveProperties owner ((property, value) :: rest) types =
          ⟨(Declarations.createAll (Lifting.ofProperty owner property value).declarations types).2,
            [(Lifting.ofProperty owner property value).value], some (.decode (.lift failure))⟩ := by
        rw [resolveProperties]
        simp only [lifts]
      rw [walk] at failed ⊢
      obtain rfl : Error.decode (.lift failure) = cause := Option.some.inj failed
      exact ⟨[], property, value, rest, ⟨rfl, by simp, rfl⟩, Lifting.leftBy_ofProperty lifts,
        covers_createAll owner property value types⟩
    | none =>
      obtain ⟨created, creation⟩ : ∃ created, Declarations.createAll
          (Lifting.ofProperty owner property value).declarations types = created := ⟨_, rfl⟩
      have follows := follows_createAll creation
      have own : Covers (resolveTypes created.1 created.2).reached.keys owner [(property, value)] :=
        (creation ▸ covers_createAll owner property value types).mono fun _ => follows.mem_keys
      cases passed : (resolveTypes created.1 created.2).stopped with
      | some error =>
        rw [resolveProperties_cons_stopped rfl lifts creation rfl passed] at failed ⊢
        obtain rfl : error = cause := Option.some.inj failed
        exact ⟨[], property, value, rest, ⟨rfl, by simp, rfl⟩,
          .lifted (Lifting.fullyLifted_ofProperty lifts), own⟩
      | none =>
        rw [resolveProperties_cons rfl lifts creation rfl passed] at failed ⊢
        obtain ⟨before, failing, old, after, interrupted⟩ := ih failed
        have later := (follows_all.2.1 owner rest (resolveTypes created.1 created.2).reached).1
        exact ⟨(property, value) :: before, failing, old, after,
          interrupted.toHalted.cons (property, value) lifts rfl, interrupted.left,
          (own.mono fun _ => later.mem_keys).append interrupted.covered⟩

/-- A type whose optional names can be changed is resolved by going through its properties, which
are written into it at the end, with or without an error. -/
theorem resolveType_of_bare (plain : declaration.isEmbedded = false)
    (bare : declaration.properties.unmarkAll.stopped = none) :
    resolveType name declaration types =
      ⟨(resolveProperties name declaration.bareProperties.entries types).types.insert name
          (declaration.withProperties (declaration.bareProperties.overlay
            (resolveProperties name declaration.bareProperties.entries types).values)),
        (resolveProperties name declaration.bareProperties.entries types).stopped⟩ := by
  rw [resolveType]
  simp only [plain, Bool.false_eq_true, ↓reduceIte, bare]
  rfl

end Resolution

namespace Registry

/-- A resolution that fails after the optional names were changed leaves the type with the
properties under bare names, in their order, split at one of them. Those before it are fully lifted,
those after it are as they were after the change of the names, and the one itself is as it was, or
as it is after the lift as an object, or fully lifted, by which of the lifts could not be made or by
an error in a type below. Nothing else of the type is changed. The names of the registry stay in
front, and every type that was created stays: those that were lifted up to that property, and all
that the trace of the resolution says, which the same error ends. Taking the properties out of the
type and putting them back leaves the same. -/
theorem resolve_stopped_splits (registry : Registry) (name : String) (type : Classified)
    (cause : Error) (found : registry.get? name = some type)
    (plain : type.declaration.isEmbedded = false)
    (bare : type.declaration.properties.unmarkAll.stopped = none)
    (failed : (registry.resolve name).stopped = some cause) :
    let reached := (registry.resolve name).reached
    let trace := Trace.ofType name type.declaration registry.keys
    (∃ before property value after written left,
      type.declaration.bareProperties.entries = before ++ (property, value) :: after ∧
      (reached.get? name).map Classified.declaration =
        some (type.declaration.withProperties written) ∧
      written.keys = type.declaration.bareProperties.keys ∧
      written.entries =
        (before.map fun entry => (entry.1, (Lifting.ofProperty name entry.1 entry.2).value)) ++
          (property, left) :: after ∧
      (∀ entry ∈ before, Lifting.FullyLifted name entry.1 entry.2
        (Lifting.ofProperty name entry.1 entry.2).value) ∧
      Lifting.LeftBy name property value cause left ∧
      Resolution.Covers reached.keys name (before ++ [(property, value)])) ∧
    reached.keys = registry.keys ++ trace.names ∧ trace.stopped = some cause ∧
    ∀ depth, registry.inlineBound name < depth →
      registry.resolveWithin depth name = some (registry.resolve name) := by
  intro reached trace
  have follows := follows_resolve found
  have enough (depth : Nat) (deep : registry.inlineBound name < depth) :
      registry.resolveWithin depth name = some (registry.resolve name) := by
    rw [← inlineBound_declarations] at deep
    rw [resolveWithin, Declarations.resolveWithin_eq depth _ name deep]
    rfl
  refine ⟨?_, ?_, follows.stopped_eq.symm.trans failed, enough⟩
  · have run : registry.declarations.resolve name = _ :=
      (resolve_declarations found).trans (Resolution.resolveType_of_bare plain bare)
    have ended : (registry.declarations.resolve name).stopped = some cause := failed
    have present : name ∈ (Resolution.resolveProperties name type.declaration.bareProperties.entries
        registry.declarations).types.keys :=
      (Resolution.follows_all.2.1 _ _ _).1.mem_keys
        (OrderedMap.mem_keys_iff.mpr ⟨_, declared_of_get? found⟩)
    rw [run] at ended
    obtain ⟨before, property, value, after, interrupted⟩ := Resolution.exists_interrupted ended
    refine ⟨before, property, value, after, _, _, interrupted.entries_eq, ?_,
      OrderedMap.keys_overlay _ _, interrupted.entries_overlay, fun entry inside =>
        Lifting.fullyLifted_ofProperty (interrupted.made entry inside), interrupted.left, ?_⟩
    · rw [← get?_declarations, declarations_resolve, run, OrderedMap.get?_insert, if_pos rfl]
    · rw [← keys_declarations, declarations_resolve, run, OrderedMap.keys_insert_of_mem _ present]
      exact interrupted.covered
  · rw [← keys_declarations, follows.keys_eq, keys_declarations]

/-- A type with three properties that declare objects. The second has a marked name and a property
whose own properties are no mapping. -/
def sampleSplit : Declaration :=
  .ofParts "N" none (.ofList [
    ("a", .inline (.ofList [("properties", .mapping [(.string "x", .string "string")])])),
    ("b?", .inline (.ofList [("properties", .mapping [
      (.string "c", .mapping [(.string "properties", .string "d")])])])),
    ("e", .inline (.ofList [("properties", .mapping [(.string "y", .string "string")])]))])

/-- The second property of the sample is lifted too, the third is not, and the types lifted from the
first two are registered. -/
theorem resolve_stopped_splits_sample :
    let registry := declare .empty sampleSplit
    let reached := (registry.resolve "N").reached
    (registry.resolve "N").stopped = some (.decode (.lift (.notMapping "NB" "c" (.string "d")))) ∧
      (∃ written : Properties,
        (reached.get? "N").map Classified.declaration = some (sampleSplit.withProperties written) ∧
          written.keys = ["a", "b", "e"]) ∧
      reached.keys = ["N", "NA", "NB"] := by
  intro registry reached
  have failed : (registry.resolve "N").stopped =
      some (.decode (.lift (.notMapping "NB" "c" (.string "d")))) := by decide +kernel
  obtain ⟨⟨before, property, value, after, written, left, -, there, keys, -⟩, names, -⟩ :=
    resolve_stopped_splits registry "N" (.ofDeclaration sampleSplit) _ rfl (by decide +kernel)
      (Option.isNone_iff_eq_none.mp (by decide +kernel)) failed
  refine ⟨failed, ⟨written, there, ?_⟩, ?_⟩
  · rw [keys]
    decide +kernel
  · exact names.trans (by decide +kernel)

end Registry

end Raml
