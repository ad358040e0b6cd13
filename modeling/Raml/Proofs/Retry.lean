import Raml.Proofs.Frame
import Raml.Proofs.Inspection
import Raml.Proofs.NormalForm

/-!
# Resolving again after an error

An error stops a resolution at one type, which is the resolved one or one that was created on the
way. Unless an optional property was the cause, that type keeps what caused the error: resolving it
again fails with the same error and changes nothing. The types above it have been written with the
lifts that were made, and resolving one of them again goes on behind those, without looking into the
type that failed.
-/
namespace Raml

namespace Resolution

variable {name owner : String} {declaration : Declaration} {types : Declarations} {cause : Error}

/-- Resolving a declaration under a name fails and changes nothing, whatever other types there
are. -/
def Stuck (name : String) (declaration : Declaration) (cause : Error) : Prop :=
  ∀ types : Declarations, types.get? name = some declaration →
    resolveType name declaration types = .failed types cause

/-- A declaration whose first properties declare none is resolved by its other properties. -/
theorem resolveType_of_flat (plain : declaration.isEmbedded = false)
    (bare : ∀ property ∈ declaration.properties.keys, TypeName.isOptional property = false)
    {entries rest : List (String × PropertyValue)}
    (split : declaration.properties.entries = entries ++ rest)
    (flat : ∀ entry ∈ entries, entry.2.Flat) :
    resolveType name declaration types =
      ⟨(resolveProperties name rest types).types.insert name
          (declaration.withProperties (declaration.properties.overlay
            (entries.map Prod.snd ++ (resolveProperties name rest types).values))),
        (resolveProperties name rest types).stopped⟩ := by
  rw [resolveType]
  simp only [plain, Bool.false_eq_true, ↓reduceIte, Properties.unmarkAll_of_bare bare, Attempt.done,
    split, resolveProperties_append_of_flat flat]

/-- A walk through properties that an error ended at one of them. -/
structure Halted (owner : String) (entries : List (String × PropertyValue)) (walk : Walk)
    (before : List (String × PropertyValue)) (property : String) (value : PropertyValue)
    (after : List (String × PropertyValue)) : Prop where
  /-- The properties before and after that one. -/
  entries_eq : entries = before ++ (property, value) :: after
  /-- The lifts of those before were made. -/
  made : ∀ entry ∈ before, (Lifting.ofProperty owner entry.1 entry.2).stopped = none
  /-- Those before and the one itself have the values after their lifts. -/
  values_eq : walk.values =
    (before.map fun entry => (Lifting.ofProperty owner entry.1 entry.2).value) ++
      [(Lifting.ofProperty owner property value).value]

namespace Halted

variable {entries before after : List (String × PropertyValue)} {walk : Walk} {property : String}
  {value : PropertyValue}

/-- A walk that is ended later is ended at the same property after those that went before. -/
theorem cons (halted : Halted owner entries walk before property value after)
    (first : String × PropertyValue) {next : Walk}
    (made : (Lifting.ofProperty owner first.1 first.2).stopped = none)
    (values : next.values = (Lifting.ofProperty owner first.1 first.2).value :: walk.values) :
    Halted owner (first :: entries) next (first :: before) property value after := by
  refine ⟨?_, ?_, ?_⟩
  · rw [halted.entries_eq, List.cons_append]
  · rw [List.forall_mem_cons]
    exact ⟨made, halted.made⟩
  · rw [values, halted.values_eq, List.map_cons, List.cons_append]

/-- The properties that are written into the owner. -/
theorem entries_overlay {properties : Properties}
    (halted : Halted owner properties.entries walk before property value after) :
    (properties.overlay walk.values).entries =
      (before.map fun entry => (entry.1, (Lifting.ofProperty owner entry.1 entry.2).value)) ++
        (property, (Lifting.ofProperty owner property value).value) :: after := by
  show Entries.overlay properties.entries walk.values = _
  rw [halted.entries_eq, halted.values_eq,
    Entries.overlay_append (fun property value => (Lifting.ofProperty owner property value).value),
    Entries.overlay, Entries.overlay_nil]

/-- The properties before the one at which the walk was ended declare none any more. -/
theorem flat (halted : Halted owner entries walk before property value after) :
    ∀ entry ∈ before.map fun entry =>
      (entry.1, (Lifting.ofProperty owner entry.1 entry.2).value), entry.2.Flat := by
  intro entry inside
  obtain ⟨old, there, rfl⟩ := List.mem_map.mp inside
  exact Lifting.flat_ofProperty (halted.made old there)

end Halted

section Written

variable {walk : Walk} {before after : List (String × PropertyValue)} {property : String}
  {value : PropertyValue}

/-- What is written into the owner has the same expression and bare names. -/
theorem bare_written (walk : Walk) (plain : declaration.isEmbedded = false)
    (bare : declaration.properties.unmarkAll.stopped = none) :
    let written := declaration.withProperties (declaration.bareProperties.overlay walk.values)
    written.isEmbedded = false ∧
      ∀ property ∈ written.properties.keys, TypeName.isOptional property = false := by
  refine ⟨plain, fun property inside => ?_⟩
  rw [Declaration.properties_withProperties, OrderedMap.keys_overlay] at inside
  exact Properties.isOptional_of_mem_unmarkAll bare inside

/-- An owner with a property that cannot be lifted is stuck there. -/
theorem stuck_of_halted (plain : declaration.isEmbedded = false)
    (bare : declaration.properties.unmarkAll.stopped = none)
    (halted : Halted name declaration.bareProperties.entries walk before property value after)
    {failure : LiftError}
    (stopped : (Lifting.ofProperty name property value).stopped = some failure) :
    Stuck name (declaration.withProperties (declaration.bareProperties.overlay walk.values))
      (.decode (.lift failure)) := by
  intro types found
  obtain ⟨object, names⟩ := bare_written walk plain bare
  have again : resolveProperties name
      ((property, (Lifting.ofProperty name property value).value) :: after) types =
        ⟨types, [(Lifting.ofProperty name property value).value],
          some (.decode (.lift failure))⟩ := by
    rw [resolveProperties, Lifting.ofProperty_again stopped]
    rfl
  have same := OrderedMap.overlay_values [(Lifting.ofProperty name property value).value]
    halted.entries_overlay (by rw [Entries.overlay, Entries.overlay_nil])
  rw [resolveType_of_flat object names halted.entries_overlay halted.flat, again,
    Declaration.properties_withProperties, same, Declaration.withProperties_withProperties,
    OrderedMap.insert_of_get? found]
  rfl

/-- An owner whose lifts were all made up to a property goes on with the properties after it. -/
theorem stopped_of_halted (plain : declaration.isEmbedded = false)
    (bare : declaration.properties.unmarkAll.stopped = none)
    (halted : Halted name declaration.bareProperties.entries walk before property value after)
    (made : (Lifting.ofProperty name property value).stopped = none) (types : Declarations) :
    (resolveType name (declaration.withProperties
        (declaration.bareProperties.overlay walk.values)) types).stopped =
      (resolveProperties name after types).stopped := by
  obtain ⟨object, names⟩ := bare_written walk plain bare
  have flat := halted.flat
  have entries := halted.entries_overlay
  rw [List.append_cons] at entries
  rw [resolveType_of_flat object names entries]
  intro entry inside
  rcases List.mem_append.mp inside with earlier | own
  · exact flat entry earlier
  · rw [List.mem_singleton.mp own]
    exact Lifting.flat_ofProperty made

end Written

/-- An inspection meets an ill-formed declaration at a type that is stuck there in the end. -/
structure Struck (tasks : List Task) (before after : Declarations) (cause : Error) (task : Task) :
    Prop where
  /-- The declaration is met. -/
  meets : Inspection.Meets ⟨tasks, before.keys⟩ task cause
  /-- The type is stuck. -/
  stuck : ∃ declaration, after.get? task.owner = some declaration ∧
    Stuck task.owner declaration cause

/-- The types that were reached between the start and the end do not matter. -/
theorem Struck.of_reaches {tasks others : List Task} {before middle after : Declarations}
    {task : Task} (struck : Struck others middle after cause task)
    (reaches : Inspection.Reaches ⟨tasks, before.keys⟩ ⟨others, middle.keys⟩) :
    Struck tasks before after cause task :=
  ⟨struck.meets.of_reaches reaches, struck.stuck⟩

/-- More to look at in the end does not matter. -/
theorem Struck.append {tasks : List Task} {before after : Declarations} {task : Task}
    (struck : Struck tasks before after cause task) (rest : List Task) :
    Struck (tasks ++ rest) before after cause task :=
  ⟨struck.meets.append rest, struck.stuck⟩

/-- A type above the one that is stuck goes on, when it is resolved again, with the properties after
the one below which the ill-formed declaration was met. -/
def Resumes (name : String) (declaration : Declaration) (after : Declarations) (cause : Error)
    (task : Task) : Prop :=
  ∃ before property value rest taken,
    declaration.bareProperties.entries = before ++ (property, value) :: rest ∧
    Inspection.Meets ⟨[.property name property value], taken⟩ task cause ∧
    ∃ written, after.get? name = some written ∧
      ∀ types, (resolveType name written types).stopped =
        (resolveProperties name rest types).stopped

/-- What an error that ends a walk through properties leaves: the property at which it did so cannot
be lifted, or a type below that property is stuck. -/
def WalkStruck (owner : String) (entries : List (String × PropertyValue)) (types : Declarations)
    (walk : Walk) (cause : Error) : Prop :=
  ∃ before property value after, Halted owner entries walk before property value after ∧
    ((∃ failure, (Lifting.ofProperty owner property value).stopped = some failure ∧
        cause = .decode (.lift failure) ∧
        Inspection.Meets ⟨Task.ofProperties owner entries, types.keys⟩
          (.property owner property value) cause) ∨
      (Lifting.ofProperty owner property value).stopped = none ∧
        ∃ task taken, Inspection.Meets ⟨[.property owner property value], taken⟩ task cause ∧
          Struck (Task.ofProperties owner entries) types walk.types cause task ∧
          task.owner ∉ types.keys)

/-- What an error that ends the resolution of a type leaves: the type is stuck, or one that was
created is stuck and the type goes on behind it. -/
def TypeStruck (name : String) (declaration : Declaration) (types after : Declarations)
    (cause : Error) : Prop :=
  ∃ task, Struck [.type name declaration] types after cause task ∧
    (task.owner = name ∨ task.owner ∉ types.keys ∧ Resumes name declaration after cause task)

/-- What an error that ends the resolution of given types leaves: one of them or one that was
created is stuck. -/
def TypesStruck (given : List Declaration) (types after : Declarations) (cause : Error) : Prop :=
  ∃ task, Struck (Task.ofTypes given) types after cause task ∧
    (task.owner ∈ given.map Declaration.name ∨ task.owner ∉ types.keys)

/-- An error that is no defect of an optional property leaves the type at which it was met stuck.
That is the resolved type, or one that was created. -/
theorem struck_all (other : ∀ defect, cause ≠ .configuration (.optionalValue defect)) :
    (∀ (name : String) (declaration : Declaration) (types : Declarations),
      types.get? name = some declaration →
      (resolveType name declaration types).stopped = some cause →
      TypeStruck name declaration types (resolveType name declaration types).reached cause) ∧
    (∀ (owner : String) (entries : List (String × PropertyValue)) (types : Declarations),
      (resolveProperties owner entries types).stopped = some cause →
      WalkStruck owner entries types (resolveProperties owner entries types) cause) ∧
    ∀ (given : List Declaration) (types : Declarations), (given.map Declaration.name).Nodup →
      (∀ made ∈ given, types.get? made.name = some made) →
      (resolveTypes given types).stopped = some cause →
      TypesStruck given types (resolveTypes given types).reached cause := by
  refine resolveType.mutual_induct
    (fun name declaration types => types.get? name = some declaration →
      (resolveType name declaration types).stopped = some cause →
      TypeStruck name declaration types (resolveType name declaration types).reached cause)
    (fun owner entries types => (resolveProperties owner entries types).stopped = some cause →
      WalkStruck owner entries types (resolveProperties owner entries types) cause)
    (fun given types => (given.map Declaration.name).Nodup →
      (∀ made ∈ given, types.get? made.name = some made) →
      (resolveTypes given types).stopped = some cause →
      TypesStruck given types (resolveTypes given types).reached cause)
    ?absorbed ?malformed ?marked ?plain ?noProperties ?stoppedLift ?stoppedType ?property ?noTypes
    ?stoppedFirst ?type
  case absorbed =>
    intro name declaration types embedded absorbed read _ failed
    rw [resolveType] at failed
    simp [embedded, read, Attempt.done] at failed
  case malformed =>
    intro name declaration types embedded failure read found failed
    have same (types : Declarations) : resolveType name declaration types =
        .failed types (absorptionError declaration failure) := by
      rw [resolveType]
      simp only [embedded, ↓reduceIte, read]
    rw [same] at failed ⊢
    obtain rfl : absorptionError declaration failure = cause := Option.some.inj failed
    have malformed : (Task.type name declaration).IllFormed (absorptionError declaration failure) :=
      Task.illFormed_iff.mpr (by simp [Task.error?, embedded, read])
    exact ⟨_, ⟨⟨[], types.keys, .refl, malformed⟩, declaration, found, fun types _ => same types⟩,
      .inl rfl⟩
  case marked =>
    intro name declaration types plain defect stopped _ failed
    rw [resolveType] at failed
    simp only [plain, Bool.false_eq_true, ↓reduceIte, stopped, Attempt.failed,
      Option.some.injEq] at failed
    exact absurd failed.symm (other defect)
  case plain =>
    intro name declaration types plain properties bare ih found failed
    have object : declaration.isEmbedded = false := by simpa using plain
    rw [resolveType] at failed ⊢
    simp only [plain, Bool.false_eq_true, ↓reduceIte, bare] at failed ⊢
    have step := Relation.ReflTransGen.single
      (Inspection.step_type name object bare types.keys)
    have get (types : Declarations) (written : Declaration) :
        (types.insert name written).get? name = some written := by
      rw [OrderedMap.get?_insert, if_pos rfl]
    -- A property of the type itself cannot be lifted, or a type below one of them is stuck.
    obtain ⟨before, property, value, after, halted, own | below⟩ := ih failed
    · obtain ⟨failure, stopped, rfl, meets⟩ := own
      exact ⟨_, ⟨meets.of_reaches step, _, get _ _, stuck_of_halted object bare halted stopped⟩,
        .inl rfl⟩
    · obtain ⟨made, task, taken, meets, struck, fresh⟩ := below
      obtain ⟨final, reached, stuck⟩ := struck.stuck
      have apart : task.owner ≠ name := fun same =>
        fresh (same ▸ OrderedMap.mem_keys_iff.mpr ⟨declaration, found⟩)
      refine ⟨task, ⟨struck.meets.of_reaches step, final, ?_, stuck⟩, .inr ⟨fresh, ?_⟩⟩
      · rw [OrderedMap.get?_insert, if_neg apart]
        exact reached
      · exact ⟨before, property, value, after, taken, halted.entries_eq, meets, _, get _ _,
          stopped_of_halted object bare halted made⟩
  case noProperties =>
    intro owner types failed
    simp [resolveProperties] at failed
  case stoppedLift =>
    intro owner types property value rest lifting failure stopped failed
    have lifts : (Lifting.ofProperty owner property value).stopped = some failure := stopped
    rw [resolveProperties] at failed ⊢
    simp only [lifts, Option.some.injEq] at failed ⊢
    subst failed
    have malformed : (Task.property owner property value).IllFormed (.decode (.lift failure)) :=
      Task.illFormed_iff.mpr (by simp [Task.error?, lifts])
    exact ⟨[], property, value, rest, ⟨rfl, by simp, rfl⟩,
      .inl ⟨failure, lifts, rfl, _, types.keys, .refl, malformed⟩⟩
  case stoppedType =>
    intro owner types property value rest lifting created ended attempt error stopped ih failed
    have made {made : Declaration} (inside : made ∈ created.1) := get?_createAll inside
    have walk : resolveProperties owner ((property, value) :: rest) types = _ :=
      resolveProperties_cons_stopped rfl ended rfl rfl stopped
    rw [walk] at failed ⊢
    obtain rfl : error = cause := Option.some.inj failed
    obtain ⟨task, struck, place⟩ := ih (nodup_createAll lifting.declarations types)
      (fun declaration inside => (made inside).2) stopped
    have step (others : List Task) := Inspection.step_property types ended rfl others
    have fresh : task.owner ∉ types.keys := by
      rcases place with own | new
      · obtain ⟨declaration, inside, same⟩ := List.mem_map.mp own
        exact same ▸ (made inside).1
      · exact fun known => new (mem_keys_createAll lifting.declarations known)
    refine ⟨[], property, value, rest, ⟨rfl, by simp, rfl⟩, .inr ⟨ended, task, types.keys, ?_,
      (struck.append _).of_reaches (.single (step _)), fresh⟩⟩
    exact (struck.meets.append []).of_reaches (.single (step []))
  case property =>
    intro owner types property value rest lifting created ended attempt passed _ _ ihRest failed
    have made {made : Declaration} (inside : made ∈ created.1) := get?_createAll inside
    have distinct := nodup_createAll lifting.declarations types
    have present : ∀ declaration ∈ created.1, declaration.name ∈ created.2.keys :=
      fun declaration inside => OrderedMap.mem_keys_iff.mpr ⟨declaration, (made inside).2⟩
    have follows : Follows (created.1.map named) _ created.2 attempt.reached _ :=
      follows_createAll rfl
    have walk : resolveProperties owner ((property, value) :: rest) types = _ :=
      resolveProperties_cons rfl ended rfl rfl passed
    rw [walk] at failed ⊢
    have reaches : Inspection.Reaches ⟨Task.ofProperties owner ((property, value) :: rest),
        types.keys⟩ ⟨Task.ofProperties owner rest, attempt.reached.keys⟩ :=
      .head (Inspection.step_property types ended rfl _)
        ((Inspection.reaches_types distinct present passed).append _)
    obtain ⟨before, failing, old, after, halted, own | below⟩ := ihRest failed
    · obtain ⟨failure, stopped, same, meets⟩ := own
      exact ⟨_, failing, old, after, halted.cons (property, value) ended rfl,
        .inl ⟨failure, stopped, same, meets.of_reaches reaches⟩⟩
    · obtain ⟨lifted, task, taken, meets, struck, fresh⟩ := below
      refine ⟨_, failing, old, after, halted.cons (property, value) ended rfl,
        .inr ⟨lifted, task, taken, meets, struck.of_reaches reaches, fun known => fresh ?_⟩⟩
      exact follows.mem_keys (mem_keys_createAll lifting.declarations known)
  case noTypes =>
    intro types _ _ failed
    simp [resolveTypes, Attempt.done] at failed
  case stoppedFirst =>
    intro types declaration rest attempt error stopped ih distinct found failed
    have ended : (resolveType declaration.name declaration types).stopped = some error := stopped
    rw [resolveTypes] at failed ⊢
    simp only [ended, Attempt.failed, Option.some.injEq] at failed ⊢
    subst failed
    obtain ⟨task, struck, place⟩ := ih (found declaration List.mem_cons_self) ended
    refine ⟨task, struck.append (Task.ofTypes rest), ?_⟩
    rcases place with own | ⟨fresh, _⟩
    · exact .inl (own ▸ List.mem_cons_self)
    · exact .inr fresh
  case type =>
    intro types declaration rest attempt ended _ ihRest distinct found failed
    have passed : (resolveType declaration.name declaration types).stopped = none := ended
    rw [List.forall_mem_cons] at found
    rw [List.map_cons, List.nodup_cons] at distinct
    have present : declaration.name ∈ types.keys := OrderedMap.mem_keys_iff.mpr ⟨_, found.1⟩
    have follows := follows_all.1 declaration.name declaration types present
    rw [resolveTypes] at failed ⊢
    simp only [passed] at failed ⊢
    obtain ⟨task, struck, place⟩ := ihRest distinct.2 (fun next inside => by
      have apart : next.name ≠ declaration.name := fun same =>
        distinct.1 (same ▸ List.mem_map_of_mem inside)
      have known := OrderedMap.mem_keys_iff.mpr ⟨_, found.2 next inside⟩
      exact (follows.kept next.name known (by simpa using apart)).trans (found.2 next inside))
      failed
    have reaches := (Inspection.reaches_type present passed).append (Task.ofTypes rest)
    refine ⟨task, struck.of_reaches reaches, ?_⟩
    rcases place with later | fresh
    · exact .inl (List.mem_cons_of_mem _ later)
    · exact .inr fun known => fresh (follows.mem_keys known)

end Resolution

/-- Resolving several names fails when one of them has a type that is stuck. -/
theorem Declarations.stopped_each_of_stuck {types : Declarations} {name : String}
    {declaration : Declaration} {cause : Error} {names : List String}
    (stuck : Resolution.Stuck name declaration cause)
    (found : types.get? name = some declaration) (inside : name ∈ names) :
    (Attempt.each resolve names types).stopped ≠ none := by
  induction names generalizing types with
  | nil => contradiction
  | cons first rest ih =>
    rw [Attempt.each, Attempt.andThen]
    cases ended : (types.resolve first).stopped with
    | some error => simp [ended]
    | none =>
      have apart : name ≠ first := by
        rintro rfl
        simp [resolve, found, stuck types found, Attempt.failed] at ended
      have later := (List.mem_cons.mp inside).resolve_left apart
      have present : name ∈ types.keys := OrderedMap.mem_keys_iff.mpr ⟨declaration, found⟩
      exact ih ((get?_resolve_of_ne present apart).trans found) later

namespace Registry

/-- A resolution that fails, not by a defect of an optional property, leaves the error to be found.
A name without a type fails again. Otherwise the type at which the inspection met the ill-formed
declaration is stuck: resolving it again fails with the same error and changes nothing, and neither
can all types be resolved. It is the resolved type itself or one that was created. In the second
case resolving the first name again goes on with the properties after the one below which the
ill-formed declaration was met, and fails exactly when these do. -/
theorem resolve_again_fails (registry : Registry) (name : String) (cause : Error)
    (failed : (registry.resolve name).stopped = some cause)
    (other : ∀ defect, cause ≠ .configuration (.optionalValue defect)) :
    let reached := (registry.resolve name).reached
    (registry.get? name = none →
        reached = registry ∧ reached.resolve name = .failed reached cause) ∧
      ∀ type, registry.get? name = some type →
        ∃ task, (registry.inspection name type).Meets task cause ∧
          reached.resolve task.owner = .failed reached cause ∧
          reached.resolveAll.stopped ≠ none ∧
          (task.owner = name ∨ task.owner ∉ registry.keys ∧
            ∃ before property value after taken,
              type.declaration.bareProperties.entries = before ++ (property, value) :: after ∧
              Inspection.Meets ⟨[.property name property value], taken⟩ task cause ∧
              (reached.resolve name).stopped =
                (Resolution.resolveProperties name after reached.declarations).stopped) := by
  intro reached
  constructor
  · intro absent
    have unknown : registry.declarations.get? name = none := by
      rw [get?_declarations, absent]
      rfl
    have run : registry.declarations.resolve name =
        .failed registry.declarations (.configuration (.unknownType name)) := by
      simp only [Declarations.resolve, unknown]
    have again : registry.resolve name =
        .failed registry (.configuration (.unknownType name)) := by
      simp only [resolve, run, Attempt.failed, adopt_declarations]
    have same : reached = registry := by
      simp only [reached, again, Attempt.failed]
    rw [again] at failed
    obtain rfl : Error.configuration (.unknownType name) = cause := Option.some.inj failed
    exact ⟨same, by rw [same, again]⟩
  · intro type found
    have declared := declared_of_get? found
    have run := resolve_declarations found
    have start : (Resolution.resolveType name type.declaration registry.declarations).stopped =
        some cause := by rw [← run]; exact failed
    have after : reached.declarations =
        (Resolution.resolveType name type.declaration registry.declarations).reached := by
      rw [← run]
      exact declarations_resolve registry name
    obtain ⟨task, struck, place⟩ :=
      (Resolution.struck_all other).1 name type.declaration registry.declarations declared start
    rw [← after] at struck place
    have meets := struck.meets
    rw [keys_declarations] at meets place
    obtain ⟨declaration, there, stuck⟩ := struck.stuck
    have again : reached.declarations.resolve task.owner = .failed reached.declarations cause := by
      simp only [Declarations.resolve, there]
      exact stuck reached.declarations there
    refine ⟨task, meets, ?_, ?_, place.imp id fun later => ⟨later.1, ?_⟩⟩
    · simp only [resolve, again, Attempt.failed, adopt_declarations]
    · exact Declarations.stopped_each_of_stuck stuck there
        (OrderedMap.mem_keys_iff.mpr ⟨declaration, there⟩)
    · obtain ⟨before, property, value, rest, taken, entries, below, written, last, goes⟩ := later.2
      refine ⟨before, property, value, rest, taken, entries, below, ?_⟩
      rw [← goes reached.declarations]
      simp only [resolve, Declarations.resolve, last]

/-- The error of the lifted type comes up again when that type is resolved. -/
theorem resolve_again_fails_sample :
    ((declare .empty sampleBroken).resolve "N").stopped =
        some (.decode (.lift (.notMapping "NA" "b" (.string "c")))) ∧
      ∃ task, ((declare .empty sampleBroken).inspection "N" (.ofDeclaration sampleBroken)).Meets
          task (.decode (.lift (.notMapping "NA" "b" (.string "c")))) ∧
        (((declare .empty sampleBroken).resolve "N").reached.resolve task.owner).stopped =
          some (.decode (.lift (.notMapping "NA" "b" (.string "c")))) := by
  have failed : ((declare .empty sampleBroken).resolve "N").stopped =
      some (.decode (.lift (.notMapping "NA" "b" (.string "c")))) := by decide +kernel
  obtain ⟨task, meets, again, _⟩ :=
    (resolve_again_fails (declare .empty sampleBroken) "N" _ failed (by simp)).2
      (.ofDeclaration sampleBroken) rfl
  exact ⟨failed, task, meets, by rw [again]; rfl⟩

/-- Resolving the same name again does not find the error in the type that was lifted from it. -/
theorem resolve_again_succeeds :
    ((declare .empty sampleBroken).resolve "N").stopped =
        some (.decode (.lift (.notMapping "NA" "b" (.string "c")))) ∧
      (((declare .empty sampleBroken).resolve "N").reached.resolve "N").stopped = none :=
  ⟨by decide +kernel, Option.isNone_iff_eq_none.mp (by decide +kernel)⟩

end Registry

end Raml
