import Mathlib.Logic.Relation
import Raml.Proofs.IllFormed
import Raml.Proofs.Registry

/-!
# Inspecting a declaration

Whether a resolution fails can be seen by looking at one declaration after another, changing
nothing. A type is looked at first, then its properties in order, and each type that is lifted from
a property before the next property, unless its name is registered by then. The inspection stops at
the first ill-formed declaration, and the resolution fails with exactly its error.
-/
namespace Raml

/-- What is to be looked at. -/
inductive Task where
  /-- The declaration of a type under its name. -/
  | type (name : String) (declaration : Declaration)
  /-- The property of an owner. -/
  | property (owner name : String) (value : PropertyValue)

namespace Task

/-- The type that is looked at, or the one that has the property. -/
def owner : Task → String
  | type name _ => name
  | property owner _ _ => owner

/-- A declaration that is ill-formed by itself: an embedded schema that is rejected, an optional
property that is neither a type name nor facets, or a property that cannot be lifted. -/
inductive IllFormed : Task → Error → Prop where
  | schema {name : String} {declaration : Declaration} {cause : Schema.SchemaError}
      (embedded : declaration.isEmbedded = true)
      (rejected : Schema.properties declaration.text = .error cause) :
      IllFormed (type name declaration) (Resolution.absorptionError declaration cause)
  | optional {name : String} {declaration : Declaration} {cause : OptionalValueError}
      (plain : declaration.isEmbedded = false)
      (first : FirstWith Properties.RawOptional declaration.properties.entries cause) :
      IllFormed (type name declaration) (.configuration (.optionalValue cause))
  | lift {owner name : String} {value : PropertyValue} {cause : LiftError}
      (malformed : Lift.IllFormed owner name value cause) :
      IllFormed (property owner name value) (.decode (.lift cause))

/-- The properties of an owner. -/
def ofProperties (owner : String) (entries : List (String × PropertyValue)) : List Task :=
  entries.map fun entry => property owner entry.1 entry.2

/-- Types under their names. -/
def ofTypes (given : List Declaration) : List Task :=
  given.map fun declaration => type declaration.name declaration

/-- The names that are registered when a well-formed declaration is looked at: those of the types
lifted from a property that were not registered. -/
def names (registered : List String) : Task → List String
  | type _ _ => []
  | property owner name value =>
    (Trace.ofLifting owner name (Lifting.ofProperty owner name value) registered).names

/-- What is to be looked at next after a well-formed declaration: the properties of a type, under
bare names, or the types that a property registers. An embedded schema leads to nothing. -/
def next (registered : List String) : Task → List Task
  | type name declaration =>
    if declaration.isEmbedded then []
    else ofProperties name declaration.bareProperties.entries
  | property owner name value =>
    ofTypes (Trace.ofLifting owner name (Lifting.ofProperty owner name value) registered).created

/-- The error of a declaration, if it is ill-formed. -/
def error? : Task → Option Error
  | type _ declaration =>
    if declaration.isEmbedded then
      match declaration.absorb with
      | .ok _ => none
      | .error cause => some (Resolution.absorptionError declaration cause)
    else declaration.properties.unmarkAll.stopped.map fun cause =>
      .configuration (.optionalValue cause)
  | property owner name value =>
    (Lifting.ofProperty owner name value).stopped.map fun cause => .decode (.lift cause)

/-- A declaration is ill-formed exactly when it has an error, and in one way only. -/
theorem illFormed_iff {task : Task} {cause : Error} :
    task.IllFormed cause ↔ task.error? = some cause := by
  constructor
  · rintro (⟨embedded, rejected⟩ | ⟨plain, first⟩ | ⟨malformed⟩)
    · simp [error?, embedded, Declaration.absorb, rejected, Except.map]
    · simp [error?, plain, Properties.stopped_unmarkAll.mpr first]
    · simp [error?, Lifting.stopped_ofProperty_iff.mpr malformed]
  · intro failed
    cases task with
    | type name declaration =>
      by_cases embedded : declaration.isEmbedded = true
      · cases rejected : Schema.properties declaration.text with
        | ok found => simp [error?, embedded, Declaration.absorb, rejected, Except.map] at failed
        | error other =>
          simp only [error?, embedded, ↓reduceIte, Declaration.absorb, rejected, Except.map,
            Option.some.injEq] at failed
          exact failed ▸ .schema embedded rejected
      · simp only [error?, embedded, Bool.false_eq_true, ↓reduceIte, Option.map_eq_some_iff]
          at failed
        obtain ⟨other, stopped, rfl⟩ := failed
        exact .optional (by simpa using embedded) (Properties.stopped_unmarkAll.mp stopped)
    | property owner name value =>
      obtain ⟨other, stopped, rfl⟩ := Option.map_eq_some_iff.mp failed
      exact .lift (Lifting.stopped_ofProperty_iff.mp stopped)

end Task

/-- What is still to be looked at, in order, and the names that are registered. -/
structure Inspection where
  /-- What is to be looked at. -/
  pending : List Task
  /-- The names. -/
  registered : List String

namespace Inspection

/-- A well-formed declaration is looked at: what it leads to comes before what was to be looked
at. -/
inductive Step : Inspection → Inspection → Prop where
  | look {task : Task} {rest : List Task} {registered : List String}
      (sound : ∀ cause, ¬task.IllFormed cause) :
      Step ⟨task :: rest, registered⟩
        ⟨task.next registered ++ rest, registered ++ task.names registered⟩

/-- An inspection leads to another by looking at some well-formed declarations. -/
abbrev Reaches : Inspection → Inspection → Prop := Relation.ReflTransGen Step

/-- An inspection meets an ill-formed declaration. -/
def Meets (start : Inspection) (task : Task) (cause : Error) : Prop :=
  ∃ rest registered, start.Reaches ⟨task :: rest, registered⟩ ∧ task.IllFormed cause

/-- There is one way to go on. -/
theorem rightUnique_step : Relator.RightUnique Step := by
  rintro start first second ⟨_⟩ ⟨_⟩
  rfl

/-- An inspection that cannot go on is the only such one that is reached. -/
theorem eq_of_reaches {start first second : Inspection} (left : start.Reaches first)
    (right : start.Reaches second) (done : ∀ next, ¬first.Step next)
    (ended : ∀ next, ¬second.Step next) : first = second := by
  rcases Relation.ReflTransGen.total_of_right_unique rightUnique_step left right with on | on
  · rcases on.cases_head with same | ⟨next, step, _⟩
    · exact same
    · exact absurd step (done next)
  · rcases on.cases_head with same | ⟨next, step, _⟩
    · exact same.symm
    · exact absurd step (ended next)

/-- An inspection does not go on from an ill-formed declaration. -/
theorem not_step_of_illFormed {task : Task} {cause : Error} {rest : List Task}
    {registered : List String} (malformed : task.IllFormed cause) (next : Inspection) :
    ¬Step ⟨task :: rest, registered⟩ next := by
  rintro ⟨sound⟩
  exact sound cause malformed

/-- An inspection with nothing to look at does not go on. -/
theorem not_step_nil {registered : List String} (next : Inspection) :
    ¬Step ⟨[], registered⟩ next := by
  rintro ⟨⟩

/-- An inspection meets one ill-formed declaration at most, with one error. -/
theorem Meets.unique {start : Inspection} {task other : Task} {cause error : Error}
    (left : start.Meets task cause) (right : start.Meets other error) :
    task = other ∧ cause = error := by
  obtain ⟨_, _, there, malformed⟩ := left
  obtain ⟨_, _, here, again⟩ := right
  have same := eq_of_reaches there here (not_step_of_illFormed malformed)
    (not_step_of_illFormed again)
  rw [Inspection.mk.injEq, List.cons.injEq] at same
  obtain ⟨⟨rfl, _⟩, _⟩ := same
  rw [Task.illFormed_iff] at malformed again
  exact ⟨rfl, Option.some.inj (malformed.symm.trans again)⟩

/-- An inspection that comes to its end meets no ill-formed declaration. -/
theorem Meets.not_reaches_nil {start : Inspection} {task : Task} {cause : Error}
    (meets : start.Meets task cause) (registered : List String) :
    ¬start.Reaches ⟨[], registered⟩ := by
  obtain ⟨_, _, there, malformed⟩ := meets
  intro ended
  have same := eq_of_reaches there ended (not_step_of_illFormed malformed) not_step_nil
  simp at same

/-- More to look at in the end does not matter. -/
theorem Reaches.append {start final : Inspection} (reaches : start.Reaches final)
    (rest : List Task) :
    Reaches ⟨start.pending ++ rest, start.registered⟩
      ⟨final.pending ++ rest, final.registered⟩ := by
  induction reaches with
  | refl => exact .refl
  | tail _ step ih =>
    obtain ⟨sound⟩ := step
    apply ih.tail
    rw [List.append_assoc]
    exact .look sound

/-- What is met is met too when there is more to look at in the end. -/
theorem Meets.append {tasks : List Task} {registered : List String} {task : Task} {cause : Error}
    (meets : Meets ⟨tasks, registered⟩ task cause) (rest : List Task) :
    Meets ⟨tasks ++ rest, registered⟩ task cause := by
  obtain ⟨others, names, there, malformed⟩ := meets
  exact ⟨others ++ rest, names, there.append rest, malformed⟩

/-- What is met later is met. -/
theorem Meets.of_reaches {start middle : Inspection} {task : Task} {cause : Error}
    (reaches : start.Reaches middle) (meets : middle.Meets task cause) :
    start.Meets task cause := by
  obtain ⟨others, names, there, malformed⟩ := meets
  exact ⟨others, names, reaches.trans there, malformed⟩

/-- The inspection of a list of tasks does what a trace says. -/
structure Runs (tasks : List Task) (registered : List String) (trace : Trace) : Prop where
  /-- Without an error everything is looked at, and the created names are registered. -/
  ended : trace.stopped = none → Reaches ⟨tasks, registered⟩ ⟨[], registered ++ trace.names⟩
  /-- An error is that of the ill-formed declaration that is met. -/
  met : ∀ cause, trace.stopped = some cause → ∃ task, Meets ⟨tasks, registered⟩ task cause

namespace Runs

variable {tasks more : List Task} {registered : List String} {first next : Trace}

/-- There is nothing to look at. -/
theorem nil (registered : List String) : Runs [] registered ⟨[], none⟩ := by
  refine ⟨fun _ => ?_, by simp⟩
  rw [Trace.names, Trace.created, List.filter_nil, List.map_nil, List.map_nil, List.append_nil]

/-- One inspection follows another. -/
theorem append (start : Runs tasks registered first)
    (later : first.stopped = none → Runs more (registered ++ first.names) next) :
    Runs (tasks ++ more) registered (first.followedBy next) := by
  cases passed : first.stopped with
  | some cause =>
    rw [Trace.followedBy_of_some passed]
    refine ⟨fun ended => ?_, fun error stopped => ?_⟩
    · simp [passed] at ended
    · obtain ⟨task, meets⟩ := start.met error stopped
      exact ⟨task, meets.append more⟩
  | none =>
    have reaches := (start.ended passed).append more
    rw [List.nil_append] at reaches
    refine ⟨fun ended => ?_, fun error stopped => ?_⟩
    · rw [Trace.names_followedBy passed, ← List.append_assoc]
      exact reaches.trans ((later passed).ended (Trace.stopped_followedBy.mp ended).2)
    · rw [Trace.followedBy_of_none passed] at stopped
      obtain ⟨task, meets⟩ := (later passed).met error stopped
      exact ⟨task, meets.of_reaches reaches⟩

/-- A well-formed declaration is followed by what it leads to. -/
theorem look (first next : Trace) {task : Task} (sound : task.error? = none)
    (later : Runs (task.next registered) (registered ++ task.names registered) next)
    (lifted : first.names = task.names registered) (passed : first.stopped = none) :
    Runs [task] registered (first.followedBy next) := by
  have step : Reaches ⟨[task], registered⟩
      ⟨task.next registered, registered ++ task.names registered⟩ := by
    have look : Step ⟨[task], registered⟩
        ⟨task.next registered ++ [], registered ++ task.names registered⟩ := by
      refine .look fun cause malformed => ?_
      rw [Task.illFormed_iff, sound] at malformed
      contradiction
    rw [List.append_nil] at look
    exact .single look
  refine ⟨fun ended => ?_, fun error stopped => ?_⟩
  · rw [Trace.names_followedBy passed, ← List.append_assoc, lifted]
    exact step.trans (later.ended (Trace.stopped_followedBy.mp ended).2)
  · rw [Trace.followedBy_of_none passed] at stopped
    obtain ⟨met, meets⟩ := later.met error stopped
    exact ⟨met, meets.of_reaches step⟩

/-- An ill-formed declaration is met at once. -/
theorem stop {task : Task} {cause : Error} (failed : task.error? = some cause)
    (stopped : first.stopped = some cause) : Runs [task] registered first := by
  refine ⟨by simp [stopped], fun error same => ⟨task, [], registered, .refl, ?_⟩⟩
  rw [Task.illFormed_iff, failed, ← stopped, same]

end Runs

/-- The inspection follows the trace of a resolution. -/
theorem runs_all :
    (∀ (name : String) (declaration : Declaration) (taken : List String),
      Runs [.type name declaration] taken (Trace.ofType name declaration taken)) ∧
    (∀ (owner : String) (entries : List (String × PropertyValue)) (taken : List String),
      Runs (Task.ofProperties owner entries) taken (Trace.ofProperties owner entries taken)) ∧
    ∀ (given : List Declaration) (taken : List String),
      Runs (Task.ofTypes given) taken (Trace.ofTypes given taken) := by
  refine Trace.ofType.mutual_induct
    (fun name declaration taken =>
      Runs [.type name declaration] taken (Trace.ofType name declaration taken))
    (fun owner entries taken =>
      Runs (Task.ofProperties owner entries) taken (Trace.ofProperties owner entries taken))
    (fun given taken => Runs (Task.ofTypes given) taken (Trace.ofTypes given taken))
    ?absorbed ?malformed ?marked ?plain ?noProperties ?property ?noTypes ?type
  case absorbed =>
    intro name declaration taken embedded absorbed read
    rw [Trace.ofType]
    simp only [embedded, ↓reduceIte, read]
    have sound : (Task.type name declaration).error? = none := by
      simp [Task.error?, embedded, read]
    refine Runs.look ⟨[], none⟩ ⟨[], none⟩ sound ?_ rfl rfl
    rw [Task.next, if_pos embedded]
    exact Runs.nil _
  case malformed =>
    intro name declaration taken embedded cause read
    rw [Trace.ofType]
    simp only [embedded, ↓reduceIte, read]
    exact Runs.stop (by simp [Task.error?, embedded, read]) rfl
  case marked =>
    intro name declaration taken plain cause stopped
    rw [Trace.ofType]
    simp only [plain, Bool.false_eq_true, ↓reduceIte, stopped]
    exact Runs.stop (by simp [Task.error?, plain, stopped]) rfl
  case plain =>
    intro name declaration taken plain bare ih
    have sound : (Task.type name declaration).error? = none := by
      simp [Task.error?, plain, bare]
    rw [Trace.ofType_of_plain (by simpa using plain) bare]
    refine Runs.look ⟨[], none⟩ _ sound ?_ rfl rfl
    rw [Task.next, if_neg plain, Task.names, List.append_nil]
    exact ih
  case noProperties =>
    intro owner taken
    rw [Trace.ofProperties]
    exact Runs.nil taken
  case property =>
    intro owner taken property value rest first inner _ ihInner ihRest
    rw [Trace.ofProperties, ← Trace.followedBy_assoc, Task.ofProperties, List.map_cons]
    -- A property and all types that it creates are looked at before the other properties.
    have own : Runs [.property owner property value] taken (first.followedBy inner) := by
      cases stopped : (Lifting.ofProperty owner property value).stopped with
      | some cause =>
        have failed : first.stopped = some (.decode (.lift cause)) := by
          simp only [first, Trace.ofLifting, stopped, Option.map_some]
        rw [Trace.followedBy_of_some failed]
        exact Runs.stop (by simp [Task.error?, stopped]) failed
      | none =>
        have passed : first.stopped = none := by
          simp only [first, Trace.ofLifting, stopped, Option.map_none]
        exact Runs.look first inner (by simp [Task.error?, stopped]) ihInner rfl passed
    refine own.append fun passed => ?_
    rw [Trace.names_followedBy (Trace.stopped_followedBy.mp passed).1, ← List.append_assoc]
    exact ihRest
  case noTypes =>
    intro taken
    rw [Trace.ofTypes]
    exact Runs.nil taken
  case type =>
    intro taken declaration rest first ihFirst ihRest
    rw [Trace.ofTypes, Task.ofTypes, List.map_cons]
    exact ihFirst.append fun _ => ihRest

section Resolution

variable {name owner property : String} {declaration : Declaration} {value : PropertyValue}
  {types : Declarations}

/-- A type whose resolution succeeds is looked at up to its end. -/
theorem reaches_type (present : name ∈ types.keys)
    (ended : (Resolution.resolveType name declaration types).stopped = none) :
    Reaches ⟨[.type name declaration], types.keys⟩
      ⟨[], (Resolution.resolveType name declaration types).reached.keys⟩ := by
  have follows := Resolution.follows_all.1 name declaration types present
  rw [follows.keys_eq]
  exact (runs_all.1 name declaration types.keys).ended (follows.stopped_eq.symm.trans ended)

/-- Types whose resolution succeeds are looked at up to the end. -/
theorem reaches_types {given : List Declaration} (distinct : (given.map Declaration.name).Nodup)
    (present : ∀ made ∈ given, made.name ∈ types.keys)
    (ended : (Resolution.resolveTypes given types).stopped = none) :
    Reaches ⟨Task.ofTypes given, types.keys⟩
      ⟨[], (Resolution.resolveTypes given types).reached.keys⟩ := by
  have follows := Resolution.follows_all.2.2 given types distinct present
  rw [follows.keys_eq]
  exact (runs_all.2.2 given types.keys).ended (follows.stopped_eq.symm.trans ended)

/-- After a type that is no embedded schema its properties are looked at. -/
theorem step_type (name : String) (plain : declaration.isEmbedded = false)
    (bare : declaration.properties.unmarkAll.stopped = none) (taken : List String) :
    Step ⟨[.type name declaration], taken⟩
      ⟨Task.ofProperties name declaration.bareProperties.entries, taken⟩ := by
  have look : Step ⟨[.type name declaration], taken⟩ _ := .look fun cause malformed => by
    rw [Task.illFormed_iff] at malformed
    simp [Task.error?, plain, bare] at malformed
  simpa only [Task.next, plain, Bool.false_eq_true, ↓reduceIte, Task.names, List.append_nil]
    using look

/-- After a property whose lifts are made the types that they create are looked at. -/
theorem step_property (types : Declarations)
    (ended : (Lifting.ofProperty owner property value).stopped = none)
    {created : List Declaration × Declarations}
    (creation : Declarations.createAll (Lifting.ofProperty owner property value).declarations types
      = created) (rest : List Task) :
    Step ⟨.property owner property value :: rest, types.keys⟩
      ⟨Task.ofTypes created.1 ++ rest, created.2.keys⟩ := by
  have creates := Resolution.creates_createAll owner property
    (Lifting.ofProperty owner property value).declarations types
  rw [creation] at creates
  rw [creates.keys_eq, creates.declarations_eq]
  refine .look fun cause malformed => ?_
  rw [Task.illFormed_iff] at malformed
  simp [Task.error?, ended] at malformed

end Resolution

end Inspection

namespace Registry

variable {registry : Registry} {name : String} {type : Classified}

/-- The inspection of a type, where the names of a registry are registered. -/
def inspection (registry : Registry) (name : String) (type : Classified) : Inspection :=
  ⟨[.type name type.declaration], registry.keys⟩

/-- The resolution of a registered type fails exactly when its inspection meets an ill-formed
declaration, and with the error of that declaration. It succeeds exactly when the inspection comes
to its end, with the names registered that the resolution leaves. -/
theorem resolve_fails_iff_meets (found : registry.get? name = some type) :
    (∀ cause, (registry.resolve name).stopped = some cause ↔
        ∃ task, (registry.inspection name type).Meets task cause) ∧
      ((registry.resolve name).stopped = none ↔
        (registry.inspection name type).Reaches
          ⟨[], (registry.resolve name).reached.keys⟩) := by
  have follows := follows_resolve found
  have runs := Inspection.runs_all.1 name type.declaration registry.keys
  have grown := follows.keys_eq
  rw [keys_declarations, keys_declarations] at grown
  rw [follows.stopped_eq, grown]
  cases stopped : (Trace.ofType name type.declaration registry.keys).stopped with
  | none =>
    have ended := runs.ended stopped
    refine ⟨fun cause => ⟨by simp, ?_⟩, ⟨fun _ => ended, fun _ => rfl⟩⟩
    rintro ⟨task, meets⟩
    exact absurd ended (meets.not_reaches_nil _)
  | some error =>
    obtain ⟨task, meets⟩ := runs.met error stopped
    refine ⟨fun cause => ⟨?_, ?_⟩, ⟨by simp, fun ended => ?_⟩⟩
    · rintro ⟨⟩
      exact ⟨task, meets⟩
    · rintro ⟨other, again⟩
      exact congrArg some (meets.unique again).2
    · exact absurd ended (meets.not_reaches_nil _)

/-- The inspection goes into the type that is lifted from a property. -/
theorem resolve_fails_iff_meets_sample :
    (declare .empty sampleBroken).get? "N" = some (.ofDeclaration sampleBroken) ∧
      ∃ task, ((declare .empty sampleBroken).inspection "N" (.ofDeclaration sampleBroken)).Meets
        task (.decode (.lift (.notMapping "NA" "b" (.string "c")))) := by
  have found : (declare .empty sampleBroken).get? "N" = some (.ofDeclaration sampleBroken) := rfl
  have stopped : ((declare .empty sampleBroken).resolve "N").stopped =
      some (.decode (.lift (.notMapping "NA" "b" (.string "c")))) := by decide +kernel
  exact ⟨found, ((resolve_fails_iff_meets found).1 _).mp stopped⟩

end Registry

end Raml
