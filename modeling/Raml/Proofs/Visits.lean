import Raml.Document.Text
import Raml.Proofs.KindCell

/-!
# Every type is resolved once

A resolution of all types goes through the names that there were at the start, while it creates
types of further names. A record of the run shows that none of them is left out: the types of the
record are the given ones and all that were created, each once, and none of them is an embedded
schema in the end.
-/
namespace Raml

/-- The resolution of a type. -/
structure Visit where
  /-- The name of the type. -/
  name : String
  /-- The declaration that the type had before. -/
  declaration : Declaration
  /-- The error that ended the resolution early. -/
  stopped : Option Error

/-- Declarations, and a record of the resolutions of types. -/
structure Recorded where
  /-- The declarations. -/
  types : Declarations
  /-- The resolutions, in the order in which they ended. -/
  visits : List Visit

namespace Recorded

/-- Replace the properties of a type. -/
def setProperties (state : Recorded) (name : String) (properties : Properties) : Recorded :=
  match state.types.get? name with
  | none => state
  | some declaration =>
    { state with types := state.types.insert name (declaration.withProperties properties) }

/-- Declarations of which the resolutions are recorded. -/
def store : Store Recorded where
  declarations := types
  readEmbedded state name :=
    (((state.types.get? name).map Declaration.isEmbedded).getD false, state)
  create state declaration :=
    { state with types := state.types.insert declaration.name declaration }
  absorb state name absorbed := { state with types := state.types.insert name absorbed }
  setProperties := setProperties
  close state name declaration stopped :=
    { state with visits := state.visits ++ [⟨name, declaration, stopped⟩] }

/-- The record does not show in a resolution. -/
theorem lawful_store : store.Lawful fun _ => True := by
  constructor
  case readEmbedded =>
    intro state name declaration _ found
    have found : state.types.get? name = some declaration := found
    simp [store, found]
  case create => exact fun _ _ _ => ⟨rfl, trivial⟩
  case absorb => exact fun _ _ _ _ => ⟨rfl, trivial⟩
  case setProperties =>
    intro state name declaration properties _ found
    have found : state.types.get? name = some declaration := found
    simp [store, setProperties, found]
  case close => exact fun _ _ _ _ _ => ⟨rfl, trivial⟩

/-- A resolved type is no embedded schema; one that was has become an object type. -/
def Settles (state : Recorded) (visit : Visit) : Prop :=
  ∃ declaration, state.types.get? visit.name = some declaration ∧
    declaration.isEmbedded = false ∧
    (visit.declaration.isEmbedded = true →
      declaration.expression = some (.string TypeExpr.objectName))

/-- Between two states types of some names are created and nothing is recorded. -/
structure Extends (created : List String) (before after : Recorded) : Prop where
  /-- What was settled stays settled. -/
  kept : ∀ visit, before.Settles visit → after.Settles visit
  /-- The names are added. -/
  keys_eq : after.types.keys = before.types.keys ++ created
  /-- Nothing is recorded. -/
  visits_eq : after.visits = before.visits

/-- Between two states the types of some names are resolved, and so is every type that is created
meanwhile, each once and without an error. -/
structure Resolves (names : List String) (before after : Recorded) : Prop where
  /-- What was settled stays settled. -/
  kept : ∀ visit, before.Settles visit → after.Settles visit
  /-- The record has the given and the created types. -/
  recorded : ∃ visits created, after.visits = before.visits ++ visits ∧
    after.types.keys = before.types.keys ++ created ∧
    (visits.map Visit.name).Perm (names ++ created) ∧
    ∀ visit ∈ visits, visit.stopped = none ∧ after.Settles visit

variable {before middle after : Recorded} {names more created : List String}

/-- Nothing is created. -/
theorem Extends.refl (state : Recorded) : Extends [] state state :=
  ⟨fun _ => id, (List.append_nil _).symm, rfl⟩

/-- Types are created one after another. -/
theorem Extends.trans (first : Extends names before middle) (later : Extends more middle after) :
    Extends (names ++ more) before after := by
  constructor
  · exact fun visit settled => later.kept visit (first.kept visit settled)
  · rw [later.keys_eq, first.keys_eq, List.append_assoc]
  · rw [later.visits_eq, first.visits_eq]

/-- Nothing is resolved. -/
theorem Resolves.refl (state : Recorded) : Resolves [] state state :=
  ⟨fun _ => id, [], [], by simp⟩

/-- Types are resolved one after another. -/
theorem Resolves.trans (first : Resolves names before middle) (later : Resolves more middle after) :
    Resolves (names ++ more) before after := by
  obtain ⟨visits, created, visited, grown, order, ended⟩ := first.recorded
  obtain ⟨others, added, visited', grown', order', ended'⟩ := later.recorded
  refine ⟨fun visit settled => later.kept visit (first.kept visit settled),
    visits ++ others, created ++ added, ?_, ?_, ?_, ?_⟩
  · rw [visited', visited, List.append_assoc]
  · rw [grown', grown, List.append_assoc]
  · have both : ((visits ++ others).map Visit.name).Perm
        ((names ++ created) ++ (more ++ added)) := by
      rw [List.map_append]
      exact order.append order'
    have swapped : (created ++ more ++ added).Perm (more ++ created ++ added) :=
      List.perm_append_comm.append_right added
    refine both.trans ?_
    simp only [List.append_assoc] at swapped ⊢
    exact swapped.append_left names
  · intro visit inside
    rcases List.mem_append.mp inside with early | late
    · exact ⟨(ended visit early).1, later.kept visit (ended visit early).2⟩
    · exact ended' visit late

/-- Types that are created and then resolved are among those that are created meanwhile. -/
theorem Extends.resolves (creation : Extends created before middle)
    (later : Resolves created middle after) : Resolves [] before after := by
  obtain ⟨visits, added, visited, grown, order, ended⟩ := later.recorded
  refine ⟨fun visit settled => later.kept visit (creation.kept visit settled),
    visits, created ++ added, ?_, ?_, order, ended⟩
  · rw [visited, creation.visits_eq]
  · rw [grown, creation.keys_eq, List.append_assoc]

/-- The end of the resolution of a type is recorded. -/
theorem Resolves.close (walked : Resolves [] before after) {name : String}
    {declaration : Declaration} (settled : after.Settles ⟨name, declaration, none⟩) :
    Resolves [name] before (store.close after name declaration none) := by
  obtain ⟨visits, created, visited, grown, order, ended⟩ := walked.recorded
  refine ⟨walked.kept, visits ++ [⟨name, declaration, none⟩], created, ?_, grown, ?_, ?_⟩
  · show after.visits ++ _ = _
    rw [visited, List.append_assoc]
  · rw [List.map_append]
    exact List.perm_append_comm.trans (order.append_left [name])
  · intro visit inside
    rcases List.mem_append.mp inside with early | last
    · exact ended visit early
    · rw [List.mem_singleton.mp last]
      exact ⟨rfl, settled⟩

/-- A type may be written that is settled by what is written. -/
theorem extends_insert {state : Recorded} {name : String} {old new : Declaration}
    (found : state.types.get? name = some old) (plain : old.isEmbedded = false →
      new.isEmbedded = false)
    (object : old.expression = some (.string TypeExpr.objectName) →
      new.expression = some (.string TypeExpr.objectName)) :
    Extends [] state { state with types := state.types.insert name new } := by
  have present : name ∈ state.types.keys := OrderedMap.mem_keys_iff.mpr ⟨old, found⟩
  refine ⟨fun visit settled => ?_, ?_, rfl⟩
  · obtain ⟨declaration, there, own, became⟩ := settled
    by_cases same : visit.name = name
    · rw [same, found] at there
      obtain rfl : old = declaration := Option.some.inj there
      refine ⟨new, ?_, plain own, fun embedded => object (became embedded)⟩
      exact (OrderedMap.get?_insert _ _ _ _).trans (if_pos same)
    · refine ⟨declaration, ?_, own, became⟩
      exact (OrderedMap.get?_insert _ _ _ _).trans ((if_neg same).trans there)
  · rw [List.append_nil]
    exact OrderedMap.keys_insert_of_mem new present

/-- Replaced properties settle what was settled. -/
theorem extends_setProperties (state : Recorded) (name : String) (properties : Properties) :
    Extends [] state (state.setProperties name properties) := by
  unfold setProperties
  cases found : state.types.get? name with
  | none => exact Extends.refl state
  | some declaration => exact extends_insert found id id

/-- A created type has a free name. -/
theorem extends_createNew (state : Recorded) (declaration : Declaration) :
    Extends (store.createNew state declaration).1 state
      (store.createNew state declaration).2 := by
  unfold Store.createNew
  split
  · exact Extends.refl state
  · rename_i free
    have free : declaration.name ∉ state.types.keys := mt OrderedMap.contains_iff.mpr free
    refine ⟨fun visit settled => ?_, ?_, rfl⟩
    · obtain ⟨own, there, settled⟩ := settled
      have apart : visit.name ≠ declaration.name := fun same =>
        free (same ▸ OrderedMap.mem_keys_iff.mpr ⟨own, there⟩)
      refine ⟨own, ?_, settled⟩
      exact (OrderedMap.get?_insert _ _ _ _).trans ((if_neg apart).trans there)
    · exact (OrderedMap.keys_insert _ _ _).trans (if_neg free)

/-- A lift creates its type. -/
theorem extends_lift {lifts : String → String → PropertyValue → Except LiftError (Option Lift)}
    {owner property : String} {held : Store.Held Recorded}
    {made : List String × Store.Held Recorded}
    (lifted : store.lift lifts owner property held = .ok made) :
    Extends made.1 held.state made.2.state := by
  unfold Store.lift at lifted
  split at lifted
  · cases lifted
    exact Extends.refl held.state
  · split at lifted
    · contradiction
    · cases lifted
      exact Extends.refl held.state
    · cases lifted
      exact extends_createNew held.state _

/-- The properties are put back. -/
theorem extends_attach (held : Store.Held Recorded) (name : String) :
    Extends [] held.state (store.attach held name) := by
  unfold Store.attach
  split
  · exact Extends.refl held.state
  · exact extends_setProperties held.state name held.properties

/-- Several changes resolve what each of them resolves. -/
theorem resolves_each {α β : Type} (view : α → Recorded) (resolved : β → List String)
    {change : α → β → Option (Attempt Error α)}
    (step : ∀ state element attempt, change state element = some attempt →
      attempt.stopped = none → Resolves (resolved element) (view state) (view attempt.reached))
    (elements : List β) {state : α} {attempt : Attempt Error α}
    (run : Attempt.each? change elements state = some attempt) (ended : attempt.stopped = none) :
    Resolves (elements.flatMap resolved) (view state) (view attempt.reached) := by
  induction elements generalizing state with
  | nil =>
    cases run
    exact Resolves.refl _
  | cons element rest ih =>
    rw [Attempt.each?] at run
    split at run
    · contradiction
    · rename_i first changed
      split at run
      · rename_i passed
        rw [List.flatMap_cons]
        exact (step state element first changed passed).trans (ih run)
      · rename_i cause stopped
        cases run
        rw [stopped] at ended
        contradiction

section Step

variable {resolve : Recorded → String → Option (Attempt Error Recorded)}
  (step : ∀ state name attempt, resolve state name = some attempt →
    attempt.stopped = none → Resolves [name] state attempt.reached)
include step

/-- Resolved names are recorded. -/
theorem resolves_names (names : List String) {state : Recorded} {attempt : Attempt Error Recorded}
    (run : Attempt.each? resolve names state = some attempt) (ended : attempt.stopped = none) :
    Resolves names state attempt.reached := by
  have all := resolves_each id (fun name => [name]) step names run ended
  rwa [List.flatMap_singleton'] at all

/-- The types that are lifted from a property are created and resolved. -/
theorem resolves_property {owner property : String} {held : Store.Held Recorded}
    {attempt : Attempt Error (Store.Held Recorded)}
    (run : store.resolveProperty resolve owner held property = some attempt)
    (ended : attempt.stopped = none) : Resolves [] held.state attempt.reached.state := by
  unfold Store.resolveProperty at run
  split at run
  · cases run
    contradiction
  · rename_i first object lifted
    split at run
    · cases run
      contradiction
    · rename_i second item lifted'
      obtain ⟨inner, walked, rfl⟩ := Option.map_eq_some_iff.mp run
      have creation : Extends (first ++ second) held.state item.state :=
        (extends_lift lifted).trans (extends_lift lifted')
      exact creation.resolves (resolves_names step _ walked ended)

/-- The types that are lifted from the properties of a type are created and resolved. -/
theorem resolves_taken {state : Recorded} {name : String} {declaration : Declaration}
    {attempt : Attempt Error Recorded}
    (run : store.resolveTaken resolve state name declaration = some attempt)
    (ended : attempt.stopped = none) : Resolves [] state attempt.reached := by
  unfold Store.resolveTaken at run
  have taken : Extends [] state (store.take state name declaration).state :=
    extends_setProperties state name .empty
  simp only at run
  split at run
  · cases run
    contradiction
  · obtain ⟨inner, walked, rfl⟩ := Option.map_eq_some_iff.mp run
    have all := resolves_each Store.Held.state (fun _ => [])
      (fun held property attempt => resolves_property step) _ walked ended
    rw [List.flatMap_eq_nil_iff.mpr fun _ _ => rfl] at all
    exact taken.resolves (all.trans ((extends_attach inner.reached name).resolves (.refl _)))

end Step

/-- A resolution without an error resolves its type and every type that it creates, each once. -/
theorem resolves_resolveWithin (depth : Nat) (state : Recorded) (name : String)
    (attempt : Attempt Error Recorded) (run : store.resolveWithin depth state name = some attempt)
    (ended : attempt.stopped = none) : Resolves [name] state attempt.reached := by
  induction depth generalizing state name attempt with
  | zero => contradiction
  | succ depth ih =>
    unfold Store.resolveWithin at run
    split at run
    · cases run
      contradiction
    · rename_i declaration found
      obtain ⟨inner, walked, rfl⟩ := Option.map_eq_some_iff.mp run
      have found : state.types.get? name = some declaration := found
      have answer : (store.readEmbedded state name).1 = declaration.isEmbedded :=
        (lawful_store.readEmbedded state name declaration trivial found).1
      have ended : inner.stopped = none := ended
      simp only [ended]
      rw [answer] at walked
      by_cases embedded : declaration.isEmbedded = true
      · rw [if_pos embedded] at walked
        cases read : declaration.absorb with
        | error cause =>
          simp only [read, Option.some.injEq] at walked
          subst walked
          contradiction
        | ok absorbed =>
          simp only [read, Option.some.injEq] at walked
          subst walked
          obtain ⟨properties, rfl⟩ := Declaration.eq_asObject_of_absorb read
          have plain := declaration.isEmbedded_asObject properties
          have written : Extends [] state (store.absorb state name _) :=
            extends_insert found (fun _ => plain) fun _ => rfl
          refine (written.resolves (.refl _)).close ⟨_, ?_, plain, fun _ => rfl⟩
          exact (OrderedMap.get?_insert _ _ _ _).trans (if_pos rfl)
      · rw [if_neg embedded] at walked
        have inner := resolves_taken ih walked ended
        have plain : declaration.isEmbedded = false := by simpa using embedded
        have before : state.Settles ⟨name, declaration, none⟩ :=
          ⟨declaration, found, plain, fun now => absurd now embedded⟩
        exact inner.close (inner.kept _ before)

end Recorded

namespace Registry

/-- Resolve every type, and record the resolutions. -/
def resolveAllRecorded (registry : Registry) : Option (Attempt Error Recorded) :=
  Recorded.store.resolveAllWithin ((registry.keys.map registry.inlineBound).sum + 1)
    ⟨registry.declarations, []⟩

/-- What a resolution of all types makes of a registry when no error ends it. -/
structure Completes (before after : Registry) : Prop where
  /-- No type is an embedded schema. -/
  plain : ∀ name type, after.get? name = some type → type.declaration.isEmbedded = false
  /-- By the kinds in the cells no type is one either. -/
  read : before.Current → ∀ name type, after.get? name = some type → type.isEmbedded = false
  /-- A record of the resolution has every type of the result once and no error. Whatever was an
  embedded schema has become an object type. -/
  recorded : ∃ visits,
    before.resolveAllRecorded = some (.done ⟨after.declarations, visits⟩) ∧
      (visits.map Visit.name).Perm after.keys ∧
      ∀ visit ∈ visits, visit.stopped = none ∧
        (visit.declaration.isEmbedded = true → ∃ type, after.get? visit.name = some type ∧
          type.declaration.expression = some (.string TypeExpr.objectName))

/-- A resolution of all types that no error ends completes the registry. -/
theorem completes_resolveAll {registry : Registry}
    (ended : registry.resolveAll.stopped = none) :
    registry.Completes registry.resolveAll.reached := by
  have mirrors : Attempt.Mirrors (fun _ => True) Recorded.store.declarations
      registry.resolveAllRecorded
      (Declarations.resolveAllWithin ((registry.keys.map registry.inlineBound).sum + 1)
        registry.declarations) := Recorded.lawful_store.resolveAllWithin _ trivial
  rw [resolveAllWithin_declarations] at mirrors
  obtain ⟨⟨state, stopped⟩, run, -, shown⟩ := mirrors.exists_of_some
  have reached : state.types = registry.resolveAll.reached.declarations :=
    (congrArg Attempt.reached shown).trans (declarations_adopt registry _).symm
  obtain rfl : stopped = none := (congrArg Attempt.stopped shown).trans ended
  have resolves := Recorded.resolves_names (Recorded.resolves_resolveWithin _) _ run rfl
  obtain ⟨visits, created, visited, grown, order, ended⟩ := resolves.recorded
  have keys : state.types.keys = registry.resolveAll.reached.keys := by
    rw [reached, keys_declarations]
  -- Every name of the result has been visited, and what was visited is settled.
  have settles (name : String) (type : Classified)
      (found : registry.resolveAll.reached.get? name = some type) :
      type.declaration.isEmbedded = false := by
    have present : name ∈ registry.declarations.keys ++ created := by
      rw [← grown, keys]
      exact OrderedMap.mem_keys_iff.mpr ⟨type, found⟩
    obtain ⟨visit, inside, rfl⟩ := List.mem_map.mp (order.mem_iff.mpr present)
    obtain ⟨declaration, there, plain, -⟩ := (ended visit inside).2
    rw [reached, get?_declarations, found] at there
    exact Option.some.inj there ▸ plain
  refine ⟨settles, fun current name type found => ?_, visits, ?_, ?_, fun visit inside => ?_⟩
  · have own : type.Current := current.adopt _ name type found
    rw [Classified.isEmbedded, own.kind_eq]
    exact settles name type found
  · have whole : state = ⟨registry.resolveAll.reached.declarations, visits⟩ := by
      rw [← reached, ← show state.visits = visits from visited]
    rw [run, whole]
    rfl
  · rw [← keys, grown]
    exact order
  · refine ⟨(ended visit inside).1, fun embedded => ?_⟩
    obtain ⟨declaration, there, -, object⟩ := (ended visit inside).2
    rw [reached, get?_declarations, Option.map_eq_some_iff] at there
    obtain ⟨type, found, rfl⟩ := there
    exact ⟨type, found, object embedded⟩

end Registry

namespace Document

/-- The types that entries declare are current. -/
theorem current_declareEntries {entries : List (String × Node)} {types declared : Registry}
    (current : types.Current) (read : declareEntries entries types = .ok declared) :
    declared.Current := by
  induction entries generalizing types with
  | nil => exact Except.ok.inj read ▸ current
  | cons entry rest ih =>
    rw [declareEntries] at read
    split at read
    · exact ih (current.insert _ (Classified.current_ofDeclaration _)) read
    · contradiction

/-- The types that sections declare are current. -/
theorem current_declareSections {root : Node} {names : List String} {types declared : Registry}
    (current : types.Current) (read : declareSections root names types = .ok declared) :
    declared.Current := by
  induction names generalizing types with
  | nil => exact Except.ok.inj read ▸ current
  | cons name rest ih =>
    rw [declareSections] at read
    split at read
    · contradiction
    · split at read
      · rename_i entries _ own made
        exact ih (current_declareEntries current made) read
      · contradiction

/-- The types that a document declares are current, and its own types are what resolving them
makes of them. -/
theorem completes_ofNode {root : Node} {document : Document} (read : ofNode root = .ok document) :
    ∃ before, declared root = .ok before ∧ before.types.Current ∧
      before.types.Completes document.types := by
  unfold ofNode at read
  cases first : declared root with
  | error error => simp [first] at read
  | ok before =>
    rw [first] at read
    refine ⟨before, rfl, ?_, ?_⟩
    · unfold declared at first
      split at first
      · contradiction
      · rename_i types sections
        have current : types.Current := current_declareSections Registry.current_empty sections
        split at first
        · contradiction
        · rename_i entries _
          cases traits : readTraits entries .empty with
          | error error => simp [traits, Except.map] at first
          | ok traits' =>
            simp only [traits, Except.map, Except.ok.injEq] at first
            exact first ▸ current
    · unfold resolved at read
      simp only at read
      split at read
      · rename_i ended
        exact Except.ok.inj read ▸ Registry.completes_resolveAll ended
      · contradiction

end Document

/-- When no error ends a resolution of all types, whichever types were given and refer to whichever
others, no type of the result is an embedded schema, neither by its expression nor, as long as the
cells of the given types hold their kinds, by what its cell says. A record of the resolution shows
every type of the result, given or created, exactly once, resolved without an error, and those that
were embedded schemas when they were reached have the expression `object`. All of this holds of
every document that can be read from a text. -/
theorem Registry.resolveAll_once :
    (∀ registry : Registry, registry.resolveAll.stopped = none →
        registry.Completes registry.resolveAll.reached) ∧
      ∀ text document, Document.ofText text = .ok document →
        ∃ root before, Node.ofText? text = some root ∧ Document.declared root = .ok before ∧
          before.types.Completes document.types ∧
          ∀ name type, document.types.get? name = some type → type.isEmbedded = false := by
  refine ⟨fun registry => completes_resolveAll, fun text document read => ?_⟩
  unfold Document.ofText at read
  cases parsed : Node.ofText? text with
  | none => simp [parsed] at read
  | some root =>
    rw [parsed] at read
    obtain ⟨before, first, current, completes⟩ := Document.completes_ofNode read
    exact ⟨root, before, rfl, first, completes, completes.read current⟩

/-- A document with an embedded schema in a lifted type and one in a declared type. -/
def Document.sampleSchemas : String :=
  "types:\n  N:\n    properties:\n      a:\n        type: '\x7b\x7d'\n" ++
    "        properties: \x7b\x7d\n  M: '\x7b\x7d'"

/-- In the sample the lifted type and the declared one have become object types. -/
theorem Registry.resolveAll_once_sample :
    (sample.resolveAll.stopped = none ∧ sample.Completes sample.resolveAll.reached) ∧
      ∃ document, Document.ofText Document.sampleSchemas = .ok document ∧
        document.types.keys = ["N", "M", "NA"] ∧
        ∀ name type, document.types.get? name = some type → type.isEmbedded = false := by
  have ended : sample.resolveAll.stopped = none := Option.isNone_iff_eq_none.mp (by decide +kernel)
  refine ⟨⟨ended, resolveAll_once.1 sample ended⟩, ?_⟩
  have keys : ((Document.ofText Document.sampleSchemas).map
      fun document => document.types.keys).toOption = some ["N", "M", "NA"] := by decide +kernel
  cases read : Document.ofText Document.sampleSchemas with
  | error error =>
    rw [read] at keys
    contradiction
  | ok document =>
    obtain ⟨root, before, -, -, -, plain⟩ := resolveAll_once.2 _ document read
    rw [read] at keys
    exact ⟨document, rfl, Option.some.inj keys, plain⟩

end Raml
