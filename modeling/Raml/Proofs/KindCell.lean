import Raml.Proofs.Store
import Raml.Proofs.Termination

/-!
# Remembered kinds

Whoever reads the kind of a type leaves it in the type's cell, and so does a resolution that asks
whether the type is an embedded schema. A kind in a cell is current while it is the kind of the
expression. Types start with empty cells, and every change of an expression empties the cell, so no
cell is ever read that is not current, whatever is done with the types and their copies in between.
-/
namespace Raml

namespace Classified

/-- A type in whose cell there is no kind but that of its expression. -/
def Current (type : Classified) : Prop := ∀ kind ∈ type.memo, kind = type.declaration.kind

/-- The kind that is read from a current type is that of its expression. -/
theorem Current.kind_eq {type : Classified} (current : type.Current) :
    type.kind = type.declaration.kind := by
  unfold kind
  cases left : type.memo with
  | none => rfl
  | some kind => exact current kind left

/-- A type whose kind has not been read is current. -/
theorem current_ofDeclaration (declaration : Declaration) :
    (ofDeclaration declaration).Current := by
  rintro kind ⟨⟩

/-- Reading the kind leaves a current type current. -/
theorem Current.readKind {type : Classified} (current : type.Current) :
    type.readKind.2.Current := by
  rintro kind ⟨⟩
  exact current.kind_eq

/-- A type whose expression was replaced is current. -/
theorem current_withExpression (type : Classified) (expression : Option Node) :
    (type.withExpression expression).Current := by
  rintro kind ⟨⟩

/-- Replacing the properties leaves a current type current. -/
theorem Current.withProperties {type : Classified} (current : type.Current)
    (properties : Properties) : (type.withProperties properties).Current := current

/-- A current type stays so when it takes over another declaration. -/
theorem Current.adopt {type : Classified} (current : type.Current) (declaration : Declaration) :
    (type.adopt declaration).Current := by
  unfold Classified.adopt
  split
  · rename_i same
    have kinds : type.declaration.kind = declaration.kind := by
      rw [Declaration.kind, Declaration.text, same, Declaration.kind, Declaration.text]
    intro kind left
    exact (current kind left).trans kinds
  · exact current_ofDeclaration declaration

/-- A type that absorbed its schema is current. -/
theorem current_of_absorb {type absorbed : Classified} (read : type.absorb = .ok absorbed) :
    absorbed.Current := by
  unfold absorb at read
  cases made : type.declaration.absorb with
  | error cause => simp [made, Except.map] at read
  | ok declaration =>
    simp only [made, Except.map, Except.ok.injEq] at read
    exact read ▸ current_ofDeclaration declaration

end Classified

namespace Registry

/-- A registry of current types. -/
def Current (registry : Registry) : Prop :=
  ∀ name type, registry.get? name = some type → type.Current

variable {registry : Registry}

/-- A registry without types is one of current types. -/
theorem current_empty : Current .empty := by
  intro name type found
  simp [OrderedMap.get?, OrderedMap.empty, Entries.get?] at found

/-- A current type may be written. -/
theorem Current.insert (current : registry.Current) (name : String) {type : Classified}
    (own : type.Current) : Current (registry.insert name type) := by
  intro key other found
  rw [OrderedMap.get?_insert] at found
  split at found
  · exact Option.some.inj found ▸ own
  · exact current key other found

/-- A type may be changed in ways that leave it current. -/
theorem Current.modify (current : registry.Current) (name : String)
    {change : Classified → Classified} (keeps : ∀ type, type.Current → (change type).Current) :
    Current (registry.modify name change) := by
  unfold Registry.modify
  split
  · rename_i type found
    exact current.insert name (keeps type (current name type found))
  · exact current

/-- A created type is current. -/
theorem Current.create (current : registry.Current) (declaration : Declaration) :
    (registry.create declaration).2.Current := by
  unfold Registry.create
  split
  · exact current
  · exact current.insert _ (Classified.current_ofDeclaration declaration)

/-- Types stay current when their registry takes over other declarations. -/
theorem Current.adopt (current : registry.Current) (types : Declarations) :
    (registry.adopt types).Current := by
  intro name type found
  rw [Registry.adopt, OrderedMap.get?_map] at found
  obtain ⟨declaration, there, rfl⟩ := Option.map_eq_some_iff.mp found
  split
  · rename_i type known
    exact (current name type known).adopt declaration
  · exact Classified.current_ofDeclaration declaration

/-- The registry as a store in which reading a kind fills the cell. -/
def cells : Store Registry where
  declarations := declarations
  readEmbedded registry name :=
    match registry.get? name with
    | none => (false, registry)
    | some type => (type.readKind.1 = .embeddedSchema, registry.insert name type.readKind.2)
  create := declare
  absorb registry name absorbed := registry.insert name (.ofDeclaration absorbed)
  setProperties := setProperties
  close registry _ _ _ := registry

/-- While the types are current, their cells do not show in a resolution. -/
theorem lawful_cells : cells.Lawful Current := by
  constructor
  case readEmbedded =>
    intro registry name declaration current found
    obtain ⟨type, there, rfl⟩ := Option.map_eq_some_iff.mp
      ((get?_declarations registry name).symm.trans found)
    have own := current name type there
    simp only [cells, there]
    refine ⟨?_, ?_, current.insert name own.readKind⟩
    · rw [Classified.readKind, own.kind_eq, Declaration.isEmbedded]
    · rw [declarations_insert, Classified.readKind]
      exact OrderedMap.insert_of_get? found
  case create =>
    intro registry declaration current
    exact ⟨declarations_declare registry declaration,
      current.insert _ (Classified.current_ofDeclaration declaration)⟩
  case absorb =>
    intro registry name absorbed current
    exact ⟨declarations_insert registry name _,
      current.insert name (Classified.current_ofDeclaration absorbed)⟩
  case setProperties =>
    intro registry name declaration properties current found
    obtain ⟨type, there, rfl⟩ := Option.map_eq_some_iff.mp
      ((get?_declarations registry name).symm.trans found)
    exact ⟨declarations_modify there _,
      current.modify name fun type own => own.withProperties properties⟩
  case close =>
    intro registry _ _ _ current
    exact ⟨rfl, current⟩

/-- Resolve the type of a name, reading the kinds of types from their cells. -/
def resolveReading (registry : Registry) (name : String) : Option (Attempt Error Registry) :=
  cells.resolveWithin (registry.inlineBound name + 1) registry name

/-- Resolve every type, reading the kinds of types from their cells. -/
def resolveAllReading (registry : Registry) : Option (Attempt Error Registry) :=
  cells.resolveAllWithin ((registry.keys.map registry.inlineBound).sum + 1) registry

/-- The bound of a name is deep enough for its resolution. -/
theorem resolveWithin_declarations (registry : Registry) (name : String) :
    Declarations.resolveWithin (registry.inlineBound name + 1) registry.declarations name =
      some (registry.declarations.resolve name) := by
  apply Declarations.resolveWithin_eq
  rw [inlineBound_declarations]
  omega

/-- The bounds of all names are together deep enough for the resolution of all. -/
theorem resolveAllWithin_declarations (registry : Registry) :
    Declarations.resolveAllWithin ((registry.keys.map registry.inlineBound).sum + 1)
      registry.declarations = some registry.declarations.resolveAll := by
  refine Declarations.each?_resolveWithin registry.declarations.distinct (fun _ => id) ?_
  rw [keys_declarations, funext registry.inlineBound_declarations]
  omega

/-- In a registry of current types a resolution that reads kinds from cells reaches what `resolve`
reaches, and leaves the types current. -/
theorem Current.resolveReading (current : registry.Current) (name : String) :
    ∃ attempt, registry.resolveReading name = some attempt ∧ attempt.reached.Current ∧
      attempt.stopped = (registry.resolve name).stopped ∧
      attempt.reached.declarations = (registry.resolve name).reached.declarations := by
  have mirrors := lawful_cells.resolveWithin (registry.inlineBound name + 1) registry name current
  rw [show cells.declarations registry = registry.declarations from rfl,
    resolveWithin_declarations] at mirrors
  obtain ⟨attempt, found, better, shown⟩ := mirrors.exists_of_some
  have ended : attempt.stopped = (registry.declarations.resolve name).stopped :=
    congrArg Attempt.stopped shown
  have reached : attempt.reached.declarations = (registry.declarations.resolve name).reached :=
    congrArg Attempt.reached shown
  exact ⟨attempt, found, better, ended, reached.trans (declarations_resolve registry name).symm⟩

/-- In a registry of current types a resolution of all types that reads kinds from cells reaches
what `resolveAll` reaches, and leaves the types current. -/
theorem Current.resolveAllReading (current : registry.Current) :
    ∃ attempt, registry.resolveAllReading = some attempt ∧ attempt.reached.Current ∧
      attempt.stopped = registry.resolveAll.stopped ∧
      attempt.reached.declarations = registry.resolveAll.reached.declarations := by
  have mirrors := lawful_cells.resolveAllWithin
    ((registry.keys.map registry.inlineBound).sum + 1) current
  rw [show cells.declarations registry = registry.declarations from rfl,
    resolveAllWithin_declarations] at mirrors
  obtain ⟨attempt, found, better, shown⟩ := mirrors.exists_of_some
  have ended : attempt.stopped = registry.declarations.resolveAll.stopped :=
    congrArg Attempt.stopped shown
  have reached : attempt.reached.declarations = registry.declarations.resolveAll.reached :=
    congrArg Attempt.reached shown
  exact ⟨attempt, found, better, ended, reached.trans (declarations_adopt registry _).symm⟩

end Registry

/-- What can be done with one type. -/
inductive Classified.Change where
  /-- Read the kind. -/
  | readKind
  /-- Replace the expression. -/
  | setExpression (expression : Option Node)
  /-- Absorb the schema, which may fail. -/
  | absorb
  /-- Rewrite the properties in place. -/
  | rewrite (change : Properties → Properties)

/-- The type after a change; a schema that gives an error changes nothing. -/
def Classified.after (type : Classified) : Classified.Change → Classified
  | .readKind => type.readKind.2
  | .setExpression expression => type.withExpression expression
  | .absorb =>
    match type.absorb with
    | .ok absorbed => absorbed
    | .error _ => type
  | .rewrite change => type.withProperties (change type.declaration.properties)

/-- A change leaves a current type current. -/
theorem Classified.Current.after {type : Classified} (current : type.Current)
    (change : Classified.Change) : (type.after change).Current := by
  cases change with
  | readKind => exact current.readKind
  | setExpression expression => exact Classified.current_withExpression type expression
  | absorb =>
    unfold Classified.after
    cases read : type.absorb with
    | ok absorbed => exact Classified.current_of_absorb read
    | error cause => exact current
  | rewrite change => exact current.withProperties _

/-- What is worked on: a type by itself, or a registry. -/
inductive Holding where
  | type (type : Classified)
  | registry (registry : Registry)

namespace Holding

/-- The types. -/
def types : Holding → List Classified
  | type own => [own]
  | registry own => own.entries.map Prod.snd

/-- Only current types are held. -/
def Current : Holding → Prop
  | type own => own.Current
  | registry own => own.Current

/-- Change a type by itself. -/
def changeType (change : Classified → Classified) : Holding → Holding
  | type own => type (change own)
  | registry own => registry own

/-- Change a registry. -/
def changeRegistry (change : Registry → Registry) : Holding → Holding
  | type own => type own
  | registry own => registry (change own)

/-- The type by itself, or the one that a registry has under a name. -/
def type? (name : String) : Holding → Option Classified
  | type own => some own
  | registry own => own.get? name

variable {holding : Holding}

/-- Every type of a current holding is current. -/
theorem Current.of_mem (current : holding.Current) {type : Classified}
    (inside : type ∈ holding.types) : type.Current := by
  cases holding with
  | type own => exact List.mem_singleton.mp inside ▸ current
  | registry own =>
    obtain ⟨⟨name, type⟩, entry, rfl⟩ := List.mem_map.mp inside
    exact current name type (OrderedMap.get?_eq_some.mpr entry)

/-- A type by itself may be changed in ways that leave it current. -/
theorem Current.changeType (current : holding.Current) {change : Classified → Classified}
    (keeps : ∀ type, type.Current → (change type).Current) :
    (holding.changeType change).Current := by
  cases holding with
  | type own => exact keeps own current
  | registry own => exact current

/-- A registry may be changed in ways that leave its types current. -/
theorem Current.changeRegistry (current : holding.Current) {change : Registry → Registry}
    (keeps : ∀ registry : Registry, registry.Current → (change registry).Current) :
    (holding.changeRegistry change).Current := by
  cases holding with
  | type own => exact current
  | registry own => exact keeps own current

/-- A type that is found in a current holding is current. -/
theorem Current.type? (current : holding.Current) {name : String} {type : Classified}
    (found : holding.type? name = some type) : type.Current := by
  cases holding with
  | type own => exact Option.some.inj found ▸ current
  | registry own => exact current name type found

end Holding

/-- An action on holdings, which are given by their places. -/
inductive Action where
  /-- Read a type from a node, which may be refused. -/
  | ofNode (name : String) (node : Node)
  /-- Make a type of its parts. -/
  | ofParts (name : String) (expression : Option Node) (properties : Properties)
  /-- Open an empty registry. -/
  | openRegistry
  /-- Copy a holding. -/
  | copy (place : Nat)
  /-- Copy the type of a name out of a registry. -/
  | copyType (place : Nat) (name : String)
  /-- Change a type. -/
  | change (place : Nat) (change : Classified.Change)
  /-- Change the type of a name in a registry. -/
  | changeIn (place : Nat) (name : String) (change : Classified.Change)
  /-- Declare a type in a registry. -/
  | declare (place type : Nat)
  /-- Create a type in a registry unless one of the name exists. -/
  | create (place : Nat) (name : String) (expression : Option Node) (properties : Properties)
  /-- Resolve the type of a name in a registry, which may fail. -/
  | resolve (place : Nat) (name : String)
  /-- Resolve every type of a registry, which may fail. -/
  | resolveAll (place : Nat)

/-- The holdings after an action. What an action looks for and does not find leaves them alone. -/
def Action.perform (holdings : List Holding) : Action → List Holding
  | ofNode name node =>
    match Declaration.ofNode name node with
    | .ok declaration => holdings ++ [.type (.ofDeclaration declaration)]
    | .error _ => holdings
  | ofParts name expression properties =>
    holdings ++ [.type (.ofDeclaration (.ofParts name expression properties))]
  | openRegistry => holdings ++ [.registry .empty]
  | copy place => holdings ++ holdings[place]?.toList
  | copyType place name =>
    holdings ++ (holdings[place]?.bind fun holding => holding.type? name).toList.map .type
  | change place step => holdings.modify place (.changeType fun type => type.after step)
  | changeIn place name step =>
    holdings.modify place
      (.changeRegistry fun registry => registry.modify name fun type => type.after step)
  | declare place type =>
    match holdings[type]? with
    | some (.type type) =>
      holdings.modify place
        (.changeRegistry fun registry => registry.insert type.declaration.name type)
    | _ => holdings
  | create place name expression properties =>
    holdings.modify place
      (.changeRegistry fun registry => (registry.create (.ofParts name expression properties)).2)
  | resolve place name =>
    holdings.modify place
      (.changeRegistry fun registry =>
        ((registry.resolveReading name).map Attempt.reached).getD registry)
  | resolveAll place =>
    holdings.modify place
      (.changeRegistry fun registry =>
        (registry.resolveAllReading.map Attempt.reached).getD registry)

/-- The holdings after actions one after another, starting with nothing. -/
def Action.performAll (actions : List Action) : List Holding := actions.foldl perform []

section Steps

variable {holdings : List Holding} (current : ∀ holding ∈ holdings, holding.Current)
include current

/-- Current holdings may be added. -/
theorem Holding.current_append {added : List Holding} (own : ∀ holding ∈ added, holding.Current) :
    ∀ holding ∈ holdings ++ added, holding.Current :=
  List.forall_mem_append.mpr ⟨current, own⟩

/-- A holding may be changed in ways that leave it current. -/
theorem Holding.current_modify (place : Nat) {change : Holding → Holding}
    (keeps : ∀ holding : Holding, holding.Current → (change holding).Current) :
    ∀ holding ∈ holdings.modify place change, holding.Current := by
  intro holding inside
  obtain ⟨index, found⟩ := List.mem_iff_getElem?.mp inside
  rw [List.getElem?_modify] at found
  obtain ⟨old, there, rfl⟩ := Option.map_eq_some_iff.mp found
  have own := current old (List.mem_of_getElem? there)
  split
  · exact keeps old own
  · exact own

/-- Every action leaves the types current: whatever replaces an expression empties the cell, and
whatever fills a cell fills it with the kind of the expression. -/
theorem Action.current_perform (action : Action) :
    ∀ holding ∈ action.perform holdings, holding.Current := by
  have fresh (declaration : Declaration) :
      ∀ holding ∈ [Holding.type (.ofDeclaration declaration)], holding.Current := by
    simpa [Holding.Current] using Classified.current_ofDeclaration declaration
  have inRegistry (place : Nat) {change : Registry → Registry}
      (keeps : ∀ registry : Registry, registry.Current → (change registry).Current) :
      ∀ holding ∈ holdings.modify place (.changeRegistry change), holding.Current :=
    Holding.current_modify current place fun _ own => own.changeRegistry keeps
  unfold Action.perform
  cases action with
  | ofNode name node =>
    simp only
    cases Declaration.ofNode name node with
    | ok declaration => exact Holding.current_append current (fresh declaration)
    | error cause => exact current
  | ofParts name expression properties => exact Holding.current_append current (fresh _)
  | openRegistry =>
    refine Holding.current_append current fun holding inside => ?_
    rw [List.mem_singleton.mp inside]
    exact Registry.current_empty
  | copy place =>
    refine Holding.current_append current fun holding inside => ?_
    exact current holding (List.mem_of_getElem? (Option.mem_toList.mp inside))
  | copyType place name =>
    refine Holding.current_append current fun holding inside => ?_
    obtain ⟨type, found, rfl⟩ := List.mem_map.mp inside
    obtain ⟨source, there, own⟩ := Option.bind_eq_some_iff.mp (Option.mem_toList.mp found)
    exact (current source (List.mem_of_getElem? there)).type? own
  | change place step =>
    exact Holding.current_modify current place fun _ own =>
      own.changeType fun type fine => fine.after step
  | changeIn place name step =>
    exact inRegistry place fun registry own => own.modify name fun type fine => fine.after step
  | declare place type =>
    simp only
    split
    · rename_i type there
      have own : type.Current := current (.type type) (List.mem_of_getElem? there)
      exact inRegistry place fun registry all => all.insert _ own
    · exact current
  | create place name expression properties =>
    exact inRegistry place fun registry own => own.create _
  | resolve place name =>
    refine inRegistry place fun registry own => ?_
    obtain ⟨attempt, found, better, -⟩ := own.resolveReading name
    simpa [found] using better
  | resolveAll place =>
    refine inRegistry place fun registry own => ?_
    obtain ⟨attempt, found, better, -⟩ := own.resolveAllReading
    simpa [found] using better

end Steps

/-- However types came about and were changed, every held type is current. -/
theorem Action.current_performAll (actions : List Action) :
    ∀ holding ∈ performAll actions, holding.Current := by
  suffices ∀ holdings : List Holding, (∀ holding ∈ holdings, holding.Current) →
      ∀ holding ∈ actions.foldl perform holdings, holding.Current from this [] (by simp)
  induction actions with
  | nil => exact fun holdings current => current
  | cons action rest ih =>
    exact fun holdings current => ih _ (Action.current_perform current action)

/-- Types are read from nodes, made of parts and created in registries; their kinds are read and
remembered, their expressions replaced, their schemas absorbed, with or without success, their
properties rewritten; they are resolved in registries, where a resolution reads and remembers kinds
itself, and copied, alone or with a registry. After any such actions in any order the kind of every
type that there is, be it in its cell or not, is the classification of the text of its expression,
and in every registry a resolution of a name or of all names, for which the kinds are read from the
cells, comes to the end and to the declarations that `resolve` and `resolveAll` say. -/
theorem Action.kind_performAll (actions : List Action) :
    ((performAll actions).flatMap Holding.types).map Classified.kind =
        ((performAll actions).flatMap Holding.types).map
          (fun type => TypeExpr.classify type.declaration.text) ∧
      ∀ registry, .registry registry ∈ performAll actions →
        (∀ name, ∃ attempt, registry.resolveReading name = some attempt ∧
          attempt.stopped = (registry.resolve name).stopped ∧
          attempt.reached.declarations = (registry.resolve name).reached.declarations) ∧
        ∃ attempt, registry.resolveAllReading = some attempt ∧
          attempt.stopped = registry.resolveAll.stopped ∧
          attempt.reached.declarations = registry.resolveAll.reached.declarations := by
  have current := current_performAll actions
  refine ⟨List.map_congr_left fun type inside => ?_, fun registry inside => ⟨fun name => ?_, ?_⟩⟩
  · obtain ⟨holding, held, own⟩ := List.mem_flatMap.mp inside
    exact ((current holding held).of_mem own).kind_eq
  · obtain ⟨attempt, found, -, same⟩ :=
      Registry.Current.resolveReading (current (.registry registry) inside) name
    exact ⟨attempt, found, same⟩
  · obtain ⟨attempt, found, -, same⟩ :=
      Registry.Current.resolveAllReading (current (.registry registry) inside)
    exact ⟨attempt, found, same⟩

/-- Actions on a type whose kind is read before it is declared in a registry, where it is given
another expression, copied and resolved. -/
def Action.sample : List Action :=
  [.ofNode "Shape" (.string "Circle | Square"), .change 0 .readKind, .openRegistry, .declare 1 0,
    .changeIn 1 "Shape" (.setExpression (some (.string "object"))), .copyType 1 "Shape",
    .resolve 1 "Shape", .change 0 (.setExpression (some (.string "Circle[]")))]

/-- Each type of the sample has the kind of its last expression. -/
theorem Action.kind_performAll_sample :
    ((performAll sample).flatMap Holding.types).map Classified.kind =
      [.array (some "Circle"), .object, .object] :=
  (kind_performAll sample).1.trans (by decide +kernel)

end Raml
