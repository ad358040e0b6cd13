import Raml.Proofs.Reentry

/-!
# Resolution over a store of types

Whoever keeps types may keep more than their declarations: kinds that were read, or which types have
been resolved. A resolution by name needs a store for a few operations only. Whatever else the store
keeps, the resolution over it is that of its declarations, as long as it shows the declarations that
were written and says truly which types are embedded schemas.
-/
namespace Raml

/-- A store of types. -/
structure Store (σ : Type) where
  /-- The declarations that it shows. -/
  declarations : σ → Declarations
  /-- Ask whether the type of a name is an embedded schema. -/
  readEmbedded : σ → String → Bool × σ
  /-- Create a type. -/
  create : σ → Declaration → σ
  /-- Put in place what the schema of a type was absorbed into. -/
  absorb : σ → String → Declaration → σ
  /-- Replace the properties of a type. -/
  setProperties : σ → String → Properties → σ
  /-- Take note that the resolution of a type, with the declaration that it had, has ended. -/
  close : σ → String → Declaration → Option Error → σ

namespace Store

/-- A store, and the properties that were taken out of one of its types. -/
structure Held (σ : Type) where
  /-- The store. -/
  state : σ
  /-- The properties. -/
  properties : Properties

variable {σ : Type} (store : Store σ)

/-- Create a type unless one of the name exists; the name of a created type is given. -/
def createNew (state : σ) (declaration : Declaration) : List String × σ :=
  if (store.declarations state).contains declaration.name then ([], state)
  else ([declaration.name], store.create state declaration)

/-- Make one lift of a property and create the lifted type. -/
def lift (lifts : String → String → PropertyValue → Except LiftError (Option Lift))
    (owner property : String) (held : Held σ) : Except LiftError (List String × Held σ) :=
  match held.properties.get? property with
  | none => .ok ([], held)
  | some value =>
    match lifts owner property value with
    | .error cause => .error cause
    | .ok none => .ok ([], held)
    | .ok (some lift) =>
      let created := store.createNew held.state lift.declaration
      .ok (created.1, ⟨created.2, held.properties.insert property lift.value⟩)

/-- Make both lifts of a property and resolve the created types by their names. -/
def resolveProperty (resolve : σ → String → Option (Attempt Error σ)) (owner : String)
    (held : Held σ) (property : String) : Option (Attempt Error (Held σ)) :=
  match store.lift Lift.object owner property held with
  | .error cause => some (.failed held (.decode (.lift cause)))
  | .ok (first, object) =>
    match store.lift Lift.item owner property object with
    | .error cause => some (.failed object (.decode (.lift cause)))
    | .ok (second, item) =>
      (Attempt.each? resolve (first ++ second) item.state).map fun attempt =>
        ⟨⟨attempt.reached, item.properties⟩, attempt.stopped⟩

/-- Put the properties back into the type of a name. -/
def attach (held : Held σ) (name : String) : σ :=
  match (store.declarations held.state).get? name with
  | none => held.state
  | some _ => store.setProperties held.state name held.properties

/-- Take the properties out of the type of a name, with their optional names changed. -/
def take (state : σ) (name : String) (declaration : Declaration) : Held σ :=
  ⟨store.setProperties state name .empty, declaration.properties.unmarkAll.reached⟩

/-- Resolve the properties of a type that is no embedded schema: they are taken out, rewritten and
put back. -/
def resolveTaken (resolve : σ → String → Option (Attempt Error σ)) (state : σ) (name : String)
    (declaration : Declaration) : Option (Attempt Error σ) :=
  let held := store.take state name declaration
  match declaration.properties.unmarkAll.stopped with
  | some cause => some (.failed (store.attach held name) (.configuration (.optionalValue cause)))
  | none =>
    (Attempt.each? (store.resolveProperty resolve name) held.properties.keys held).map
      fun attempt => ⟨store.attach attempt.reached name, attempt.stopped⟩

/-- Resolve the type of a name, which is looked up, to some depth. There is no result when the depth
does not suffice. -/
def resolveWithin : Nat → σ → String → Option (Attempt Error σ)
  | 0, _, _ => none
  | depth + 1, state, name =>
    match (store.declarations state).get? name with
    | none => some (.failed state (.configuration (.unknownType name)))
    | some declaration =>
      let asked := store.readEmbedded state name
      let attempt? :=
        if asked.1 then
          match declaration.absorb with
          | .ok absorbed => some (.done (store.absorb asked.2 name absorbed))
          | .error cause => some (.failed asked.2 (Resolution.absorptionError declaration cause))
        else store.resolveTaken (resolveWithin depth) asked.2 name declaration
      attempt?.map fun attempt =>
        ⟨store.close attempt.reached name declaration attempt.stopped, attempt.stopped⟩

/-- Resolve every type that there is, in order, each to some depth. -/
def resolveAllWithin (depth : Nat) (state : σ) : Option (Attempt Error σ) :=
  Attempt.each? (store.resolveWithin depth) (store.declarations state).keys state

/-- What a store owes: in every good state it says truly which types are embedded schemas, and its
operations show the declarations that were written and lead to good states. -/
structure Lawful (good : σ → Prop) : Prop where
  /-- The answer about a type is true, and asking shows no change. -/
  readEmbedded : ∀ state name declaration, good state →
    (store.declarations state).get? name = some declaration →
    (store.readEmbedded state name).1 = declaration.isEmbedded ∧
      store.declarations (store.readEmbedded state name).2 = store.declarations state ∧
      good (store.readEmbedded state name).2
  /-- A created type is shown. -/
  create : ∀ state declaration, good state →
    store.declarations (store.create state declaration) =
        (store.declarations state).insert declaration.name declaration ∧
      good (store.create state declaration)
  /-- An absorbed declaration is shown. -/
  absorb : ∀ state name absorbed, good state →
    store.declarations (store.absorb state name absorbed) =
        (store.declarations state).insert name absorbed ∧
      good (store.absorb state name absorbed)
  /-- Replaced properties are shown. -/
  setProperties : ∀ state name declaration properties, good state →
    (store.declarations state).get? name = some declaration →
    store.declarations (store.setProperties state name properties) =
        (store.declarations state).insert name (declaration.withProperties properties) ∧
      good (store.setProperties state name properties)
  /-- Taking note shows no change. -/
  close : ∀ state name declaration stopped, good state →
    store.declarations (store.close state name declaration stopped) = store.declarations state ∧
      good (store.close state name declaration stopped)

end Store

/-- Two attempts, if there is a result, end alike; one reaches a good state, of which the other
reaches the view. -/
inductive Attempt.Mirrors {ε α β : Type} (good : α → Prop) (view : α → β) :
    Option (Attempt ε α) → Option (Attempt ε β) → Prop where
  | missing : Mirrors good view none none
  | found {reached : α} (fine : good reached) (stopped : Option ε) :
    Mirrors good view (some ⟨reached, stopped⟩) (some ⟨view reached, stopped⟩)

namespace Attempt.Mirrors

variable {ε α β γ δ : Type} {good : α → Prop} {view : α → β}

/-- Changes of the elements of a list mirror each other when the single changes do. -/
theorem each? {κ : Type} {change : α → κ → Option (Attempt ε α)}
    {other : β → κ → Option (Attempt ε β)}
    (step : ∀ state element, good state →
      Mirrors good view (change state element) (other (view state) element))
    (elements : List κ) {state : α} (fine : good state) :
    Mirrors good view (Attempt.each? change elements state)
      (Attempt.each? other elements (view state)) := by
  induction elements generalizing state with
  | nil => exact .found fine none
  | cons element rest ih =>
    have first := step state element fine
    rw [Attempt.each?, Attempt.each?]
    generalize change state element = left at first
    generalize other (view state) element = right at first
    cases first with
    | missing => exact .missing
    | found fine stopped =>
      cases stopped with
      | none => exact ih fine
      | some cause => exact .found fine (some cause)

/-- Attempts that mirror each other do so after further changes that agree. -/
theorem map {better : γ → Prop} {look : γ → δ} {left : Option (Attempt ε α)}
    {right : Option (Attempt ε β)} (mirrors : Mirrors good view left right)
    {change : Attempt ε α → γ} {other : Attempt ε β → δ}
    (agree : ∀ reached stopped, good reached →
      better (change ⟨reached, stopped⟩) ∧
        look (change ⟨reached, stopped⟩) = other ⟨view reached, stopped⟩) :
    Mirrors better look (left.map fun attempt => ⟨change attempt, attempt.stopped⟩)
      (right.map fun attempt => ⟨other attempt, attempt.stopped⟩) := by
  cases mirrors with
  | missing => exact .missing
  | found fine stopped =>
    obtain ⟨better, same⟩ := agree _ stopped fine
    simp only [Option.map_some, ← same]
    exact .found better stopped

/-- A further change of the first attempt that does not change the view keeps it a mirror of the
other. -/
theorem mapLeft {left : Option (Attempt ε α)} {right : Option (Attempt ε β)}
    (mirrors : Mirrors good view left right) {change : Attempt ε α → α}
    (agree : ∀ reached stopped, good reached →
      good (change ⟨reached, stopped⟩) ∧ view (change ⟨reached, stopped⟩) = view reached) :
    Mirrors good view (left.map fun attempt => ⟨change attempt, attempt.stopped⟩) right := by
  have mapped : Mirrors good view (left.map fun attempt => ⟨change attempt, attempt.stopped⟩)
      (right.map fun attempt => ⟨attempt.reached, attempt.stopped⟩) := mirrors.map agree
  rwa [show (fun attempt : Attempt ε β => (⟨attempt.reached, attempt.stopped⟩ : Attempt ε β)) =
    id from rfl, Option.map_id] at mapped

/-- Where the view comes to a result there is one. -/
theorem exists_of_some {left : Option (Attempt ε α)} {right : Attempt ε β}
    (mirrors : Mirrors good view left (some right)) :
    ∃ attempt, left = some attempt ∧ good attempt.reached ∧
      ⟨view attempt.reached, attempt.stopped⟩ = right := by
  cases mirrors with
  | found fine stopped => exact ⟨_, rfl, fine, rfl⟩

end Attempt.Mirrors

namespace Store

open Attempt (Mirrors)

variable {σ : Type} {store : Store σ} {good : σ → Prop}

/-- The store is in a good state. -/
def Held.Within (good : σ → Prop) (held : Held σ) : Prop := good held.state

/-- What the declarations of a store look like while properties are taken out. -/
def detached (store : Store σ) (held : Held σ) : Detached :=
  ⟨store.declarations held.state, held.properties⟩

/-- Creating a type in a store creates it among the declarations. -/
theorem Lawful.createNew (lawful : store.Lawful good) {state : σ} (fine : good state)
    (declaration : Declaration) :
    good (store.createNew state declaration).2 ∧
      Declarations.createAll [declaration] (store.declarations state) =
        (if (store.declarations state).contains declaration.name then [] else [declaration],
          store.declarations (store.createNew state declaration).2) ∧
      (store.createNew state declaration).1 =
        (Declarations.createAll [declaration] (store.declarations state)).1.map
          Declaration.name := by
  by_cases known : (store.declarations state).contains declaration.name = true
  · simp [Store.createNew, Declarations.createAll, known, fine]
  · obtain ⟨shown, better⟩ := lawful.create state declaration fine
    simp [Store.createNew, Declarations.createAll, known, shown, better]

/-- A lift in a store makes the same lift among the declarations. -/
theorem Lawful.lift (lawful : store.Lawful good)
    (lifts : String → String → PropertyValue → Except LiftError (Option Lift))
    (owner property : String) {held : Held σ} (fine : held.Within good) :
    (store.detached held).lift lifts owner property =
        (store.lift lifts owner property held).map
          (fun made => (made.1, store.detached made.2)) ∧
      ∀ made, store.lift lifts owner property held = .ok made → made.2.Within good := by
  unfold Detached.lift Store.lift
  simp only [detached]
  cases held.properties.get? property with
  | none => exact ⟨rfl, by rintro made ⟨⟩; exact fine⟩
  | some value =>
    simp only
    cases lifts owner property value with
    | error cause => exact ⟨rfl, by rintro made ⟨⟩⟩
    | ok lift? =>
      cases lift? with
      | none => exact ⟨rfl, by rintro made ⟨⟩; exact fine⟩
      | some lift =>
        obtain ⟨better, created, names⟩ := lawful.createNew fine lift.declaration
        simp only [Except.map]
        refine ⟨?_, by rintro made ⟨⟩; exact better⟩
        rw [names, created]

/-- A property is resolved over a store as it is among the declarations. -/
theorem Lawful.resolveProperty (lawful : store.Lawful good)
    {resolve : σ → String → Option (Attempt Error σ)}
    {other : Declarations → String → Option (Attempt Error Declarations)}
    (step : ∀ state name, good state →
      Mirrors good store.declarations (resolve state name) (other (store.declarations state) name))
    (owner property : String) {held : Held σ} (fine : held.Within good) :
    Mirrors (Held.Within good) store.detached
      (store.resolveProperty resolve owner held property)
      ((store.detached held).resolveProperty other owner property) := by
  obtain ⟨first, object⟩ := lawful.lift Lift.object owner property fine
  unfold Store.resolveProperty Detached.resolveProperty
  rw [first]
  cases made : store.lift Lift.object owner property held with
  | error cause => exact .found fine _
  | ok created =>
    have better := object created made
    obtain ⟨second, item⟩ := lawful.lift Lift.item owner property better
    simp only [Except.map]
    rw [second]
    cases again : store.lift Lift.item owner property created.2 with
    | error cause => exact .found better _
    | ok others =>
      simp only [Except.map]
      exact (Mirrors.each? step _ (item others again)).map fun reached stopped better =>
        ⟨better, rfl⟩

/-- Properties are put back over a store as they are among the declarations. -/
theorem Lawful.attach (lawful : store.Lawful good) {held : Held σ} (fine : held.Within good)
    (name : String) :
    good (store.attach held name) ∧
      store.declarations (store.attach held name) = (store.detached held).attach name := by
  unfold Store.attach Detached.attach
  simp only [detached]
  cases found : (store.declarations held.state).get? name with
  | none => exact ⟨fine, rfl⟩
  | some declaration =>
    exact (lawful.setProperties held.state name declaration held.properties fine found).symm

/-- Taken out properties are resolved over a store as they are among the declarations. -/
theorem Lawful.resolveTaken (lawful : store.Lawful good)
    {resolve : σ → String → Option (Attempt Error σ)}
    {other : Declarations → String → Option (Attempt Error Declarations)}
    (step : ∀ state name, good state →
      Mirrors good store.declarations (resolve state name) (other (store.declarations state) name))
    {state : σ} (fine : good state) {name : String} {declaration : Declaration}
    (found : (store.declarations state).get? name = some declaration) {held : Detached}
    (taken : held = ⟨(store.declarations state).insert name (declaration.withProperties .empty),
      declaration.properties.unmarkAll.reached⟩) :
    Mirrors good store.declarations (store.resolveTaken resolve state name declaration)
      (match declaration.properties.unmarkAll.stopped with
      | some cause => some (.failed (held.attach name) (.configuration (.optionalValue cause)))
      | none =>
        (Attempt.each? (Detached.resolveProperty other name) held.properties.keys held).map
          fun attempt => ⟨attempt.reached.attach name, attempt.stopped⟩) := by
  obtain ⟨shown, better⟩ := lawful.setProperties state name declaration .empty fine found
  replace better : (store.take state name declaration).Within good := better
  have same : store.detached (store.take state name declaration) = held := by
    rw [taken, detached, take, shown]
  subst same
  unfold Store.resolveTaken
  cases declaration.properties.unmarkAll.stopped with
  | some cause =>
    obtain ⟨fine, attached⟩ := lawful.attach better name
    simp only [← attached]
    exact .found fine _
  | none =>
    have walked := Mirrors.each?
      (fun held property fine => lawful.resolveProperty step name property fine)
      (store.take state name declaration).properties.keys better
    exact walked.map fun reached stopped fine => lawful.attach fine name

/-- The resolution of a name over a store is that among its declarations. -/
theorem Lawful.resolveWithin (lawful : store.Lawful good) (depth : Nat) (state : σ) (name : String)
    (fine : good state) :
    Mirrors good store.declarations (store.resolveWithin depth state name)
      (Declarations.resolveWithin depth (store.declarations state) name) := by
  induction depth generalizing state name with
  | zero => exact .missing
  | succ depth ih =>
    unfold Store.resolveWithin Declarations.resolveWithin
    cases found : (store.declarations state).get? name with
    | none => exact .found fine _
    | some declaration =>
      obtain ⟨answer, shown, better⟩ := lawful.readEmbedded state name declaration fine found
      simp only [answer]
      refine Mirrors.mapLeft ?_ fun reached stopped fine =>
        (lawful.close reached name declaration stopped fine).symm
      rw [← shown] at found ⊢
      by_cases embedded : declaration.isEmbedded = true
      · simp only [embedded, ↓reduceIte]
        cases declaration.absorb with
        | ok absorbed =>
          obtain ⟨absorbing, fine⟩ := lawful.absorb _ name absorbed better
          simp only [← absorbing]
          exact .found fine none
        | error cause => exact .found better _
      · simp only [embedded, Bool.false_eq_true, ↓reduceIte]
        exact lawful.resolveTaken ih better found rfl

/-- The resolution of all names over a store is that among its declarations. -/
theorem Lawful.resolveAllWithin (lawful : store.Lawful good) (depth : Nat) {state : σ}
    (fine : good state) :
    Mirrors good store.declarations (store.resolveAllWithin depth state)
      (Declarations.resolveAllWithin depth (store.declarations state)) :=
  Mirrors.each? (lawful.resolveWithin depth) _ fine

end Store

end Raml
