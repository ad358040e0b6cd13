import Raml.Proofs.Frame
import Raml.Proofs.InlineCount

/-!
# Resolution by name

A resolution can as well go back to the registered types each time. The properties of a type are
taken out of it, their lifts create types, and every created type is looked up by its name among the
types as they are then; in the end the properties are put back. No declaration is handed on, so
nothing in the recursion shrinks by itself. It ends nevertheless: going as deep as there are inline
declarations in the type, it reaches what the resolution reaches.
-/
namespace Raml

universe u v

/-- A change for every element of a list, in order, until one is stopped. There is no result when
one of the changes has none. -/
def Attempt.each? {ε : Type u} {α β : Type v} (change : α → β → Option (Attempt ε α)) :
    List β → α → Option (Attempt ε α)
  | [], state => some (done state)
  | element :: rest, state =>
    match change state element with
    | none => none
    | some attempt =>
      match attempt.stopped with
      | none => each? change rest attempt.reached
      | some _ => some attempt

/-- The registered types, and the properties that were taken out of one of them. -/
structure Detached where
  /-- The types. -/
  types : Declarations
  /-- The properties. -/
  properties : Properties

namespace Detached

/-- Make one lift of a property and create the lifted type; the name of a created type is given. -/
def lift (lifts : String → String → PropertyValue → Except LiftError (Option Lift))
    (owner property : String) (held : Detached) : Except LiftError (List String × Detached) :=
  match held.properties.get? property with
  | none => .ok ([], held)
  | some value =>
    match lifts owner property value with
    | .error cause => .error cause
    | .ok none => .ok ([], held)
    | .ok (some lift) =>
      let created := Declarations.createAll [lift.declaration] held.types
      .ok (created.1.map Declaration.name,
        ⟨created.2, held.properties.insert property lift.value⟩)

/-- Make both lifts of a property and resolve the created types by their names. -/
def resolveProperty (resolve : Declarations → String → Option (Attempt Error Declarations))
    (owner : String) (held : Detached) (property : String) : Option (Attempt Error Detached) :=
  match held.lift Lift.object owner property with
  | .error cause => some (.failed held (.decode (.lift cause)))
  | .ok (first, object) =>
    match object.lift Lift.item owner property with
    | .error cause => some (.failed object (.decode (.lift cause)))
    | .ok (second, item) =>
      (Attempt.each? resolve (first ++ second) item.types).map fun attempt =>
        ⟨⟨attempt.reached, item.properties⟩, attempt.stopped⟩

/-- Put the properties back into the type of a name. -/
def attach (held : Detached) (name : String) : Declarations :=
  match held.types.get? name with
  | none => held.types
  | some declaration => held.types.insert name (declaration.withProperties held.properties)

end Detached

namespace Declarations

/-- Resolve the type of a name by going back to the registered types, to some depth. There is no
result when the depth does not suffice. -/
def resolveWithin : Nat → Declarations → String → Option (Attempt Error Declarations)
  | 0, _, _ => none
  | depth + 1, types, name =>
    match types.get? name with
    | none => some (.failed types (.configuration (.unknownType name)))
    | some declaration =>
      if declaration.isEmbedded then
        match declaration.absorb with
        | .ok absorbed => some (.done (types.insert name absorbed))
        | .error cause => some (.failed types (Resolution.absorptionError declaration cause))
      else
        let properties := declaration.properties.unmarkAll.reached
        let held : Detached := ⟨types.insert name (declaration.withProperties .empty), properties⟩
        match declaration.properties.unmarkAll.stopped with
        | some cause => some (.failed (held.attach name) (.configuration (.optionalValue cause)))
        | none =>
          (Attempt.each? (Detached.resolveProperty (resolveWithin depth) name) properties.keys
            held).map fun attempt => ⟨attempt.reached.attach name, attempt.stopped⟩

/-- Resolve every type that there is, in order, each to some depth. -/
def resolveAllWithin (depth : Nat) (types : Declarations) : Option (Attempt Error Declarations) :=
  Attempt.each? (resolveWithin depth) types.keys types

/-- Lifted types are created one after another. -/
theorem createAll_append (first second : List Declaration) (types : Declarations) :
    createAll (first ++ second) types =
      ((createAll first types).1 ++ (createAll second (createAll first types).2).1,
        (createAll second (createAll first types).2).2) := by
  induction first generalizing types with
  | nil => rfl
  | cons declaration rest ih =>
    by_cases known : types.contains declaration.name = true
    · simp only [List.cons_append, createAll, known, ↓reduceIte, ih]
    · simp only [List.cons_append, createAll, known, Bool.false_eq_true, ↓reduceIte, ih]

end Declarations

namespace Detached

variable {lifts : String → String → PropertyValue → Except LiftError (Option Lift)}
  {owner property : String} {held : Detached} {value : PropertyValue}

/-- A property that cannot be lifted leaves all as it was. -/
theorem lift_error {cause : LiftError} (found : held.properties.get? property = some value)
    (stopped : lifts owner property value = .error cause) :
    held.lift lifts owner property = .error cause := by
  simp only [lift, found, stopped]

/-- The types and properties after a lift, if there is one. -/
def withLift (property : String) (value : PropertyValue) (made : Option Lift) (held : Detached) :
    Detached :=
  ⟨(Declarations.createAll (Lifting.declarationsOf made) held.types).2,
    held.properties.insert property (Lifting.valueAfter value made)⟩

/-- After a lift the property has its new value. -/
theorem get?_withLift (property : String) (value : PropertyValue) (made : Option Lift)
    (held : Detached) :
    (held.withLift property value made).properties.get? property =
      some (Lifting.valueAfter value made) := by
  rw [withLift, OrderedMap.get?_insert, if_pos rfl]

/-- A lift creates its type and writes the property. -/
theorem lift_ok {made : Option Lift} (found : held.properties.get? property = some value)
    (lifted : lifts owner property value = .ok made) :
    held.lift lifts owner property =
      .ok ((Declarations.createAll (Lifting.declarationsOf made) held.types).1.map
        Declaration.name, held.withLift property value made) := by
  cases made with
  | none =>
    simp only [lift, found, lifted, withLift, Lifting.declarationsOf, Lifting.valueAfter,
      Declarations.createAll, List.map_nil]
    rw [OrderedMap.insert_of_get? found]
  | some lift =>
    simp only [Detached.lift, found, lifted, withLift, Lifting.declarationsOf, Lifting.valueAfter]

/-- The types and properties after both lifts of a property, as far as they can be made. -/
def withLifts (owner property : String) (value : PropertyValue) (held : Detached) : Detached :=
  ⟨(Declarations.createAll (Lifting.ofProperty owner property value).declarations held.types).2,
    held.properties.insert property (Lifting.ofProperty owner property value).value⟩

/-- The properties are put back where they were taken from. -/
theorem attach_insert (types : Declarations) (name : String) (declaration : Declaration)
    (properties : Properties) :
    attach ⟨types.insert name (declaration.withProperties .empty), properties⟩ name =
      types.insert name (declaration.withProperties properties) := by
  simp only [attach, OrderedMap.get?_insert, ↓reduceIte, OrderedMap.insert_insert,
    Declaration.withProperties_withProperties]

variable {resolve : Declarations → String → Option (Attempt Error Declarations)}

/-- A lift that cannot be made ends the resolution of the properties. -/
theorem resolveProperty_stopped {cause : LiftError}
    (found : held.properties.get? property = some value)
    (stopped : (Lifting.ofProperty owner property value).stopped = some cause) :
    held.resolveProperty resolve owner property =
      some (.failed (held.withLifts owner property value) (.decode (.lift cause))) := by
  cases first : Lift.object owner property value with
  | error other =>
    have lifting := Lifting.ofProperty_of_error first
    obtain rfl : other = cause := by simpa [lifting] using stopped
    simp only [resolveProperty, lift_error found first, withLifts, lifting,
      Declarations.createAll]
    rw [OrderedMap.insert_of_get? found]
  | ok object =>
    have there := get?_withLift property value object held
    cases second : Lift.item owner property (Lifting.valueAfter value object) with
    | error other =>
      have lifting := Lifting.ofProperty_of_ok_of_error first second
      obtain rfl : other = cause := by simpa [lifting] using stopped
      simp only [resolveProperty, lift_ok found first, lift_error there second]
      rw [withLifts, withLift, lifting]
    | ok item => simp [Lifting.ofProperty_of_ok first second] at stopped

/-- When both lifts of a property are made, the created types are resolved by their names. -/
theorem resolveProperty_ended (found : held.properties.get? property = some value)
    (ended : (Lifting.ofProperty owner property value).stopped = none) :
    held.resolveProperty resolve owner property =
      (Attempt.each? resolve
        ((Declarations.createAll (Lifting.ofProperty owner property value).declarations
          held.types).1.map Declaration.name) (held.withLifts owner property value).types).map
        fun attempt =>
          ⟨⟨attempt.reached, (held.withLifts owner property value).properties⟩,
            attempt.stopped⟩ := by
  obtain ⟨object, item, first, second⟩ := Lifting.exists_lifts ended
  have there := get?_withLift property value object held
  simp only [resolveProperty, lift_ok found first, lift_ok there second]
  simp only [withLifts, withLift, Lifting.ofProperty_of_ok first second,
    Declarations.createAll_append, List.map_append, OrderedMap.insert_insert]

end Detached

namespace Declarations

/-- How many types the resolution of a name may create. -/
def inlineBound (types : Declarations) (name : String) : Nat :=
  ((types.get? name).map Declaration.inlineBound).getD 0

/-- To a depth, going back to the registered types reaches what the resolution reaches wherever at
most so many types may be created. -/
def Suffices (depth : Nat) : Prop :=
  ∀ types name, inlineBound types name < depth →
    resolveWithin depth types name = some (types.resolve name)

/-- Created types are reached by their names when the depth suffices for each of them. -/
theorem each?_created {depth : Nat} (reach : Suffices depth) {given : List Declaration}
    (types : Declarations) (distinct : (given.map Declaration.name).Nodup)
    (found : ∀ made ∈ given, types.get? made.name = some made)
    (enough : ∀ made ∈ given, made.inlineBound < depth) :
    Attempt.each? (resolveWithin depth) (given.map Declaration.name) types =
      some (Resolution.resolveTypes given types) := by
  induction given generalizing types with
  | nil =>
    rw [Resolution.resolveTypes]
    rfl
  | cons made rest ih =>
    rw [List.forall_mem_cons] at found enough
    rw [List.map_cons, List.nodup_cons] at distinct
    have bound : inlineBound types made.name < depth := by
      simpa [inlineBound, found.1] using enough.1
    have first := reach types made.name bound
    simp only [resolve, found.1] at first
    have present : made.name ∈ types.keys := OrderedMap.mem_keys_iff.mpr ⟨made, found.1⟩
    have follows := Resolution.follows_all.1 made.name made types present
    rw [List.map_cons, Attempt.each?, Resolution.resolveTypes]
    simp only [first]
    cases ended : (Resolution.resolveType made.name made types).stopped with
    | some cause =>
      show some _ = some (Attempt.failed _ cause)
      rw [Attempt.failed, ← ended]
    | none =>
      refine ih _ distinct.2 (fun other inside => ?_) enough.2
      have apart : other.name ≠ made.name := fun same =>
        distinct.1 (same ▸ List.mem_map_of_mem inside)
      rw [follows.kept other.name (OrderedMap.mem_keys_iff.mpr ⟨other, found.2 other inside⟩)
        (by simpa using apart)]
      exact found.2 other inside

section Owner

variable {depth : Nat} {owner property : String} {types : Declarations}
  {properties : Properties} {value : PropertyValue}

/-- The types that the lifts of a detached property create are resolved as they are with the owner
in place. -/
theorem resolveProperty_detached (bare : Declaration) (reach : Suffices depth)
    (present : owner ∈ types.keys) (found : properties.get? property = some value)
    (enough : value.inlineCount ≤ depth)
    (ended : (Lifting.ofProperty owner property value).stopped = none)
    {created : List Declaration × Declarations}
    (creation : createAll (Lifting.ofProperty owner property value).declarations types = created) :
    Detached.resolveProperty (resolveWithin depth) owner ⟨types.insert owner bare, properties⟩
        property =
      some ⟨⟨(Resolution.resolveTypes created.1 created.2).reached.insert owner bare,
          properties.insert property (Lifting.ofProperty owner property value).value⟩,
        (Resolution.resolveTypes created.1 created.2).stopped⟩ := by
  have distinct := Resolution.nodup_createAll
    (Lifting.ofProperty owner property value).declarations types
  have fewer := Resolution.createAll_sublist
    (Lifting.ofProperty owner property value).declarations types
  have grown := Resolution.mem_keys_createAll
    (Lifting.ofProperty owner property value).declarations present
  have fresh {made : Declaration}
      (inside : made ∈ (createAll (Lifting.ofProperty owner property value).declarations types).1)
      := Resolution.get?_createAll inside
  rw [Detached.resolveProperty_ended found ended]
  simp only [Detached.withLifts, Resolution.createAll_insert bare _ present]
  rw [creation] at distinct fewer grown fresh ⊢
  -- A created type has another name than the owner, whose missing properties are never read.
  have apart {made : Declaration} (inside : made ∈ created.1) : owner ≠ made.name :=
    fun same => (fresh inside).1 (same ▸ present)
  have inner := each?_created reach (created.2.insert owner bare) distinct
    (fun made inside => by
      rw [OrderedMap.get?_insert, if_neg (apart inside).symm]
      exact (fresh inside).2)
    fun made inside => by
      have small := Declaration.inlineCount_lt_of_mem (fewer.subset inside)
      have bound := Lifting.totalInline_ofProperty_le owner property value
      have own := made.inlineBound_le
      omega
  have commuted := (Resolution.insert_all owner bare).2.2 created.1 created.2 grown
    fun made inside => ⟨OrderedMap.mem_keys_iff.mpr ⟨made, (fresh inside).2⟩, apart inside⟩
  rw [inner, commuted, Option.map_some]

/-- The walk through detached properties is the resolution of those properties: the types are the
same but for the owner, which is without its properties meanwhile. -/
theorem each?_detached (bare : Declaration) (reach : Suffices depth)
    (before : List (String × PropertyValue)) {rest : List (String × PropertyValue)}
    (present : owner ∈ types.keys)
    (entries : properties.entries = before ++ rest)
    (enough : Entries.weight Properties.inlineOfProperty rest ≤ depth) :
    ∃ written : Properties,
      written.entries =
        before ++ Entries.overlay rest (Resolution.resolveProperties owner rest types).values ∧
      Attempt.each? (Detached.resolveProperty (resolveWithin depth) owner) (Entries.keys rest)
          ⟨types.insert owner bare, properties⟩ =
        some ⟨⟨(Resolution.resolveProperties owner rest types).types.insert owner bare, written⟩,
          (Resolution.resolveProperties owner rest types).stopped⟩ := by
  -- Of the detached properties those before `rest` have been lifted, and the owner stays `bare`.
  induction rest generalizing before types properties with
  | nil =>
    refine ⟨properties, by simpa [Entries.overlay] using entries, ?_⟩
    rw [Resolution.resolveProperties]
    rfl
  | cons entry rest ih =>
    obtain ⟨property, value⟩ := entry
    rw [Entries.weight, Properties.inlineOfProperty] at enough
    have found : properties.get? property = some value := by
      rw [OrderedMap.get?_eq_some, entries]
      exact List.mem_append_right _ List.mem_cons_self
    have written := OrderedMap.entries_insert
      (Lifting.ofProperty owner property value).value entries
    rw [Entries.keys, List.map_cons, Attempt.each?]
    cases ended : (Lifting.ofProperty owner property value).stopped with
    | some cause =>
      rw [Resolution.resolveProperties, Detached.resolveProperty_stopped found ended]
      simp only [ended, Detached.withLifts, Resolution.createAll_insert bare _ present,
        Attempt.failed]
      exact ⟨_, by rw [written, Entries.overlay, Entries.overlay_nil], rfl⟩
    | none =>
      obtain ⟨created, creation⟩ : ∃ created,
          createAll (Lifting.ofProperty owner property value).declarations types = created :=
        ⟨_, rfl⟩
      have step := resolveProperty_detached bare reach present found (by omega) ended creation
      have grown : owner ∈ created.2.keys := creation ▸ Resolution.mem_keys_createAll _ present
      have kept := (Resolution.follows_createAll creation).mem_keys grown
      rw [step]
      cases passed : (Resolution.resolveTypes created.1 created.2).stopped with
      | some cause =>
        rw [Resolution.resolveProperties_cons_stopped rfl ended creation rfl passed]
        exact ⟨_, by rw [written, Entries.overlay, Entries.overlay_nil], rfl⟩
      | none =>
        rw [Resolution.resolveProperties_cons rfl ended creation rfl passed]
        rw [List.append_cons] at written
        obtain ⟨final, last, walked⟩ := ih _ kept written (by omega)
        exact ⟨final, by rw [last, Entries.overlay, List.append_assoc]; rfl, walked⟩

end Owner

/-- Going back to the registered types, deeper than there are inline declarations in the type,
reaches what the resolution reaches. -/
theorem resolveWithin_eq (depth : Nat) : Suffices depth := by
  induction depth with
  | zero =>
    intro types name enough
    contradiction
  | succ depth ih =>
    intro types name enough
    rw [resolveWithin, resolve]
    cases found : types.get? name with
    | none => rfl
    | some declaration =>
      have present : name ∈ types.keys := OrderedMap.mem_keys_iff.mpr ⟨declaration, found⟩
      simp only [inlineBound, found, Option.map_some, Option.getD_some,
        Declaration.inlineBound] at enough
      simp only
      rw [Resolution.resolveType]
      by_cases embedded : declaration.isEmbedded = true
      · simp only [embedded, ↓reduceIte]
        cases declaration.absorb <;> rfl
      · simp only [embedded, Bool.false_eq_true, ↓reduceIte] at enough ⊢
        cases bare : declaration.properties.unmarkAll.stopped with
        | some cause => simp only [Detached.attach_insert]
        | none =>
          have small := declaration.properties.inlineCount_unmarkAll_le
          obtain ⟨written, last, walked⟩ := each?_detached
            (declaration.withProperties .empty) ih [] present (List.nil_append _).symm
            (Nat.le_trans small (Nat.le_of_lt_succ enough))
          simp only [OrderedMap.keys, walked, Option.map_some, Detached.attach_insert]
          rw [OrderedMap.ext (show written.entries = (OrderedMap.overlay _ _).entries from last)]

end Declarations

end Raml
