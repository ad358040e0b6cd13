import Raml.Proofs.Declaration
import Raml.Proofs.Lift
import Raml.Proofs.Trace

/-!
# What a resolution reaches

A resolution follows its trace: it is ended by the same error, the names in the end are those before
and then those of the created types, and no type but the resolved one and the created ones is
touched. Without an error the resolved type and every created one reach their resolved form, which
each of their declarations has by itself, whatever other types there are.
-/
namespace Raml

namespace Resolution

/-- The properties of an owner after every lift. -/
def liftAll (owner : String) (properties : Properties) : Properties :=
  properties.map fun property value => (Lifting.ofProperty owner property value).value

/-- Giving every property its lifted value lifts them all. -/
theorem overlay_lifted (owner : String) (properties : Properties) :
    properties.overlay
        (properties.entries.map fun entry => (Lifting.ofProperty owner entry.1 entry.2).value) =
      liftAll owner properties :=
  OrderedMap.overlay_map (fun property value => (Lifting.ofProperty owner property value).value)
    properties

/-- What the type of a name is resolved to: an embedded schema is absorbed, and otherwise every
inline declaration of the properties is lifted. -/
inductive ResolvesTo (name : String) (declaration : Declaration) : Declaration → Prop where
  | absorbed {form : Declaration} (embedded : declaration.isEmbedded = true)
      (read : declaration.absorb = .ok form) : ResolvesTo name declaration form
  | lifted (plain : declaration.isEmbedded = false)
      (bare : declaration.properties.unmarkAll.stopped = none)
      (made : ∀ entry ∈ declaration.bareProperties.entries,
        (Lifting.ofProperty name entry.1 entry.2).stopped = none) :
      ResolvesTo name declaration
        (declaration.withProperties (liftAll name declaration.bareProperties))

/-- A declaration has one resolved form. -/
theorem ResolvesTo.unique {name : String} {declaration form other : Declaration}
    (left : ResolvesTo name declaration form) (right : ResolvesTo name declaration other) :
    form = other := by
  cases left with
  | absorbed embedded read =>
    cases right with
    | absorbed _ again => exact Except.ok.inj (read.symm.trans again)
    | lifted plain => simp [embedded] at plain
  | lifted plain =>
    cases right with
    | absorbed embedded => simp [embedded] at plain
    | lifted => rfl

/-- Every type that is lifted from properties of an owner has one of the names. -/
def Covers (names : List String) (owner : String) (entries : List (String × PropertyValue)) :
    Prop :=
  ∀ entry ∈ entries, ∀ lifted ∈ (Lifting.ofProperty owner entry.1 entry.2).declarations,
    lifted.name ∈ names

/-- The type of a name has reached the resolved form of a declaration. -/
structure Settled (types : Declarations) (name : String) (declaration : Declaration) : Prop where
  /-- The type is in its resolved form. -/
  found : ∃ form, types.get? name = some form ∧ ResolvesTo name declaration form
  /-- The types that were lifted from it exist. -/
  closed : declaration.isEmbedded = false →
    Covers types.keys name declaration.bareProperties.entries

/-- A settled type stays settled while it is not touched and no name is lost. -/
theorem Settled.mono {before after : Declarations} {name : String} {declaration : Declaration}
    (settled : Settled before name declaration) (kept : after.get? name = before.get? name)
    (grown : ∀ key ∈ before.keys, key ∈ after.keys) : Settled after name declaration :=
  ⟨kept ▸ settled.found, fun plain entry inside lifted made =>
    grown _ (settled.closed plain entry inside lifted made)⟩

/-- A settled type exists. -/
theorem Settled.mem_keys {types : Declarations} {name : String} {declaration : Declaration}
    (settled : Settled types name declaration) : name ∈ types.keys := by
  obtain ⟨form, found, _⟩ := settled.found
  exact OrderedMap.mem_keys_iff.mpr ⟨form, found⟩

/-- What is settled in two maps is found in both alike. -/
theorem Settled.get?_eq {left right : Declarations} (first : Settled left name declaration)
    (second : Settled right name declaration) : left.get? name = right.get? name := by
  obtain ⟨form, found, resolved⟩ := first.found
  obtain ⟨other, there, again⟩ := second.found
  rw [found, there, resolved.unique again]

/-- A declaration under its own name. -/
def named (declaration : Declaration) : String × Declaration := (declaration.name, declaration)

/-- What a resolution of given types does follows a trace. -/
structure Follows (own : List (String × Declaration)) (trace : Trace)
    (before after : Declarations) (stopped : Option Error) : Prop where
  /-- The same error ends both. -/
  stopped_eq : stopped = trace.stopped
  /-- The names of the created types are added in order. -/
  keys_eq : after.keys = before.keys ++ trace.names
  /-- No other type is touched. -/
  kept : ∀ key ∈ before.keys, key ∉ own.map Prod.fst → after.get? key = before.get? key
  /-- The given and the created types are settled. -/
  settled : trace.stopped = none → ∀ entry ∈ own ++ trace.created.map named,
    Settled after entry.1 entry.2

namespace Follows

variable {own more : List (String × Declaration)} {first next trace : Trace}
  {before middle after : Declarations} {stopped : Option Error}

/-- The names after a resolution are those before and those of the created types. -/
theorem mem_keys_iff (follows : Follows own trace before after stopped) {key : String} :
    key ∈ after.keys ↔ key ∈ before.keys ∨ ∃ made ∈ trace.created, made.name = key := by
  rw [follows.keys_eq, List.mem_append, Trace.names, List.mem_map]

/-- No name is lost. -/
theorem mem_keys (follows : Follows own trace before after stopped) {key : String}
    (inside : key ∈ before.keys) : key ∈ after.keys := by
  rw [follows.keys_eq]
  exact List.mem_append_left _ inside

/-- A created type has a name that was free. -/
theorem not_mem_keys (follows : Follows own trace before after stopped)
    {declaration : Declaration} (created : declaration ∈ trace.created) :
    declaration.name ∉ before.keys := by
  intro inside
  have distinct : (before.keys ++ trace.names).Nodup := follows.keys_eq ▸ after.distinct
  exact (List.nodup_append.mp distinct).2.2 _ inside _ (List.mem_map_of_mem created) rfl

/-- Nothing is done and nothing lifted. -/
theorem refl (types : Declarations) : Follows [] ⟨[], none⟩ types types none :=
  ⟨rfl, by simp [Trace.names, Trace.created], fun _ _ _ => rfl, by simp [Trace.created]⟩

/-- An error ends the resolution before anything is lifted. -/
theorem halt (own : List (String × Declaration)) (types : Declarations) (cause : Error) :
    Follows own ⟨[], some cause⟩ types types (some cause) :=
  ⟨rfl, by simp [Trace.names, Trace.created], fun _ _ _ => rfl, by simp⟩

/-- One resolution follows another. The types given to the second are none that the first gave or
created, so what the first settled stays settled. -/
theorem andThen (start : Follows own first before middle none)
    (later : Follows more next middle after stopped)
    (present : ∀ entry ∈ more, entry.1 ∈ before.keys)
    (apart : ∀ entry ∈ own, entry.1 ∉ more.map Prod.fst) :
    Follows (own ++ more) (first.followedBy next) before after stopped := by
  have ended : first.stopped = none := start.stopped_eq.symm
  constructor
  · rw [later.stopped_eq, Trace.followedBy_of_none ended]
  · rw [later.keys_eq, start.keys_eq, Trace.names_followedBy ended, List.append_assoc]
  · intro key inside other
    rw [List.map_append, List.mem_append, not_or] at other
    rw [later.kept key (start.mem_keys inside) other.2, start.kept key inside other.1]
  · intro success entry inside
    have passed := (Trace.stopped_followedBy.mp success).2
    rw [Trace.created_followedBy ended, List.map_append] at inside
    have stays (settled : Settled middle entry.1 entry.2) (free : entry.1 ∉ more.map Prod.fst) :
        Settled after entry.1 entry.2 :=
      settled.mono (later.kept _ settled.mem_keys free) fun _ => later.mem_keys
    simp only [List.mem_append] at inside
    rcases inside with (given | given) | created | created
    · exact stays (start.settled ended entry (List.mem_append_left _ given)) (apart entry given)
    · exact later.settled passed entry (List.mem_append_left _ given)
    · refine stays (start.settled ended entry (List.mem_append_right _ created)) ?_
      obtain ⟨declaration, made, rfl⟩ := List.mem_map.mp created
      intro clash
      obtain ⟨other, given, same⟩ := List.mem_map.mp clash
      exact start.not_mem_keys made (show declaration.name ∈ before.keys from
        (show other.1 = declaration.name from same) ▸ present other given)
    · exact later.settled passed entry (List.mem_append_right _ created)

/-- An error of the first resolution ends both. -/
theorem andThen_stopped (more : List (String × Declaration)) {cause : Error}
    (start : Follows own first before after (some cause)) :
    Follows (own ++ more) (first.followedBy next) before after (some cause) := by
  have ended : first.stopped = some cause := start.stopped_eq.symm
  rw [Trace.followedBy_of_some ended]
  refine ⟨start.stopped_eq, start.keys_eq, fun key inside other => ?_, by simp [ended]⟩
  rw [List.map_append, List.mem_append, not_or] at other
  exact start.kept key inside other.1

/-- The type of a name is written at the end of its resolution. -/
theorem write (walked : Follows [] trace before middle stopped) {name : String}
    {declaration form : Declaration} (present : name ∈ before.keys)
    (reached : trace.stopped = none → ResolvesTo name declaration form)
    (closed : trace.stopped = none → declaration.isEmbedded = false →
      Covers middle.keys name declaration.bareProperties.entries) :
    Follows [(name, declaration)] trace before (middle.insert name form) stopped := by
  have keys := OrderedMap.keys_insert_of_mem form (walked.mem_keys present)
  constructor
  · exact walked.stopped_eq
  · rw [keys, walked.keys_eq]
  · intro key inside other
    have apart : key ≠ name := by simpa using other
    rw [OrderedMap.get?_insert, if_neg apart, walked.kept key inside (by simp)]
  · intro success entry inside
    rcases List.mem_append.mp inside with own | created
    · rw [List.mem_singleton] at own
      subst own
      refine ⟨⟨form, ?_, reached success⟩, ?_⟩
      · rw [OrderedMap.get?_insert, if_pos rfl]
      · rw [keys]
        exact closed success
    · obtain ⟨other, made, rfl⟩ := List.mem_map.mp created
      have apart : other.name ≠ name := fun same => walked.not_mem_keys made (same ▸ present)
      refine (walked.settled success _ (List.mem_append_right _ created)).mono ?_ ?_
      · exact (OrderedMap.get?_insert _ _ _ _).trans (if_neg apart)
      · intro key inside
        rw [keys]
        exact inside

end Follows

/-- Lifted types are created as the trace says. -/
structure Creates (lifted : List Lifted) (before : Declarations)
    (created : List Declaration × Declarations) : Prop where
  /-- The new ones are created. -/
  declarations_eq : created.1 = (lifted.filter Lifted.isNew).map Lifted.declaration
  /-- Their names are added in order. -/
  keys_eq : created.2.keys = before.keys ++ created.1.map Declaration.name
  /-- No other type is touched. -/
  kept : ∀ key ∈ before.keys, created.2.get? key = before.get? key
  /-- Every lifted type exists. -/
  covered : ∀ each ∈ lifted, each.name ∈ created.2.keys

/-- The lifts of a property create the types that are new. -/
theorem creates_createAll (owner property : String) (given : List Declaration)
    (types : Declarations) :
    Creates (Trace.lifts owner property given types.keys) types
      (Declarations.createAll given types) := by
  induction given generalizing types with
  | nil =>
    exact ⟨rfl, by simp [Declarations.createAll], fun _ _ => rfl, by simp [Trace.lifts]⟩
  | cons declaration rest ih =>
    unfold Trace.lifts Declarations.createAll
    by_cases known : declaration.name ∈ types.keys
    · have step := ih types
      rw [if_pos known, if_pos (OrderedMap.contains_iff.mpr known)]
      refine ⟨by simp [step.declarations_eq], step.keys_eq, step.kept, ?_⟩
      intro each inside
      rcases List.mem_cons.mp inside with rfl | later
      · rw [step.keys_eq]
        exact List.mem_append_left _ known
      · exact step.covered each later
    · have absent : ¬types.contains declaration.name = true :=
        fun present => known (OrderedMap.contains_iff.mp present)
      have step := ih (types.insert declaration.name declaration)
      have keys := OrderedMap.keys_insert types declaration.name declaration
      rw [if_neg known] at keys
      rw [keys] at step
      rw [if_neg known, if_neg absent]
      refine ⟨by simp [step.declarations_eq], ?_, fun key inside => ?_, ?_⟩
      · rw [step.keys_eq, keys, List.append_assoc]
        rfl
      · have apart : key ≠ declaration.name := fun same => known (same ▸ inside)
        rw [step.kept key (keys ▸ List.mem_append_left _ inside), OrderedMap.get?_insert,
          if_neg apart]
      · intro each inside
        rcases List.mem_cons.mp inside with rfl | later
        · rw [step.keys_eq, keys]
          simp [Lifted.name]
        · exact step.covered each later

namespace Creates

variable {lifted : List Lifted} {before after : Declarations}
  {created : List Declaration × Declarations} {stopped : Option Error}

/-- An error ends the resolution of a property after its lifts. -/
theorem follows (creates : Creates lifted before created) (cause : Error) :
    Follows [] ⟨lifted, some cause⟩ before created.2 (some cause) := by
  refine ⟨rfl, ?_, fun key inside _ => creates.kept key inside, by simp⟩
  rw [creates.keys_eq, creates.declarations_eq]
  rfl

/-- The types that the lifts of a property created are resolved. -/
theorem andThen {inner : Trace} (creates : Creates lifted before created)
    (later : Follows (created.1.map named) inner created.2 after stopped) :
    Follows [] ((⟨lifted, none⟩ : Trace).followedBy inner) before after stopped := by
  have own : (⟨lifted, none⟩ : Trace).created = created.1 := creates.declarations_eq.symm
  have names : (⟨lifted, none⟩ : Trace).names = created.1.map Declaration.name := by
    rw [Trace.names, own]
  constructor
  · rw [later.stopped_eq, Trace.followedBy_of_none rfl]
  · rw [later.keys_eq, creates.keys_eq, Trace.names_followedBy rfl, names, List.append_assoc]
  · intro key inside _
    have free : key ∉ (created.1.map named).map Prod.fst := by
      rw [List.map_map]
      intro clash
      have distinct : (before.keys ++ created.1.map Declaration.name).Nodup :=
        creates.keys_eq ▸ created.2.distinct
      exact (List.nodup_append.mp distinct).2.2 key inside key clash rfl
    have grown : key ∈ created.2.keys := creates.keys_eq ▸ List.mem_append_left _ inside
    rw [later.kept key grown free, creates.kept key inside]
  · intro success entry inside
    rw [Trace.created_followedBy rfl, own, List.map_append, List.nil_append] at inside
    exact later.settled (Trace.stopped_followedBy.mp success).2 entry inside

end Creates

/-- The lifts of a property and the resolution of the types that they create follow a trace. -/
theorem follows_created (owner property : String) {lifting : Lifting} {types after : Declarations}
    {stopped : Option Error} (ended : lifting.stopped = none)
    {created : List Declaration × Declarations}
    (creation : Declarations.createAll lifting.declarations types = created)
    (resolved : (created.1.map Declaration.name).Nodup →
      (∀ declaration ∈ created.1, declaration.name ∈ created.2.keys) →
      Follows (created.1.map named) (Trace.ofTypes created.1 created.2.keys) created.2 after
        stopped) :
    Follows []
      ((Trace.ofLifting owner property lifting types.keys).followedBy
        (Trace.ofTypes (Trace.ofLifting owner property lifting types.keys).created
          (types.keys ++ (Trace.ofLifting owner property lifting types.keys).names)))
      types after stopped := by
  have creates := creates_createAll owner property lifting.declarations types
  rw [creation] at creates
  have shape : Trace.ofLifting owner property lifting types.keys =
      ⟨Trace.lifts owner property lifting.declarations types.keys, none⟩ := by
    simp [Trace.ofLifting, ended]
  have own : (Trace.ofLifting owner property lifting types.keys).created = created.1 :=
    creates.declarations_eq.symm
  have distinct : (types.keys ++ created.1.map Declaration.name).Nodup :=
    creates.keys_eq ▸ created.2.distinct
  have later := resolved (List.nodup_append.mp distinct).2.1 fun declaration inside => by
    rw [creates.keys_eq]
    exact List.mem_append_right _ (List.mem_map_of_mem inside)
  rw [creates.keys_eq] at later
  rw [Trace.names, own, shape]
  exact creates.andThen later

/-- What a walk through properties that came to its end has done. -/
structure Walked (owner : String) (entries : List (String × PropertyValue)) (walk : Walk) :
    Prop where
  /-- Every property has its lifted value. -/
  values_eq : walk.values =
    entries.map fun entry => (Lifting.ofProperty owner entry.1 entry.2).value
  /-- Every lift was made. -/
  made : ∀ entry ∈ entries, (Lifting.ofProperty owner entry.1 entry.2).stopped = none
  /-- Every lifted type exists. -/
  covered : Covers walk.types.keys owner entries

section Property

variable {owner property : String} {value : PropertyValue} {rest : List (String × PropertyValue)}
  {types : Declarations} {lifting : Lifting} {created : List Declaration × Declarations}
  {attempt : Attempt Error Declarations}

/-- An error in a created type ends the resolution of properties. -/
theorem resolveProperties_cons_stopped {cause : Error}
    (lifts : Lifting.ofProperty owner property value = lifting) (ended : lifting.stopped = none)
    (creation : Declarations.createAll lifting.declarations types = created)
    (resolved : resolveTypes created.1 created.2 = attempt)
    (stopped : attempt.stopped = some cause) :
    resolveProperties owner ((property, value) :: rest) types =
      ⟨attempt.reached, [lifting.value], some cause⟩ := by
  subst lifts creation resolved
  rw [resolveProperties]
  simp only [ended, stopped]

/-- When the created types are resolved the other properties are looked at. -/
theorem resolveProperties_cons
    (lifts : Lifting.ofProperty owner property value = lifting) (ended : lifting.stopped = none)
    (creation : Declarations.createAll lifting.declarations types = created)
    (resolved : resolveTypes created.1 created.2 = attempt) (passed : attempt.stopped = none) :
    resolveProperties owner ((property, value) :: rest) types =
      ⟨(resolveProperties owner rest attempt.reached).types,
        lifting.value :: (resolveProperties owner rest attempt.reached).values,
        (resolveProperties owner rest attempt.reached).stopped⟩ := by
  subst lifts creation resolved
  rw [resolveProperties]
  simp only [ended, passed]

end Property

/-- Every resolution follows its trace. -/
theorem follows_all :
    (∀ (name : String) (declaration : Declaration) (types : Declarations), name ∈ types.keys →
      Follows [(name, declaration)] (Trace.ofType name declaration types.keys) types
        (resolveType name declaration types).reached
        (resolveType name declaration types).stopped) ∧
    (∀ (owner : String) (entries : List (String × PropertyValue)) (types : Declarations),
      Follows [] (Trace.ofProperties owner entries types.keys) types
        (resolveProperties owner entries types).types
        (resolveProperties owner entries types).stopped ∧
      ((resolveProperties owner entries types).stopped = none →
        Walked owner entries (resolveProperties owner entries types))) ∧
    ∀ (given : List Declaration) (types : Declarations), (given.map Declaration.name).Nodup →
      (∀ declaration ∈ given, declaration.name ∈ types.keys) →
      Follows (given.map named) (Trace.ofTypes given types.keys) types
        (resolveTypes given types).reached (resolveTypes given types).stopped := by
  refine resolveType.mutual_induct
    (fun name declaration types => name ∈ types.keys →
      Follows [(name, declaration)] (Trace.ofType name declaration types.keys) types
        (resolveType name declaration types).reached
        (resolveType name declaration types).stopped)
    (fun owner entries types =>
      Follows [] (Trace.ofProperties owner entries types.keys) types
        (resolveProperties owner entries types).types
        (resolveProperties owner entries types).stopped ∧
      ((resolveProperties owner entries types).stopped = none →
        Walked owner entries (resolveProperties owner entries types)))
    (fun given types => (given.map Declaration.name).Nodup →
      (∀ declaration ∈ given, declaration.name ∈ types.keys) →
      Follows (given.map named) (Trace.ofTypes given types.keys) types
        (resolveTypes given types).reached (resolveTypes given types).stopped)
    ?absorbed ?malformed ?marked ?plain ?noProperties ?stoppedLift ?stoppedType ?property ?noTypes
    ?stoppedFirst ?type
  case absorbed =>
    intro name declaration types embedded absorbed read present
    rw [resolveType, Trace.ofType]
    simp only [embedded, ↓reduceIte, read, Attempt.done]
    refine (Follows.refl types).write present (fun _ => .absorbed embedded read) ?_
    intro _ plain
    simp [embedded] at plain
  case malformed =>
    intro name declaration types embedded cause read present
    rw [resolveType, Trace.ofType]
    simp only [embedded, ↓reduceIte, read, Attempt.failed]
    exact Follows.halt _ types _
  case marked =>
    intro name declaration types plain cause stopped present
    rw [resolveType, Trace.ofType]
    simp only [plain, Bool.false_eq_true, ↓reduceIte, stopped, Attempt.failed]
    exact (Follows.halt [] types _).write present (by simp) (by simp)
  case plain =>
    intro name declaration types plain properties bare ih present
    rw [resolveType, Trace.ofType]
    simp only [plain, Bool.false_eq_true, ↓reduceIte, bare]
    refine ih.1.write present (fun success => ?_) fun success _ => ?_
    · have walked := ih.2 (ih.1.stopped_eq.trans success)
      rw [walked.values_eq, overlay_lifted]
      exact .lifted (by simpa using plain) bare walked.made
    · exact (ih.2 (ih.1.stopped_eq.trans success)).covered
  case noProperties =>
    intro owner types
    simp only [resolveProperties, Trace.ofProperties]
    exact ⟨Follows.refl types, fun _ => ⟨rfl, by simp, by simp [Covers]⟩⟩
  case stoppedLift =>
    intro owner types property value rest lifting cause stopped
    have creates := creates_createAll owner property lifting.declarations types
    have shape : Trace.ofLifting owner property lifting types.keys =
        ⟨Trace.lifts owner property lifting.declarations types.keys,
          some (.decode (.lift cause))⟩ := by
      simp [Trace.ofLifting, stopped]
    rw [resolveProperties, Trace.ofProperties, shape, Trace.followedBy_of_some rfl]
    simp only [show (Lifting.ofProperty owner property value).stopped = some cause from stopped]
    exact ⟨creates.follows _, by simp⟩
  case stoppedType =>
    intro owner types property value rest lifting created ended attempt cause stopped ih
    have first := follows_created owner property ended rfl ih
    rw [show (resolveTypes created.1 created.2).stopped = some cause from stopped] at first
    rw [resolveProperties_cons_stopped rfl ended rfl rfl stopped, Trace.ofProperties,
      ← Trace.followedBy_assoc]
    exact ⟨first.andThen_stopped [], by simp⟩
  case property =>
    intro owner types property value rest lifting created ended attempt passed ih _ ihRest
    have first := follows_created owner property ended rfl ih
    rw [show (resolveTypes created.1 created.2).stopped = none from passed] at first
    have finished : (Trace.ofLifting owner property lifting types.keys).stopped = none :=
      (Trace.stopped_followedBy.mp first.stopped_eq.symm).1
    have keys := first.keys_eq
    rw [Trace.names_followedBy finished, ← List.append_assoc] at keys
    have later := ihRest.1
    rw [show attempt.reached.keys = _ from keys] at later
    rw [resolveProperties_cons rfl ended rfl rfl passed, Trace.ofProperties,
      ← Trace.followedBy_assoc]
    refine ⟨first.andThen later (by simp) (by simp), fun success => ?_⟩
    have walked := ihRest.2 success
    refine ⟨by rw [walked.values_eq, List.map_cons], ?_, ?_⟩
    · rw [List.forall_mem_cons]
      exact ⟨ended, walked.made⟩
    · unfold Covers
      rw [List.forall_mem_cons]
      refine ⟨fun declaration inside => ?_, walked.covered⟩
      have creates := creates_createAll owner property lifting.declarations types
      rw [← Trace.map_declaration_lifts owner property lifting.declarations types.keys] at inside
      obtain ⟨lifted, made, rfl⟩ := List.mem_map.mp inside
      have present := creates.covered lifted made
      rw [creates.keys_eq, creates.declarations_eq] at present
      exact later.mem_keys (show lifted.name ∈ attempt.reached.keys by
        rw [show attempt.reached.keys = _ from keys]
        exact List.mem_append_left _ present)
  case noTypes =>
    intro types _ _
    simp only [resolveTypes, Trace.ofTypes]
    exact Follows.refl types
  case stoppedFirst =>
    intro types declaration rest attempt cause stopped ih distinct present
    have first := ih (present declaration List.mem_cons_self)
    rw [stopped] at first
    rw [resolveTypes, Trace.ofTypes]
    simp only [show (resolveType declaration.name declaration types).stopped = some cause from
      stopped]
    exact first.andThen_stopped _
  case type =>
    intro types declaration rest attempt ended ihFirst ihRest distinct present
    have first := ihFirst (present declaration List.mem_cons_self)
    rw [List.map_cons, List.nodup_cons] at distinct
    have others : ∀ other ∈ rest, other.name ∈ types.keys := fun other inside =>
      present other (List.mem_cons_of_mem _ inside)
    have later := ihRest distinct.2 fun other inside => first.mem_keys (others other inside)
    rw [show attempt.reached.keys = _ from first.keys_eq] at later
    rw [show attempt.stopped = none from ended] at first
    rw [resolveTypes, Trace.ofTypes]
    simp only [show (resolveType declaration.name declaration types).stopped = none from ended]
    refine first.andThen later ?_ ?_
    · intro entry inside
      obtain ⟨other, given, rfl⟩ := List.mem_map.mp inside
      exact others other given
    · intro entry own
      rw [List.mem_singleton] at own
      subst own
      rw [List.map_map]
      exact distinct.1

end Resolution

/-- The resolution of a declared type follows its trace. -/
theorem Declarations.follows_resolve {types : Declarations} {name : String}
    {declaration : Declaration} (found : types.get? name = some declaration) :
    Resolution.Follows [(name, declaration)] (Trace.ofType name declaration types.keys) types
      (types.resolve name).reached (types.resolve name).stopped := by
  have present : name ∈ types.keys := OrderedMap.mem_keys_iff.mpr ⟨declaration, found⟩
  simp only [resolve, found]
  exact Resolution.follows_all.1 name declaration types present

end Raml
