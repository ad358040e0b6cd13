import Raml.Resolution

/-!
# The trace of a resolution

Which inline declarations a resolution lifts, in which order, which of them create types and which
error ends it depends on the resolved declaration and on the names that are taken, and on nothing
else. The trace says so without a registry: it goes through the properties of a type in order and,
before it goes on to the next property, through every type that a lift creates.
-/
namespace Raml

/-- An inline declaration that a resolution lifts. -/
structure Lifted where
  /-- The type that has the property. -/
  owner : String
  /-- The property. -/
  property : String
  /-- The declaration of the lifted type. -/
  declaration : Declaration
  /-- Whether the name was free, so that the type is created. -/
  isNew : Bool

/-- The name of the lifted type. -/
def Lifted.name (lifted : Lifted) : String := lifted.declaration.name

/-- What a resolution lifts, in order, and the error that ends it early. -/
structure Trace where
  /-- The inline declarations. -/
  lifted : List Lifted
  /-- The error. -/
  stopped : Option Error

namespace Trace

/-- The declarations of the types that are created, in order. -/
def created (trace : Trace) : List Declaration :=
  (trace.lifted.filter Lifted.isNew).map Lifted.declaration

/-- The names of the types that are created, in order. -/
def names (trace : Trace) : List String := trace.created.map Declaration.name

/-- Go on after a trace, unless an error ended it. -/
def followedBy (first next : Trace) : Trace :=
  match first.stopped with
  | none => ⟨first.lifted ++ next.lifted, next.stopped⟩
  | some _ => first

/-- The lifts of one property. -/
def lifts (owner property : String) : List Declaration → List String → List Lifted
  | [], _ => []
  | declaration :: rest, taken =>
    if declaration.name ∈ taken then
      ⟨owner, property, declaration, false⟩ :: lifts owner property rest taken
    else
      ⟨owner, property, declaration, true⟩ ::
        lifts owner property rest (taken ++ [declaration.name])

/-- The trace of the lifts of one property. -/
def ofLifting (owner property : String) (lifting : Lifting) (taken : List String) : Trace :=
  ⟨lifts owner property lifting.declarations taken,
    lifting.stopped.map fun cause => .decode (.lift cause)⟩

/-- The created types have at most the nesting of those that were lifted. -/
theorem totalNesting_created_le (owner property : String) (lifting : Lifting)
    (taken : List String) :
    Declaration.totalNesting (ofLifting owner property lifting taken).created ≤
      Declaration.totalNesting lifting.declarations := by
  simp only [created, ofLifting]
  induction lifting.declarations generalizing taken with
  | nil => simp [lifts]
  | cons declaration rest ih =>
    unfold lifts
    split
    · have bound := ih taken
      simp only [List.filter_cons, Bool.false_eq_true, ↓reduceIte, Declaration.totalNesting]
      omega
    · have bound := ih (taken ++ [declaration.name])
      simp only [List.filter_cons, ↓reduceIte, List.map_cons, Declaration.totalNesting]
      omega

mutual

/-- The trace of resolving the type of a name. -/
def ofType (name : String) (declaration : Declaration) (taken : List String) : Trace :=
  if declaration.isEmbedded then
    match declaration.absorb with
    | .ok _ => ⟨[], none⟩
    | .error cause => ⟨[], some (Resolution.absorptionError declaration cause)⟩
  else
    match declaration.properties.unmarkAll.stopped with
    | some cause => ⟨[], some (.configuration (.optionalValue cause))⟩
    | none => ofProperties name declaration.properties.unmarkAll.reached.entries taken
termination_by 2 * declaration.properties.nesting + 1
decreasing_by
  have bound := declaration.properties.nesting_unmarkAll_le
  simp only [Properties.nesting] at bound ⊢
  omega

/-- The trace of resolving created types, in order. -/
def ofTypes (given : List Declaration) (taken : List String) : Trace :=
  match given with
  | [] => ⟨[], none⟩
  | declaration :: rest =>
    let first := ofType declaration.name declaration taken
    first.followedBy (ofTypes rest (taken ++ first.names))
termination_by Declaration.totalNesting given
decreasing_by
  all_goals
    simp only [Declaration.totalNesting]
    omega

/-- The trace of resolving the properties of an owner. -/
def ofProperties (owner : String) (entries : List (String × PropertyValue))
    (taken : List String) : Trace :=
  match entries with
  | [] => ⟨[], none⟩
  | (property, value) :: rest =>
    let first := ofLifting owner property (Lifting.ofProperty owner property value) taken
    let inner := ofTypes first.created (taken ++ first.names)
    first.followedBy
      (inner.followedBy (ofProperties owner rest (taken ++ first.names ++ inner.names)))
termination_by 2 * Properties.nestingOfEntries entries
decreasing_by
  · have bound := Lifting.totalNesting_ofProperty_le owner property value
    have fewer := totalNesting_created_le owner property
      (Lifting.ofProperty owner property value) taken
    simp only [Properties.nestingOfEntries, Entries.weight, Properties.nestingOfProperty]
    omega
  · simp only [Properties.nestingOfEntries, Entries.weight, Properties.nestingOfProperty]
    omega

end

/-- The trace of a type whose expression is no embedded schema is that of its properties under bare
names. -/
theorem ofType_of_plain {name : String} {declaration : Declaration} {taken : List String}
    (plain : declaration.isEmbedded = false)
    (bare : declaration.properties.unmarkAll.stopped = none) :
    ofType name declaration taken =
      ofProperties name declaration.properties.unmarkAll.reached.entries taken := by
  rw [ofType]
  simp only [plain, Bool.false_eq_true, ↓reduceIte, bare]

variable {first next : Trace}

/-- A trace is followed by another up to the end of both. -/
theorem followedBy_of_none (ended : first.stopped = none) :
    first.followedBy next = ⟨first.lifted ++ next.lifted, next.stopped⟩ := by
  simp [followedBy, ended]

/-- Nothing follows an error. -/
theorem followedBy_of_some {cause : Error} (stopped : first.stopped = some cause) :
    first.followedBy next = first := by
  simp [followedBy, stopped]

/-- What follows a trace counts only when no error ended it. -/
theorem followedBy_congr {other : Trace} (same : first.stopped = none → next = other) :
    first.followedBy next = first.followedBy other := by
  cases ended : first.stopped with
  | none => rw [same ended]
  | some cause => rw [followedBy_of_some ended, followedBy_of_some ended]

/-- No error ends two traces in order exactly when none ends either. -/
theorem stopped_followedBy :
    (first.followedBy next).stopped = none ↔ first.stopped = none ∧ next.stopped = none := by
  cases ended : first.stopped with
  | none => simp [followedBy_of_none ended]
  | some cause => simp [followedBy_of_some ended, ended]

/-- Three traces follow each other in one way. -/
theorem followedBy_assoc (first next last : Trace) :
    (first.followedBy next).followedBy last = first.followedBy (next.followedBy last) := by
  cases ended : first.stopped with
  | some cause => rw [followedBy_of_some ended, followedBy_of_some ended, followedBy_of_some ended]
  | none =>
    rw [followedBy_of_none ended, followedBy_of_none ended]
    cases passed : next.stopped with
    | some cause =>
      rw [followedBy_of_some passed, passed]
      exact followedBy_of_some rfl
    | none => rw [followedBy_of_none rfl, followedBy_of_none passed, List.append_assoc]

/-- The types that two traces create, in order. -/
theorem created_followedBy (ended : first.stopped = none) :
    (first.followedBy next).created = first.created ++ next.created := by
  simp [followedBy_of_none ended, created]

/-- The names of the types that two traces create, in order. -/
theorem names_followedBy (ended : first.stopped = none) :
    (first.followedBy next).names = first.names ++ next.names := by
  simp [names, created_followedBy ended]

/-- What the first of two traces lifts is lifted. -/
theorem mem_followedBy_left {lifted : Lifted} (inside : lifted ∈ first.lifted) :
    lifted ∈ (first.followedBy next).lifted := by
  cases ended : first.stopped with
  | none => simp [followedBy_of_none ended, inside]
  | some cause => simpa [followedBy_of_some ended] using inside

/-- What the second of two traces lifts is lifted, when no error ends the first. -/
theorem mem_followedBy_right {lifted : Lifted} (ended : first.stopped = none)
    (inside : lifted ∈ next.lifted) : lifted ∈ (first.followedBy next).lifted := by
  simp [followedBy_of_none ended, inside]

/-- The lifts of a property are those of the given declarations. -/
theorem map_declaration_lifts (owner property : String) (given : List Declaration)
    (taken : List String) :
    (lifts owner property given taken).map Lifted.declaration = given := by
  induction given generalizing taken with
  | nil => rfl
  | cons declaration rest ih =>
    unfold lifts
    split <;> rw [List.map_cons, ih]

/-- The lifts of a property create some of the given declarations. -/
theorem created_lifts_sublist (owner property : String) (given : List Declaration)
    (taken : List String) :
    (((lifts owner property given taken).filter Lifted.isNew).map Lifted.declaration).Sublist
      given := by
  have part := (List.filter_sublist (p := Lifted.isNew)
    (l := lifts owner property given taken)).map Lifted.declaration
  rwa [map_declaration_lifts] at part

/-- Whether the lifts of a property create types depends on their own names only. -/
theorem lifts_congr {owner property : String} {given : List Declaration}
    {taken other : List String}
    (agree : ∀ lifted ∈ lifts owner property given taken,
      lifted.name ∈ taken ↔ lifted.name ∈ other) :
    lifts owner property given other = lifts owner property given taken := by
  induction given generalizing taken other with
  | nil => rfl
  | cons declaration rest ih =>
    unfold lifts at agree ⊢
    by_cases known : declaration.name ∈ taken
    · simp only [known, ↓reduceIte, List.mem_cons, forall_eq_or_imp, Lifted.name] at agree
      simp only [known, agree.1.mp trivial, ↓reduceIte]
      rw [ih agree.2]
    · simp only [known, ↓reduceIte, List.mem_cons, forall_eq_or_imp, Lifted.name, false_iff]
        at agree
      simp only [known, agree.1, ↓reduceIte]
      rw [ih fun lifted inside => ?_]
      have same := agree.2 lifted inside
      simp only [Lifted.name, List.mem_append, same]

/-- The lifts of a property depend on which of their own names are taken only. -/
theorem ofLifting_congr {owner property : String} {lifting : Lifting} {taken other : List String}
    (agree : ∀ lifted ∈ (ofLifting owner property lifting taken).lifted,
      lifted.name ∈ taken ↔ lifted.name ∈ other) :
    ofLifting owner property lifting other = ofLifting owner property lifting taken := by
  rw [ofLifting, lifts_congr agree, ofLifting]

/-- The trace of properties goes through them in order. -/
theorem ofProperties_append (owner : String) (entries others : List (String × PropertyValue))
    (taken : List String) :
    ofProperties owner (entries ++ others) taken =
      (ofProperties owner entries taken).followedBy
        (ofProperties owner others (taken ++ (ofProperties owner entries taken).names)) := by
  induction entries generalizing taken with
  | nil => simp [ofProperties, followedBy, names, created]
  | cons entry rest ih =>
    obtain ⟨property, value⟩ := entry
    rw [List.cons_append, ofProperties, ofProperties, ih, followedBy_assoc, followedBy_assoc]
    refine followedBy_congr fun ended => followedBy_congr fun passed => followedBy_congr fun _ => ?_
    rw [names_followedBy ended, names_followedBy passed]
    simp only [List.append_assoc]

/-- A trace depends on which of its own names are taken only. -/
theorem congr_all :
    (∀ (name : String) (declaration : Declaration) (taken other : List String),
      (∀ lifted ∈ (ofType name declaration taken).lifted,
        lifted.name ∈ taken ↔ lifted.name ∈ other) →
      ofType name declaration other = ofType name declaration taken) ∧
    (∀ (owner : String) (entries : List (String × PropertyValue)) (taken other : List String),
      (∀ lifted ∈ (ofProperties owner entries taken).lifted,
        lifted.name ∈ taken ↔ lifted.name ∈ other) →
      ofProperties owner entries other = ofProperties owner entries taken) ∧
    ∀ (given : List Declaration) (taken other : List String),
      (∀ lifted ∈ (ofTypes given taken).lifted, lifted.name ∈ taken ↔ lifted.name ∈ other) →
      ofTypes given other = ofTypes given taken := by
  have further {first : Trace} {taken other : List String} {lifted : Lifted}
      (same : lifted.name ∈ taken ↔ lifted.name ∈ other) :
      lifted.name ∈ taken ++ first.names ↔ lifted.name ∈ other ++ first.names := by
    rw [List.mem_append, List.mem_append, same]
  refine ofType.mutual_induct
    (fun name declaration taken => ∀ other,
      (∀ lifted ∈ (ofType name declaration taken).lifted,
        lifted.name ∈ taken ↔ lifted.name ∈ other) →
      ofType name declaration other = ofType name declaration taken)
    (fun owner entries taken => ∀ other,
      (∀ lifted ∈ (ofProperties owner entries taken).lifted,
        lifted.name ∈ taken ↔ lifted.name ∈ other) →
      ofProperties owner entries other = ofProperties owner entries taken)
    (fun given taken => ∀ other,
      (∀ lifted ∈ (ofTypes given taken).lifted, lifted.name ∈ taken ↔ lifted.name ∈ other) →
      ofTypes given other = ofTypes given taken)
    ?absorbed ?malformed ?marked ?plain ?noProperties ?property ?noTypes ?type
  case absorbed =>
    intro name declaration taken embedded absorbed read other _
    simp only [ofType, embedded, ↓reduceIte, read]
  case malformed =>
    intro name declaration taken embedded cause read other _
    simp only [ofType, embedded, ↓reduceIte, read]
  case marked =>
    intro name declaration taken plain cause stopped other _
    simp only [ofType, plain, Bool.false_eq_true, ↓reduceIte, stopped]
  case plain =>
    intro name declaration taken plain bare ih other agree
    have plain : declaration.isEmbedded = false := by simpa using plain
    rw [ofType_of_plain plain bare] at agree
    rw [ofType_of_plain plain bare, ofType_of_plain plain bare, ih other agree]
  case noProperties =>
    intro owner taken other _
    simp only [ofProperties]
  case property =>
    intro owner taken property value rest first inner _ ihInner ihRest other agree
    rw [ofProperties] at agree
    have same : ofLifting owner property (Lifting.ofProperty owner property value) other = first :=
      ofLifting_congr fun lifted inside => agree lifted (mem_followedBy_left inside)
    rw [ofProperties, ofProperties, same]
    refine followedBy_congr fun ended => ?_
    have sameInner : ofTypes first.created (other ++ first.names) = inner :=
      ihInner _ fun lifted inside =>
        further (agree lifted (mem_followedBy_right ended (mem_followedBy_left inside)))
    rw [sameInner]
    refine followedBy_congr fun passed => ?_
    rw [ihRest _ fun lifted inside => further (further
      (agree lifted (mem_followedBy_right ended (mem_followedBy_right passed inside))))]
  case noTypes =>
    intro taken other _
    simp only [ofTypes]
  case type =>
    intro taken declaration rest first ihFirst ihRest other agree
    rw [ofTypes] at agree
    have same : ofType declaration.name declaration other = first :=
      ihFirst other fun lifted inside => agree lifted (mem_followedBy_left inside)
    rw [ofTypes, ofTypes, same]
    refine followedBy_congr fun ended => ?_
    rw [ihRest _ fun lifted inside =>
      further (agree lifted (mem_followedBy_right ended inside))]

/-- What holds of an error, of the lifts of one property and of two traces in order holds of every
trace. -/
theorem all_of_steps {motive : List String → Trace → Prop}
    (halt : ∀ taken stopped, motive taken ⟨[], stopped⟩)
    (lift : ∀ owner property value taken,
      motive taken (ofLifting owner property (Lifting.ofProperty owner property value) taken))
    (step : ∀ taken first next, motive taken first → motive (taken ++ first.names) next →
      motive taken (first.followedBy next)) :
    (∀ name declaration taken, motive taken (ofType name declaration taken)) ∧
    (∀ owner entries taken, motive taken (ofProperties owner entries taken)) ∧
    ∀ given taken, motive taken (ofTypes given taken) := by
  refine ofType.mutual_induct
    (fun name declaration taken => motive taken (ofType name declaration taken))
    (fun owner entries taken => motive taken (ofProperties owner entries taken))
    (fun given taken => motive taken (ofTypes given taken))
    ?absorbed ?malformed ?marked ?plain ?noProperties ?property ?noTypes ?type
  case absorbed =>
    intro name declaration taken embedded absorbed read
    simp only [ofType, embedded, ↓reduceIte, read]
    exact halt taken none
  case malformed =>
    intro name declaration taken embedded cause read
    simp only [ofType, embedded, ↓reduceIte, read]
    exact halt taken _
  case marked =>
    intro name declaration taken plain cause stopped
    simp only [ofType, plain, Bool.false_eq_true, ↓reduceIte, stopped]
    exact halt taken _
  case plain =>
    intro name declaration taken plain bare ih
    rw [ofType_of_plain (by simpa using plain) bare]
    exact ih
  case noProperties =>
    intro owner taken
    rw [ofProperties]
    exact halt taken none
  case property =>
    intro owner taken property value rest first inner _ ihInner ihRest
    rw [ofProperties]
    exact step taken _ _ (lift owner property value taken) (step _ _ _ ihInner ihRest)
  case noTypes =>
    intro taken
    rw [ofTypes]
    exact halt taken none
  case type =>
    intro taken declaration rest first ihFirst ihRest
    rw [ofTypes]
    exact step taken _ _ ihFirst ihRest

/-- Of lifted declarations exactly those are new whose names are neither taken nor those of earlier
ones. -/
def MarksNew (taken : List String) : List Lifted → Prop
  | [] => True
  | lifted :: rest =>
    (lifted.isNew = true ↔ lifted.name ∉ taken) ∧ MarksNew (taken ++ [lifted.name]) rest

/-- It matters only which names are taken. -/
theorem MarksNew.congr {taken other : List String} {lifted : List Lifted}
    (marks : MarksNew taken lifted) (same : ∀ name, name ∈ taken ↔ name ∈ other) :
    MarksNew other lifted := by
  induction lifted generalizing taken other with
  | nil => trivial
  | cons first rest ih =>
    refine ⟨by rw [← same, marks.1], ih marks.2 fun name => ?_⟩
    rw [List.mem_append, List.mem_append, same]

/-- Later lifted declarations are new beside the earlier ones. -/
theorem marksNew_append {taken : List String} {lifted more : List Lifted} :
    MarksNew taken (lifted ++ more) ↔
      MarksNew taken lifted ∧ MarksNew (taken ++ lifted.map Lifted.name) more := by
  induction lifted generalizing taken with
  | nil => simp [MarksNew]
  | cons first rest ih =>
    rw [List.cons_append, MarksNew, MarksNew, ih, and_assoc, List.append_assoc]
    rfl

/-- The names of the created types are those of the lifted declarations that were not taken. -/
theorem MarksNew.mem_names {trace : Trace} {taken : List String}
    (marks : MarksNew taken trace.lifted) (name : String) :
    name ∈ taken ++ trace.names ↔ name ∈ taken ++ trace.lifted.map Lifted.name := by
  obtain ⟨lifted, stopped⟩ := trace
  simp only [names, created, List.map_map]
  induction lifted generalizing taken with
  | nil => rfl
  | cons first rest ih =>
    have later := ih marks.2
    simp only [List.mem_append, List.map_cons, List.mem_cons, List.not_mem_nil, false_or, or_assoc]
      at later ⊢
    rw [← later]
    by_cases new : first.isNew
    · simp only [List.filter_cons, new, ↓reduceIte, List.map_cons, List.mem_cons]
      rfl
    · have known : first.name ∈ taken := Classical.not_not.mp (mt marks.1.mpr new)
      simp only [List.filter_cons, new, Bool.false_eq_true, ↓reduceIte]
      constructor
      · rintro (before | inside)
        · exact .inl before
        · exact .inr (.inr inside)
      · rintro (before | same | inside)
        · exact .inl before
        · exact .inl (same ▸ known)
        · exact .inr inside

/-- The lifts of a property are marked. -/
theorem marksNew_lifts (owner property : String) (given : List Declaration)
    (taken : List String) : MarksNew taken (lifts owner property given taken) := by
  induction given generalizing taken with
  | nil => trivial
  | cons declaration rest ih =>
    unfold lifts
    split
    · rename_i known
      refine ⟨by simp [Lifted.name, known], (ih taken).congr fun name => ?_⟩
      simp only [Lifted.name, List.mem_append, List.mem_singleton]
      exact ⟨.inl, fun inside => inside.elim id fun same => same ▸ known⟩
    · rename_i free
      exact ⟨by simp [Lifted.name, free], ih _⟩

/-- Every trace marks its lifted declarations. -/
theorem marksNew_all :
    (∀ name declaration taken, MarksNew taken (ofType name declaration taken).lifted) ∧
    (∀ owner entries taken, MarksNew taken (ofProperties owner entries taken).lifted) ∧
    ∀ given taken, MarksNew taken (ofTypes given taken).lifted := by
  refine all_of_steps (motive := fun taken trace => MarksNew taken trace.lifted)
    (fun _ _ => trivial) (fun owner property value taken => ?_) ?_
  · exact marksNew_lifts owner property _ taken
  · intro taken first next marksFirst marksNext
    cases ended : first.stopped with
    | some cause => rwa [followedBy_of_some ended]
    | none =>
      rw [followedBy_of_none ended, marksNew_append]
      exact ⟨marksFirst, marksNext.congr marksFirst.mem_names⟩

end Trace

end Raml
