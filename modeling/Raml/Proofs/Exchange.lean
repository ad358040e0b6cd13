import Raml.Proofs.Trace

/-!
# The order in which fresh types are created

Where every lifted declaration has a name of its own, it does not matter when its type is created. A
type that the first lift of a property creates may as well be there and resolved before the
properties are gone through, with the property referring to it: the same types are created.
-/
namespace Raml

namespace Trace

/-- Every lifted declaration has a name of its own, and none of the names was taken. -/
structure Fresh (trace : Trace) (taken : List String) : Prop where
  /-- No name was taken. -/
  free : ∀ lifted ∈ trace.lifted, lifted.name ∉ taken
  /-- No name is used twice. -/
  distinct : (trace.lifted.map Lifted.name).Nodup

/-- A created type has the name of a lifted declaration. -/
theorem exists_lifted_of_mem_names {trace : Trace} {name : String} (inside : name ∈ trace.names) :
    ∃ lifted ∈ trace.lifted, lifted.name = name := by
  simp only [names, created, List.map_map, List.mem_map, List.mem_filter] at inside
  obtain ⟨lifted, kept, same⟩ := inside
  exact ⟨lifted, kept.1, same⟩

variable {first next : Trace} {taken : List String}

/-- The names of a trace that is followed by another were not taken. -/
theorem Fresh.left (fresh : (first.followedBy next).Fresh taken) : first.Fresh taken := by
  cases ended : first.stopped with
  | some cause => rwa [followedBy_of_some ended] at fresh
  | none =>
    rw [followedBy_of_none ended] at fresh
    obtain ⟨free, distinct⟩ := fresh
    rw [List.map_append, List.nodup_append] at distinct
    exact ⟨fun lifted inside => free lifted (List.mem_append_left _ inside), distinct.1⟩

/-- The names of a trace that follows another were not taken before, and not by the other. -/
theorem Fresh.right (fresh : (first.followedBy next).Fresh taken) (ended : first.stopped = none) :
    next.Fresh (taken ++ first.names) := by
  rw [followedBy_of_none ended] at fresh
  obtain ⟨free, distinct⟩ := fresh
  rw [List.map_append, List.nodup_append] at distinct
  refine ⟨fun lifted inside => ?_, distinct.2.1⟩
  rw [List.mem_append, not_or]
  refine ⟨free lifted (List.mem_append_right _ inside), fun clash => ?_⟩
  obtain ⟨other, there, same⟩ := exists_lifted_of_mem_names clash
  exact distinct.2.2 _ (List.mem_map_of_mem there) _ (List.mem_map_of_mem inside) same

/-- The names of a trace that is followed by another are not those of types that the other
creates. -/
theorem Fresh.apart (fresh : (first.followedBy next).Fresh taken) (ended : first.stopped = none)
    (lifted : Lifted) (inside : lifted ∈ first.lifted) : lifted.name ∉ next.names := by
  rw [followedBy_of_none ended] at fresh
  have distinct := fresh.distinct
  rw [List.map_append, List.nodup_append] at distinct
  intro clash
  obtain ⟨other, there, same⟩ := exists_lifted_of_mem_names clash
  exact distinct.2.2 _ (List.mem_map_of_mem inside) _ (List.mem_map_of_mem there) same.symm

/-- A trace with fresh names is the same where other names are taken, when these were taken before
or are not used by the trace. -/
theorem Fresh.same_at {make : List String → Trace} {trace : Trace} {other later : List String}
    (congr : ∀ other, (∀ lifted ∈ (make taken).lifted, lifted.name ∈ taken ↔ lifted.name ∈ other) →
      make other = make taken)
    (made : make taken = trace) (fresh : trace.Fresh taken)
    (apart : ∀ lifted ∈ trace.lifted, lifted.name ∉ later)
    (within : ∀ name ∈ other, name ∈ taken ++ later) : make other = trace := by
  subst made
  refine congr other fun lifted inside => iff_of_false (fresh.free lifted inside) fun clash => ?_
  rcases List.mem_append.mp (within _ clash) with before | after
  · exact fresh.free lifted inside before
  · exact apart lifted inside after

/-- The trace of one created type by itself. -/
def creating (owner property : String) (declared : Declaration) : Trace :=
  ⟨[⟨owner, property, declared, true⟩], none⟩

/-- The trace of one created type creates that type only. -/
@[simp]
theorem created_creating (owner property : String) (declared : Declaration) :
    (creating owner property declared).created = [declared] := rfl

/-- The trace of one created type takes its name only. -/
@[simp]
theorem names_creating (owner property : String) (declared : Declaration) :
    (creating owner property declared).names = [declared.name] := rfl

/-- A free name makes the first lift of a property create a type. -/
theorem ofLifting_cons {owner property : String} {declared : Declaration} {rest : List Declaration}
    {final : PropertyValue} (free : declared.name ∉ taken) :
    ofLifting owner property ⟨declared :: rest, final, none⟩ taken =
      (creating owner property declared).followedBy
        (ofLifting owner property ⟨rest, final, none⟩ (taken ++ [declared.name])) := by
  simp [ofLifting, lifts, free, followedBy, creating]

section Exchange

variable {owner property : String} {before after : List (String × PropertyValue)}
  {value written final : PropertyValue} {declared : Declaration} {rest : List Declaration}

/-- The trace of properties passes through the lifts of each one and the types that they create. -/
theorem ofProperties_through (owner property : String) (value : PropertyValue)
    (before after : List (String × PropertyValue)) (taken : List String) :
    let start := ofProperties owner before taken
    let lifting := ofLifting owner property (Lifting.ofProperty owner property value)
      (taken ++ start.names)
    let inner := ofTypes lifting.created (taken ++ start.names ++ lifting.names)
    ofProperties owner (before ++ (property, value) :: after) taken =
      start.followedBy (lifting.followedBy (inner.followedBy (ofProperties owner after
        (taken ++ start.names ++ lifting.names ++ inner.names)))) := by
  intro start lifting inner
  rw [ofProperties_append, ofProperties]

/-- Where the first lift of a property creates a type, the type is resolved after the other lifts of
the property are made, and before the types that these create. -/
theorem ofProperties_through_first (after : List (String × PropertyValue))
    (lifts : Lifting.ofProperty owner property value = ⟨declared :: rest, final, none⟩)
    (free : declared.name ∉ taken ++ (ofProperties owner before taken).names) :
    let start := ofProperties owner before taken
    let known := taken ++ start.names ++ [declared.name]
    let lifting := ofLifting owner property ⟨rest, final, none⟩ known
    let first := ofType declared.name declared (known ++ lifting.names)
    let inner := ofTypes lifting.created (known ++ lifting.names ++ first.names)
    ofProperties owner (before ++ (property, value) :: after) taken =
      start.followedBy ((creating owner property declared).followedBy
        (lifting.followedBy (first.followedBy (inner.followedBy (ofProperties owner after
          (known ++ lifting.names ++ first.names ++ inner.names)))))) := by
  intro start known lifting first inner
  have own : ((creating owner property declared).followedBy lifting).created =
      declared :: lifting.created := created_followedBy rfl
  have ownNames : ((creating owner property declared).followedBy lifting).names =
      declared.name :: lifting.names := names_followedBy rfl
  have shape : taken ++ start.names ++ declared.name :: lifting.names = known ++ lifting.names := by
    simp [known]
  rw [ofProperties_through, lifts, ofLifting_cons free, own, ownNames, shape, ofTypes]
  simp only [followedBy_assoc]
  refine followedBy_congr fun _ => followedBy_congr fun _ => followedBy_congr fun _ =>
    followedBy_congr fun ended => followedBy_congr fun passed => ?_
  rw [names_followedBy ended, ← List.append_assoc]

/-- Where every name is fresh, the first lift of a property creates a type. -/
theorem not_mem_of_fresh
    (lifts : Lifting.ofProperty owner property value = ⟨declared :: rest, final, none⟩)
    (success : (ofProperties owner (before ++ (property, value) :: after) taken).stopped = none)
    (fresh : (ofProperties owner (before ++ (property, value) :: after) taken).Fresh taken) :
    declared.name ∉ taken ++ (ofProperties owner before taken).names := by
  rw [ofProperties_through] at success fresh
  have own := (fresh.right (stopped_followedBy.mp success).1).left
  rw [lifts] at own
  have given := map_declaration_lifts owner property (declared :: rest)
    (taken ++ (ofProperties owner before taken).names)
  obtain ⟨lifted, inside, same⟩ := List.mem_map.mp (given ▸ List.mem_cons_self)
  exact same ▸ own.free lifted inside

/-- A trace in which every name is fresh is put together from the same parts as the two when the
first type that a property creates is declared and resolved before. -/
theorem exists_parts
    (lifts : Lifting.ofProperty owner property value = ⟨declared :: rest, final, none⟩)
    (others : Lifting.ofProperty owner property written = ⟨rest, final, none⟩)
    (success : (ofProperties owner (before ++ (property, value) :: after) taken).stopped = none)
    (fresh : (ofProperties owner (before ++ (property, value) :: after) taken).Fresh taken) :
    let inner := ofType declared.name declared (taken ++ [declared.name])
    ∃ start lifting types last : Trace,
      ofProperties owner (before ++ (property, value) :: after) taken =
        start.followedBy ((creating owner property declared).followedBy
          (lifting.followedBy (inner.followedBy (types.followedBy last)))) ∧
      ofProperties owner (before ++ (property, written) :: after)
          (taken ++ [declared.name] ++ inner.names) =
        start.followedBy (lifting.followedBy (types.followedBy last)) := by
  intro inner
  have whole : ofProperties owner (before ++ (property, value) :: after) taken = _ :=
    ofProperties_through_first after lifts (not_mem_of_fresh lifts success fresh)
  have outer : ofProperties owner (before ++ (property, written) :: after)
      (taken ++ [declared.name] ++ inner.names) = _ :=
    ofProperties_through owner property written before after _
  rw [others] at outer
  generalize startEq : ofProperties owner before taken = start at whole
  generalize liftingEq : ofLifting owner property ⟨rest, final, none⟩
    (taken ++ start.names ++ [declared.name]) = lifting at whole
  generalize firstEq : ofType declared.name declared
    (taken ++ start.names ++ [declared.name] ++ lifting.names) = first at whole
  generalize typesEq : ofTypes lifting.created
    (taken ++ start.names ++ [declared.name] ++ lifting.names ++ first.names) = types at whole
  generalize lastEq : ofProperties owner after
    (taken ++ start.names ++ [declared.name] ++ lifting.names ++ first.names ++ types.names) = last
      at whole
  rw [whole] at success fresh
  obtain ⟨startEnded, success⟩ := stopped_followedBy.mp success
  obtain ⟨_, success⟩ := stopped_followedBy.mp success
  obtain ⟨liftingEnded, success⟩ := stopped_followedBy.mp success
  obtain ⟨firstEnded, success⟩ := stopped_followedBy.mp success
  obtain ⟨typesEnded, lastEnded⟩ := stopped_followedBy.mp success
  have freshLifting := (fresh.right startEnded).right rfl
  have freshFirst := freshLifting.right liftingEnded
  have freshTypes := freshFirst.right firstEnded
  have freshLast := freshTypes.right typesEnded
  -- Each part has fresh names, so it is the same after the names that are taken by then.
  have innerEq : inner = first := by
    refine Fresh.same_at (congr_all.1 _ _ _) firstEq freshFirst.left
      (freshFirst.apart firstEnded) fun name => ?_
    simp +contextual [or_imp]
  rw [innerEq] at outer ⊢
  have startAgain :
      ofProperties owner before (taken ++ [declared.name] ++ first.names) = start := by
    refine Fresh.same_at (congr_all.2.1 _ _ _) startEq fresh.left (fresh.apart startEnded)
      fun name => ?_
    rw [names_followedBy rfl, names_followedBy liftingEnded, names_followedBy firstEnded]
    simp +contextual [or_imp]
  rw [startAgain] at outer
  have liftingAgain : ofLifting owner property ⟨rest, final, none⟩
      (taken ++ [declared.name] ++ first.names ++ start.names) = lifting := by
    refine Fresh.same_at (fun _ => ofLifting_congr) liftingEq freshLifting.left
      (freshLifting.apart liftingEnded) fun name => ?_
    rw [names_followedBy firstEnded]
    simp +contextual [or_imp]
  rw [liftingAgain] at outer
  have typesAgain : ofTypes lifting.created
      (taken ++ [declared.name] ++ first.names ++ start.names ++ lifting.names) = types := by
    refine Fresh.same_at (congr_all.2.2 _ _) typesEq freshTypes.left
      (freshTypes.apart typesEnded) fun name => ?_
    simp +contextual [or_imp]
  rw [typesAgain] at outer
  have lastAgain : ofProperties owner after (taken ++ [declared.name] ++ first.names ++
      start.names ++ lifting.names ++ types.names) = last := by
    have apart : ∀ lifted ∈ last.lifted, lifted.name ∉ ([] : List String) := by simp
    refine Fresh.same_at (congr_all.2.1 _ _ _) lastEq freshLast apart fun name => ?_
    simp +contextual [or_imp]
  rw [lastAgain] at outer
  exact ⟨start, lifting, types, last, whole, outer⟩

/-- The same types are created when the first type that a property creates is declared and resolved
before. -/
theorem exchange (lifts : Lifting.ofProperty owner property value = ⟨declared :: rest, final, none⟩)
    (others : Lifting.ofProperty owner property written = ⟨rest, final, none⟩)
    (success : (ofProperties owner (before ++ (property, value) :: after) taken).stopped = none)
    (fresh : (ofProperties owner (before ++ (property, value) :: after) taken).Fresh taken) :
    let whole := ofProperties owner (before ++ (property, value) :: after) taken
    let inner := ofType declared.name declared (taken ++ [declared.name])
    let outer := ofProperties owner (before ++ (property, written) :: after)
      (taken ++ [declared.name] ++ inner.names)
    inner.stopped = none ∧ outer.stopped = none ∧
      ∀ declaration, declaration ∈ whole.created ↔
        declaration = declared ∨ declaration ∈ inner.created ∨ declaration ∈ outer.created := by
  intro whole inner outer
  obtain ⟨start, lifting, types, last, wholeEq, outerEq⟩ := exists_parts lifts others success fresh
  rw [wholeEq] at success
  simp only [stopped_followedBy] at success
  obtain ⟨startEnded, createdEnded, liftingEnded, innerEnded, typesEnded, lastEnded⟩ := success
  have outerEnded : outer.stopped = none := by
    simp only [outer, inner, outerEq, stopped_followedBy]
    exact ⟨startEnded, liftingEnded, typesEnded, lastEnded⟩
  refine ⟨innerEnded, outerEnded, fun declaration => ?_⟩
  simp only [whole, outer, inner, wholeEq, outerEq]
  rw [created_followedBy startEnded, created_followedBy createdEnded,
    created_followedBy liftingEnded, created_followedBy innerEnded, created_followedBy typesEnded,
    created_followedBy startEnded, created_followedBy liftingEnded, created_followedBy typesEnded,
    created_creating]
  simp only [List.mem_append, List.mem_singleton, or_left_comm]

end Exchange

end Trace

end Raml
