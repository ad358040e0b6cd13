import Raml.Proofs.Exchange
import Raml.Proofs.NormalForm

/-!
# The names of lifted types

The name of a lifted type is the name of its owner, the name of the property, capitalized, and an
ending, one after another, so different declarations may get one name. The first declaration of a
name that is free creates the type, and the others of that name create none: their properties come
to refer to the first type.
-/
namespace Raml

/-- A declaration that is lifted from a property in a list of an owner's. -/
def Lifted.From (lifted : Lifted) (owner : String) (entries : List (String × PropertyValue)) :
    Prop :=
  lifted.owner = owner ∧ ∃ value, (lifted.property, value) ∈ entries ∧
    lifted.declaration ∈ (Lifting.ofProperty owner lifted.property value).declarations

/-- A declaration that is lifted from a property of a type whose expression is no embedded
schema. -/
def Lifted.Of (lifted : Lifted) (type : String × Declaration) : Prop :=
  type.2.isEmbedded = false ∧ lifted.From type.1 type.2.bareProperties.entries

/-- The name of a lifted type is put together from its owner and the property. -/
theorem Lifted.From.name_eq {lifted : Lifted} {owner : String}
    {entries : List (String × PropertyValue)} (origin : lifted.From owner entries) :
    ∃ ending, (ending = "" ∨ ending = TypeName.itemEnding) ∧
      lifted.name = TypeName.synthesized lifted.owner lifted.property ending := by
  obtain ⟨rfl, value, _, inside⟩ := origin
  exact Lifting.name_of_mem inside

namespace Trace

variable {first next : Trace}

/-- What two traces lift is lifted by one of them. -/
theorem mem_of_mem_followedBy {lifted : Lifted} (inside : lifted ∈ (first.followedBy next).lifted) :
    lifted ∈ first.lifted ∨ first.stopped = none ∧ lifted ∈ next.lifted := by
  cases ended : first.stopped with
  | some cause =>
    rw [followedBy_of_some ended] at inside
    exact .inl inside
  | none =>
    rw [followedBy_of_none ended] at inside
    exact (List.mem_append.mp inside).imp id fun there => ⟨rfl, there⟩

/-- What the first of two traces creates is created. -/
theorem mem_created_left {made : Declaration} (inside : made ∈ first.created) :
    made ∈ (first.followedBy next).created := by
  cases ended : first.stopped with
  | some cause => rwa [followedBy_of_some ended]
  | none =>
    rw [created_followedBy ended]
    exact List.mem_append_left _ inside

/-- What the second of two traces creates is created, when no error ends the first. -/
theorem mem_created_right {made : Declaration} (ended : first.stopped = none)
    (inside : made ∈ next.created) : made ∈ (first.followedBy next).created := by
  rw [created_followedBy ended]
  exact List.mem_append_right _ inside

/-- The lifts of a property are made of it. -/
theorem from_of_mem_lifts {owner property : String} {value : PropertyValue} {taken : List String}
    {lifted : Lifted}
    (inside : lifted ∈
      lifts owner property (Lifting.ofProperty owner property value).declarations taken) :
    lifted.From owner [(property, value)] := by
  have parts : ∀ (given : List Declaration) (taken : List String),
      lifted ∈ lifts owner property given taken →
        lifted.owner = owner ∧ lifted.property = property ∧ lifted.declaration ∈ given := by
    intro given
    induction given with
    | nil => simp [lifts]
    | cons declaration rest ih =>
      intro taken inside
      unfold lifts at inside
      split at inside
      all_goals
        rcases List.mem_cons.mp inside with rfl | later
        · exact ⟨rfl, rfl, List.mem_cons_self⟩
        · have others := ih _ later
          exact ⟨others.1, others.2.1, List.mem_cons_of_mem _ others.2.2⟩
  obtain ⟨same, rfl, there⟩ := parts _ taken inside
  exact ⟨same, value, List.mem_cons_self, there⟩

/-- Everything that a trace lifts is lifted from a type that it is given, or that it creates. -/
theorem origin_all :
    (∀ name declaration taken, ∀ lifted ∈ (ofType name declaration taken).lifted,
      lifted.Of (name, declaration) ∨
        ∃ made ∈ (ofType name declaration taken).created, lifted.Of (made.name, made)) ∧
    (∀ owner entries taken, ∀ lifted ∈ (ofProperties owner entries taken).lifted,
      lifted.From owner entries ∨
        ∃ made ∈ (ofProperties owner entries taken).created, lifted.Of (made.name, made)) ∧
    ∀ given taken, ∀ lifted ∈ (ofTypes given taken).lifted,
      ∃ made ∈ given ++ (ofTypes given taken).created, lifted.Of (made.name, made) := by
  refine ofType.mutual_induct
    (fun name declaration taken => ∀ lifted ∈ (ofType name declaration taken).lifted,
      lifted.Of (name, declaration) ∨
        ∃ made ∈ (ofType name declaration taken).created, lifted.Of (made.name, made))
    (fun owner entries taken => ∀ lifted ∈ (ofProperties owner entries taken).lifted,
      lifted.From owner entries ∨
        ∃ made ∈ (ofProperties owner entries taken).created, lifted.Of (made.name, made))
    (fun given taken => ∀ lifted ∈ (ofTypes given taken).lifted,
      ∃ made ∈ given ++ (ofTypes given taken).created, lifted.Of (made.name, made))
    ?absorbed ?malformed ?marked ?plain ?noProperties ?property ?noTypes ?type
  case absorbed =>
    intro name declaration taken embedded absorbed read
    simp [ofType, embedded, read]
  case malformed =>
    intro name declaration taken embedded cause read
    simp [ofType, embedded, read]
  case marked =>
    intro name declaration taken plain cause stopped
    simp [ofType, plain, stopped]
  case plain =>
    intro name declaration taken plain bare ih
    have plain : declaration.isEmbedded = false := by simpa using plain
    rw [ofType_of_plain plain bare]
    exact fun lifted inside => (ih lifted inside).imp (fun origin => ⟨plain, origin⟩) id
  case noProperties =>
    intro owner taken
    simp [ofProperties]
  case property =>
    intro owner taken property value rest first inner _ ihInner ihRest lifted inside
    rw [ofProperties] at inside ⊢
    rcases mem_of_mem_followedBy inside with own | ⟨ended, inside⟩
    · left
      obtain ⟨same, found, there, made⟩ := from_of_mem_lifts own
      exact ⟨same, found, List.mem_cons.mpr (.inl (List.mem_singleton.mp there)), made⟩
    · rcases mem_of_mem_followedBy inside with deeper | ⟨passed, later⟩
      · right
        obtain ⟨made, there, origin⟩ := ihInner lifted deeper
        rcases List.mem_append.mp there with created | created
        · exact ⟨made, mem_created_left created, origin⟩
        · exact ⟨made, mem_created_right ended (mem_created_left created), origin⟩
      · rcases ihRest lifted later with ⟨same, found, there, made⟩ | ⟨made, created, origin⟩
        · exact .inl ⟨same, found, List.mem_cons_of_mem _ there, made⟩
        · exact .inr ⟨made, mem_created_right ended (mem_created_right passed created), origin⟩
  case noTypes =>
    intro taken
    simp [ofTypes]
  case type =>
    intro taken declaration rest first ihFirst ihRest lifted inside
    rw [ofTypes] at inside ⊢
    rcases mem_of_mem_followedBy inside with own | ⟨ended, later⟩
    · rcases ihFirst lifted own with origin | ⟨made, created, origin⟩
      · exact ⟨declaration, by simp, origin⟩
      · exact ⟨made, List.mem_append_right _ (mem_created_left created), origin⟩
    · obtain ⟨made, there, origin⟩ := ihRest lifted later
      rcases List.mem_append.mp there with given | created
      · exact ⟨made, List.mem_append_left _ (List.mem_cons_of_mem _ given), origin⟩
      · exact ⟨made, List.mem_append_right _ (mem_created_right ended created), origin⟩

end Trace

/-- The type of the name is the lifted declaration in its resolved form. -/
def Lifted.KeptIn (lifted : Lifted) (types : Declarations) : Prop :=
  ∃ form, types.get? lifted.name = some form ∧
    Resolution.ResolvesTo lifted.name lifted.declaration form

/-- The property of the owner refers to the type of the name. -/
def Lifted.ReferredToIn (lifted : Lifted) (types : Declarations) : Prop :=
  ∃ form value, types.get? lifted.owner = some form ∧
    form.properties.get? lifted.property = some value ∧ value.RefersTo lifted.name

namespace Trace

variable {trace : Trace} {taken : List String}

/-- A lifted declaration is new exactly when its name was neither taken nor that of an earlier
one. -/
theorem MarksNew.isNew_iff {before after : List Lifted} {lifted : Lifted}
    (marks : MarksNew taken (before ++ lifted :: after)) :
    lifted.isNew = true ↔ lifted.name ∉ taken ∧ ∀ earlier ∈ before, earlier.name ≠ lifted.name := by
  rw [(marksNew_append.mp marks).2.1, List.mem_append, not_or]
  simp

/-- Where every lifted declaration has a name of its own that was free, all of them are new. -/
theorem Fresh.isNew (fresh : trace.Fresh taken) (marks : MarksNew taken trace.lifted)
    {lifted : Lifted} (inside : lifted ∈ trace.lifted) : lifted.isNew = true := by
  obtain ⟨before, after, split⟩ := List.append_of_mem inside
  have distinct := fresh.distinct
  rw [split, List.map_append, List.nodup_append] at distinct
  rw [split] at marks
  rw [marks.isNew_iff]
  refine ⟨fresh.free lifted inside, fun earlier there => ?_⟩
  exact distinct.2.2 _ (List.mem_map_of_mem there) _ (List.mem_map_of_mem List.mem_cons_self)

end Trace

namespace Registry

/-- Of the declarations that a resolution lifts under one name the first creates the type. When the
resolution of a type succeeds, the names are those before and those of the created types. Every
lifted declaration has the name that is put together from its owner and the property, a type of the
name exists, and the property refers to it. The declaration creates the type exactly when the name
was neither taken nor that of an earlier one, and then the type is the declaration in its resolved
form. So every lifted declaration is kept where each has a name of its own that was free. -/
theorem resolve_keeps_first_lifted (registry : Registry) (name : String) (type : Classified)
    (found : registry.get? name = some type) (success : (registry.resolve name).stopped = none) :
    let result := (registry.resolve name).reached
    let trace := Trace.ofType name type.declaration registry.keys
    result.keys = registry.keys ++ trace.names ∧
      (∀ lifted ∈ trace.lifted,
        (∃ ending, (ending = "" ∨ ending = TypeName.itemEnding) ∧
          lifted.name = TypeName.synthesized lifted.owner lifted.property ending) ∧
        lifted.name ∈ result.keys ∧ lifted.ReferredToIn result.declarations) ∧
      (∀ before lifted after, trace.lifted = before ++ lifted :: after →
        (lifted.isNew = true ↔
          lifted.name ∉ registry.keys ∧ ∀ earlier ∈ before, earlier.name ≠ lifted.name)) ∧
      (∀ lifted ∈ trace.lifted, lifted.isNew = true → lifted.KeptIn result.declarations) ∧
      (trace.Fresh registry.keys → ∀ lifted ∈ trace.lifted, lifted.KeptIn result.declarations) := by
  intro result trace
  have follows := follows_resolve found
  have ended := follows.stopped_eq.symm.trans success
  have settled := follows.settled ended
  have marks : Trace.MarksNew registry.keys trace.lifted := Trace.marksNew_all.1 _ _ _
  have kept : ∀ lifted ∈ trace.lifted, lifted.isNew = true → lifted.KeptIn result.declarations := by
    intro lifted inside new
    have created : lifted.declaration ∈ trace.created :=
      List.mem_map_of_mem (List.mem_filter.mpr ⟨inside, new⟩)
    exact (settled _ (List.mem_append_right _ (List.mem_map_of_mem created))).found
  refine ⟨?_, fun lifted inside => ?_, fun before lifted after split => ?_, kept,
    fun fresh lifted inside => kept lifted inside (fresh.isNew marks inside)⟩
  · have keys := follows.keys_eq
    rw [keys_declarations, keys_declarations] at keys
    exact keys
  · have origin : ∃ entry ∈ (name, type.declaration) :: trace.created.map Resolution.named,
        lifted.Of entry := by
      rcases Trace.origin_all.1 _ _ _ lifted inside with own | ⟨made, created, other⟩
      · exact ⟨_, List.mem_cons_self, own⟩
      · exact ⟨_, List.mem_cons_of_mem _ (List.mem_map_of_mem created), other⟩
    obtain ⟨entry, given, plain, origin⟩ := origin
    refine ⟨origin.name_eq, ?_⟩
    obtain ⟨same, value, present, made⟩ := origin
    obtain ⟨form, reached, _, refers⟩ := (settled entry given).inNormalForm plain
    obtain ⟨there, final, written, reference⟩ := refers _ present _ made
    rw [keys_declarations] at there
    exact ⟨there, form, final, same ▸ reached, written, reference⟩
  · exact (split ▸ marks).isNew_iff

/-- In the sample every lifted declaration has a name of its own, and all are kept. -/
theorem resolve_keeps_first_lifted_sample :
    let result := (sample.resolve "Person").reached
    let trace := Trace.ofType "Person" samplePerson sample.keys
    sample.get? "Person" = some (.ofDeclaration samplePerson) ∧
      (sample.resolve "Person").stopped = none ∧
      trace.lifted.map Lifted.name = ["PersonAddress", "PersonAddressGeo", "PersonPhonesItem"] ∧
      ∀ lifted ∈ trace.lifted, lifted.KeptIn result.declarations := by
  intro result trace
  have fresh : trace.Fresh sample.keys := ⟨by decide +kernel, by decide +kernel⟩
  obtain ⟨_, _, _, _, kept⟩ := resolve_keeps_first_lifted sample "Person"
    (.ofDeclaration samplePerson) rfl stopped_sample
  exact ⟨rfl, stopped_sample, by decide +kernel, kept fresh⟩

/-- A type with two properties that differ in the case of a letter, each declaring an object. -/
def sampleTwins : Declaration :=
  .ofParts "N" none (.ofList [
    ("a", .inline (.ofList [("properties", .mapping [(.string "x", .string "string")])])),
    ("A", .inline (.ofList [("properties", .mapping [(.string "y", .string "string")])]))])

/-- Two declarations may be lifted under one name, and then the properties of the second are those
of no type. -/
theorem resolve_drops_second_lifted :
    let registry : Registry := declare .empty sampleTwins
    let result := (registry.resolve "N").reached
    let trace := Trace.ofType "N" sampleTwins registry.keys
    registry.entries = [("N", .ofDeclaration sampleTwins)] ∧
      (registry.resolve "N").stopped = none ∧
      trace.lifted.map Lifted.property = ["a", "A"] ∧
      trace.lifted.map Lifted.name = ["NA", "NA"] ∧
      trace.lifted.map (fun lifted => lifted.declaration.properties.keys) = [["x"], ["y"]] ∧
      ∀ entry ∈ result.declarations.entries, "y" ∉ entry.2.properties.keys := by
  intro registry result trace
  refine ⟨rfl, Option.isNone_iff_eq_none.mp (by decide +kernel), by decide +kernel,
    by decide +kernel, by decide +kernel, by decide +kernel⟩

end Registry

end Raml
