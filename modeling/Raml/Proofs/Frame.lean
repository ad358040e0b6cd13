import Raml.Proofs.Registry

/-!
# What a resolution leaves as it was

Whether it succeeds or not, a resolution writes the properties of types, turns embedded schemas into
object types and creates types that consist of a name, an expression and properties. What these
three kinds of writes keep of every entry is kept by the whole resolution. In a registry the names
before it stay in front, and no type but the resolved and the created ones is touched. A type that
is not resolved is not even read: it may as well be written after the resolution as before it.
-/
namespace Raml

namespace Declaration

/-- Writing the properties of a type that consists of its parts leaves one that does. -/
theorem withProperties_ofParts (name : String) (expression : Option Node)
    (before after : Properties) :
    (ofParts name expression before).withProperties after = ofParts name expression after :=
  withProperties_withProperties _ before after

/-- A type that consists of its parts does so as an object type. -/
theorem asObject_ofParts (name : String) (expression : Option Node) (before after : Properties) :
    (ofParts name expression before).asObject after =
      ofParts name (some (.string TypeExpr.objectName)) after := by
  apply Declaration.ext
  · rfl
  · intro field
    cases field <;> rfl
  · rfl

/-- Absorbing a schema makes an object type. -/
theorem eq_asObject_of_absorb {declaration absorbed : Declaration}
    (read : declaration.absorb = .ok absorbed) :
    ∃ properties, absorbed = declaration.asObject properties := by
  unfold absorb at read
  cases schema : Schema.properties declaration.text with
  | error cause => simp [schema, Except.map] at read
  | ok found =>
    simp only [schema, Except.map, Except.ok.injEq] at read
    exact ⟨_, read.symm⟩

end Declaration

namespace Lifting

/-- A lifted declaration consists of its name, an expression and properties. -/
theorem eq_ofParts_of_mem {owner property : String} {value : PropertyValue}
    {declaration : Declaration}
    (inside : declaration ∈ (ofProperty owner property value).declarations) :
    ∃ expression properties, declaration = .ofParts declaration.name expression properties := by
  have ofLift {lift : Option Lift} (member : declaration ∈ declarationsOf lift)
      (parts : ∀ made, lift = some made → ∃ name expression properties,
        made.declaration = .ofParts name expression properties) :
      ∃ expression properties, declaration = .ofParts declaration.name expression properties := by
    cases lift with
    | none => simp [declarationsOf] at member
    | some made =>
      rw [declarationsOf, List.mem_singleton] at member
      obtain ⟨name, expression, properties, same⟩ := parts made rfl
      exact ⟨expression, properties, by rw [member, same, Declaration.name_ofParts]⟩
  unfold ofProperty at inside
  split at inside
  · simp at inside
  · rename_i object first
    have objectParts : ∀ made, object = some made → ∃ name expression properties,
        made.declaration = .ofParts name expression properties := by
      rintro made rfl
      obtain ⟨facets, entries, found, _, _, _, same⟩ := Lift.object_eq_some.mp first
      exact ⟨_, _, _, by rw [same]⟩
    dsimp only at inside
    split at inside
    · exact ofLift inside objectParts
    · rename_i item second
      rcases List.mem_append.mp inside with left | right
      · exact ofLift left objectParts
      · refine ofLift right ?_
        rintro made rfl
        obtain ⟨facets, fields, items, entries, found, _, _, _, _, _, same⟩ :=
          Lift.item_eq_some.mp second
        exact ⟨_, _, _, by rw [same]⟩

end Lifting

namespace Resolution

/-- What is kept of an entry when its properties are written, when its schema is absorbed, and what
holds of every lifted type. -/
structure Lasting (good : String → Declaration → Prop) : Prop where
  /-- It is kept when properties are written. -/
  written : ∀ key declaration properties, good key declaration →
    good key (declaration.withProperties properties)
  /-- It is kept when a schema is absorbed. -/
  absorbed : ∀ key declaration properties, good key declaration →
    good key (declaration.asObject properties)
  /-- It holds of a lifted type under its name. -/
  lifted : ∀ owner property value,
    ∀ declaration ∈ (Lifting.ofProperty owner property value).declarations,
      good declaration.name declaration

/-- Every entry is good. -/
def Holds (good : String → Declaration → Prop) (types : Declarations) : Prop :=
  ∀ key declaration, types.get? key = some declaration → good key declaration

variable {good : String → Declaration → Prop} {types : Declarations}

/-- Writing a good entry leaves all entries good. -/
theorem Holds.insert (holds : Holds good types) {name : String} {declaration : Declaration}
    (own : good name declaration) : Holds good (types.insert name declaration) := by
  intro key other found
  rw [OrderedMap.get?_insert] at found
  split at found
  · rename_i same
    rw [same, ← Option.some.inj found]
    exact own
  · exact holds key other found

/-- Only given types are created. -/
theorem createAll_sublist (given : List Declaration) (types : Declarations) :
    (Declarations.createAll given types).1.Sublist given := by
  rw [(creates_createAll "" "" given types).declarations_eq]
  exact Trace.created_lifts_sublist "" "" given types.keys

/-- Creating good types leaves all entries good. -/
theorem Holds.createAll {given : List Declaration}
    (each : ∀ declaration ∈ given, good declaration.name declaration) (holds : Holds good types) :
    Holds good (Declarations.createAll given types).2 := by
  induction given generalizing types with
  | nil => exact holds
  | cons declaration rest ih =>
    rw [List.forall_mem_cons] at each
    unfold Declarations.createAll
    split
    · exact ih each.2 holds
    · exact ih each.2 (holds.insert each.1)

/-- What lasts through every write lasts through a resolution, however it ends. -/
theorem lasting_all (lasting : Lasting good) :
    (∀ (name : String) (declaration : Declaration) (types : Declarations), good name declaration →
      Holds good types → Holds good (resolveType name declaration types).reached) ∧
    (∀ (owner : String) (entries : List (String × PropertyValue)) (types : Declarations),
      Holds good types → Holds good (resolveProperties owner entries types).types) ∧
    ∀ (given : List Declaration) (types : Declarations),
      (∀ declaration ∈ given, good declaration.name declaration) → Holds good types →
      Holds good (resolveTypes given types).reached := by
  refine resolveType.mutual_induct
    (fun name declaration types => good name declaration → Holds good types →
      Holds good (resolveType name declaration types).reached)
    (fun owner entries types => Holds good types →
      Holds good (resolveProperties owner entries types).types)
    (fun given types => (∀ declaration ∈ given, good declaration.name declaration) →
      Holds good types → Holds good (resolveTypes given types).reached)
    ?absorbed ?malformed ?marked ?plain ?noProperties ?stoppedLift ?stoppedType ?property ?noTypes
    ?stoppedFirst ?type
  case absorbed =>
    intro name declaration types embedded absorbed read own holds
    obtain ⟨properties, rfl⟩ := Declaration.eq_asObject_of_absorb read
    rw [resolveType]
    simp only [embedded, ↓reduceIte, read, Attempt.done]
    exact holds.insert (lasting.absorbed name declaration properties own)
  case malformed =>
    intro name declaration types embedded cause read own holds
    rw [resolveType]
    simp only [embedded, ↓reduceIte, read, Attempt.failed]
    exact holds
  case marked =>
    intro name declaration types plain cause stopped own holds
    rw [resolveType]
    simp only [plain, Bool.false_eq_true, ↓reduceIte, stopped, Attempt.failed]
    exact holds.insert (lasting.written name declaration _ own)
  case plain =>
    intro name declaration types plain properties bare ih own holds
    rw [resolveType]
    simp only [plain, Bool.false_eq_true, ↓reduceIte, bare]
    exact (ih holds).insert (lasting.written name declaration _ own)
  case noProperties =>
    intro owner types holds
    rw [resolveProperties]
    exact holds
  case stoppedLift =>
    intro owner types property value rest lifting cause stopped holds
    rw [resolveProperties]
    simp only [show (Lifting.ofProperty owner property value).stopped = some cause from stopped]
    exact holds.createAll (lasting.lifted owner property value)
  case stoppedType =>
    intro owner types property value rest lifting created ended attempt cause stopped ih holds
    have lifts := lasting.lifted owner property value
    rw [resolveProperties_cons_stopped rfl ended rfl rfl stopped]
    exact ih (fun declaration inside => lifts _ ((createAll_sublist _ _).subset inside))
      (holds.createAll lifts)
  case property =>
    intro owner types property value rest lifting created ended attempt passed ih _ ihRest holds
    have lifts := lasting.lifted owner property value
    rw [resolveProperties_cons rfl ended rfl rfl passed]
    exact ihRest (ih (fun declaration inside => lifts _ ((createAll_sublist _ _).subset inside))
      (holds.createAll lifts))
  case noTypes =>
    intro types _ holds
    rw [resolveTypes]
    exact holds
  case stoppedFirst =>
    intro types declaration rest attempt cause stopped ih each holds
    rw [resolveTypes]
    simp only [show (resolveType declaration.name declaration types).stopped = some cause from
      stopped]
    exact ih (each declaration List.mem_cons_self) holds
  case type =>
    intro types declaration rest attempt ended ihFirst ihRest each holds
    rw [List.forall_mem_cons] at each
    rw [resolveTypes]
    simp only [show (resolveType declaration.name declaration types).stopped = none from ended]
    exact ihRest each.2 (ihFirst each.1 holds)

/-- A write under a declared name may as well come after types are created. -/
theorem createAll_insert {owner : String} (other : Declaration) (given : List Declaration)
    {types : Declarations} (present : owner ∈ types.keys) :
    Declarations.createAll given (types.insert owner other) =
      ((Declarations.createAll given types).1,
        (Declarations.createAll given types).2.insert owner other) := by
  induction given generalizing types with
  | nil => rfl
  | cons declaration rest ih =>
    have same : (types.insert owner other).contains declaration.name =
        types.contains declaration.name := by
      rw [Bool.eq_iff_iff, OrderedMap.contains_iff, OrderedMap.contains_iff,
        OrderedMap.keys_insert_of_mem other present]
    unfold Declarations.createAll
    rw [same]
    split
    · exact ih present
    · rename_i absent
      have apart : owner ≠ declaration.name := fun clash =>
        absent (OrderedMap.contains_iff.mpr (clash ▸ present))
      have there : owner ∈ (types.insert declaration.name declaration).keys := by
        rw [OrderedMap.keys_insert]
        split
        · exact present
        · exact List.mem_append_left _ present
      rw [OrderedMap.insert_comm other declaration present apart, ih there]

/-- Created types are found under their names, and the names were free. -/
theorem get?_createAll {given : List Declaration} {types : Declarations} {made : Declaration}
    (inside : made ∈ (Declarations.createAll given types).1) :
    made.name ∉ types.keys ∧ (Declarations.createAll given types).2.get? made.name = some made := by
  induction given generalizing types with
  | nil => simp [Declarations.createAll] at inside
  | cons declaration rest ih =>
    unfold Declarations.createAll at inside ⊢
    split at inside
    · rename_i known
      rw [if_pos known]
      exact ih inside
    · rename_i free
      have absent : declaration.name ∉ types.keys := fun known =>
        free (OrderedMap.contains_iff.mpr known)
      have keys := OrderedMap.keys_insert types declaration.name declaration
      rw [if_neg absent] at keys
      rw [if_neg free]
      rcases List.mem_cons.mp inside with rfl | later
      · have creates := creates_createAll "" "" rest (types.insert made.name made)
        refine ⟨absent, ?_⟩
        rw [creates.kept made.name (by simp [keys]), OrderedMap.get?_insert, if_pos rfl]
      · obtain ⟨other, found⟩ := ih later
        rw [keys, List.mem_append, not_or] at other
        exact ⟨other.1, found⟩

/-- Created types have names of their own. -/
theorem nodup_createAll (given : List Declaration) (types : Declarations) :
    ((Declarations.createAll given types).1.map Declaration.name).Nodup := by
  have distinct := (Declarations.createAll given types).2.distinct
  rw [show Entries.keys _ = _ from (creates_createAll "" "" given types).keys_eq] at distinct
  exact (List.nodup_append.mp distinct).2.1

/-- No name is lost when types are created. -/
theorem mem_keys_createAll (given : List Declaration) {types : Declarations} {key : String}
    (present : key ∈ types.keys) : key ∈ (Declarations.createAll given types).2.keys := by
  rw [(creates_createAll "" "" given types).keys_eq]
  exact List.mem_append_left _ present

/-- The types that were created are resolved as their trace says. -/
theorem follows_createAll {given : List Declaration} {types : Declarations}
    {created : List Declaration × Declarations}
    (creation : Declarations.createAll given types = created) :
    Follows (created.1.map named) (Trace.ofTypes created.1 created.2.keys) created.2
      (resolveTypes created.1 created.2).reached (resolveTypes created.1 created.2).stopped := by
  subst creation
  apply follows_all.2.2 _ _ (nodup_createAll given types)
  intro made inside
  exact OrderedMap.mem_keys_iff.mpr ⟨made, (get?_createAll inside).2⟩

/-- A type that is not resolved is not read: a write under its name may as well come after the
resolution. -/
theorem insert_all (owner : String) (other : Declaration) :
    (∀ (name : String) (declaration : Declaration) (types : Declarations), owner ∈ types.keys →
      name ∈ types.keys → owner ≠ name →
      resolveType name declaration (types.insert owner other) =
        ⟨(resolveType name declaration types).reached.insert owner other,
          (resolveType name declaration types).stopped⟩) ∧
    (∀ (parent : String) (entries : List (String × PropertyValue)) (types : Declarations),
      owner ∈ types.keys →
      resolveProperties parent entries (types.insert owner other) =
        ⟨(resolveProperties parent entries types).types.insert owner other,
          (resolveProperties parent entries types).values,
          (resolveProperties parent entries types).stopped⟩) ∧
    ∀ (given : List Declaration) (types : Declarations), owner ∈ types.keys →
      (∀ declaration ∈ given, declaration.name ∈ types.keys ∧ owner ≠ declaration.name) →
      resolveTypes given (types.insert owner other) =
        ⟨(resolveTypes given types).reached.insert owner other,
          (resolveTypes given types).stopped⟩ := by
  have fresh (given : List Declaration) {types : Declarations} (present : owner ∈ types.keys) :
      owner ∈ (Declarations.createAll given types).2.keys ∧
        ∀ declaration ∈ (Declarations.createAll given types).1,
          declaration.name ∈ (Declarations.createAll given types).2.keys ∧
            owner ≠ declaration.name := by
    refine ⟨mem_keys_createAll given present, fun declaration inside => ?_⟩
    obtain ⟨absent, found⟩ := get?_createAll inside
    exact ⟨OrderedMap.mem_keys_iff.mpr ⟨_, found⟩, fun clash => absent (clash ▸ present)⟩
  refine resolveType.mutual_induct
    (fun name declaration types => owner ∈ types.keys → name ∈ types.keys → owner ≠ name →
      resolveType name declaration (types.insert owner other) =
        ⟨(resolveType name declaration types).reached.insert owner other,
          (resolveType name declaration types).stopped⟩)
    (fun parent entries types => owner ∈ types.keys →
      resolveProperties parent entries (types.insert owner other) =
        ⟨(resolveProperties parent entries types).types.insert owner other,
          (resolveProperties parent entries types).values,
          (resolveProperties parent entries types).stopped⟩)
    (fun given types => owner ∈ types.keys →
      (∀ declaration ∈ given, declaration.name ∈ types.keys ∧ owner ≠ declaration.name) →
      resolveTypes given (types.insert owner other) =
        ⟨(resolveTypes given types).reached.insert owner other,
          (resolveTypes given types).stopped⟩)
    ?absorbed ?malformed ?marked ?plain ?noProperties ?stoppedLift ?stoppedType ?property ?noTypes
    ?stoppedFirst ?type
  case absorbed =>
    intro name declaration types embedded absorbed read present _ apart
    rw [resolveType, resolveType]
    simp only [embedded, ↓reduceIte, read, Attempt.done]
    rw [OrderedMap.insert_comm other absorbed present apart]
  case malformed =>
    intro name declaration types embedded cause read _ _ _
    rw [resolveType, resolveType]
    simp only [embedded, ↓reduceIte, read, Attempt.failed]
  case marked =>
    intro name declaration types plain cause stopped present _ apart
    rw [resolveType, resolveType]
    simp only [plain, Bool.false_eq_true, ↓reduceIte, stopped, Attempt.failed]
    rw [OrderedMap.insert_comm other _ present apart]
  case plain =>
    intro name declaration types plain properties bare ih present _ apart
    have there : owner ∈ (resolveProperties name properties.entries types).types.keys :=
      (follows_all.2.1 name properties.entries types).1.mem_keys present
    have walked := ih present
    dsimp only [properties] at walked there
    rw [resolveType, resolveType]
    simp only [plain, Bool.false_eq_true, ↓reduceIte, bare]
    rw [walked, OrderedMap.insert_comm other _ there apart]
  case noProperties =>
    intro parent types _
    rw [resolveProperties, resolveProperties]
  case stoppedLift =>
    intro parent types property value rest lifting cause stopped present
    have lifts : (Lifting.ofProperty parent property value).stopped = some cause := stopped
    rw [resolveProperties, resolveProperties]
    simp only [lifts, createAll_insert other _ present]
  case stoppedType =>
    intro parent types property value rest lifting created ended attempt cause stopped ih present
    have made := fresh lifting.declarations present
    have inner := ih made.1 made.2
    rw [resolveProperties_cons_stopped rfl ended (createAll_insert other _ present) inner stopped,
      resolveProperties_cons_stopped rfl ended rfl rfl stopped]
  case property =>
    intro parent types property value rest lifting created ended attempt passed ih _ ihRest present
    have made := fresh lifting.declarations present
    have inner := ih made.1 made.2
    have follows : Follows (created.1.map named) _ created.2 attempt.reached _ :=
      follows_createAll rfl
    rw [resolveProperties_cons rfl ended (createAll_insert other _ present) inner passed,
      resolveProperties_cons rfl ended rfl rfl passed]
    exact congrArg
      (fun walk : Walk => (⟨walk.types, lifting.value :: walk.values, walk.stopped⟩ : Walk))
      (ihRest (follows.mem_keys made.1))
  case noTypes =>
    intro types _ _
    rw [resolveTypes, resolveTypes]
    rfl
  case stoppedFirst =>
    intro types declaration rest attempt cause stopped ih present each
    have own := each declaration List.mem_cons_self
    have first := ih present own.1 own.2
    have ended : (resolveType declaration.name declaration types).stopped = some cause := stopped
    rw [resolveTypes, resolveTypes]
    simp only [first, ended, Attempt.failed]
  case type =>
    intro types declaration rest attempt ended ihFirst ihRest present each
    rw [List.forall_mem_cons] at each
    have first := ihFirst present each.1.1 each.1.2
    have passed : (resolveType declaration.name declaration types).stopped = none := ended
    have follows := follows_all.1 declaration.name declaration types each.1.1
    rw [resolveTypes, resolveTypes]
    simp only [first, passed]
    exact ihRest (follows.mem_keys present) fun next inside =>
      ⟨follows.mem_keys (each.2 next inside).1, (each.2 next inside).2⟩

end Resolution

namespace Declarations

variable {good : String → Declaration → Prop} {types : Declarations}

/-- What lasts through every write lasts when a name is resolved. -/
theorem holds_resolve (lasting : Resolution.Lasting good) (holds : Resolution.Holds good types)
    (name : String) : Resolution.Holds good (types.resolve name).reached := by
  unfold resolve
  split
  · exact holds
  · rename_i declaration found
    exact (Resolution.lasting_all lasting).1 name declaration types (holds name declaration found)
      holds

/-- What lasts through every write lasts when several names are resolved. -/
theorem holds_each_resolve (lasting : Resolution.Lasting good)
    (holds : Resolution.Holds good types) (names : List String) :
    Resolution.Holds good (Attempt.each resolve names types).reached := by
  induction names generalizing types with
  | nil => exact holds
  | cons name rest ih =>
    have step := holds_resolve lasting holds name
    simp only [Attempt.each, Attempt.andThen]
    split
    · exact ih step
    · exact step

/-- The names before a resolution stay in front. -/
theorem keys_prefix_resolve (types : Declarations) (name : String) :
    types.keys <+: (types.resolve name).reached.keys := by
  cases found : types.get? name with
  | none => simp [resolve, found, Attempt.failed]
  | some declaration =>
    rw [(follows_resolve found).keys_eq]
    exact List.prefix_append _ _

/-- The names before several resolutions stay in front. -/
theorem keys_prefix_each_resolve (types : Declarations) (names : List String) :
    types.keys <+: (Attempt.each resolve names types).reached.keys := by
  induction names generalizing types with
  | nil => exact List.prefix_rfl
  | cons name rest ih =>
    have step := keys_prefix_resolve types name
    simp only [Attempt.each, Attempt.andThen]
    split
    · exact step.trans (ih _)
    · exact step

/-- A resolution touches no other declared type. -/
theorem get?_resolve_of_ne {name key : String} (present : key ∈ types.keys) (apart : key ≠ name) :
    (types.resolve name).reached.get? key = types.get? key := by
  cases found : types.get? name with
  | none => simp [resolve, found, Attempt.failed]
  | some declaration => exact (follows_resolve found).kept key present (by simpa using apart)

end Declarations

end Raml
