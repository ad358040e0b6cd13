import Raml.Proofs.NullableFlag
import Raml.Proofs.RequiredProperties
import Raml.Proofs.SchemaErrors

/-!
# Nullability of properties

A property whose schema is flagged as nullable is projected as without the flag: null is added to
its type and left out again. This holds but for two cases that depend on an order which removals do
not keep: a type that stands beside a reference where the model reads nothing, and a list of names
that a property called `properties` marks, when the list is read as a reference.
-/
namespace Raml.Schema

open JsonValue

/-! ## Related values are read alike -/

section Related

variable {name key : String} {shuffles : Prop} {first second : JsonValue}
variable {items others : List JsonValue}

/-- The name that a list gives as a reference: that of its first item. -/
def namedFirst (items : List JsonValue) : Option String :=
  (items.head?.bind string?).map referencedName

/-- Two normal forms of one property give different types: the model reads neither and the type
moves, or they are lists and the first items differ. -/
inductive TypeDiffers : JsonValue → JsonValue → Prop
  | moved {members others : List (String × JsonValue)} (unread : model? (.object members) = none)
      (moves : TypeMoves members others) : TypeDiffers (.object members) (.object others)
  | shuffled {items others : List JsonValue} (apart : namedFirst items ≠ namedFirst others) :
    TypeDiffers (.array items) (.array others)

/-- Nothing differs from itself. -/
theorem not_typeDiffers_self (value : JsonValue) : ¬TypeDiffers value value := by
  rintro (⟨-, _, _, -, -, -, moved⟩ | apart)
  · exact moved rfl
  · exact apart rfl

/-- A list is projected as a reference to its first item. -/
theorem propertyFacets_array {facets : Facets}
    (read : propertyFacets name (.array items) = .ok facets) :
    ∃ type, namedFirst items = some type ∧
      facets = OrderedMap.empty.insert "type" (.string type) := by
  cases found : Reference.ofItems? items with
  | none =>
    have long : ¬AreReference items := by simp [← isSome_ofItems?_iff, found]
    have failed : propertyFacets name (.array items) = .error (.property name (.array items)) :=
      propertyFacets_error_iff.mpr ⟨fun readable => long readable.1, rfl⟩
    rw [failed] at read
    contradiction
  | some reference =>
    simp only [propertyFacets, model?, Reference.ofJson?, found] at read
    refine ⟨referencedName reference.location, ?_, (Except.ok.inj read).symm⟩
    unfold Reference.ofItems? at found
    split at found <;> cases found <;> rfl

/-- Both of two related values are read, or neither. -/
theorem Related.readable (related : Related name shuffles (Matches AdmitsNull) key first second) :
    Readable first ∧ first.bool? = none ↔ Readable second ∧ second.bool? = none := by
  cases related with
  | same => rfl
  | flagged => exact iff_of_true ⟨trivial, rfl⟩ ⟨trivial, rfl⟩
  | @shuffled items names others _ _ order =>
    have empty : names = [] ↔ others = [] :=
      ⟨fun none => List.nil_perm.mp (none ▸ order), fun none => List.perm_nil.mp (none ▸ order)⟩
    have same : AreReference (items ++ names.map .string) ↔
        AreReference (items ++ others.map .string) := by
      simp [AreReference, empty, order.length_eq, order.mem_iff]
    exact and_congr same Iff.rfl
  | constant =>
    refine iff_of_false ?_ ?_ <;> rintro ⟨⟨-, -, texts⟩, -⟩ <;> simp [string?] at texts

/-- Two projections of a property agree: they differ in the type only, which is another one when the
property is retyped, and in the order of the facets where that does not count. -/
structure Agree (ordered retyped : Prop) (facets others : Facets) : Prop where
  /-- The facets have the same order where that counts. -/
  order : ordered → facets.keys = others.keys
  /-- Facets other than the type have the same values. -/
  other : ∀ facet, facet ≠ "type" → facets.get? facet = others.get? facet
  /-- The type is the same unless the property is retyped. -/
  type : facets.get? "type" = others.get? "type" ↔ ¬retyped

/-- A projection agrees with itself when nothing is retyped. -/
theorem Agree.refl {ordered retyped : Prop} (kept : ¬retyped) (facets : Facets) :
    Agree ordered retyped facets facets :=
  ⟨fun _ => rfl, fun _ _ => rfl, iff_of_true rfl kept⟩

/-- Projections agree when a facet is written to both. -/
theorem Agree.insert {ordered retyped : Prop} {facets others : Facets}
    (agree : Agree ordered retyped facets others) {facet : String} (value : Node)
    (untyped : facet ≠ "type") :
    Agree ordered retyped (facets.insert facet value) (others.insert facet value) where
  order counts := by rw [OrderedMap.keys_insert, OrderedMap.keys_insert, agree.order counts]
  other key apart := by
    rw [OrderedMap.get?_insert, OrderedMap.get?_insert, agree.other key apart]
  type := by
    rw [OrderedMap.get?_insert, OrderedMap.get?_insert, if_neg untyped.symm, if_neg untyped.symm]
    exact agree.type

/-- Related values are projected alike. -/
theorem Related.agree (related : Related name shuffles (Matches AdmitsNull) key first second)
    {facets others : Facets} (read : propertyFacets key first = .ok facets)
    (read_second : propertyFacets key second = .ok others) :
    Agree (key ≠ name) (TypeDiffers first second) facets others := by
  cases related with
  | same =>
    cases read.symm.trans read_second
    exact .refl (not_typeDiffers_self first) facets
  | @flagged plain flagged here held =>
    obtain ⟨_, _, given, given_second, same, type⟩ := propertyFacets_admitsNull held key
    cases read.symm.trans given
    cases read_second.symm.trans given_second
    have moved : TypeDiffers (.object plain) (.object flagged) ↔
        model? (.object plain) = none ∧ TypeMoves plain flagged :=
      ⟨fun | .moved unread moves => ⟨unread, moves⟩, fun ⟨unread, moves⟩ => .moved unread moves⟩
    exact ⟨absurd here, same, type.trans (not_congr moved.symm)⟩
  | shuffled =>
    obtain ⟨type, named, rfl⟩ := propertyFacets_array read
    obtain ⟨type_second, named_second, rfl⟩ := propertyFacets_array read_second
    have shuffled {items others : List JsonValue} : TypeDiffers (.array items) (.array others) ↔
        namedFirst items ≠ namedFirst others := ⟨fun | .shuffled apart => apart, .shuffled⟩
    refine ⟨fun _ => rfl, fun facet apart => ?_, ?_⟩
    · rw [OrderedMap.get?_insert, OrderedMap.get?_insert, if_neg apart, if_neg apart]
    · rw [OrderedMap.get?_insert, OrderedMap.get?_insert, if_pos rfl, if_pos rfl, shuffled, named,
        named_second]
      simp
  | constant =>
    obtain ⟨_, named, -⟩ := propertyFacets_array read
    contradiction

end Related

/-! ## Alike maps of properties are projected alike -/

section Maps

variable {name key : String} {shuffles : Prop} {required : List String}
variable {left right properties : List (String × JsonValue)}
variable {own others : List (String × PropertyValue)}

/-- Properties are projected when all of them are read. -/
theorem exists_projectAll_iff :
    (∃ found, projectAll required properties = .ok found) ↔ AllRead properties := by
  have failing : (∃ failure, projectAll required properties = .error failure) ↔ _ :=
    (traverses_projectAll required).fails_iff
  cases read : projectAll required properties with
  | ok found =>
    refine iff_of_true ⟨found, rfl⟩ fun property inside => ?_
    by_contra unread
    obtain ⟨failure, failed⟩ :=
      failing.mpr ⟨property, inside, _, project_error_iff.mpr ⟨unread, rfl⟩⟩
    rw [read] at failed
    contradiction
  | error failure =>
    obtain ⟨property, inside, _, failed⟩ := failing.mp ⟨failure, read⟩
    exact iff_of_false nofun fun all => (project_error_iff.mp failed).1 (all property inside)

/-- Every property is read when what stands under each name is. -/
theorem allRead_iff_get? (distinct : (Entries.keys properties).Nodup) :
    AllRead properties ↔ ∀ key value, Entries.get? key properties = some value →
      Readable value ∧ value.bool? = none :=
  ⟨fun all key value found => all (key, value) (Entries.mem_of_get? found),
    fun all property inside => all property.1 property.2 (Entries.get?_of_mem distinct inside)⟩

/-- All properties are read of both alike maps, or of neither. -/
theorem Alike.allRead_iff (alike : Alike (Related name shuffles (Matches AdmitsNull)) left right) :
    AllRead left ↔ AllRead right := by
  rw [allRead_iff_get? alike.distinct, allRead_iff_get? alike.distinct_right]
  refine forall_congr' fun key => ?_
  have rel := alike.lookup key
  generalize Entries.get? key left = first at rel ⊢
  generalize Entries.get? key right = second at rel ⊢
  cases rel with
  | none => simp
  | some related => simp [related.readable]

/-- The projections of alike maps agree. -/
theorem Alike.agree (alike : Alike (Related name shuffles (Matches AdmitsNull)) left right)
    (read : projectAll required left = .ok own)
    (read_right : projectAll required right = .ok others)
    {first : JsonValue} (given : Entries.get? key left = some first) :
    ∃ second facets held, Entries.get? key right = some second ∧
      Entries.get? key own = some (.inline facets) ∧
      Entries.get? key others = some (.inline held) ∧
      Agree (key ≠ name) (TypeDiffers first second) facets held := by
  have rel := alike.lookup key
  rw [given] at rel
  obtain ⟨second, given_right, related⟩ := exists_of_rel (rel_swap rel)
  obtain ⟨value, projected, entry⟩ := get?_projectAll read given
  obtain ⟨value_right, projected_right, entry_right⟩ := get?_projectAll read_right given_right
  obtain ⟨facets, made, rfl⟩ := exists_of_project projected
  obtain ⟨held, made_right, rfl⟩ := exists_of_project projected_right
  exact ⟨second, _, _, given_right, entry, entry_right,
    (related.agree made made_right).insert _ (by decide)⟩

/-- Every projected property is inline. -/
theorem exists_inline_of_projectAll (read : projectAll required properties = .ok own) :
    ∀ entry ∈ own, ∃ facets, entry.2 = .inline facets := by
  induction properties generalizing own with
  | nil =>
    cases read
    simp
  | cons property rest ih =>
    rw [projectAll] at read
    obtain ⟨value, first, read⟩ := bind_eq_ok.mp read
    obtain ⟨more, later, read⟩ := bind_eq_ok.mp read
    cases read
    obtain ⟨_, _, rfl⟩ := exists_of_project first
    exact List.forall_mem_cons.mpr ⟨⟨_, rfl⟩, ih later⟩

/-- Every declared property is inline. -/
theorem exists_inline_of_gather {schemas : List JsonValue} {found : List (String × PropertyValue)}
    (read : gather schemas = .ok found) {entry : String × PropertyValue} (inside : entry ∈ found) :
    ∃ facets, entry.2 = .inline facets := by
  induction schemas generalizing found with
  | nil =>
    cases read
    contradiction
  | cons schema rest ih =>
    rw [gather] at read
    obtain ⟨own, first, read⟩ := bind_eq_ok.mp read
    obtain ⟨more, later, read⟩ := bind_eq_ok.mp read
    cases read
    rcases List.mem_append.mp inside with here | there
    · cases schema with
      | object members =>
        rw [ownDeclarations, ownProperties] at first
        split at first
        · cases first
          contradiction
        · cases first
          contradiction
        · exact exists_inline_of_projectAll first entry here
        · contradiction
      | _ =>
        cases first
        contradiction
    · exact ih later there

end Maps

/-! ## The whole schema -/

section Whole

variable {name key : String} {shuffles : Prop} {schema other : JsonValue} {rest : List JsonValue}
variable {left right members entries own : List (String × JsonValue)} {found : Properties}

/-- The names in a list of required ones. -/
def listedNames : Option JsonValue → List String
  | some (.array names) => names.filterMap string?
  | _ => []

/-- The properties of a schema are its own ones and then those of the schemas after it. -/
theorem propertiesOf_eq_ok_of_walk (visits : walk schema = schema :: rest)
    (given : schema.get? "properties" = some (.object left)) :
    propertiesOf schema = .ok found ↔ ∃ own later,
      projectAll (listedNames (schema.get? "required")) left = .ok own ∧
        gather rest = .ok later ∧ found = OrderedMap.ofList (own ++ later) := by
  have own : ownDeclarations schema =
      projectAll (listedNames (schema.get? "required")) left := by
    cases schema with
    | object members =>
      rw [get?] at given
      rw [ownDeclarations, ownProperties, given]
      rfl
    | _ => contradiction
  rw [propertiesOf_eq_ok, visits, gather, own]
  constructor
  · rintro ⟨listed, gathered, rfl⟩
    obtain ⟨first, projected, gathered⟩ := bind_eq_ok.mp gathered
    obtain ⟨later, follows, gathered⟩ := bind_eq_ok.mp gathered
    cases gathered
    exact ⟨first, later, projected, follows, rfl⟩
  · rintro ⟨first, later, projected, follows, rfl⟩
    exact ⟨first ++ later, by rw [projected, follows]; rfl, rfl⟩

/-- Of the declarations of a schema and those after it the last one of a name counts. -/
theorem get?_ofList_declarations {own later : List (String × PropertyValue)}
    (distinct : (Entries.keys own).Nodup) (key : String) :
    (OrderedMap.ofList (own ++ later)).get? key =
      (Entries.get? key later.reverse).or (Entries.get? key own) := by
  have reversed : (Entries.keys own.reverse).Nodup := by
    simpa [Entries.keys] using distinct
  rw [OrderedMap.get?_ofList, List.reverse_append, Entries.get?_append,
    Entries.get?_of_perm own.reverse_perm reversed]

/-- Two schemas give the same properties but for their own ones, which are alike. -/
structure RootsAlike (name : String) (shuffles : Prop) (schema other : JsonValue)
    (left right : List (String × JsonValue)) (rest : List JsonValue) : Prop where
  /-- The same schemas come after the first one. -/
  walk : walk schema = schema :: rest
  /-- The same schemas come after the second one. -/
  walk_other : Schema.walk other = other :: rest
  /-- The properties of the first one. -/
  given : schema.get? "properties" = some (.object left)
  /-- The properties of the second one. -/
  given_other : other.get? "properties" = some (.object right)
  /-- Both list the same names. -/
  listed : other.get? "required" = schema.get? "required"
  /-- Their properties are alike. -/
  alike : Alike (Related name shuffles (Matches AdmitsNull)) left right

/-- A property has different types by itself: no later schema declares it, and what stands under its
name in the two schemas gives different types. -/
def Retyped (schema other : JsonValue) (rest : List JsonValue) (key : String) : Prop :=
  (¬∃ later ∈ rest, HasProperty later key) ∧
    ∃ first second, follow? [.member "properties" key] schema = some first ∧
      follow? [.member "properties" key] other = some second ∧ TypeDiffers first second

/-- A property is where its name leads. -/
theorem follow?_properties (given : schema.get? "properties" = some (.object left)) (key : String) :
    follow? [.member "properties" key] schema = Entries.get? key left := by
  rw [follow?, Step.follow?, if_pos (by decide), given, Option.bind_some, get?]
  cases Entries.get? key left <;> rfl

/-- Both of two schemas with alike properties are read, or neither. -/
theorem RootsAlike.exists_ok_iff (roots : RootsAlike name shuffles schema other left right rest) :
    (∃ found, propertiesOf schema = .ok found) ↔ ∃ found, propertiesOf other = .ok found := by
  have parts {schema : JsonValue} {properties : List (String × JsonValue)}
      (visits : Schema.walk schema = schema :: rest)
      (given : schema.get? "properties" = some (.object properties)) :
      (∃ found, propertiesOf schema = .ok found) ↔
        AllRead properties ∧ ∃ later, gather rest = .ok later := by
    rw [← exists_projectAll_iff]
    simp only [propertiesOf_eq_ok_of_walk visits given]
    constructor
    · rintro ⟨_, own, later, projected, follows, -⟩
      exact ⟨⟨own, projected⟩, later, follows⟩
    · rintro ⟨⟨own, projected⟩, later, follows⟩
      exact ⟨_, own, later, projected, follows, rfl⟩
  rw [parts roots.walk roots.given, parts roots.walk_other roots.given_other,
    roots.alike.allRead_iff]

/-- Two schemas with alike properties are projected alike, but for the properties that are
retyped. -/
theorem RootsAlike.agree (roots : RootsAlike name shuffles schema other left right rest)
    {others : Properties} (read : propertiesOf schema = .ok found)
    (read_other : propertiesOf other = .ok others) :
    others.keys = found.keys ∧ ∀ key ∈ found.keys, ∃ facets held,
      found.get? key = some (.inline facets) ∧ others.get? key = some (.inline held) ∧
        Agree (key ≠ name) (Retyped schema other rest key) facets held := by
  obtain ⟨own, later, projected, follows, rfl⟩ :=
    (propertiesOf_eq_ok_of_walk roots.walk roots.given).mp read
  obtain ⟨own_other, later_other, projected_other, follows_other, rfl⟩ :=
    (propertiesOf_eq_ok_of_walk roots.walk_other roots.given_other).mp read_other
  rw [roots.listed] at projected_other
  cases follows.symm.trans follows_other
  have names : Entries.keys own = Entries.keys left := keys_projectAll projected
  have names_other : Entries.keys own_other = Entries.keys right := keys_projectAll projected_other
  constructor
  · refine OrderedMap.keys_insertMany_congr rfl ?_
    rw [Entries.keys, Entries.keys, List.map_append, List.map_append]
    exact congrArg (· ++ _) (by
      rw [← Entries.keys, ← Entries.keys, names, names_other, roots.alike.keys])
  · intro key present
    rw [get?_ofList_declarations (names ▸ roots.alike.distinct),
      get?_ofList_declarations (names_other ▸ roots.alike.distinct_right)]
    have redeclared : (∃ schema ∈ rest, HasProperty schema key) ↔
        (Entries.get? key later.reverse).isSome := by
      rw [← mem_gather follows, ← Entries.mem_keys_iff]
      simp [Entries.keys]
    cases last : Entries.get? key later.reverse with
    | some value =>
      -- What a later schema declares is the same on both sides.
      have inside := List.mem_reverse.mp (Entries.mem_of_get? last)
      obtain ⟨facets, rfl⟩ := exists_inline_of_gather follows inside
      refine ⟨facets, facets, rfl, rfl, .refl ?_ facets⟩
      exact fun retyped => retyped.1 (redeclared.mpr (by simp [last]))
    | none =>
      have undeclared : ¬∃ schema ∈ rest, HasProperty schema key := by simp [redeclared, last]
      have inside : key ∈ Entries.keys left := by
        rw [OrderedMap.mem_keys_ofList, Entries.keys, List.map_append, List.mem_append] at present
        refine names ▸ present.resolve_right fun there => undeclared ((mem_gather follows).mp there)
      rw [Entries.mem_keys_iff, Option.isSome_iff_exists] at inside
      obtain ⟨first, given⟩ := inside
      obtain ⟨second, facets, held, given_other, entry, entry_other, agree⟩ :=
        roots.alike.agree projected projected_other given
      have retyped : Retyped schema other rest key ↔ TypeDiffers first second := by
        rw [Retyped, follow?_properties roots.given, follow?_properties roots.given_other, given,
          given_other]
        simp [undeclared]
      exact ⟨facets, held, entry, entry_other, agree.order, agree.other,
        agree.type.trans (not_congr retyped.symm)⟩

end Whole

/-! ## A schema with a flag -/

section Flag

variable {name : String} {members entries own : List (String × JsonValue)}

/-- A schema with a flag at the end of the schema of one of its properties. -/
def flagProperty (name : String) (own entries members : List (String × JsonValue)) : JsonValue :=
  .object (Entries.insert "properties" (.object (Entries.insert name (addFlag own) entries))
    members)

/-- A flag marks no property. -/
theorem markedNames_addFlag (property : Entries.get? name entries = some (.object own)) :
    markedNames (Entries.insert name (addFlag own) entries) = markedNames entries := by
  have marked : isMarkedRequired (addFlag own) = isMarkedRequired (.object own) := by
    rw [addFlag, isMarkedRequired, isMarkedRequired, Entries.get?_append]
    cases Entries.get? "required" own <;> rfl
  obtain ⟨before, after, rfl, written⟩ := Entries.exists_split property
  rw [written, markedNames, markedNames, List.filter_append, List.filter_append, List.filter_cons,
    List.filter_cons, marked]
  split <;> simp

/-- What normal forms have under `required` is the same for schemas with the same under `required`
and the same marked names. -/
theorem get?_required_normalize_congr {left right : List (String × JsonValue)}
    (distinct : (JsonValue.object left).Distinct)
    (distinct_right : (JsonValue.object right).Distinct)
    (same : Entries.get? "required" left = Entries.get? "required" right)
    (marked : requiredNames false left = requiredNames false right) :
    (normalize (.object left)).get? "required" = (normalize (.object right)).get? "required" := by
  have added : Entries.get? "required" (addRequired (requiredNames false left) left) =
      Entries.get? "required" (addRequired (requiredNames false right) right) := by
    rw [marked]
    by_cases none : requiredNames false right = []
    · rw [none]
      exact same
    · rw [get?_addRequired none, get?_addRequired none, same]
  have normal {members : List (String × JsonValue)}
      (distinct : (JsonValue.object members).Distinct) :
      (normalize (.object members)).get? "required" =
        (Entries.get? "required" (addRequired (requiredNames false members) members)).map
          fun value => admitNulls (listConstants (listRequired false false value)) := by
    obtain ⟨listed, listing, under⟩ := get?_required_normalize distinct
    rw [under, get?_required_listRequired listing, Option.map_map]
    rfl
  rw [normal distinct, normal distinct_right, added]

/-- A schema and the same one with a flag have alike properties in normal form. -/
theorem exists_rootsAlike (distinct : (JsonValue.object members).Distinct)
    (distinct_flagged : (flagProperty name own entries members).Distinct)
    (given : Entries.get? "properties" members = some (.object entries))
    (property : Entries.get? name entries = some (.object own))
    (unflagged : "nullable" ∉ Entries.keys own ∧ "x-nullable" ∉ Entries.keys own) :
    ∃ normal flagged, normalizeIn .root .schemaMap true (.object entries) = .object normal ∧
      RootsAlike name (name = "properties" ∧ hasRequiredMark own = true)
        (normalize (.object members)) (normalize (flagProperty name own entries members)) normal
        flagged ((walk (.object members)).tail.map normalize) := by
  obtain ⟨normal, flagged, same, same_flagged, alike⟩ :=
    alike_normalizeIn (distinct.of_get? given) property unflagged
  refine ⟨normal, flagged, same, ?_, ?_, ?_, ?_, ?_, alike⟩
  · rw [walk_normalize distinct, walk]
    rfl
  · rw [walk_normalize distinct_flagged, flagProperty, walk, walk, walkOfAllOf_eq, walkOfAllOf_eq,
      Entries.get?_insert, if_neg (by decide)]
    rfl
  · exact (properties_normalize_root distinct).mpr ⟨entries, given, same⟩
  · refine (properties_normalize_root distinct_flagged).mpr ⟨_, ?_, same_flagged⟩
    rw [flagProperty, get?, Entries.get?_insert, if_pos rfl]
  · refine get?_required_normalize_congr distinct_flagged distinct ?_ ?_
    · rw [Entries.get?_insert, if_neg (by decide)]
    · rw [requiredNames, requiredNames, Entries.get?_insert, if_pos rfl, given]
      exact markedNames_addFlag property

/-! ### Where types can change -/

/-- A reference that the model does not read: its description or its summary is no text. -/
def UnreadReference (members : List (String × JsonValue)) : Prop :=
  (∃ location, Entries.get? "$ref" members = some (.string location)) ∧
    ∃ keyword ∈ ["description", "summary"], ∃ value,
      Entries.get? keyword members = some value ∧ value.string? = none

/-- Only a type that stands beside an unread reference moves. -/
theorem unreadReference_of_moves {others : List (String × JsonValue)}
    (unread : model? (.object members) = none) (moves : TypeMoves members others) :
    UnreadReference members := by
  obtain ⟨location, -, given, -⟩ := moves
  refine ⟨⟨location, given⟩, ?_⟩
  by_contra texts
  have read (keyword : String) (inside : keyword ∈ ["description", "summary"]) :
      ∃ text, Reference.textOrEmpty? (Entries.get? keyword members) = some text := by
    cases found : Entries.get? keyword members with
    | none => exact ⟨"", rfl⟩
    | some value =>
      rw [Reference.textOrEmpty?, ← Option.isSome_iff_exists, Option.isSome_iff_ne_none]
      exact fun none => texts ⟨keyword, inside, value, found, none⟩
  obtain ⟨description, first⟩ := read "description" (by decide)
  obtain ⟨summary, second⟩ := read "summary" (by decide)
  rw [model?_object, Reference.ofMembers?, given, first, second] at unread
  contradiction

/-- A schema and its normal form have the same texts where a reference has them. -/
theorem unreadReference_normalizeIn (context : Context) (propertyMap : Bool)
    (distinct : (Entries.keys own).Nodup)
    (normal : normalizeIn context .schema propertyMap (.object own) = .object members)
    (unread : UnreadReference members) : UnreadReference own := by
  have text (keyword : String) (texts : keyword ∈ ["$ref", "description", "summary"]) :
      Option.Rel (fun first second => first.string? = second.string?)
        (Entries.get? keyword own) (Entries.get? keyword members) := by
    have known : ∀ keyword ∈ ["$ref", "description", "summary"],
        Position.ofKeyword keyword = .data ∧
          keyword ∉ "required" :: "const" :: nullableKeywords ∧ keyword ≠ "enum" := by decide
    obtain ⟨position, unedited, other⟩ := known keyword texts
    have under := get?_keyword_normalizeIn context propertyMap distinct position unedited
      fun same => absurd same other
    rw [normal, get?] at under
    rw [under]
    cases Entries.get? keyword own with
    | none => exact .none
    | some value =>
      refine .some ?_
      rw [string?_admitNulls, listConstantsUnless]
      split
      · exact (string?_listRequired _ _ value).symm
      · rw [string?_listConstants, string?_listRequired]
  obtain ⟨⟨location, reference⟩, keyword, inside, value, found, other⟩ := unread
  have located := text "$ref" (by decide)
  have described := text keyword (List.mem_cons_of_mem _ inside)
  rw [reference] at located
  rw [found] at described
  obtain ⟨place, given, same⟩ := exists_of_rel located
  obtain ⟨earlier, before, equal⟩ := exists_of_rel described
  exact ⟨⟨location, given.trans (congrArg some (string?_eq_some.mp same))⟩, keyword, inside,
    earlier, before, equal.trans other⟩

/-- Only the flagged property is retyped, when its schema is an unread reference, and the one called
`required`, when its list is shuffled. -/
theorem RootsAlike.of_retyped {schema other : JsonValue} {rest : List JsonValue}
    {normal flagged : List (String × JsonValue)} {shuffles : Prop} {key : String}
    (roots : RootsAlike name shuffles schema other normal flagged rest)
    (distinct : (JsonValue.object entries).Distinct)
    (property : Entries.get? name entries = some (.object own))
    (same : normalizeIn .root .schemaMap true (.object entries) = .object normal)
    (retyped : Retyped schema other rest key) :
    key = name ∧ UnreadReference own ∨ key = "required" ∧ shuffles := by
  obtain ⟨-, first, second, found, found_other, differs⟩ := retyped
  rw [follow?_properties roots.given] at found
  rw [follow?_properties roots.given_other] at found_other
  have rel := roots.alike.lookup key
  rw [found, found_other] at rel
  cases rel with
  | some related =>
    cases related with
    | same => exact absurd differs (not_typeDiffers_self first)
    | @flagged plain _ here =>
      subst here
      -- No constant is left in the map, and names are added to lists only, so the flagged property
      -- stands there in its own normal form.
      have map := NormalMap.of_eq distinct.1 same
      have clear : ¬TakenForKeyword false true entries key := by
        rintro (⟨rfl, -, takes⟩ | ⟨rfl, -⟩)
        · exact absurd (takes _ property) (by simp [items?])
        · refine map.gone rfl ?_
          simp [Entries.mem_keys_iff, found]
      have normal := map.get? property clear
      rw [found, Option.some.injEq] at normal
      obtain ⟨unread, moves⟩ := differs
      exact .inl ⟨rfl, unreadReference_normalizeIn _ _ (distinct.of_get? property).1 normal.symm
        (unreadReference_of_moves unread moves)⟩
    | shuffled here shuffled => exact .inr ⟨here, shuffled⟩
    | constant =>
      cases differs with
      | shuffled apart => exact absurd rfl apart

/-- A flag at the end of a property's schema changes nothing but types, and those in two cases only.
Both schemas are read or neither, with the same properties in the same order and with the same
facets, but for the order of the facets of the flagged property. The type of a property is another
one exactly when no later schema declares it and the normal forms of its schema differ in type; then
it is the flagged property, and its schema a reference that the model does not read, or the list
that a property called `properties` makes of the names it marks. -/
theorem nullable_kept_iff {text flaggedText : String}
    (read : JsonValue.ofText? (String.ofList (Text.trim text.toList)) = some (.object members))
    (given : Entries.get? "properties" members = some (.object entries))
    (property : Entries.get? name entries = some (.object own))
    (unflagged : "nullable" ∉ Entries.keys own ∧ "x-nullable" ∉ Entries.keys own)
    (readFlagged : JsonValue.ofText? (String.ofList (Text.trim flaggedText.toList)) =
      some (flagProperty name own entries members)) :
    ((∃ found, Schema.properties text = .ok found) ↔
      ∃ flagged, Schema.properties flaggedText = .ok flagged) ∧
    (∀ found flagged, Schema.properties text = .ok found →
      Schema.properties flaggedText = .ok flagged →
      flagged.keys = found.keys ∧ ∀ key ∈ found.keys, ∃ facets others,
        found.get? key = some (.inline facets) ∧ flagged.get? key = some (.inline others) ∧
        Agree (key ≠ name) (Retyped (normalize (.object members))
          (normalize (flagProperty name own entries members))
          ((walk (.object members)).tail.map normalize) key) facets others) ∧
    ∀ key, Retyped (normalize (.object members))
        (normalize (flagProperty name own entries members))
        ((walk (.object members)).tail.map normalize) key →
      key = name ∧ UnreadReference own ∨
        key = "required" ∧ name = "properties" ∧ hasRequiredMark own = true := by
  have distinct := JsonValue.distinct_of_ofText? read
  have distinct_flagged := JsonValue.distinct_of_ofText? readFlagged
  obtain ⟨normal, flagged, same, roots⟩ :=
    exists_rootsAlike distinct distinct_flagged given property unflagged
  rw [properties_of_ofText? read, properties_of_ofText? readFlagged]
  exact ⟨roots.exists_ok_iff, fun _ _ => roots.agree,
    fun _ => roots.of_retyped (distinct.of_get? given) property same⟩

end Flag

/-- Members with a property of strings. -/
def stringMembers : List (String × JsonValue) := [("properties", .object [("a", stringSchema)])]

/-- The text of the schema with those members. -/
def stringText : String := "\x7b\"properties\":\x7b\"a\":\x7b\"type\":\"string\"\x7d\x7d\x7d"

/-- The text of that schema with a flag at the property. -/
def nullableStringText : String :=
  "\x7b\"properties\":\x7b\"a\":\x7b\"type\":\"string\",\"nullable\":true\x7d\x7d\x7d"

/-- The type that a property states; none for a property that is missing. -/
def statedType? (properties : Properties) (name : String) : Option Node :=
  ((properties.get? name).bind PropertyValue.facets?).bind fun facets => facets.get? "type"

/-- The property of the sample has one type with the flag and without. -/
theorem nullable_kept_iff_sample :
    JsonValue.ofText? (String.ofList (Text.trim stringText.toList)) =
        some (.object stringMembers) ∧
      JsonValue.ofText? (String.ofList (Text.trim nullableStringText.toList)) =
        some (flagProperty "a" [("type", .string "string")] [("a", stringSchema)]
          stringMembers) ∧
      ∃ found flagged, Schema.properties stringText = .ok found ∧
        Schema.properties nullableStringText = .ok flagged ∧ found.keys = ["a"] ∧
        flagged.keys = ["a"] ∧ statedType? found "a" = statedType? flagged "a" := by
  have read : JsonValue.ofText? (String.ofList (Text.trim stringText.toList)) =
      some (.object stringMembers) := by decide +kernel
  have readFlagged : JsonValue.ofText? (String.ofList (Text.trim nullableStringText.toList)) =
      some (flagProperty "a" [("type", .string "string")] [("a", stringSchema)]
        stringMembers) := by decide +kernel
  have names : (propertiesOf (normalize (.object stringMembers))).toOption.map OrderedMap.keys =
      some ["a"] := by decide +kernel
  obtain ⟨found, parsed, keys⟩ := exists_properties_of_ofText? read names
  obtain ⟨succeeds, agree, retyped⟩ :=
    nullable_kept_iff read rfl rfl ⟨by decide, by decide⟩ readFlagged
  obtain ⟨flagged, parsedFlagged⟩ := succeeds.mp ⟨found, parsed⟩
  obtain ⟨sameKeys, each⟩ := agree found flagged parsed parsedFlagged
  obtain ⟨facets, others, held, heldFlagged, facetsAgree⟩ := each "a" (by simp [keys])
  refine ⟨read, readFlagged, found, flagged, parsed, parsedFlagged, keys, sameKeys.trans keys, ?_⟩
  rw [statedType?, statedType?, held, heldFlagged]
  refine facetsAgree.type.mpr fun moved => ?_
  rcases retyped "a" moved with ⟨-, ⟨_, reference⟩, -⟩ | ⟨same, -⟩
  · exact absurd reference nofun
  · exact absurd same (by decide)

/-- The members of a property that is a constant and a reference with a description that is no
text. -/
def describedReference : List (String × JsonValue) :=
  [("const", .number (.int 1)), ("$ref", .string "#/A"), ("description", .number (.int 5))]

/-- Members with that property. -/
def describedMembers : List (String × JsonValue) :=
  [("properties", .object [("p", .object describedReference)])]

/-- The text of the schema with those members. -/
def describedText : String :=
  "\x7b\"properties\":\x7b\"p\":" ++
    "\x7b\"const\":1,\"$ref\":\"#/A\",\"description\":5\x7d\x7d\x7d"

/-- The text of that schema with a flag at the property. -/
def nullableDescribedText : String :=
  "\x7b\"properties\":\x7b\"p\":" ++
    "\x7b\"const\":1,\"$ref\":\"#/A\",\"description\":5,\"nullable\":true\x7d\x7d\x7d"

/-- The type of a reference that is not read moves with a flag: where the constant is removed, the
last member takes its place, and that is the description without the flag and the flag with it. -/
theorem nullable_reference_retyped :
    JsonValue.ofText? (String.ofList (Text.trim describedText.toList)) =
        some (.object describedMembers) ∧
      JsonValue.ofText? (String.ofList (Text.trim nullableDescribedText.toList)) =
        some (flagProperty "p" describedReference [("p", .object describedReference)]
          describedMembers) ∧
      (∃ found, Schema.properties describedText = .ok found ∧
        statedType? found "p" = some (.string "integer")) ∧
      ∃ flagged, Schema.properties nullableDescribedText = .ok flagged ∧
        statedType? flagged "p" = some (.string "A") := by
  have read : JsonValue.ofText? (String.ofList (Text.trim describedText.toList)) =
      some (.object describedMembers) := by decide +kernel
  have readFlagged : JsonValue.ofText? (String.ofList (Text.trim nullableDescribedText.toList)) =
      some (flagProperty "p" describedReference [("p", .object describedReference)]
        describedMembers) := by decide +kernel
  have type : (propertiesOf (normalize (.object describedMembers))).toOption.map
      (statedType? · "p") = some (some (.string "integer")) := by decide +kernel
  have type_flagged : (propertiesOf (normalize (flagProperty "p" describedReference
      [("p", .object describedReference)] describedMembers))).toOption.map
      (statedType? · "p") = some (some (.string "A")) := by decide +kernel
  exact ⟨read, readFlagged, exists_properties_of_ofText? read type,
    exists_properties_of_ofText? readFlagged type_flagged⟩

end Raml.Schema
