import Mathlib.Data.List.Nodup
import Raml.Proofs.Json
import Raml.Schema

/-!
# What is read of a schema's members

The model and the projection read the members of a schema by name, so what they read does not depend
on the order of the members. There is one exception: a `type` and a reference that is a text both
give the facet `type`, and the later one wins.
-/
namespace Raml.Schema

open JsonValue

variable {members : List (String × JsonValue)} {name facet : String}

/-! ## Facets -/

/-- The facets that keywords become, one by one. -/
def facetEntries (members : List (String × JsonValue)) : List (String × Node) :=
  members.filterMap fun member => facet? member.1 member.2

/-- The node of a keyword's facet, when the facet has the keyword's own name. -/
def facetUnder (keyword : String) (value : JsonValue) : Option Node :=
  match facet? keyword value with
  | some made => if made.1 = keyword then some made.2 else none
  | none => none

/-- A keyword becomes the facet of its name or a type. -/
theorem name_of_facet? {keyword : String} {value : JsonValue} {made : String × Node}
    (found : facet? keyword value = some made) : made.1 = keyword ∨ made.1 = "type" := by
  unfold facet? at found
  repeat' split at found
  all_goals simp_all <;> simp [← found]

/-- In the reversed list the facet of the first member comes last. -/
theorem facetEntries_cons (member : String × JsonValue) (rest : List (String × JsonValue)) :
    (facetEntries (member :: rest)).reverse =
      (facetEntries rest).reverse ++ (facet? member.1 member.2).toList := by
  rw [facetEntries, List.filterMap_cons]
  cases facet? member.1 member.2 with
  | none => simp [facetEntries]
  | some made => simp [facetEntries]

/-- A facet other than the type is made of the member under its name. -/
theorem get?_facetEntries (distinct : (Entries.keys members).Nodup) (other : facet ≠ "type") :
    Entries.get? facet (facetEntries members).reverse =
      (Entries.get? facet members).bind (facetUnder facet) := by
  induction members with
  | nil => rfl
  | cons member rest ih =>
    obtain ⟨name, value⟩ := member
    rw [Entries.keys, List.map_cons, List.nodup_cons] at distinct
    rw [facetEntries_cons, Entries.get?_append, ih distinct.2, Entries.get?]
    by_cases same : name = facet
    · subst same
      have absent : Entries.get? name rest = none := Entries.get?_eq_none.mpr distinct.1
      rw [absent, if_pos rfl, Option.bind_none, Option.none_or, Option.bind_some]
      cases found : facet? name value with
      | none => simp [facetUnder, found, Entries.get?]
      | some made => simp [facetUnder, found, Entries.get?]
    · rw [if_neg same]
      have nothing : Entries.get? facet (facet? name value).toList = none := by
        cases found : facet? name value with
        | none => rfl
        | some made =>
          have apart : made.1 ≠ facet := by
            rcases name_of_facet? found with own | type
            · exact own ▸ same
            · exact type ▸ other.symm
          simp [Entries.get?, apart]
      rw [nothing, Option.or_none]

/-- Whether a member becomes the type: `type` itself, or a reference that is a text. -/
def givesType (member : String × JsonValue) : Bool :=
  member.1 = "type" || member.1 = "$ref" && member.2.string?.isSome

/-- The member that becomes the type: the last one that gives one. -/
def typeMember? (members : List (String × JsonValue)) : Option (String × JsonValue) :=
  members.reverse.find? givesType

/-- The node of the type that a member gives. -/
def typeOf (member : String × JsonValue) : Node :=
  ((facet? member.1 member.2).map Prod.snd).getD .null

/-- The type that a member's facet is. -/
theorem get?_type_facet? (member : String × JsonValue) :
    Entries.get? "type" (facet? member.1 member.2).toList =
      if givesType member then some (typeOf member) else none := by
  obtain ⟨name, value⟩ := member
  by_cases type : name = "type"
  · simp [type, facet?, givesType, typeOf, Entries.get?]
  · by_cases reference : name = "$ref"
    · cases value <;> simp [reference, facet?, givesType, typeOf, Entries.get?, string?]
    · have apart : givesType (name, value) = false := by simp [givesType, type, reference]
      rw [apart, if_neg Bool.false_ne_true]
      cases found : facet? name value with
      | none => rfl
      | some made =>
        have other : made.1 ≠ "type" := by
          unfold facet? at found
          repeat' split at found
          all_goals first
            | contradiction
            | cases found; exact (by decide : "items" ≠ "type")
            | cases found; exact type
        simp [Entries.get?, other]

/-- The type among the facets is that of the last member that gives one. -/
theorem get?_type_facetEntries :
    Entries.get? "type" (facetEntries members).reverse = (typeMember? members).map typeOf := by
  induction members with
  | nil => rfl
  | cons member rest ih =>
    rw [facetEntries_cons, Entries.get?_append, ih, get?_type_facet?, typeMember?, typeMember?,
      List.reverse_cons, List.find?_append, List.find?_singleton]
    cases rest.reverse.find? givesType with
    | none => split <;> simp
    | some last => rfl

/-- The type that a schema's keywords imply when none is given. -/
def impliedNode (members : List (String × JsonValue)) : Option Node :=
  if Entries.contains "properties" members then some (.string TypeExpr.objectName)
  else if Entries.contains "items" members then some (.string TypeExpr.arrayName)
  else none

/-- The facets of a schema are those of its keywords, and the implied type when none is given. -/
theorem facets_eq : facets members =
    if (OrderedMap.ofList (facetEntries members)).contains "type" then
      OrderedMap.ofList (facetEntries members)
    else match impliedNode members with
      | some type => (OrderedMap.ofList (facetEntries members)).insert "type" type
      | none => OrderedMap.ofList (facetEntries members) := by
  have given : OrderedMap.ofList (facetEntries members) =
      OrderedMap.ofList (members.filterMap fun member => facet? member.1 member.2) := rfl
  unfold facets impliedNode
  simp only [given]
  split
  · rfl
  · split
    · rfl
    · split <;> rfl

/-- A facet other than the type is made of the member under its name. -/
theorem get?_facets (distinct : (Entries.keys members).Nodup) (other : facet ≠ "type") :
    (facets members).get? facet = (Entries.get? facet members).bind (facetUnder facet) := by
  rw [← get?_facetEntries distinct other, ← OrderedMap.get?_ofList, facets_eq]
  split
  · rfl
  · split
    · rw [OrderedMap.get?_insert, if_neg other]
    · rfl

/-- The type is that of the last member that gives one, or else the implied one. -/
theorem get?_type_facets :
    (facets members).get? "type" =
      ((typeMember? members).map typeOf).or (impliedNode members) := by
  rw [← get?_type_facetEntries, ← OrderedMap.get?_ofList, facets_eq, OrderedMap.contains,
    Entries.contains]
  cases found : (OrderedMap.ofList (facetEntries members)).get? "type" with
  | some type =>
    rw [OrderedMap.get?] at found
    rw [found, Option.isSome_some, if_pos rfl, Option.some_or, OrderedMap.get?, found]
  | none =>
    rw [OrderedMap.get?] at found
    rw [found, Option.isSome_none, if_neg Bool.false_ne_true, Option.none_or]
    cases impliedNode members with
    | some type => exact (OrderedMap.get?_insert _ _ _ _).trans (if_pos rfl)
    | none => exact found

/-! ## Members that match -/

/-- Options that are related the other way round are related. -/
theorem rel_swap {α β : Type} {related : α → β → Prop} {first : Option α} {second : Option β}
    (rel : Option.Rel related first second) :
    Option.Rel (fun right left => related left right) second first := by
  cases rel with
  | some held => exact .some held
  | none => exact .none

/-- An option is related to itself when every value is. -/
theorem rel_self {α : Type} {related : α → α → Prop} (self : ∀ value, related value value)
    (option : Option α) : Option.Rel related option option := by
  cases option with
  | some value => exact .some (self value)
  | none => exact .none

/-- What is related stays so under a weaker relation. -/
theorem rel_mono {α β : Type} {related weaker : α → β → Prop} {first : Option α} {second : Option β}
    (rel : Option.Rel related first second)
    (implied : ∀ left right, related left right → weaker left right) :
    Option.Rel weaker first second := by
  cases rel with
  | some held => exact .some (implied _ _ held)
  | none => exact .none

/-- What is made alike of related options is related. -/
theorem rel_bind {α β γ δ : Type} {related : α → β → Prop} {other : γ → δ → Prop}
    {first : Option α} {second : Option β} {make : α → Option γ} {remake : β → Option δ}
    (rel : Option.Rel related first second)
    (each : ∀ left right, related left right → Option.Rel other (make left) (remake right)) :
    Option.Rel other (first.bind make) (second.bind remake) := by
  cases rel with
  | some held => exact each _ _ held
  | none => exact .none

/-- Related options are there alike. -/
theorem isSome_of_rel {α β : Type} {related : α → β → Prop} {first : Option α} {second : Option β}
    (rel : Option.Rel related first second) : first.isSome = second.isSome := by
  cases rel <;> rfl

/-- What is related to something is something. -/
theorem exists_of_rel {α β : Type} {related : α → β → Prop} {first : Option α} {right : β}
    (rel : Option.Rel related first (some right)) :
    ∃ left, first = some left ∧ related left right := by
  cases rel with
  | some held => exact ⟨_, rfl, held⟩

/-- Alternatives of related options are related. -/
theorem rel_or {α β : Type} {related : α → β → Prop} {first other : Option α}
    {second another : Option β} (rel : Option.Rel related first second)
    (rest : Option.Rel related other another) :
    Option.Rel related (first.or other) (second.or another) := by
  cases rel with
  | some held => exact .some held
  | none => exact rest

/-- Two objects have the same names, and under each of them values that match. -/
structure Matches (same : String → JsonValue → JsonValue → Prop)
    (left right : List (String × JsonValue)) : Prop where
  /-- The names on the left are distinct. -/
  distinct : (Entries.keys left).Nodup
  /-- The names on the right are distinct. -/
  distinct_right : (Entries.keys right).Nodup
  /-- What stands under a name matches. -/
  lookup : ∀ name, Option.Rel (same name) (Entries.get? name left) (Entries.get? name right)

namespace Matches

variable {same written : String → JsonValue → JsonValue → Prop}
variable {left right : List (String × JsonValue)}

/-- Members match from right to left too. -/
theorem symm (matched : Matches same left right) :
    Matches (fun name second first => same name first second) right left :=
  ⟨matched.distinct_right, matched.distinct, fun name => rel_swap (matched.lookup name)⟩

/-- A value on the right has one on the left that it matches. -/
theorem exists_left (matched : Matches same left right) {name : String} {value : JsonValue}
    (found : Entries.get? name right = some value) :
    ∃ other, Entries.get? name left = some other ∧ same name other value :=
  exists_of_rel (found ▸ matched.lookup name)

/-- Both objects have the same names. -/
theorem contains (matched : Matches same left right) (name : String) :
    Entries.contains name left = Entries.contains name right :=
  isSome_of_rel (matched.lookup name)

end Matches

/-! ## The model -/

section Model

variable {variant : Variant} {same written : String → JsonValue → JsonValue → Prop}
variable {left right found : List (String × JsonValue)}

/-- What a kind reads of one member. -/
def readMember (variant : Variant) (name : String) (value : JsonValue) :
    Option (Option JsonValue) :=
  match variant.slot? name with
  | none => some none
  | some (.plain _ form) => form.read? value
  | some (.nested _ form) => readNested form value
  | some .extensions => some (some value)

/-- A kind reads one member after another. -/
theorem readMembers_cons (name : String) (value : JsonValue) (rest : List (String × JsonValue)) :
    readMembers variant ((name, value) :: rest) =
      (readMember variant name value).bind fun written =>
        (readMembers variant rest).map (consWritten name written) := by
  have nothing : consWritten name none = id := rfl
  rw [readMembers, readMember]
  cases variant.slot? name with
  | none => rw [Option.bind_some, nothing, Option.map_id, id]
  | some slot =>
    cases slot with
    | plain keyword form =>
      simp only
      cases form.read? value <;> rfl
    | nested keyword form =>
      simp only
      cases readNested form value <;> rfl
    | extensions => rfl

/-- A kind reads members when it reads each of them. -/
theorem exists_readMembers_iff :
    (∃ found, readMembers variant members = some found) ↔
      ∀ member ∈ members, ∃ written, readMember variant member.1 member.2 = some written := by
  induction members with
  | nil => simp [readMembers]
  | cons member rest ih =>
    obtain ⟨name, value⟩ := member
    rw [readMembers_cons, List.forall_mem_cons, ← ih]
    cases readMember variant name value with
    | none => simp
    | some written => cases readMembers variant rest <;> simp

/-- What a kind reads under a name is made of the member under the name. -/
theorem get?_readMembers (distinct : (Entries.keys members).Nodup)
    (read : readMembers variant members = some found) :
    (Entries.keys found).Nodup ∧ ∀ name, Entries.get? name found =
      (Entries.get? name members).bind fun value => (readMember variant name value).join := by
  induction members generalizing found with
  | nil =>
    cases read
    exact ⟨.nil, fun _ => rfl⟩
  | cons member rest ih =>
    obtain ⟨name, value⟩ := member
    rw [Entries.keys, List.map_cons, List.nodup_cons] at distinct
    rw [readMembers_cons] at read
    obtain ⟨written, first, read⟩ := Option.bind_eq_some_iff.mp read
    obtain ⟨others, later, rfl⟩ := Option.map_eq_some_iff.mp read
    obtain ⟨apart, lookup⟩ := ih distinct.2 later
    have absent : Entries.get? name others = none := by
      rw [lookup, Entries.get?_eq_none.mpr distinct.1, Option.bind_none]
    have under (other : String) : (Entries.get? other ((name, value) :: rest)).bind
        (fun value => (readMember variant other value).join) =
          if name = other then written else Entries.get? other others := by
      rw [Entries.get?]
      split
      · rename_i here
        subst here
        rw [Option.bind_some, first, Option.join_some]
      · exact (lookup other).symm
    cases written with
    | none =>
      refine ⟨apart, fun other => ?_⟩
      rw [under]
      split
      · rename_i here
        exact here ▸ absent
      · rfl
    | some value =>
      refine ⟨List.nodup_cons.mpr ⟨Entries.get?_eq_none.mp absent, apart⟩, fun other => ?_⟩
      rw [under]
      rfl

/-- A kind reads matching members alike when it reads each of them alike. -/
theorem Matches.readMembers (matched : Matches same left right)
    (each : ∀ name first second, same name first second → Option.Rel (Option.Rel (written name))
      (readMember variant name first) (readMember variant name second)) :
    Option.Rel (Matches written) (readMembers variant left) (readMembers variant right) := by
  have reads {left right : List (String × JsonValue)}
      {same : String → JsonValue → JsonValue → Prop}
      {written : String → JsonValue → JsonValue → Prop} (matched : Matches same left right)
      (each : ∀ name first second, same name first second → Option.Rel (Option.Rel (written name))
        (readMember variant name first) (readMember variant name second))
      (read : ∃ found, Schema.readMembers variant left = some found) :
      ∃ found, Schema.readMembers variant right = some found := by
    -- The members stand in two orders, so success is carried over name by name.
    rw [exists_readMembers_iff] at read ⊢
    rintro ⟨name, second⟩ inside
    obtain ⟨first, there, matching⟩ :=
      matched.exists_left (Entries.get?_of_mem matched.distinct_right inside)
    obtain ⟨value, one⟩ := read (name, first) (Entries.mem_of_get? there)
    have rel := isSome_of_rel (each name first second matching)
    rw [one, Option.isSome_some] at rel
    exact Option.isSome_iff_exists.mp rel.symm
  cases first : Schema.readMembers variant left with
  | none =>
    cases second : Schema.readMembers variant right with
    | none => exact .none
    | some found =>
      obtain ⟨_, read⟩ := reads matched.symm (fun name one other matching =>
        rel_mono (rel_swap (each name other one matching)) fun _ _ => rel_swap) ⟨found, second⟩
      rw [first] at read
      contradiction
  | some found =>
    obtain ⟨others, second⟩ := reads matched each ⟨found, first⟩
    rw [second]
    obtain ⟨apart, lookup⟩ := get?_readMembers matched.distinct first
    obtain ⟨apart_right, lookup_right⟩ := get?_readMembers matched.distinct_right second
    refine .some ⟨apart, apart_right, fun name => ?_⟩
    rw [lookup, lookup_right]
    exact rel_bind (matched.lookup name) fun one other matching =>
      rel_bind (each name one other matching) fun _ _ => id

/-- The members that stand at a place of the written form. -/
def Slot.part (members : List (String × JsonValue)) : Slot → List (String × JsonValue)
  | .plain name _ | .nested name _ =>
    match Entries.get? name members with
    | some value => [(name, value)]
    | none => []
  | .extensions => Schema.extensions members

/-- The written form is put together from its places. -/
theorem arrange_eq (variant : Variant) (members : List (String × JsonValue)) :
    variant.arrange members = variant.slots.flatMap (Slot.part members) := by
  rw [Variant.arrange]
  congr 1

/-- Whether no member can stand at both of two places. -/
def Slot.apart : Slot → Slot → Bool
  | .plain name _, .plain other _ | .plain name _, .nested other _
  | .nested name _, .plain other _ | .nested name _, .nested other _ => name ≠ other
  | .plain name _, .extensions | .nested name _, .extensions
  | .extensions, .plain name _ | .extensions, .nested name _ => !isExtension name
  | .extensions, .extensions => false

/-- Whether a member of a name can stand at a place. -/
def Slot.holds (name : String) : Slot → Bool
  | .plain keyword _ | .nested keyword _ => keyword = name
  | .extensions => isExtension name

/-- At a place stand the members that can. -/
theorem get?_part (slot : Slot) (name : String) :
    Entries.get? name (slot.part members) =
      if slot.holds name then Entries.get? name members else none := by
  have single (keyword : String) : Entries.get? name
      (match Entries.get? keyword members with
        | some value => [(keyword, value)]
        | none => []) = if keyword = name then Entries.get? name members else none := by
    by_cases same : keyword = name
    · subst same
      cases Entries.get? keyword members <;> simp [Entries.get?]
    · cases Entries.get? keyword members <;> simp [Entries.get?, same]
  cases slot with
  | plain keyword form => simpa [Slot.part, Slot.holds] using single keyword
  | nested keyword form => simpa [Slot.part, Slot.holds] using single keyword
  | extensions => exact Entries.get?_filter name isExtension members

/-- A place holds distinct names. -/
theorem nodup_part (slot : Slot) (distinct : (Entries.keys members).Nodup) :
    (Entries.keys (slot.part members)).Nodup := by
  have single (keyword : String) : (Entries.keys (match Entries.get? keyword members with
      | some value => [(keyword, value)]
      | none => [])).Nodup := by
    cases Entries.get? keyword members <;> simp [Entries.keys]
  cases slot with
  | plain keyword form => exact single keyword
  | nested keyword form => exact single keyword
  | extensions => exact List.Nodup.sublist (List.Sublist.map _ List.filter_sublist) distinct

/-- No two places of a kind can hold one member. -/
theorem pairwise_apart (variant : Variant) :
    variant.slots.Pairwise fun slot other => slot.apart other = true := by
  cases variant <;> decide

/-- The written form of distinct members is distinct. -/
theorem nodup_arrange (distinct : (Entries.keys members).Nodup) :
    (Entries.keys (variant.arrange members)).Nodup := by
  have disjoint {slot other : Slot} (apart : slot.apart other = true) :
      List.Disjoint (Entries.keys (slot.part members)) (Entries.keys (other.part members)) := by
    intro name here there
    rw [Entries.mem_keys_iff, get?_part] at here there
    have first : slot.holds name = true := by
      by_contra none
      simp [none] at here
    have second : other.holds name = true := by
      by_contra none
      simp [none] at there
    cases slot <;> cases other <;> simp_all [Slot.apart, Slot.holds]
  have parts : Entries.keys (variant.arrange members) =
      variant.slots.flatMap fun slot => Entries.keys (slot.part members) := by
    rw [arrange_eq, Entries.keys, List.map_flatMap]
  rw [parts, List.nodup_flatMap]
  exact ⟨fun slot _ => nodup_part slot distinct, (pairwise_apart variant).imp disjoint⟩

/-- Matching members are written as matching members. -/
theorem Matches.arrange (matched : Matches written left right) :
    Matches written (variant.arrange left) (variant.arrange right) := by
  refine ⟨nodup_arrange matched.distinct, nodup_arrange matched.distinct_right, fun name => ?_⟩
  rw [arrange_eq, arrange_eq]
  induction variant.slots with
  | nil => exact .none
  | cons slot rest ih =>
    rw [List.flatMap_cons, List.flatMap_cons, Entries.get?_append, Entries.get?_append,
      get?_part, get?_part]
    refine rel_or ?_ ih
    split
    · exact matched.lookup name
    · exact .none

/-- What no place holds is not written. -/
theorem get?_arrange_of_none (unheld : ∀ slot ∈ variant.slots, slot.holds name = false) :
    Entries.get? name (variant.arrange members) = none := by
  rw [arrange_eq]
  revert unheld
  induction variant.slots with
  | nil => exact fun _ => rfl
  | cons slot rest ih =>
    intro unheld
    rw [List.forall_mem_cons] at unheld
    rw [List.flatMap_cons, Entries.get?_append, get?_part, unheld.1, ih unheld.2]
    rfl

/-- No kind writes a reference. -/
theorem get?_reference_arrange : Entries.get? "$ref" (variant.arrange members) = none :=
  get?_arrange_of_none (by cases variant <;> decide)

/-- Kinds are tried alike on matching members that each of them reads alike. -/
theorem Matches.first? (matched : Matches same left right) (variants : List Variant)
    (each : ∀ variant name first second, same name first second →
      Option.Rel (Option.Rel (written name)) (readMember variant name first)
        (readMember variant name second)) :
    Option.Rel (fun first second => Matches written first second ∧
        Entries.get? "$ref" first = none ∧ Entries.get? "$ref" second = none)
      (Variant.first? left (fun variant => Schema.readMembers variant left) variants)
      (Variant.first? right (fun variant => Schema.readMembers variant right) variants) := by
  induction variants with
  | nil => exact .none
  | cons variant others ih =>
    have needed : (variant.needed.all fun name => Entries.contains name left) =
        variant.needed.all fun name => Entries.contains name right := by
      simp only [matched.contains]
    have rel := matched.readMembers (each variant)
    rw [Variant.first?, Variant.first?, needed]
    split
    · generalize Schema.readMembers variant left = first at rel ⊢
      generalize Schema.readMembers variant right = second at rel ⊢
      cases rel with
      | none => exact ih
      | some read => exact .some ⟨read.arrange, get?_reference_arrange, get?_reference_arrange⟩
    · exact ih

/-- What the model reads of an object that is no reference. -/
def modelMembers? (members : List (String × JsonValue)) : Option (List (String × JsonValue)) :=
  Variant.first? members (fun variant => readMembers variant members) Variant.all

/-- An object is read as a reference, or else by the first kind that reads it. -/
theorem model?_object : model? (.object members) =
    match Reference.ofMembers? members with
    | some reference => some (.reference reference)
    | none => (modelMembers? members).map .schema := by
  rw [model?, Reference.ofJson?]
  cases Reference.ofMembers? members with
  | some reference => rfl
  | none =>
    have read : readNested .schema (.object members) =
        (modelMembers? members).map fun members => some (.object members) := by
      rw [readNested]
      · rfl
      · simp
    rw [read]
    cases modelMembers? members <;> rfl

end Model

/-! ## Types that admit null -/

section Nullable

variable {left right : List (String × JsonValue)}

/-- A type that may have been made to admit null. -/
def AdmitsNull (name : String) (value other : JsonValue) : Prop :=
  other = if name = "type" then admitNull value else value

/-- Values that give one facet. -/
def SameFacet (name : String) (value other : JsonValue) : Prop :=
  if name = "type" then typeNode value = typeNode other else value = other

/-- The first name other than null stays when null is added to a list of names. -/
theorem typeNode_append_null (names : List JsonValue) :
    typeNode (.array (names ++ [.string "null"])) = typeNode (.array names) := by
  simp [typeNode, List.find?_append, string?]

/-- A type gives one facet with null and without. -/
theorem typeNode_admitNull (type : JsonValue) : typeNode (admitNull type) = typeNode type := by
  cases type with
  | string name =>
    rw [admitNull]
    split
    · rfl
    · rename_i other
      simp [typeNode, toNode, string?, other]
  | array names =>
    rw [admitNull]
    split
    · rfl
    · exact typeNode_append_null names
  | _ => rfl

/-- Types of the model that are left out alike and give one facet. -/
def SameType (first second : JsonValue) : Prop :=
  typeNode first = typeNode second ∧ (first = .null ↔ second = .null)

/-- The model reads a type that admits null when it reads the type, and both give one facet. -/
theorem type?_admitNull (type : JsonValue) :
    Option.Rel SameType (type? type) (type? (admitNull type)) := by
  have self (type : JsonValue) : Option.Rel SameType (type? type) (type? type) :=
    rel_self (fun _ => ⟨rfl, Iff.rfl⟩) _
  have last : nameAmong? typeNames (.string "null") = some "null" := by decide
  cases type with
  | string name =>
    rw [admitNull]
    split
    · exact self _
    · rename_i other
      cases read : nameAmong? typeNames (.string name) with
      | none =>
        have single : type? (.string name) = none := by simp [type?, read]
        have both : type? (.array [.string name, .string "null"]) = none := by simp [type?, read]
        rw [single, both]
        exact .none
      | some known =>
        have same : known = name := by
          rw [nameAmong?, Option.ite_none_right_eq_some] at read
          exact (Option.some.inj read.2).symm
        subst same
        have single : type? (.string known) = some (.string known) := by simp [type?, read]
        have both : type? (.array [.string known, .string "null"]) =
            some (.array [.string known, .string "null"]) := by simp [type?, read, last]
        rw [single, both]
        refine .some ⟨?_, by simp⟩
        simp [typeNode, toNode, string?, other]
  | array names =>
    rw [admitNull]
    split
    · exact self _
    · rw [type?, type?, List.mapM_append]
      cases names.mapM (nameAmong? typeNames) with
      | none => exact .none
      | some read =>
        simp only [List.mapM_cons, List.mapM_nil, last]
        refine .some ⟨?_, by simp⟩
        have appended := typeNode_append_null (read.map .string)
        simpa using appended.symm
  | _ => exact self _

/-- Every kind has a place for the type. -/
theorem slot?_type (variant : Variant) :
    variant.slot? "type" = some (.plain "type" .type) ∨
      variant.slot? "type" = some (.plain "type" .typeUnlessAny) := by
  cases variant <;> decide

/-- A kind reads a member alike whether or not it admits null. -/
theorem readMember_admitsNull (variant : Variant) (name : String) (first second : JsonValue)
    (admits : AdmitsNull name first second) :
    Option.Rel (Option.Rel (SameFacet name)) (readMember variant name first)
      (readMember variant name second) := by
  unfold AdmitsNull at admits
  by_cases type : name = "type"
  · subst type
    rw [if_pos rfl] at admits
    have facet {one other : JsonValue} (same : SameType one other) : SameFacet "type" one other :=
      (if_pos rfl).mpr same.1
    have read := type?_admitNull first
    rw [← admits] at read
    rcases slot?_type variant with slot | slot
    · rw [readMember, readMember, slot]
      simp only [Form.read?]
      generalize type? first = one at read ⊢
      generalize type? second = other at read ⊢
      cases read with
      | none => exact .none
      | some same => exact .some (.some (facet same))
    · rw [readMember, readMember, slot]
      simp only [Form.read?]
      generalize type? first = one at read ⊢
      generalize type? second = other at read ⊢
      cases read with
      | none => exact .none
      | @some one other same =>
        refine .some ?_
        dsimp only
        by_cases missing : one = .null
        · rw [if_pos missing, if_pos (same.2.mp missing)]
          exact .none
        · rw [if_neg missing, if_neg (mt same.2.mpr missing)]
          exact .some (facet same)
  · rw [if_neg type] at admits
    subst admits
    have self (value : JsonValue) : SameFacet name value value := by rw [SameFacet, if_neg type]
    exact rel_self (rel_self self) _

/-- Apart from the type, members that may be made to admit null are the same. -/
theorem Matches.get?_eq (matched : Matches AdmitsNull left right) (other : name ≠ "type") :
    Entries.get? name left = Entries.get? name right := by
  have rel := matched.lookup name
  generalize Entries.get? name left = first at rel ⊢
  generalize Entries.get? name right = second at rel ⊢
  cases rel with
  | none => rfl
  | some admits => rw [admits, if_neg other]

/-- The same reference is read whether or not the type admits null. -/
theorem ofMembers?_admitsNull (matched : Matches AdmitsNull left right) :
    Reference.ofMembers? left = Reference.ofMembers? right := by
  rw [Reference.ofMembers?, Reference.ofMembers?, matched.get?_eq (by decide),
    matched.get?_eq (by decide), matched.get?_eq (by decide)]

/-- The member that becomes the type is one of the members and gives one. -/
theorem mem_of_typeMember? {member : String × JsonValue}
    (found : typeMember? members = some member) : member ∈ members ∧ givesType member = true :=
  ⟨List.mem_reverse.mp (List.mem_of_find?_eq_some found), List.find?_some found⟩

/-- Some member becomes the type when one gives it. -/
theorem typeMember?_eq_none :
    typeMember? members = none ↔ ∀ member ∈ members, givesType member = false := by
  rw [typeMember?, List.find?_eq_none]
  simp

/-- The name of a member that gives a type. -/
theorem name_of_givesType {member : String × JsonValue} (gives : givesType member = true) :
    member.1 = "type" ∨ member.1 = "$ref" ∧ ∃ location, member.2 = .string location := by
  obtain ⟨name, value⟩ := member
  simp only [givesType, Bool.or_eq_true, Bool.and_eq_true, decide_eq_true_eq] at gives
  refine gives.imp_right fun ⟨reference, text⟩ => ⟨reference, ?_⟩
  cases value with
  | string location => exact ⟨location, rfl⟩
  | _ => contradiction

/-- The keyword of types gives the type that stands under it. -/
theorem typeOf_type (type : JsonValue) : typeOf ("type", type) = typeNode type := rfl

/-- A reference gives the referenced name as the type. -/
theorem typeOf_reference (location : String) :
    typeOf ("$ref", .string location) = .string (referencedName location) := rfl

/-- Without a reference the type is what is given. -/
theorem map_typeOf_typeMember? (distinct : (Entries.keys members).Nodup)
    (unreferenced : Entries.get? "$ref" members = none) :
    (typeMember? members).map typeOf = (Entries.get? "type" members).map typeNode := by
  cases found : typeMember? members with
  | none =>
    have absent : Entries.get? "type" members = none := by
      cases given : Entries.get? "type" members with
      | none => rfl
      | some type =>
        have gives := typeMember?_eq_none.mp found _ (Entries.mem_of_get? given)
        simp [givesType] at gives
    rw [absent]
    rfl
  | some member =>
    obtain ⟨inside, gives⟩ := mem_of_typeMember? found
    obtain ⟨name, value⟩ := member
    have held := Entries.get?_of_mem distinct inside
    rcases name_of_givesType gives with rfl | ⟨rfl, -⟩
    · rw [held]
      rfl
    · rw [unreferenced] at held
      contradiction

/-- Members that give the same facets imply the same type. -/
theorem impliedNode_congr {same : String → JsonValue → JsonValue → Prop}
    (matched : Matches same left right) : impliedNode left = impliedNode right := by
  rw [impliedNode, impliedNode, matched.contains, matched.contains]

/-- Without references members give the same facets when each of them does. -/
theorem facets_of_sameFacet (matched : Matches SameFacet left right)
    (first : Entries.get? "$ref" left = none) (second : Entries.get? "$ref" right = none)
    (facet : String) : (facets left).get? facet = (facets right).get? facet := by
  by_cases type : facet = "type"
  · subst type
    rw [get?_type_facets, get?_type_facets, map_typeOf_typeMember? matched.distinct first,
      map_typeOf_typeMember? matched.distinct_right second, impliedNode_congr matched]
    congr 1
    have rel := matched.lookup "type"
    generalize Entries.get? "type" left = one at rel ⊢
    generalize Entries.get? "type" right = other at rel ⊢
    cases rel with
    | none => rfl
    | some same => exact congrArg some ((if_pos rfl).mp same)
  · rw [get?_facets matched.distinct type, get?_facets matched.distinct_right type]
    have rel := matched.lookup facet
    generalize Entries.get? facet left = one at rel ⊢
    generalize Entries.get? facet right = other at rel ⊢
    cases rel with
    | none => rfl
    | some same => rw [(if_neg type).mp same]

/-- The type moves from one object's members to another's: a reference and `type` both give one, the
two are different, and another one of them comes last. -/
def TypeMoves (members others : List (String × JsonValue)) : Prop :=
  ∃ location type, Entries.get? "$ref" members = some (.string location) ∧
    Entries.get? "type" members = some type ∧
    typeNode type ≠ .string (referencedName location) ∧
    (typeMember? members).map Prod.fst ≠ (typeMember? others).map Prod.fst

/-- A member that gives a type does so whether or not the type admits null. -/
theorem givesType_of_admitsNull {value other : JsonValue} (admits : AdmitsNull name value other) :
    givesType (name, value) = givesType (name, other) ∧
      typeOf (name, value) = typeOf (name, other) := by
  by_cases type : name = "type"
  · subst type
    rw [admits, if_pos rfl]
    exact ⟨rfl, (typeNode_admitNull value).symm⟩
  · rw [admits, if_neg type]
    exact ⟨rfl, rfl⟩

/-- When other members of matching objects become the type, they are the reference and `type`. -/
theorem exists_types (matched : Matches AdmitsNull left right) {first second : String × JsonValue}
    (one : typeMember? left = some first) (other : typeMember? right = some second)
    (apart : first.1 ≠ second.1) :
    ∃ location type, Entries.get? "$ref" left = some (.string location) ∧
      Entries.get? "type" left = some type ∧
      (typeOf first = typeOf second ↔ typeNode type = .string (referencedName location)) := by
  obtain ⟨inside, gives⟩ := mem_of_typeMember? one
  obtain ⟨inside_right, gives_right⟩ := mem_of_typeMember? other
  obtain ⟨name, value⟩ := first
  obtain ⟨keyword, held⟩ := second
  have found := Entries.get?_of_mem matched.distinct inside
  have found_right := Entries.get?_of_mem matched.distinct_right inside_right
  obtain ⟨earlier, given, admits⟩ := matched.exists_left found_right
  rcases name_of_givesType gives with rfl | ⟨rfl, location, rfl⟩ <;>
    rcases name_of_givesType gives_right with rfl | ⟨rfl, place, rfl⟩
  · contradiction
  · rw [← matched.get?_eq (by decide)] at found_right
    exact ⟨place, value, found_right, found, Iff.rfl⟩
  · refine ⟨location, earlier, found, given, ?_⟩
    rw [typeOf_reference, typeOf_type, admits, if_pos rfl, typeNode_admitNull, eq_comm]
  · contradiction

/-- A member of both of two matching objects becomes the type, or of neither. -/
theorem typeMember?_eq_none_iff (matched : Matches AdmitsNull left right) :
    typeMember? left = none ↔ typeMember? right = none := by
  rw [typeMember?_eq_none, typeMember?_eq_none]
  constructor
  · rintro none ⟨name, value⟩ inside
    obtain ⟨earlier, given, admits⟩ :=
      matched.exists_left (Entries.get?_of_mem matched.distinct_right inside)
    rw [← (givesType_of_admitsNull admits).1]
    exact none _ (Entries.mem_of_get? given)
  · rintro none ⟨name, value⟩ inside
    obtain ⟨later, given, admits⟩ :=
      matched.symm.exists_left (Entries.get?_of_mem matched.distinct inside)
    rw [(givesType_of_admitsNull admits).1]
    exact none _ (Entries.mem_of_get? given)

/-- When members of one name become the type of matching objects, they give one type. -/
theorem typeOf_congr (matched : Matches AdmitsNull left right) {first second : String × JsonValue}
    (one : typeMember? left = some first) (other : typeMember? right = some second)
    (same : first.1 = second.1) : typeOf first = typeOf second := by
  obtain ⟨name, value⟩ := first
  obtain ⟨keyword, held⟩ := second
  simp only at same
  subst same
  have found := Entries.get?_of_mem matched.distinct (mem_of_typeMember? one).1
  have found_right := Entries.get?_of_mem matched.distinct_right (mem_of_typeMember? other).1
  obtain ⟨earlier, given, admits⟩ := matched.exists_left found_right
  cases found.symm.trans given
  exact (givesType_of_admitsNull admits).2

/-- The type stays, with null and without, unless it moves. -/
theorem get?_type_facets_iff (matched : Matches AdmitsNull left right) :
    (facets left).get? "type" = (facets right).get? "type" ↔ ¬TypeMoves left right := by
  rw [get?_type_facets, get?_type_facets, impliedNode_congr matched]
  have both := typeMember?_eq_none_iff matched
  cases first : typeMember? left with
  | none =>
    have second : typeMember? right = none := both.mp first
    rw [second]
    refine iff_of_true rfl ?_
    rintro ⟨_, _, _, _, _, moved⟩
    exact moved (by rw [first, second])
  | some member =>
    cases second : typeMember? right with
    | none =>
      rw [both.mpr second] at first
      contradiction
    | some other =>
      rw [Option.map_some, Option.map_some, Option.some_or, Option.some_or, Option.some.injEq]
      by_cases same : member.1 = other.1
      · refine iff_of_true (typeOf_congr matched first second same) ?_
        rintro ⟨_, _, _, _, _, moved⟩
        exact moved (by rw [first, second, Option.map_some, Option.map_some, same])
      · -- One of the two members is the reference and the other one is `type`.
        obtain ⟨location, type, reference, given, equal⟩ := exists_types matched first second same
        rw [equal, ← not_iff_not, not_not]
        constructor
        · intro apart
          refine ⟨location, type, reference, given, apart, ?_⟩
          rw [first, second, Option.map_some, Option.map_some, Ne, Option.some.injEq]
          exact same
        · rintro ⟨place, held, there, found, apart, -⟩
          cases reference.symm.trans there
          cases given.symm.trans found
          exact apart

/-- An object's facets are the same whether or not its type admits null, but for a type that moves
where the model reads nothing. -/
theorem propertyFacets_admitsNull (matched : Matches AdmitsNull left right) (name : String) :
    ∃ first second, propertyFacets name (.object left) = .ok first ∧
      propertyFacets name (.object right) = .ok second ∧
      (∀ facet, facet ≠ "type" → first.get? facet = second.get? facet) ∧
      (first.get? "type" = second.get? "type" ↔
        ¬(model? (.object left) = none ∧ TypeMoves left right)) := by
  rw [propertyFacets, propertyFacets, model?_object, model?_object, ofMembers?_admitsNull matched]
  cases Reference.ofMembers? right with
  | some reference => exact ⟨_, _, rfl, rfl, fun _ _ => rfl, by simp⟩
  | none =>
    have read := matched.first? Variant.all readMember_admitsNull
    rw [show Variant.first? left _ _ = modelMembers? left from rfl,
      show Variant.first? right _ _ = modelMembers? right from rfl] at read
    dsimp only
    generalize modelMembers? left = first at read ⊢
    generalize modelMembers? right = second at read ⊢
    cases read with
    | some held =>
      have same := facets_of_sameFacet held.1 held.2.1 held.2.2
      exact ⟨_, _, rfl, rfl, fun facet _ => same facet, by simp [same]⟩
    | none =>
      refine ⟨_, _, rfl, rfl, fun facet other => ?_, ?_⟩
      · rw [get?_facets matched.distinct other, get?_facets matched.distinct_right other,
          matched.get?_eq other]
      · rw [get?_type_facets_iff matched]
        simp

end Nullable

end Raml.Schema
