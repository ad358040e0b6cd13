import Raml.Proofs.Registry

/-!
# The order of created types

The inline declarations of a type form a tree: below a type stand the declarations that are lifted
from its properties, in order. A resolution goes through that tree in pre-order and creates a type
for every name that is free when it comes to it; where a name is taken, it does not go on into the
declaration.
-/
namespace Raml

/-! ## Capitalized names -/

namespace Text

/-- A character whose number is outside the range of the small letters of ASCII is none of them. -/
theorem isLower_ofNat {code : Nat} (outside : code < 97 ∨ 122 < code) :
    (Char.ofNat code).isLower = false := by
  have range (char : Char) : char.isLower =
      (decide ('a'.val ≤ char.val) && decide (char.val ≤ 'z'.val)) := rfl
  have first : 'a'.val.toNat = 97 := rfl
  have last : 'z'.val.toNat = 122 := rfl
  -- A number that is no character's gives the one of number zero.
  have number : (Char.ofNat code).val.toNat = code ∨ (Char.ofNat code).val.toNat = 0 := by
    by_cases valid : code.isValidChar
    · have same : Char.ofNat code = Char.ofNatAux code valid := dif_pos valid
      exact .inl (congrArg (fun char => char.val.toNat) same)
    · have same : Char.ofNat code = Char.ofNat 0x110000 := dif_neg valid
      exact .inr (congrArg (fun char => char.val.toNat) same)
  rw [range, Bool.and_eq_false_iff, decide_eq_false_iff_not, decide_eq_false_iff_not,
    UInt32.le_iff_toNat_le, UInt32.le_iff_toNat_le]
  omega

/-- A row of a table maps nothing to the number of a small letter of ASCII. -/
def avoidsLower (row : Nat × Nat × Nat × Nat) : Bool :=
  122 < row.2.2.2 || row.2.2.2 + (row.2.1 - row.1) < 97

/-- Rows that avoid the small letters of ASCII map no other character to one of them. -/
theorem isLower_imageIn {rows : List (Nat × Nat × Nat × Nat)} {code : Nat}
    (avoid : rows.all avoidsLower = true) (outside : 122 < code) :
    (Char.ofNat (imageIn rows code)).isLower = false := by
  apply isLower_ofNat
  unfold imageIn
  split
  · rename_i first last stride image found
    have bounds := List.find?_some found
    have apart := List.all_eq_true.mp avoid _ (List.mem_of_find?_eq_some found)
    simp only [avoidsLower, Bool.and_eq_true, Bool.or_eq_true, decide_eq_true_eq] at bounds apart
    omega
  · exact .inr outside

/-- No image in uppercase has a small letter of ASCII. -/
theorem isLower_of_mem_uppercase {char image : Char} (inside : image ∈ uppercase char) :
    image.isLower = false := by
  unfold uppercase at inside
  split at inside
  · rename_i ascii
    have known : ∀ code < 128, (Char.ofNat code).toUpper.isLower = false := by decide
    have upper := known char.toNat ascii
    rw [Char.ofNat_toNat] at upper
    exact List.mem_singleton.mp inside ▸ upper
  · rename_i beyond
    unfold fullImage at inside
    split at inside
    · rename_i expansion found
      have known : (uppercaseExpansions.all fun row =>
          row.2.all fun code => !(Char.ofNat code).isLower) = true := by decide +kernel
      obtain ⟨before, after, rows, -⟩ := List.lookup_eq_some_iff.mp found
      have listed : (char.toNat, expansion) ∈ uppercaseExpansions := by simp [rows]
      obtain ⟨code, there, rfl⟩ := List.mem_map.mp inside
      have lower := List.all_eq_true.mp (List.all_eq_true.mp known _ listed) code there
      simpa using lower
    · rw [List.mem_singleton.mp inside]
      exact isLower_imageIn (by decide +kernel) (by omega)

/-- A character has an image in uppercase. -/
theorem uppercase_ne_nil (char : Char) : uppercase char ≠ [] := by
  unfold uppercase
  split
  · exact List.cons_ne_nil _ _
  · unfold fullImage
    split
    · rename_i expansion found
      have known : (uppercaseExpansions.all fun row => !row.2.isEmpty) = true := by decide +kernel
      obtain ⟨before, after, rows, -⟩ := List.lookup_eq_some_iff.mp found
      have listed : (char.toNat, expansion) ∈ uppercaseExpansions := by simp [rows]
      have some := List.all_eq_true.mp known _ listed
      simpa using some
    · exact List.cons_ne_nil _ _

end Text

/-- A synthesized name of small letters is the name of the owner, since a capitalized name adds
another letter. -/
theorem TypeName.synthesized_eq_owner {owner property name : String}
    (same : synthesized owner property "" = name)
    (lower : name.toList.all Char.isLower = true) : name = owner := by
  subst same
  have parts : (synthesized owner property "").toList =
      owner.toList ++ Text.capitalize property.toList := by
    simp [synthesized]
  cases letters : property.toList with
  | nil =>
    rw [letters, Text.capitalize, List.append_nil] at parts
    exact String.toList_injective parts
  | cons char rest =>
    obtain ⟨first, more, image⟩ := List.exists_cons_of_ne_nil (Text.uppercase_ne_nil char)
    have inside : first ∈ (synthesized owner property "").toList := by
      rw [parts, letters, Text.capitalize_cons, image]
      simp
    have upper : first.isLower = false :=
      Text.isLower_of_mem_uppercase (image ▸ List.mem_cons_self)
    rw [List.all_eq_true.mp lower first inside] at upper
    contradiction

/-- A property is lifted both as an object and as an array only where the first lift has the name of
the owner: it refers to the lifted type, and an array is one by the name of its type. -/
theorem Lift.name_of_both {owner property : String} {value : PropertyValue} {first second : Lift}
    (object : Lift.object owner property value = .ok (some first))
    (item : Lift.item owner property first.value = .ok (some second)) :
    first.declaration.name = owner := by
  obtain ⟨facets, reference, named⟩ := refersTo_object object
  obtain ⟨others, fields, _, _, _, same, array, -⟩ := item_eq_some.mp item
  rw [reference] at same
  cases same
  obtain ⟨array, -⟩ := items?_eq_some.mp array
  rw [named, Option.bind_some] at array
  have whole : first.declaration.name = TypeExpr.arrayName := Option.some.inj array
  rw [whole]
  exact TypeName.synthesized_eq_owner ((name_object object).symm.trans whole) (by decide)

/-- Of the declarations that are lifted from a property all but the last one have the name of the
owner. -/
theorem Lifting.name_of_mem_dropLast {owner property : String} {value : PropertyValue}
    {declaration : Declaration} (success : (ofProperty owner property value).stopped = none)
    (inside : declaration ∈ (ofProperty owner property value).declarations.dropLast) :
    declaration.name = owner := by
  obtain ⟨object, item, first, second⟩ := exists_lifts success
  rw [ofProperty_of_ok first second] at inside
  cases object with
  | none => cases item <;> simp [declarationsOf] at inside
  | some outer =>
    cases item with
    | none => simp [declarationsOf] at inside
    | some inner =>
      have same : declaration = outer.declaration := by simpa [declarationsOf] using inside
      exact same ▸ Lift.name_of_both first second

/-! ## The tree of inline declarations -/

/-- An inline declaration with those inside it. -/
inductive Outline where
  /-- The name of the lifted type, and the declarations that are lifted from its properties. -/
  | type (name : String) (inside : List Outline)

namespace Outline

mutual

/-- The inline declarations of a type. An embedded schema has none. -/
def ofType (name : String) (declaration : Declaration) : List Outline :=
  if declaration.isEmbedded then [] else ofProperties name declaration.bareProperties.entries
termination_by 2 * declaration.properties.nesting + 1
decreasing_by
  have bound := declaration.properties.nesting_unmarkAll_le
  simp only [Properties.nesting, Declaration.bareProperties] at bound ⊢
  omega

/-- The trees of given declarations. -/
def ofDeclarations (given : List Declaration) : List Outline :=
  match given with
  | [] => []
  | declaration :: rest =>
    type declaration.name (ofType declaration.name declaration) :: ofDeclarations rest
termination_by Declaration.totalNesting given
decreasing_by
  all_goals
    simp only [Declaration.totalNesting]
    omega

/-- The inline declarations of the properties of an owner. -/
def ofProperties (owner : String) (entries : List (String × PropertyValue)) : List Outline :=
  match entries with
  | [] => []
  | (property, value) :: rest =>
    ofDeclarations (Lifting.ofProperty owner property value).declarations ++
      ofProperties owner rest
termination_by 2 * Properties.nestingOfEntries entries
decreasing_by
  · have bound := Lifting.totalNesting_ofProperty_le owner property value
    simp only [Properties.nestingOfEntries, Entries.weight, Properties.nestingOfProperty]
    omega
  · simp only [Properties.nestingOfEntries, Entries.weight, Properties.nestingOfProperty]
    omega

end

mutual

/-- The names that a walk in pre-order finds free, when some are taken: a free name is taken from
then on, and the walk goes on below it; it does not go below a taken one. -/
def freeNames : Outline → List String → List String
  | type name inside, taken =>
    if name ∈ taken then [] else name :: allFreeNames inside (taken ++ [name])

/-- The names that a walk through several trees finds free. -/
def allFreeNames : List Outline → List String → List String
  | [], _ => []
  | first :: rest, taken =>
    first.freeNames taken ++ allFreeNames rest (taken ++ first.freeNames taken)

end

/-- A walk goes through trees in order. -/
theorem allFreeNames_append (trees others : List Outline) (taken : List String) :
    allFreeNames (trees ++ others) taken =
      allFreeNames trees taken ++ allFreeNames others (taken ++ allFreeNames trees taken) := by
  induction trees generalizing taken with
  | nil => simp [allFreeNames]
  | cons first rest ih => simp only [List.cons_append, allFreeNames, ih, List.append_assoc]

/-- Types that are created first and walked through afterwards are found as by a walk that goes on
below each at once, when all of them but the last one have taken names. -/
theorem allFreeNames_ofDeclarations {owner property : String} {given : List Declaration}
    {taken : List String} {value : PropertyValue} {stopped : Option LiftError}
    (known : ∀ declaration ∈ given.dropLast, declaration.name ∈ taken) :
    let first := Trace.ofLifting owner property ⟨given, value, stopped⟩ taken
    allFreeNames (ofDeclarations given) taken = first.names ++
      allFreeNames (first.created.flatMap fun made => ofType made.name made)
        (taken ++ first.names) := by
  intro first
  simp only [first, Trace.names, Trace.created, Trace.ofLifting]
  induction given with
  | nil => simp [ofDeclarations, allFreeNames, Trace.lifts]
  | cons declaration rest ih =>
    rw [ofDeclarations, allFreeNames, freeNames]
    unfold Trace.lifts
    by_cases present : declaration.name ∈ taken
    · have later : ∀ other ∈ rest.dropLast, other.name ∈ taken := by
        cases rest with
        | nil => simp
        | cons => exact fun other inside => known other (List.mem_cons_of_mem _ inside)
      simpa [present] using ih later
    · -- Only the last declaration can have a free name.
      have alone : rest = [] := by
        cases rest with
        | nil => rfl
        | cons => exact absurd (known declaration List.mem_cons_self) present
      simp [alone, present, ofDeclarations, allFreeNames, Trace.lifts]

end Outline

/-- A resolution that no error ends creates the types that a walk through the tree of inline
declarations finds free. -/
theorem Trace.names_eq_all :
    (∀ name declaration taken, name ∈ taken → (ofType name declaration taken).stopped = none →
      (ofType name declaration taken).names =
        Outline.allFreeNames (Outline.ofType name declaration) taken) ∧
    (∀ owner entries taken, owner ∈ taken → (ofProperties owner entries taken).stopped = none →
      (ofProperties owner entries taken).names =
        Outline.allFreeNames (Outline.ofProperties owner entries) taken) ∧
    ∀ given taken, (∀ declaration ∈ given, declaration.name ∈ taken) →
      (ofTypes given taken).stopped = none → (ofTypes given taken).names =
        Outline.allFreeNames (given.flatMap fun made => Outline.ofType made.name made) taken := by
  refine ofType.mutual_induct
    (fun name declaration taken => name ∈ taken → (ofType name declaration taken).stopped = none →
      (ofType name declaration taken).names =
        Outline.allFreeNames (Outline.ofType name declaration) taken)
    (fun owner entries taken => owner ∈ taken → (ofProperties owner entries taken).stopped = none →
      (ofProperties owner entries taken).names =
        Outline.allFreeNames (Outline.ofProperties owner entries) taken)
    (fun given taken => (∀ declaration ∈ given, declaration.name ∈ taken) →
      (ofTypes given taken).stopped = none → (ofTypes given taken).names =
        Outline.allFreeNames (given.flatMap fun made => Outline.ofType made.name made) taken)
    ?absorbed ?malformed ?marked ?plain ?noProperties ?property ?noTypes ?type
  case absorbed =>
    intro name declaration taken embedded absorbed read _ _
    simp [ofType, embedded, read, Outline.ofType, Outline.allFreeNames, names, created]
  case malformed =>
    intro name declaration taken embedded cause read _ ended
    simp [ofType, embedded, read] at ended
  case marked =>
    intro name declaration taken plain cause stopped _ ended
    simp [ofType, plain, stopped] at ended
  case plain =>
    intro name declaration taken plain bare ih present ended
    have plain : declaration.isEmbedded = false := by simpa using plain
    rw [ofType_of_plain plain bare] at ended ⊢
    rw [ih present ended, Outline.ofType, plain, if_neg Bool.false_ne_true]
    rfl
  case noProperties =>
    intro owner taken _ _
    simp [ofProperties, Outline.ofProperties, Outline.allFreeNames, names, created]
  case property =>
    intro owner taken property value rest first inner _ ihInner ihRest present ended
    rw [ofProperties] at ended ⊢
    obtain ⟨lifted, ended⟩ := stopped_followedBy.mp ended
    obtain ⟨resolved, ended⟩ := stopped_followedBy.mp ended
    have success : (Lifting.ofProperty owner property value).stopped = none := by
      simpa [ofLifting] using lifted
    have known : ∀ declaration ∈ (Lifting.ofProperty owner property value).declarations.dropLast,
        declaration.name ∈ taken :=
      fun _ inside => Lifting.name_of_mem_dropLast success inside ▸ present
    have here : Outline.allFreeNames
        (Outline.ofDeclarations (Lifting.ofProperty owner property value).declarations) taken =
          first.names ++ inner.names := by
      rw [ihInner (fun made inside => List.mem_append_right _ (List.mem_map_of_mem inside))
        resolved]
      exact Outline.allFreeNames_ofDeclarations known
    rw [names_followedBy lifted, names_followedBy resolved, Outline.ofProperties,
      Outline.allFreeNames_append, here, ihRest (by simp [present]) ended]
    simp only [List.append_assoc, first, inner]
  case noTypes =>
    intro taken _ _
    simp [ofTypes, Outline.allFreeNames, names, created]
  case type =>
    intro taken declaration rest first ihFirst ihRest present ended
    rw [List.forall_mem_cons] at present
    rw [ofTypes] at ended ⊢
    obtain ⟨resolved, ended⟩ := stopped_followedBy.mp ended
    rw [names_followedBy resolved, List.flatMap_cons, Outline.allFreeNames_append,
      ← ihFirst present.1 resolved,
      ihRest (fun made inside => List.mem_append_left _ (present.2 made inside)) ended]

namespace Registry

/-- Types are created in pre-order. A resolution of a type that succeeds adds, in order, the names
that a walk through the tree of the type's inline declarations finds free: it goes through the
properties in the order of their bare names, at a free name goes on into the declaration before it
comes to the next one, and at a taken name does not go into it. -/
theorem resolve_creates_in_preorder (registry : Registry) (name : String) (type : Classified)
    (found : registry.get? name = some type) (success : (registry.resolve name).stopped = none) :
    (registry.resolve name).reached.keys = registry.keys ++
      Outline.allFreeNames (Outline.ofType name type.declaration) registry.keys := by
  have follows := follows_resolve found
  have present : name ∈ registry.keys := OrderedMap.mem_keys_iff.mpr ⟨type, found⟩
  have ended := follows.stopped_eq.symm.trans success
  have keys := follows.keys_eq
  rwa [keys_declarations, keys_declarations, Trace.names_eq_all.1 _ _ _ present ended] at keys

/-- The registry of the sample, with a type of a name that is synthesized inside it. -/
def sampleInnerTaken : Registry := sample.declare (.ofParts "PersonAddressGeo" none .empty)

/-- In the sample the items of the last property come after what is inside the first one, of which
the taken name is left out. -/
theorem resolve_creates_in_preorder_sample :
    sampleInnerTaken.get? "Person" = some (.ofDeclaration samplePerson) ∧
      (sampleInnerTaken.resolve "Person").stopped = none ∧
      (sampleInnerTaken.resolve "Person").reached.keys =
        ["Person", "PersonAddressGeo", "PersonAddress", "PersonPhonesItem"] ∧
      (sample.resolve "Person").reached.keys =
        ["Person", "PersonAddress", "PersonAddressGeo", "PersonPhonesItem"] := by
  have success : (sampleInnerTaken.resolve "Person").stopped = none :=
    Option.isNone_iff_eq_none.mp (by decide +kernel)
  refine ⟨rfl, success, ?_, ?_⟩
  · rw [resolve_creates_in_preorder sampleInnerTaken "Person" (.ofDeclaration samplePerson) rfl
      success]
    decide +kernel
  · rw [resolve_creates_in_preorder sample "Person" (.ofDeclaration samplePerson) rfl
      stopped_sample]
    decide +kernel

end Registry

end Raml
