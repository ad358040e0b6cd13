import Raml.Proofs.Text
import Raml.TypeExpr

/-!
# The conditions of the kinds

Each kind has a condition that says by itself which texts denote it, without an order in which kinds
are tried. No text meets the conditions of two kinds, and every text that meets none of the others
denotes one parent. The kind that is assigned to a text is the one whose condition it meets.
-/
namespace Raml.TypeExpr

open Text

/-- The trimmed text stands between braces. -/
def Braced (text : String) : Prop := ∃ body, trim text.toList = '{' :: body ++ ['}']

/-- The text is a list between square brackets, and the list holds no further one. -/
def Bracketed (text list : String) : Prop :=
  text = "[" ++ list ++ "]" ∧ '[' ∉ list.toList ∧ ']' ∉ list.toList

/-- The names in a comma list are its pieces that are not blank, trimmed. -/
def Lists (list : String) (names : List String) : Prop :=
  ∃ pieces, Pieces ',' list.toList pieces ∧
    names = (pieces.filter (¬Blank ·)).map fun piece => String.ofList (trim piece)

/-- The members of a union are the pieces between bars, trimmed; something stands before the first
bar. -/
def Joins (text : String) (members : List String) : Prop :=
  (∃ before after, text = before ++ "|" ++ after ∧ before ≠ "" ∧ '|' ∉ before.toList) ∧
    ∃ pieces, Pieces '|' text.toList pieces ∧
      members = pieces.map fun piece => String.ofList (trim piece)

/-- The condition of each kind that says something about the form of the text; one parent is what
remains. -/
def HasForm (text : String) : Kind → Prop
  | .unspecified =>
    Blank text.toList ∨ text = "[][]" ∨ ∃ list, Bracketed text list ∧ Lists list []
  | .embeddedSchema => Braced text
  | .object => text = "object"
  | .builtin scalar => text = scalar.name
  | .multipleInheritance parents =>
    2 ≤ parents.length ∧ ∃ list, Bracketed text list ∧ Lists list parents
  | .bidimensionalArray element => text = element ++ "[][]" ∧ element ≠ ""
  | .array none => text = "array"
  | .array (some element) =>
    text = element ++ "[]" ∧ element ≠ "" ∧ ∀ inner, element ≠ inner ++ "[]"
  | .union members =>
    ¬Braced text ∧ (∀ front, text ≠ front ++ "[]") ∧ (∀ list, ¬Bracketed text list) ∧
      Joins text members
  | .singleInheritance _ => False

/-- A text of no other form names one parent: the only name in the list between its brackets, or
itself when it is no such list. -/
def NamesParent (text parent : String) : Prop :=
  (∃ list, Bracketed text list ∧ Lists list [parent]) ∨
    (∀ list, ¬Bracketed text list) ∧ parent = text

/-- The condition of each kind. -/
def Denotes (text : String) : Kind → Prop
  | .singleInheritance parent => (∀ other, ¬HasForm text other) ∧ NamesParent text parent
  | kind => HasForm text kind

/-- A text meets the condition of a kind by its form, or it has none and names one parent. -/
theorem denotes_iff {text : String} {kind : Kind} :
    Denotes text kind ↔ HasForm text kind ∨
      (∀ other, ¬HasForm text other) ∧
        ∃ parent, kind = .singleInheritance parent ∧ NamesParent text parent := by
  cases kind <;> simp [Denotes, HasForm]

/-- A text ends in a given one exactly when it loses it as an ending. -/
theorem dropSuffix?_eq_some_iff {text ending front : String} :
    (text.dropSuffix? ending).map String.Slice.copy = some front ↔ text = front ++ ending := by
  rw [String.dropSuffix?_eq_dropSuffix?_toSlice, map_copy_dropSuffix?_eq_some, String.copy_toSlice]

/-- A text does not lose an ending exactly when it has another one. -/
theorem dropSuffix?_eq_none_iff {text ending : String} :
    text.dropSuffix? ending = none ↔ ∀ front, text ≠ front ++ ending := by
  rw [← Option.map_eq_none_iff (f := String.Slice.copy), Option.eq_none_iff_forall_ne_some]
  exact forall_congr' fun front => not_congr dropSuffix?_eq_some_iff

/-- The names that are read from a comma list are those that it lists. -/
theorem commaNames_eq_iff {list : String} {names : List String} :
    commaNames list = names ↔ Lists list names := by
  have same : commaNames list = ((list.toList.splitOn ',').filter (¬Blank ·)).map
      fun piece => String.ofList (trim piece) := by
    rw [commaNames, List.filter_map, List.map_map]
    refine congrArg (List.map fun piece => String.ofList (trim piece)) ?_
    apply List.filter_congr
    intro piece _
    rw [Function.comp_apply, Bool.eq_iff_iff]
    simp [trim_eq_nil]
  rw [same, Lists]
  constructor
  · rintro rfl
    exact ⟨_, splitOn_eq_iff.mp rfl, rfl⟩
  · rintro ⟨pieces, cut, rfl⟩
    rw [splitOn_eq_iff.mpr cut]

/-- A list is read from a text exactly when it is the list between its brackets. -/
theorem bracketed?_eq_some_iff {text list : String} :
    bracketed? text = some list ↔ Bracketed text list := by
  have bracket (chars : List Char) :
      (chars.any fun char => char = '[' || char = ']') = true ↔ '[' ∈ chars ∨ ']' ∈ chars := by
    simp [and_or_left, exists_or]
  simp only [bracketed?, Option.bind_eq_bind, Option.bind_eq_some_iff, bracket,
    Option.ite_none_left_eq_some, Option.some.injEq, not_or, Bracketed]
  constructor
  · rintro ⟨rest, opened, inner, closed, free, rfl⟩
    refine ⟨?_, free⟩
    have first : text = "[" ++ rest.copy := String.eq_append_of_dropPrefix?_string_eq_some opened
    have last : rest.copy = inner.copy ++ "]" :=
      String.Slice.eq_append_of_dropSuffix?_string_eq_some closed
    rw [first, last, String.append_assoc]
  · rintro ⟨same, free⟩
    have begins : text.toSlice.copy = "[" ++ (list ++ "]") := by
      rw [String.copy_toSlice, same, String.append_assoc]
    obtain ⟨rest, opened, left⟩ :=
      Option.map_eq_some_iff.mp (map_copy_dropPrefix?_eq_some.mpr begins)
    obtain ⟨inner, closed, rfl⟩ :=
      Option.map_eq_some_iff.mp (map_copy_dropSuffix?_eq_some.mpr left)
    exact ⟨rest, opened, inner, closed, free, rfl⟩

/-- No list is read from a text exactly when it is none between brackets. -/
theorem bracketed?_eq_none_iff {text : String} :
    bracketed? text = none ↔ ∀ list, ¬Bracketed text list := by
  rw [Option.eq_none_iff_forall_ne_some]
  exact forall_congr' fun list => not_congr bracketed?_eq_some_iff

/-- The characters of a list between brackets stand between brackets. -/
theorem Bracketed.toList_eq {text list : String} (bracketed : Bracketed text list) :
    text.toList = '[' :: (list.toList ++ [']']) := by
  rw [bracketed.1, String.toList_append, String.toList_append]
  rfl

/-- A text is taken for an embedded schema exactly when it stands between braces. -/
theorem isEmbeddedSchema_iff {text : String} : isEmbeddedSchema text = true ↔ Braced text := by
  simp only [isEmbeddedSchema, Braced, Bool.and_eq_true, decide_eq_true_eq]
  constructor
  · rintro ⟨first, last⟩
    obtain ⟨front, same⟩ := List.getLast?_eq_some_iff.mp last
    rw [same] at first ⊢
    cases front with
    | nil => simp at first
    | cons char body =>
      rw [List.cons_append, List.head?_cons, Option.some.injEq] at first
      exact ⟨body, by rw [first]⟩
  · rintro ⟨body, same⟩
    rw [same]
    exact ⟨rfl, List.getLast?_concat⟩

/-- A bar stands after the first character exactly when something stands before the first bar. -/
theorem hasInnerBar_iff {text : List Char} :
    hasInnerBar text = true ↔
      ∃ before after, text = before ++ '|' :: after ∧ before ≠ [] ∧ '|' ∉ before := by
  cases text with
  | nil => simp [hasInnerBar]
  | cons first rest =>
    simp only [hasInnerBar, Bool.and_eq_true, bne_iff_ne, List.contains_iff_mem]
    constructor
    · rintro ⟨other, inside⟩
      obtain ⟨before, after, rfl, free⟩ := List.eq_append_cons_of_mem inside
      refine ⟨first :: before, after, rfl, by simp, ?_⟩
      rw [List.mem_cons, not_or]
      exact ⟨other.symm, free⟩
    · rintro ⟨before, after, same, nonempty, free⟩
      cases before with
      | nil => contradiction
      | cons char others =>
        rw [List.cons_append, List.cons.injEq] at same
        rw [List.mem_cons, not_or] at free
        rw [same.1, same.2]
        exact ⟨free.1 ∘ Eq.symm, by simp⟩

/-- The members that are read from a text with an inner bar are those that it joins. -/
theorem joins_iff {text : String} {members : List String} :
    Joins text members ↔ hasInnerBar text.toList = true ∧ unionMembers text = members := by
  rw [Joins, hasInnerBar_iff]
  refine and_congr ?_ ?_
  · constructor
    · rintro ⟨before, after, same, nonempty, free⟩
      refine ⟨before.toList, after.toList, ?_, ?_, free⟩
      · rw [same, String.toList_append, String.toList_append, List.append_assoc]
        rfl
      · rwa [Ne, String.toList_eq_nil_iff]
    · rintro ⟨before, after, same, nonempty, free⟩
      refine ⟨String.ofList before, String.ofList after, ?_, ?_, ?_⟩
      · rw [← String.toList_inj, same]
        simp only [String.toList_append, String.toList_ofList, List.append_assoc]
        rfl
      · rwa [Ne, ← String.toList_eq_nil_iff, String.toList_ofList]
      · rwa [String.toList_ofList]
  · rw [unionMembers, List.map_map]
    constructor
    · rintro ⟨pieces, cut, rfl⟩
      rw [splitOn_eq_iff.mpr cut]
      rfl
    · rintro rfl
      exact ⟨_, splitOn_eq_iff.mp rfl, rfl⟩

section Marks

variable {text list : String} {char : Char}

/-- A text with a closing bracket or a bar is neither blank nor a keyword. -/
theorem not_keyword (inside : char ∈ text.toList) (mark : char = ']' ∨ char = '|') :
    ¬Blank text.toList ∧ text ≠ objectName ∧ text ≠ arrayName ∧
      ScalarType.ofName? text = none := by
  have keyword {name : String} (free : ']' ∉ name.toList ∧ '|' ∉ name.toList) : text ≠ name := by
    rintro rfl
    rcases mark with rfl | rfl
    · exact free.1 inside
    · exact free.2 inside
  have scalar : ∀ scalar : ScalarType,
      ']' ∉ scalar.name.toList ∧ '|' ∉ scalar.name.toList := by
    rintro ⟨⟩ <;> decide
  refine ⟨fun blank => ?_, keyword (by decide), keyword (by decide), ?_⟩
  · have blank := blank char inside
    rcases mark with rfl | rfl <;> exact absurd blank (by decide)
  · rw [Option.eq_none_iff_forall_ne_some]
    intro found same
    exact keyword (scalar found) (ScalarType.ofName?_eq_some.mp same)

/-- A text with a closing bracket or a bar has the kind of the list between its brackets or, when it
is no such list, that of a name. -/
theorem classify_of_mark (inside : char ∈ text.toList) (mark : char = ']' ∨ char = '|')
    (unbraced : ¬Braced text) :
    (∀ list, bracketed? text = some list →
        classify text = inheritance (commaNames list)) ∧
      (bracketed? text = none → classify text = classifyName text) := by
  obtain ⟨sharp, object, _, scalar⟩ := not_keyword inside mark
  have kept : ¬(trim text.toList).isEmpty = true := by
    rwa [List.isEmpty_iff, trim_eq_nil]
  have unschematic : ¬isEmbeddedSchema text = true := mt isEmbeddedSchema_iff.mp unbraced
  constructor
  · intro list read
    simp only [classify, if_neg kept, if_neg unschematic, if_neg object, scalar, read]
  · intro read
    simp only [classify, if_neg kept, if_neg unschematic, if_neg object, scalar, read]

/-- A text that ends in a closing bracket does not stand between braces. -/
theorem not_braced_of_closing {front : List Char} (closing : text.toList = front ++ [']']) :
    ¬Braced text := by
  rintro ⟨body, trimmed⟩
  obtain ⟨kept, same⟩ := exists_trim_concat (show isBlank ']' = false by decide) front
  rw [closing, same] at trimmed
  have last := (List.append_inj' trimmed rfl).2
  exact absurd last (by decide)

/-- A text that ends in a closing bracket has the kind of the list between its brackets or, when it
is no such list, that of a name. -/
theorem classify_of_closing {front : List Char} (closing : text.toList = front ++ [']']) :
    (∀ list, bracketed? text = some list →
        classify text = inheritance (commaNames list)) ∧
      (bracketed? text = none → classify text = classifyName text) := by
  have inside : ']' ∈ text.toList := closing ▸ List.mem_append_right _ (List.mem_singleton_self _)
  exact classify_of_mark inside (.inl rfl) (not_braced_of_closing closing)

/-- A list between brackets has the kind of its names. -/
theorem classify_of_bracketed (bracketed : Bracketed text list) {names : List String}
    (lists : Lists list names) : classify text = inheritance names := by
  have read := bracketed?_eq_some_iff.mpr bracketed
  have closing : text.toList = ('[' :: list.toList) ++ [']'] := bracketed.toList_eq
  rw [(classify_of_closing closing).1 _ read, commaNames_eq_iff.mpr lists]

/-- A text that ends in a pair of brackets after other characters is no list between brackets. -/
theorem not_bracketed_of_pair {front : String} (same : text = front ++ "[]") (apart : front ≠ "") :
    ∀ list, ¬Bracketed text list := by
  intro list bracketed
  have chars := bracketed.toList_eq
  rw [same, String.toList_append] at chars
  have nonempty : front.toList ≠ [] := mt String.toList_eq_nil_iff.mp apart
  cases start : front.toList with
  | nil => exact nonempty start
  | cons first rest =>
    rw [start, List.cons_append, List.cons.injEq] at chars
    have joined : (rest ++ ['[']) ++ [']'] = list.toList ++ [']'] := by
      rw [← chars.2, List.append_assoc]
      rfl
    have inner : rest ++ ['['] = list.toList := (List.append_inj' joined rfl).1
    exact bracketed.2.1 (inner ▸ List.mem_append_right _ (List.mem_singleton_self _))

end Marks

section Name

variable {text element : String}

/-- A name that ends in two pairs of brackets is an array of arrays. -/
theorem classifyName_of_pairs (same : text = element ++ "[][]") (nonempty : element ≠ "") :
    classifyName text = .bidimensionalArray element := by
  obtain ⟨front, dropped, rfl⟩ := Option.map_eq_some_iff.mp (dropSuffix?_eq_some_iff.mpr same)
  have kept : ¬front.isEmpty = true := mt String.Slice.copy_eq_empty_iff.mpr nonempty
  simp only [classifyName, dropped, if_neg kept]

/-- A name that does not end in two pairs of brackets is the keyword of arrays, an array, a union or
one parent. -/
theorem classifyName_of_not_pairs (other : ∀ front, text ≠ front ++ "[][]")
    (named : text ≠ arrayName) :
    classifyName text = match text.dropSuffix? "[]" with
      | some element => if element.isEmpty then .unspecified else .array (some element.copy)
      | none =>
        if hasInnerBar text.toList then .union (unionMembers text)
        else .singleInheritance text := by
  have kept : text.dropSuffix? "[][]" = none := dropSuffix?_eq_none_iff.mpr other
  rw [classifyName, kept]
  exact if_neg named

/-- What ends in two pairs of brackets ends in one. -/
theorem pair_of_pairs {front : String} (same : text = front ++ "[][]") :
    text = (front ++ "[]") ++ "[]" := by
  rw [same, String.append_assoc]
  rfl

/-- A name that ends in one pair of brackets only is an array. -/
theorem classifyName_of_pair (same : text = element ++ "[]") (nonempty : element ≠ "")
    (single : ∀ inner, element ≠ inner ++ "[]") :
    classifyName text = .array (some element) := by
  have other : ∀ front, text ≠ front ++ "[][]" := by
    intro front pairs
    have again := pair_of_pairs pairs
    rw [same, String.append_left_inj] at again
    exact single front again
  have inside : ']' ∈ text.toList := by
    rw [same, String.toList_append]
    exact List.mem_append_right _ (by decide)
  rw [classifyName_of_not_pairs other (not_keyword inside (.inl rfl)).2.2.1]
  obtain ⟨front, dropped, rfl⟩ := Option.map_eq_some_iff.mp (dropSuffix?_eq_some_iff.mpr same)
  have kept : ¬front.isEmpty = true := mt String.Slice.copy_eq_empty_iff.mpr nonempty
  simp only [dropped, if_neg kept]

/-- A name that does not end in a pair of brackets is the keyword of arrays, a union or one
parent. -/
theorem classifyName_of_open (other : ∀ front, text ≠ front ++ "[]") (named : text ≠ arrayName) :
    classifyName text =
      if hasInnerBar text.toList then .union (unionMembers text) else .singleInheritance text := by
  rw [classifyName_of_not_pairs (fun front pairs => other _ (pair_of_pairs pairs)) named,
    dropSuffix?_eq_none_iff.mpr other]

end Name

/-- A text of the form of a kind has that kind. -/
theorem classify_of_hasForm {text : String} {kind : Kind} (form : HasForm text kind) :
    classify text = kind := by
  cases kind with
  | unspecified =>
    rcases form with blank | rfl | ⟨list, bracketed, lists⟩
    · rw [classify, if_pos (List.isEmpty_iff.mpr (trim_eq_nil.mpr blank))]
    · decide +kernel
    · exact classify_of_bracketed bracketed lists
  | embeddedSchema =>
    obtain ⟨body, trimmed⟩ := form
    rw [classify, if_neg (by simp [trimmed]), if_pos (isEmbeddedSchema_iff.mpr ⟨body, trimmed⟩)]
  | object =>
    obtain rfl : text = "object" := form
    decide +kernel
  | builtin scalar =>
    obtain rfl : text = scalar.name := form
    cases scalar <;> decide +kernel
  | multipleInheritance parents =>
    obtain ⟨several, list, bracketed, lists⟩ := form
    rw [classify_of_bracketed bracketed lists]
    match parents, several with
    | _ :: _ :: _, _ => rfl
  | bidimensionalArray element =>
    obtain ⟨same, nonempty⟩ := form
    have closing : text.toList = (element ++ "[][").toList ++ [']'] := by
      rw [same, String.toList_append, String.toList_append, List.append_assoc]
      rfl
    have unbracketed := not_bracketed_of_pair (pair_of_pairs same) (by simp)
    rw [(classify_of_closing closing).2 (bracketed?_eq_none_iff.mpr unbracketed),
      classifyName_of_pairs same nonempty]
  | array element =>
    cases element with
    | none =>
      obtain rfl : text = "array" := form
      decide +kernel
    | some element =>
      obtain ⟨same, nonempty, single⟩ := form
      have closing : text.toList = (element ++ "[").toList ++ [']'] := by
        rw [same, String.toList_append, String.toList_append, List.append_assoc]
        rfl
      have unbracketed := not_bracketed_of_pair same nonempty
      rw [(classify_of_closing closing).2 (bracketed?_eq_none_iff.mpr unbracketed),
        classifyName_of_pair same nonempty single]
  | union members =>
    obtain ⟨unbraced, opened, unbracketed, joins⟩ := form
    obtain ⟨inner, rfl⟩ := joins_iff.mp joins
    have inside : '|' ∈ text.toList := by
      obtain ⟨before, after, same, _⟩ := hasInnerBar_iff.mp inner
      rw [same]
      simp
    rw [(classify_of_mark inside (.inr rfl) unbraced).2 (bracketed?_eq_none_iff.mpr unbracketed),
      classifyName_of_open opened (not_keyword inside (.inr rfl)).2.2.1, if_pos inner]
  | singleInheritance parent => exact absurd form id

/-- A name has the form of its kind, or it is one parent. -/
theorem hasForm_classifyName {text : String} (unbraced : ¬Braced text)
    (unbracketed : ∀ list, ¬Bracketed text list) :
    HasForm text (classifyName text) ∨ classifyName text = .singleInheritance text := by
  by_cases pairs : ∃ element, text = element ++ "[][]"
  · obtain ⟨element, same⟩ := pairs
    by_cases empty : element = ""
    · subst empty same
      have unnamed : classifyName ("" ++ "[][]") = .unspecified := by decide +kernel
      rw [unnamed]
      exact .inl (.inr (.inl rfl))
    · rw [classifyName_of_pairs same empty]
      exact .inl ⟨same, empty⟩
  by_cases named : text = arrayName
  · subst named
    have keyword : classifyName arrayName = .array none := by decide +kernel
    rw [keyword]
    exact .inl rfl
  by_cases pair : ∃ element, text = element ++ "[]"
  · obtain ⟨element, same⟩ := pair
    have nonempty : element ≠ "" := by
      rintro rfl
      exact unbracketed "" ⟨same, by decide, by decide⟩
    have single : ∀ inner, element ≠ inner ++ "[]" := by
      rintro inner rfl
      refine pairs ⟨inner, ?_⟩
      rw [same, String.append_assoc]
      rfl
    rw [classifyName_of_pair same nonempty single]
    exact .inl ⟨same, nonempty, single⟩
  have opened : ∀ front, text ≠ front ++ "[]" := fun front same => pair ⟨front, same⟩
  rw [classifyName_of_open opened named]
  split
  · rename_i inner
    exact .inl ⟨unbraced, opened, unbracketed, joins_iff.mpr ⟨inner, rfl⟩⟩
  · exact .inr rfl

/-- A list between brackets has the form of the kind of its names, or it is one parent. -/
theorem hasForm_inheritance {text list : String} {names : List String}
    (bracketed : Bracketed text list) (lists : Lists list names) :
    HasForm text (inheritance names) ∨
      ∃ parent, inheritance names = .singleInheritance parent ∧ Lists list [parent] := by
  match names, lists with
  | [], lists => exact .inl (.inr (.inr ⟨list, bracketed, lists⟩))
  | [parent], lists => exact .inr ⟨parent, rfl, lists⟩
  | _ :: _ :: _, lists => exact .inl ⟨by simp, list, bracketed, lists⟩

/-- A text that has none of the forms denotes one parent. -/
theorem classify_of_formless {text : String} (formless : ∀ kind, ¬HasForm text kind) :
    ∃ parent, classify text = .singleInheritance parent ∧ NamesParent text parent := by
  have sharp : ¬(trim text.toList).isEmpty = true := fun empty =>
    formless .unspecified (.inl (trim_eq_nil.mp (List.isEmpty_iff.mp empty)))
  have unbraced : ¬Braced text := formless .embeddedSchema
  have object : text ≠ objectName := formless .object
  have scalar : ScalarType.ofName? text = none := by
    rw [Option.eq_none_iff_forall_ne_some]
    exact fun found same => formless (.builtin found) (ScalarType.ofName?_eq_some.mp same)
  simp only [classify, if_neg sharp, if_neg (mt isEmbeddedSchema_iff.mp unbraced), if_neg object,
    scalar]
  cases read : bracketed? text with
  | some list =>
    have bracketed : Bracketed text list := bracketed?_eq_some_iff.mp read
    have lists : Lists list (commaNames list) := commaNames_eq_iff.mp rfl
    obtain ⟨parent, same, alone⟩ :=
      (hasForm_inheritance bracketed lists).resolve_left (formless _)
    exact ⟨parent, same, .inl ⟨list, bracketed, alone⟩⟩
  | none =>
    have unbracketed := bracketed?_eq_none_iff.mp read
    exact ⟨text, (hasForm_classifyName unbraced unbracketed).resolve_left (formless _),
      .inr ⟨unbracketed, rfl⟩⟩

/-- A text names one parent at most. -/
theorem NamesParent.unique {text parent other : String} (left : NamesParent text parent)
    (right : NamesParent text other) : parent = other := by
  rcases left with ⟨list, bracketed, lists⟩ | ⟨unbracketed, rfl⟩
  · rcases right with ⟨again, there, listed⟩ | ⟨unbracketed, _⟩
    · have first := classify_of_bracketed bracketed lists
      have second := classify_of_bracketed there listed
      exact Kind.singleInheritance.inj (first.symm.trans second)
    · exact absurd bracketed (unbracketed list)
  · rcases right with ⟨list, there, _⟩ | ⟨_, rfl⟩
    · exact absurd there (unbracketed list)
    · rfl

/-- The kind of a text is the one whose condition it meets. -/
theorem classify_eq_iff {text : String} {kind : Kind} :
    classify text = kind ↔ Denotes text kind := by
  rw [denotes_iff]
  by_cases known : ∃ form, HasForm text form
  · obtain ⟨form, has⟩ := known
    constructor
    · rintro rfl
      exact .inl ((classify_of_hasForm has).symm ▸ has)
    · rintro (other | ⟨formless, _⟩)
      · exact classify_of_hasForm other
      · exact absurd has (formless form)
  · obtain ⟨parent, single, named⟩ := classify_of_formless fun form has => known ⟨form, has⟩
    constructor
    · rintro rfl
      exact .inr ⟨fun other has => known ⟨other, has⟩, parent, single, named⟩
    · rintro (has | ⟨_, other, rfl, alike⟩)
      · exact absurd ⟨kind, has⟩ known
      · rw [single, named.unique alike]

/-- The first kind that is tried with success is the one whose condition holds by itself. A text has
a kind exactly when it meets the condition of that kind, which no order of the kinds enters; no text
meets the conditions of two kinds, and each meets one. The names of built-in types are the texts of
the kinds of objects and scalars. -/
theorem classify_by_conditions (text : String) :
    (∀ kind, classify text = kind ↔ Denotes text kind) ∧
      (∀ kind other, Denotes text kind → Denotes text other → kind = other) ∧
      (∃ kind, Denotes text kind) ∧
      (isBuiltin text = true ↔
        classify text = .object ∨ ∃ scalar, classify text = .builtin scalar) := by
  refine ⟨fun _ => classify_eq_iff, fun kind other left right => ?_, ⟨_, classify_eq_iff.mp rfl⟩,
    ?_⟩
  · exact (classify_eq_iff.mpr left).symm.trans (classify_eq_iff.mpr right)
  · simp only [classify_eq_iff, isBuiltin, Bool.or_eq_true, decide_eq_true_eq,
      Option.isSome_iff_exists, ScalarType.ofName?_eq_some]
    rfl

end Raml.TypeExpr
