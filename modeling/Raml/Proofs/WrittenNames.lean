import Raml.Node.Expression
import Raml.Proofs.TypeExpr

/-!
# Reading written names back

Names without marks and without blanks at their ends can be written as a list between brackets or,
with bars, as a union, and blanks may stand on both sides of each. Whoever classifies the text finds
the names again, in their order.
-/
namespace Raml.TypeExpr

open Text

/-- The marks of lists, unions and schemas. -/
def listMarks : List Char := [',', '|', '[', ']', '{', '}']

/-- A name that may be listed: it is not empty, begins and ends with no blank and holds no mark. -/
structure ListName where
  /-- The text of the name. -/
  text : String
  /-- There is a text. -/
  nonempty : text ≠ ""
  /-- No blank stands at its ends. -/
  trimmed : trim text.toList = text.toList
  /-- No mark stands in it. -/
  free : ∀ mark ∈ listMarks, mark ∉ text.toList

/-- A name with blanks on both sides. -/
structure PaddedName where
  /-- The name. -/
  name : ListName
  /-- What stands before it. -/
  before : List Char
  /-- What stands after it. -/
  after : List Char
  /-- Only blanks stand before it. -/
  blankBefore : Blank before
  /-- Only blanks stand after it. -/
  blankAfter : Blank after

/-- A mark is no blank. -/
theorem sharp_of_mem_listMarks {mark : Char} (listed : mark ∈ listMarks) :
    isBlank mark = false := by
  have sharp : listMarks.all (fun mark => !isBlank mark) = true := by decide
  simpa using List.all_eq_true.mp sharp mark listed

namespace PaddedName

/-- The characters of a name and the blanks on its sides. -/
def chars (padded : PaddedName) : List Char :=
  padded.before ++ padded.name.text.toList ++ padded.after

/-- The text of a name and the blanks on its sides. -/
def text (padded : PaddedName) : String := String.ofList padded.chars

/-- A name without blanks on its sides. -/
def bare (name : ListName) : PaddedName := ⟨name, [], [], nofun, nofun⟩

/-- Without blanks on its sides a name is as it was. -/
theorem text_bare (name : ListName) : (bare name).text = name.text := by
  simp [text, chars, bare]

variable (padded : PaddedName)

/-- Trimming leaves the name. -/
theorem trim_chars : trim padded.chars = padded.name.text.toList := by
  rw [chars, trim_padded padded.blankBefore padded.blankAfter, padded.name.trimmed]

/-- Between the blanks there is a name. -/
theorem not_blank : ¬Blank padded.chars := by
  rw [← trim_eq_nil, trim_chars, String.toList_eq_nil_iff]
  exact padded.name.nonempty

/-- A mark stands neither in the name nor among the blanks. -/
theorem not_mem_chars {mark : Char} (listed : mark ∈ listMarks) : mark ∉ padded.chars := by
  have apart {blanks : List Char} (blank : Blank blanks) : mark ∉ blanks := by
    intro inside
    have sharp := sharp_of_mem_listMarks listed
    rw [blank mark inside] at sharp
    contradiction
  rw [chars, List.mem_append, List.mem_append, not_or, not_or]
  exact ⟨⟨apart padded.blankBefore, padded.name.free mark listed⟩, apart padded.blankAfter⟩

end PaddedName

/-! ## Joined names -/

section Joined

variable {list : List PaddedName} {separator mark : Char}

/-- The names with their blanks, joined by a separator. -/
def joined (separator : Char) (list : List PaddedName) : String :=
  (String.singleton separator).intercalate (list.map PaddedName.text)

/-- The characters of joined names. -/
theorem toList_joined (separator : Char) (list : List PaddedName) :
    (joined separator list).toList = [separator].intercalate (list.map PaddedName.chars) := by
  have texts : String.toList ∘ PaddedName.text = PaddedName.chars :=
    funext fun padded => String.toList_ofList
  rw [joined, String.toList_intercalate, String.toList_singleton, List.map_map, texts]

/-- The names with their blanks are the pieces between the separators. -/
theorem pieces_joined (nonempty : list ≠ []) (listed : separator ∈ listMarks) :
    Pieces separator (joined separator list).toList (list.map PaddedName.chars) where
  nonempty := by simpa using nonempty
  free := by
    rw [List.forall_mem_map]
    exact fun padded _ => padded.not_mem_chars listed
  joined := (toList_joined separator list).symm

/-- The names are what trimming leaves of the pieces. -/
theorem map_trim_chars (list : List PaddedName) :
    (list.map PaddedName.chars).map (fun piece => String.ofList (trim piece)) =
      list.map fun padded => padded.name.text := by
  rw [List.map_map]
  refine List.map_congr_left fun padded _ => ?_
  rw [Function.comp_apply, padded.trim_chars, String.ofList_toList]

/-- No mark but the separator stands in joined names. -/
theorem not_mem_joined (listed : mark ∈ listMarks) (apart : mark ≠ separator) :
    mark ∉ (joined separator list).toList := by
  rw [toList_joined]
  intro inside
  rcases mem_of_mem_intercalate inside with same | ⟨piece, there, held⟩
  · exact apart same
  · obtain ⟨padded, -, rfl⟩ := List.mem_map.mp there
    exact padded.not_mem_chars listed held

/-- Names that are joined by commas are listed. -/
theorem lists_joined (nonempty : list ≠ []) :
    Lists (joined ',' list) (list.map fun padded => padded.name.text) := by
  have sharp : (list.map PaddedName.chars).filter (¬Blank ·) = list.map PaddedName.chars := by
    rw [List.filter_eq_self, List.forall_mem_map]
    exact fun padded _ => decide_eq_true padded.not_blank
  refine ⟨_, pieces_joined nonempty (by decide), ?_⟩
  rw [sharp, map_trim_chars]

/-- Between brackets, names that are joined by commas are a list. -/
theorem bracketed_joined (list : List PaddedName) :
    Bracketed ("[" ++ joined ',' list ++ "]") (joined ',' list) :=
  ⟨rfl, not_mem_joined (by decide) (by decide), not_mem_joined (by decide) (by decide)⟩

/-- Names that are joined by bars are a union. -/
theorem joins_joined (several : 2 ≤ list.length) :
    Joins (joined '|' list) (list.map fun padded => padded.name.text) := by
  match list, several with
  | first :: second :: rest, _ =>
    refine ⟨⟨first.text, joined '|' (second :: rest), String.intercalate_cons_cons, ?_, ?_⟩,
      _, pieces_joined (by simp) (by decide), (map_trim_chars _).symm⟩
    · intro empty
      have blank : first.chars = [] := by
        rw [← String.toList_ofList (l := first.chars), ← PaddedName.text, empty]
        rfl
      exact first.not_blank (by simp [blank, Blank])
    · rw [PaddedName.text, String.toList_ofList]
      exact first.not_mem_chars (by decide)

/-- Names that are joined by bars have the form of a union and of nothing that is tried before. -/
theorem hasForm_joined (several : 2 ≤ list.length) :
    HasForm (joined '|' list) (.union (list.map fun padded => padded.name.text)) := by
  refine ⟨?_, ?_, ?_, joins_joined several⟩
  · rintro ⟨body, trimmed⟩
    have opening : '{' ∈ trim (joined '|' list).toList := by simp [trimmed]
    exact not_mem_joined (by decide) (by decide) (mem_of_mem_trim opening)
  · intro front same
    have closing : ']' ∈ (joined '|' list).toList := by simp [same]
    exact not_mem_joined (by decide) (by decide) closing
  · rintro inner ⟨same, -⟩
    have closing : ']' ∈ (joined '|' list).toList := by simp [same]
    exact not_mem_joined (by decide) (by decide) closing

end Joined

/-- A sequence of names stands for the list of the names without blanks. -/
theorem expression_sequence (names : List ListName) :
    Node.expression (.sequence (names.map fun name => .string name.text)) =
      "[" ++ joined ',' (names.map PaddedName.bare) ++ "]" := by
  have texts : (names.map PaddedName.bare).map PaddedName.text = names.map ListName.text := by
    rw [List.map_map]
    exact List.map_congr_left fun name _ => PaddedName.text_bare name
  rw [Node.expression, Node.expressions_eq_map, List.map_map, joined, texts]
  rfl

/-- A list of names between brackets, with whatever blanks, has the kind of its names. -/
theorem classify_joined {list : List PaddedName} (nonempty : list ≠ []) :
    classify ("[" ++ joined ',' list ++ "]") =
      inheritance (list.map fun padded => padded.name.text) :=
  classify_of_bracketed (bracketed_joined list) (lists_joined nonempty)

/-- Several names inherit from several types. -/
theorem inheritance_of_several {names : List String} (several : 2 ≤ names.length) :
    inheritance names = .multipleInheritance names := by
  match names, several with
  | _ :: _ :: _, _ => rfl

/-- A sequence of names has the kind of its names. -/
theorem classify_sequence {names : List ListName} (nonempty : names ≠ []) :
    classify (Node.expression (.sequence (names.map fun name => .string name.text))) =
      inheritance (names.map ListName.text) := by
  have bare : (names.map PaddedName.bare).map (fun padded => padded.name.text) =
      names.map ListName.text := by
    rw [List.map_map]
    rfl
  rw [expression_sequence, classify_joined (by simpa using nonempty), bare]

/-- Classification reads back the names that were written. Several names, each with whatever blanks
on its sides, are read back in their order from the sequence of the names, from the list of the
names between brackets, and, as a union, from the names between bars. The sequence of one name
inherits from that one. -/
theorem classify_written (list : List PaddedName) :
    (2 ≤ list.length →
      classify (Node.expression (.sequence (list.map fun padded => .string padded.name.text))) =
          .multipleInheritance (list.map fun padded => padded.name.text) ∧
        classify ("[" ++ ",".intercalate (list.map PaddedName.text) ++ "]") =
          .multipleInheritance (list.map fun padded => padded.name.text) ∧
        classify ("|".intercalate (list.map PaddedName.text)) =
          .union (list.map fun padded => padded.name.text)) ∧
      ∀ name : ListName, classify (Node.expression (.sequence [.string name.text])) =
        .singleInheritance name.text := by
  constructor
  · intro several
    have nonempty : list ≠ [] := by
      rintro rfl
      contradiction
    have inherits : inheritance (list.map fun padded => padded.name.text) =
        .multipleInheritance (list.map fun padded => padded.name.text) :=
      inheritance_of_several (by simpa using several)
    refine ⟨?_, ?_, classify_of_hasForm (hasForm_joined several)⟩
    · have named : list.map PaddedName.name ≠ [] := by simpa using nonempty
      have read := classify_sequence named
      rw [List.map_map, List.map_map] at read
      exact read.trans inherits
    · exact (classify_joined nonempty).trans inherits
  · intro name
    have read := classify_sequence (List.cons_ne_nil name [])
    rwa [List.map_singleton, List.map_singleton] at read

/-- The name of a cat. -/
def catName : ListName := ⟨"Cat", by decide, by decide, by simp [listMarks]⟩

/-- A name with a blank inside. -/
def dogName : ListName := ⟨"Big Dog", by decide, by decide, by simp [listMarks]⟩

/-- Two names with a tabulator, a line end and spaces around them. -/
def paddedSample : List PaddedName :=
  [⟨catName, [' '], ['\t', '\n'], by simp [Blank, isBlank], by simp [Blank, isBlank]⟩,
    ⟨dogName, [], [' ', ' '], nofun, by simp [Blank, isBlank]⟩]

/-- The two names are read back. -/
theorem classify_written_sample :
    2 ≤ paddedSample.length ∧
      classify "[Cat,Big Dog]" = .multipleInheritance ["Cat", "Big Dog"] ∧
      classify "[ Cat\t\n,Big Dog  ]" = .multipleInheritance ["Cat", "Big Dog"] ∧
      classify " Cat\t\n|Big Dog  " = .union ["Cat", "Big Dog"] ∧
      classify "[Cat]" = .singleInheritance "Cat" := by
  obtain ⟨several, single⟩ := classify_written paddedSample
  obtain ⟨sequence, list, union⟩ := several (by decide)
  exact ⟨by decide, sequence, list, union, single catName⟩

end Raml.TypeExpr
