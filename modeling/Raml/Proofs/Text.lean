import Mathlib.Data.List.DropRight
import Raml.Text.Blank

/-!
# Laws of splitting, endings and trimming

A text is split into the only pieces without a separator that give the text back when they are
joined. It loses a beginning or an ending exactly when it has it. Trimming leaves nothing exactly of
a blank text, and it touches neither a character that is no blank nor anything beyond it.
-/
namespace Raml.Text

/-- The pieces between the separators of a text: none holds a separator, and joined by the separator
they give the text. -/
structure Pieces (separator : Char) (text : List Char) (pieces : List (List Char)) : Prop where
  /-- There is a piece. -/
  nonempty : pieces ≠ []
  /-- No piece holds a separator. -/
  free : ∀ piece ∈ pieces, separator ∉ piece
  /-- Joined they give the text. -/
  joined : [separator].intercalate pieces = text

/-- No piece that a text is split into holds the separator. -/
theorem not_mem_of_mem_splitOn {separator : Char} {text piece : List Char}
    (inside : piece ∈ text.splitOn separator) : separator ∉ piece := by
  induction text generalizing piece with
  | nil =>
    rw [List.splitOn_nil, List.mem_singleton] at inside
    simp [inside]
  | cons char rest ih =>
    rw [List.splitOn_cons_eq_if_modifyHead] at inside
    split at inside
    · rcases List.mem_cons.mp inside with rfl | later
      · exact List.not_mem_nil
      · exact ih later
    · rename_i other
      obtain ⟨first, others, pieces⟩ :=
        List.exists_cons_of_ne_nil (List.splitOn_ne_nil separator rest)
      rw [pieces] at ih
      rw [pieces, List.modifyHead_cons] at inside
      rcases List.mem_cons.mp inside with rfl | later
      · have apart : separator ≠ char := fun same => other (beq_iff_eq.mpr same.symm)
        rw [List.mem_cons, not_or]
        exact ⟨apart, ih List.mem_cons_self⟩
      · exact ih (List.mem_cons_of_mem _ later)

/-- Splitting a text gives the pieces between its separators, and no other list is that. -/
theorem splitOn_eq_iff {separator : Char} {text : List Char} {pieces : List (List Char)} :
    text.splitOn separator = pieces ↔ Pieces separator text pieces := by
  constructor
  · rintro rfl
    exact ⟨List.splitOn_ne_nil separator text, fun _ => not_mem_of_mem_splitOn,
      List.intercalate_splitOn separator⟩
  · rintro ⟨nonempty, free, rfl⟩
    exact List.splitOn_intercalate separator free nonempty

/-- What stands in joined pieces is the separator or stands in one of them. -/
theorem mem_of_mem_intercalate {separator char : Char} {pieces : List (List Char)}
    (inside : char ∈ [separator].intercalate pieces) :
    char = separator ∨ ∃ piece ∈ pieces, char ∈ piece := by
  induction pieces with
  | nil => simp [List.intercalate] at inside
  | cons piece others ih =>
    cases others with
    | nil => exact .inr ⟨piece, List.mem_singleton_self _, by simpa [List.intercalate] using inside⟩
    | cons next rest =>
      rw [List.intercalate_cons_cons, List.append_assoc, List.mem_append, List.mem_append,
        List.mem_singleton] at inside
      rcases inside with here | same | later
      · exact .inr ⟨piece, List.mem_cons_self, here⟩
      · exact .inl same
      · exact (ih later).imp_right fun ⟨other, there, held⟩ =>
          ⟨other, List.mem_cons_of_mem _ there, held⟩

/-- What is left of a text that loses an ending is what stands before the ending. -/
theorem map_copy_dropSuffix?_eq_some {text : String.Slice} {ending front : String} :
    (text.dropSuffix? ending).map String.Slice.copy = some front ↔
      text.copy = front ++ ending := by
  constructor
  · intro left
    obtain ⟨slice, dropped, rfl⟩ := Option.map_eq_some_iff.mp left
    exact String.Slice.eq_append_of_dropSuffix?_string_eq_some dropped
  · intro same
    cases dropped : text.dropSuffix? ending with
    | none =>
      have endless := String.Slice.dropSuffix?_eq_none_iff.mp dropped
      have ends : text.endsWith ending = true := by
        rw [String.Slice.endsWith_string_iff, same, String.toList_append]
        exact List.suffix_append _ _
      rw [ends] at endless
      contradiction
    | some slice =>
      have again := String.Slice.eq_append_of_dropSuffix?_string_eq_some dropped
      rw [same, String.append_left_inj] at again
      rw [Option.map_some, again]

/-- What is left of a text that loses a beginning is what stands after the beginning. -/
theorem map_copy_dropPrefix?_eq_some {text : String.Slice} {beginning rest : String} :
    (text.dropPrefix? beginning).map String.Slice.copy = some rest ↔
      text.copy = beginning ++ rest := by
  constructor
  · intro left
    obtain ⟨slice, dropped, rfl⟩ := Option.map_eq_some_iff.mp left
    exact String.Slice.eq_append_of_dropPrefix?_string_eq_some dropped
  · intro same
    cases dropped : text.dropPrefix? beginning with
    | none =>
      have startless := String.Slice.dropPrefix?_eq_none_iff.mp dropped
      have starts : text.startsWith beginning = true := by
        rw [String.Slice.startsWith_string_iff, same, String.toList_append]
        exact List.prefix_append _ _
      rw [starts] at startless
      contradiction
    | some slice =>
      have again := String.Slice.eq_append_of_dropPrefix?_string_eq_some dropped
      rw [same, String.append_right_inj] at again
      rw [Option.map_some, again]

/-- A text of blanks. -/
def Blank (text : List Char) : Prop := ∀ char ∈ text, isBlank char = true

/-- A text is finite, so it can be tested for blanks. -/
instance (text : List Char) : Decidable (Blank text) := inferInstanceAs (Decidable (∀ _ ∈ _, _))

/-- Trimming leaves nothing exactly of a blank text. -/
theorem trim_eq_nil {text : List Char} : trim text = [] ↔ Blank text := by
  have back : trim text = [] ↔ Blank (trimStart text) := List.rdropWhile_eq_nil_iff
  rw [back]
  constructor
  · intro blank
    -- What is removed at the front is blank, and so is what is left.
    have front : trimStart text = [] := by
      cases kept : trimStart text with
      | nil => rfl
      | cons char rest =>
        have sharp := List.head?_dropWhile_not isBlank text
        rw [trimStart] at kept
        rw [kept] at sharp
        rw [trimStart, kept] at blank
        simp [blank char List.mem_cons_self] at sharp
    exact List.dropWhile_eq_nil_iff.mp front
  · intro blank
    have empty : trimStart text = [] := List.dropWhile_eq_nil_iff.mpr blank
    rw [empty]
    exact nofun

/-- Trimming does not add characters. -/
theorem mem_of_mem_trim {text : List Char} {char : Char} (inside : char ∈ trim text) :
    char ∈ text := by
  have back := (List.dropWhile_sublist isBlank).subset (List.mem_reverse.mp inside)
  exact (List.dropWhile_sublist isBlank).subset (List.mem_reverse.mp back)

/-- Blanks at the ends of a text are trimmed with those that it has itself. -/
theorem trim_padded {before after : List Char} (blankBefore : Blank before)
    (blankAfter : Blank after) (text : List Char) :
    trim (before ++ text ++ after) = trim text := by
  have front : trimStart (before ++ text ++ after) = trimStart (text ++ after) := by
    rw [trimStart, List.append_assoc, List.dropWhile_append_of_pos blankBefore, trimStart]
  have back (kept : List Char) : trimEnd (kept ++ after) = trimEnd kept := by
    have blank : ∀ char ∈ after.reverse, isBlank char = true := fun char inside =>
      blankAfter char (List.mem_reverse.mp inside)
    rw [trimEnd, List.reverse_append, List.dropWhile_append_of_pos blank, trimEnd]
  rw [trim, front, trim]
  cases kept : trimStart text with
  | nil =>
    have blank : trimStart (text ++ after) = [] := by
      rw [trimStart, List.dropWhile_eq_nil_iff] at kept ⊢
      exact List.forall_mem_append.mpr ⟨kept, blankAfter⟩
    rw [blank]
  | cons char rest =>
    have stopped : trimStart (text ++ after) = trimStart text ++ after := by
      rw [trimStart, List.dropWhile_append, ← trimStart, kept, List.isEmpty_cons]
      rfl
    rw [stopped, back, kept]

/-- A last character that is no blank stays the last one. -/
theorem exists_trim_concat {char : Char} (sharp : isBlank char = false) (front : List Char) :
    ∃ kept, trim (front ++ [char]) = kept ++ [char] := by
  have start : ∃ kept, trimStart (front ++ [char]) = kept ++ [char] := by
    rw [trimStart, List.dropWhile_append]
    split
    · exact ⟨[], by simp [sharp]⟩
    · exact ⟨_, rfl⟩
  obtain ⟨kept, started⟩ := start
  refine ⟨kept, ?_⟩
  rw [trim, started]
  exact List.rdropWhile_concat_neg isBlank kept char (by simp [sharp])

end Raml.Text
