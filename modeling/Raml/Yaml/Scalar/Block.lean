import Raml.Text.Radix
import Raml.Yaml.Gap

/-!
# Block scalars

A block scalar is made of the lines that are indented as far as its first line, or as far as its
header says. A literal one keeps its line breaks. A folded one reads them as the gaps of other
scalars are read, except next to a line that starts with a blank. The header says which of the last
line breaks are kept.
-/
namespace Raml.Yaml.Block

/-- Which line breaks are kept at the end. -/
inductive Chomping where
  /-- None of them. -/
  | strip
  /-- The break of the last line. -/
  | clip
  /-- Those of the last line and of the empty lines after it. -/
  | keep
  deriving DecidableEq

/-- What follows the mark of a block scalar. -/
structure Header where
  /-- Which line breaks are kept at the end. -/
  chomping : Chomping
  /-- How much further than the collection around it the scalar is indented, when that is given. -/
  indentation : Option Nat

/-- The chomping that a character stands for. -/
def chomping? (char : Char) : Option Chomping :=
  if char = '-' then some .strip else if char = '+' then some .keep else none

/-- The indentation that a digit gives, which is not zero. -/
def indentation? (char : Char) : Option Nat := (Text.digit? 10 char).filter (0 < ·)

/-- The mark that a text starts with, if it does, and what follows. -/
def takeMark {α : Type} (mark? : Char → Option α) (places : List Place) : Option α × List Place :=
  match places with
  | [] => (none, [])
  | place :: rest =>
    match mark? place.char with
    | some mark => (some mark, rest)
    | none => (none, place :: rest)

/-- The header of a block scalar, and what follows in its line. The two marks stand in either
order. -/
def header (places : List Place) : Header × List Place :=
  let (before, rest) := takeMark chomping? places
  let (indentation, rest) := takeMark indentation? rest
  let (after, rest) := if before.isSome then (none, rest) else takeMark chomping? rest
  (⟨(before <|> after).getD .clip, indentation⟩, rest)

/-- The greatest number of spaces in front of one of the empty lines at the front or the first other
line, and a given number. A tab may not stand in front of such a line. -/
def widest? (column : Nat) : List Place → Option Nat
  | [] => some column
  | place :: rest =>
    if place.char = ' ' then widest? (max column (place.column + 1)) rest
    else if place.char = '\t' then none
    else if isBreak place.char then widest? column rest
    else some column

/-- What stands between two lines. -/
structure Seam where
  /-- The break at the end of the line above. -/
  last : Option Char
  /-- The breaks of the empty lines, the last one first. -/
  empty : List Char
  /-- Whether the line above starts with a blank. -/
  indented : Bool

/-- All line breaks between two lines. -/
def Seam.breaks (seam : Seam) : List Char := seam.last.toList ++ seam.empty.reverse

/-- What a seam is read as before a line that starts with a given character. -/
def Seam.text (folded : Bool) (next : Char) (seam : Seam) : List Char :=
  if folded && !seam.indented && !isBlank next then Gap.foldBreaks seam.last seam.empty
  else seam.breaks

/-- What a seam is read as at the end. -/
def Seam.chomped (chomping : Chomping) (seam : Seam) : List Char :=
  match chomping with
  | .strip => []
  | .clip => seam.last.toList
  | .keep => seam.breaks

/-- A place in a block scalar. -/
inductive Position where
  /-- Between two lines. -/
  | between (seam : Seam)
  /-- In a line, which starts with a blank or does not. -/
  | inside (indented : Bool)

/-- What is read of a block scalar. -/
structure Reading where
  /-- The text from here on. -/
  text : List Char
  /-- What follows the last line. -/
  seam : Seam
  /-- What follows the scalar. -/
  rest : List Place

/-- Read the lines of a block scalar that is indented as far as a column. -/
def lines? (folded : Bool) (column : Nat) : Position → List Place → Option Reading
  | .between seam, [] => some ⟨[], seam, []⟩
  | .inside indented, [] => some ⟨[], ⟨none, [], indented⟩, []⟩
  | .between seam, place :: rest =>
    let char := place.char
    if place.column < column && char = ' ' then lines? folded column (.between seam) rest
    else if place.column < column && char = '\t' then none
    else if isBreak char then
      lines? folded column (.between { seam with empty := char :: seam.empty }) rest
    else if place.column = column then
      (lines? folded column (.inside (isBlank char)) rest).map fun reading =>
        { reading with text := seam.text folded char ++ char :: reading.text }
    else some ⟨[], seam, place :: rest⟩
  | .inside indented, place :: rest =>
    let char := place.char
    if isBreak char then lines? folded column (.between ⟨some char, [], indented⟩) rest
    else
      (lines? folded column (.inside indented) rest).map fun reading =>
        { reading with text := char :: reading.text }

/-- The column of a block scalar whose lines follow. `least` is the least column inside the
collection around it. -/
def column? (least : Nat) (indentation : Option Nat) (places : List Place) : Option Nat :=
  match indentation with
  | some count => some (least - 1 + count)
  | none => (widest? 0 places).map fun column => max column (max least 1)

/-- Read a block scalar whose mark has been read. -/
def read? (folded : Bool) (least : Nat) (places : List Place) :
    Option (List Char × List Place) := do
  let (header, rest) := header places
  let body ← afterLine? rest
  let column ← column? least header.indentation body
  let reading ← lines? folded column (.between ⟨none, [], false⟩) body
  return (reading.text ++ reading.seam.chomped header.chomping, reading.rest)

/-- What follows a mark is no longer than the text with it. -/
theorem length_takeMark_le {α : Type} (mark? : Char → Option α) (places : List Place) :
    (takeMark mark? places).2.length ≤ places.length := by
  unfold takeMark
  repeat' split
  all_goals simp

/-- What follows a header is no longer than the text with it. -/
theorem length_header_le (places : List Place) : (header places).2.length ≤ places.length := by
  have first := length_takeMark_le chomping? places
  have second := length_takeMark_le indentation? (takeMark chomping? places).2
  have third := length_takeMark_le chomping?
    (takeMark indentation? (takeMark chomping? places).2).2
  simp only [header]
  split
  · exact Nat.le_trans second first
  · exact Nat.le_trans third (Nat.le_trans second first)

/-- What follows the lines of a block scalar is no longer than the text with them. -/
theorem length_of_lines? {folded : Bool} {column : Nat} {position : Position}
    {places : List Place} {reading : Reading}
    (found : lines? folded column position places = some reading) :
    reading.rest.length ≤ places.length := by
  fun_induction lines? folded column position places generalizing reading with
  | case1 | case2 | case7 =>
    cases found
    simp
  | case4 => contradiction
  | case3 | case5 | case8 =>
    rename_i shorter
    exact Nat.le_succ_of_le (shorter found)
  | case6 | case9 =>
    rename_i shorter
    obtain ⟨inner, read, same⟩ := Option.map_eq_some_iff.mp found
    have step := shorter read
    exact same ▸ Nat.le_succ_of_le step

/-- What follows a block scalar is no longer than the text with it. -/
theorem length_of_read? {folded : Bool} {least : Nat} {places after : List Place}
    {text : List Char} (found : read? folded least places = some (text, after)) :
    after.length ≤ places.length := by
  simp only [read?, Option.bind_eq_bind, Option.bind_eq_some_iff, Option.pure_def,
    Option.some.injEq, Prod.mk.injEq] at found
  obtain ⟨body, line, column, _, reading, read, _, rfl⟩ := found
  have first := length_header_le places
  have second := length_of_afterLine? line
  have third := length_of_lines? read
  omega

end Raml.Yaml.Block
