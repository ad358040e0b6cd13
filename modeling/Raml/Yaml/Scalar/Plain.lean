import Raml.Yaml.Gap

/-!
# Plain scalars

A plain scalar has no marks around it. It ends at a colon before a gap, at a comment, at a line that
bounds a document, between brackets or braces at one of their marks, and elsewhere at a line that is
not indented far enough.
-/
namespace Raml.Yaml.Plain

/-- What is read of a plain scalar. -/
structure Reading where
  /-- The text from here on. -/
  text : List Char
  /-- Whether the scalar is followed by a line break. -/
  broken : Bool
  /-- What follows the scalar and the gap after it. -/
  rest : List Place

/-- Whether a character must not follow a colon between brackets or braces. -/
def isRefusedAfterColon (char : Char) : Bool := isFlowMark char || char = '?'

/-- Whether a colon is followed by a character that it must not be followed by. -/
def hasRefusedColon (char : Char) : List Place → Bool
  | next :: _ => char = ':' && isRefusedAfterColon next.char
  | [] => false

/-- Whether the word before a character is not continued by it. -/
def endsWord (flow : Bool) (char : Char) (rest : List Place) : Bool :=
  (char = ':' && atGap rest) || (flow && isFlowMark char)

/-- Whether a scalar is not continued by a word that starts here after a gap. -/
def endsAfterGap (flow : Bool) (least : Nat) (place : Place) (rest : List Place) : Bool :=
  (!flow && place.column < least) || atDocumentMark (place :: rest) || place.char = '#'

/-- Read a plain scalar after a gap. `flow` says whether it stands between brackets or braces, and
`least` is the least column of its further lines elsewhere. -/
def read? (flow : Bool) (least : Nat) : Gap → List Place → Option Reading
  | gap, [] => some ⟨[], gap.isBroken, []⟩
  | gap, place :: rest =>
    let char := place.char
    if isBlank char then
      if char = '\t' && gap.isBroken && place.column < least then none
      else read? flow least (gap.blank char) rest
    else if isBreak char then read? flow least (gap.lineBreak char) rest
    else if !gap.isNone && endsAfterGap flow least place rest then
      some ⟨[], gap.isBroken, place :: rest⟩
    else if flow && hasRefusedColon char rest then none
    else if endsWord flow char rest then some ⟨[], gap.isBroken, place :: rest⟩
    else
      (read? flow least .none rest).map fun reading =>
        { reading with text := gap.text ++ char :: reading.text }

/-- What follows a scalar is no longer than the scalar with it. -/
theorem length_of_read? {flow : Bool} {least : Nat} {gap : Gap} {places : List Place}
    {reading : Reading} (found : read? flow least gap places = some reading) :
    reading.rest.length ≤ places.length := by
  fun_induction read? flow least gap places generalizing reading with
  | case1 | case5 | case7 =>
    cases found
    simp
  | case2 | case6 => contradiction
  | case3 | case4 =>
    rename_i shorter
    exact Nat.le_succ_of_le (shorter found)
  | case8 =>
    rename_i shorter
    obtain ⟨inner, read, same⟩ := Option.map_eq_some_iff.mp found
    have step := shorter read
    exact same ▸ Nat.le_succ_of_le step

end Raml.Yaml.Plain
