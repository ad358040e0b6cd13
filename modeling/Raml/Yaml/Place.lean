/-!
# YAML text

YAML text is read as a list of characters that know the line and the column they stand at. A
carriage return, alone or before a line feed, and the character U+0085 are read as a line feed; the
separators U+2028 and U+2029 end a line as well and are kept. A byte order mark that starts a line
is passed over between tokens, but it has a column like any other character.
-/
namespace Raml.Yaml

/-- A character at its place. -/
structure Place where
  /-- The character. -/
  char : Char
  /-- The number of lines above it. -/
  line : Nat
  /-- The number of characters before it in its line. -/
  column : Nat
  /-- The number of bytes before it in its line. -/
  offset : Nat
  deriving DecidableEq

/-- Whether a character may stand in YAML text: controls other than tabs and line breaks may not. -/
def isAllowed (char : Char) : Bool :=
  let code := char.toNat
  code = 0x9 || code = 0xA || code = 0xD || (0x20 ≤ code && code ≤ 0x7E) || code = 0x85 ||
    (0xA0 ≤ code && code ≤ 0xFFFD) || 0x10000 ≤ code

/-- Whether a character ends a line. -/
def isBreak (char : Char) : Bool := char = '\n' || char.toNat = 0x2028 || char.toNat = 0x2029

/-- Whether a character separates words in a line. -/
def isBlank (char : Char) : Bool := char = ' ' || char = '\t'

/-- Whether a character belongs to names. -/
def isWord (char : Char) : Bool := char.isAlphanum || char = '_' || char = '-'

/-- The brace that opens a mapping. -/
def openBrace : Char := Char.ofNat 0x7B

/-- The brace that closes a mapping. -/
def closeBrace : Char := Char.ofNat 0x7D

/-- Whether a character separates or bounds the entries of collections in braces and brackets. -/
def isFlowMark (char : Char) : Bool :=
  char = ',' || char = '[' || char = ']' || char = openBrace || char = closeBrace

/-- Text in which a line feed ends every line. -/
def unifyBreaks : List Char → List Char
  | [] => []
  | '\r' :: '\n' :: rest => '\n' :: unifyBreaks rest
  | char :: rest =>
    (if char = '\r' || char.toNat = 0x85 then '\n' else char) :: unifyBreaks rest

/-- The characters of a text that starts at a line, a column and an offset. -/
def placesFrom (line column offset : Nat) : List Char → List Place
  | [] => []
  | char :: rest =>
    ⟨char, line, column, offset⟩ ::
      if isBreak char then placesFrom (line + 1) 0 0 rest
      else placesFrom line (column + 1) (offset + char.utf8Size) rest

/-- The characters of YAML text. -/
def places? (text : String) : Option (List Place) :=
  if text.toList.all isAllowed then some (placesFrom 0 0 0 (unifyBreaks text.toList)) else none

/-- Whether a byte order mark starts a line here. -/
def Place.isByteOrderMark (place : Place) : Bool := place.column = 0 && place.char.toNat = 0xFEFF

/-- Whether a blank, a line break or nothing follows. -/
def atGap : List Place → Bool
  | [] => true
  | place :: _ => isBlank place.char || isBreak place.char

/-- Whether a line that bounds a document starts here: three dashes or three dots alone. -/
def atDocumentMark : List Place → Bool
  | first :: second :: third :: rest =>
    first.column = 0 && (first.char = '-' || first.char = '.') &&
      second.char = first.char && third.char = first.char && atGap rest
  | _ => false

/-- What follows a comment, if one starts here. -/
def afterComment : List Place → List Place
  | [] => []
  | place :: rest =>
    if place.char = '#' then rest.dropWhile fun next : Place => !isBreak next.char
    else place :: rest

/-- What follows a line of which only blanks and a comment are left. -/
def afterLine? (places : List Place) : Option (List Place) :=
  match afterComment (places.dropWhile fun place => isBlank place.char) with
  | [] => some []
  | place :: rest => if isBreak place.char then some rest else none

/-- What follows a comment is no longer than the text with it. -/
theorem length_afterComment_le (places : List Place) :
    (afterComment places).length ≤ places.length := by
  cases places with
  | nil => simp [afterComment]
  | cons place rest =>
    have shorter := (List.dropWhile_sublist (fun next : Place => !isBreak next.char)
      (l := rest)).length_le
    simp only [afterComment]
    split
    · exact Nat.le_succ_of_le shorter
    · simp

/-- What follows a line is no longer than the text with it. -/
theorem length_of_afterLine? {places after : List Place} (found : afterLine? places = some after) :
    after.length ≤ places.length := by
  have blanks := (List.dropWhile_sublist (fun place : Place => isBlank place.char)
    (l := places)).length_le
  have comment := length_afterComment_le (places.dropWhile fun place => isBlank place.char)
  simp only [afterLine?] at found
  split at found
  · simp_all
  · rename_i place rest same
    obtain ⟨_, inside⟩ := Option.ite_none_right_eq_some.mp found
    cases inside
    simp only [same, List.length_cons] at comment
    omega

end Raml.Yaml
