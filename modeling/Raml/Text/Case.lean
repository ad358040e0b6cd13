import Raml.Text.CaseTable

/-!
# Changing the case of a text

Full case mappings: an uppercase or lowercase image may have more than one character. The final
sigma is the one rule that looks at the neighbours: a capital sigma that ends a word becomes `ς`.
-/
namespace Raml.Text

/-- The image of a code point under the rows of a table, itself when no row has it. -/
def imageIn (rows : List (Nat × Nat × Nat × Nat)) (code : Nat) : Nat :=
  match rows.find? fun (first, last, stride, _) =>
      first ≤ code && code ≤ last && (code - first) % stride = 0 with
  | some (first, _, _, image) => image + (code - first)
  | none => code

/-- Whether one of the ranges, ends included, has the code point. -/
def inRanges (ranges : List (Nat × Nat)) (code : Nat) : Bool :=
  ranges.any fun (first, last) => first ≤ code && code ≤ last

/-- The image of a code point under a list of expansions and the rows of a table. -/
def fullImage (expansions : List (Nat × List Nat)) (rows : List (Nat × Nat × Nat × Nat))
    (code : Nat) : List Char :=
  match expansions.lookup code with
  | some image => image.map Char.ofNat
  | none => [Char.ofNat (imageIn rows code)]

/-- The uppercase image of a character. -/
def uppercase (char : Char) : List Char :=
  if char.toNat < 128 then [char.toUpper]
  else fullImage uppercaseExpansions uppercaseRows char.toNat

/-- The lowercase image of a character away from a word's end. -/
def lowercaseChar (char : Char) : List Char :=
  if char.toNat < 128 then [char.toLower]
  else fullImage lowercaseExpansions lowercaseRows char.toNat

/-- Whether a character is a letter with a case. -/
def isCased (char : Char) : Bool :=
  if char.toNat < 128 then char.isAlpha else inRanges casedRanges char.toNat

/-- Whether a character is skipped in the search for a neighbouring letter. -/
def isCaseIgnorable (char : Char) : Bool := inRanges caseIgnorableRanges char.toNat

/-- Whether the nearest character that is not skipped is a letter with a case. -/
def startsCased (neighbours : List Char) : Bool :=
  match neighbours.dropWhile isCaseIgnorable with
  | char :: _ => isCased char
  | [] => false

/-- The lowercase image of a text whose characters already read are given in reverse. -/
def lowercaseAfter (before : List Char) : List Char → List Char
  | [] => []
  | char :: rest =>
    (if char = 'Σ' then
      if startsCased before && !startsCased rest then ['ς'] else ['σ']
    else lowercaseChar char) ++ lowercaseAfter (char :: before) rest

/-- The lowercase image of a text. -/
def lowercase (text : List Char) : List Char := lowercaseAfter [] text

/-- The text with its first character in uppercase. -/
def capitalize : List Char → List Char
  | [] => []
  | char :: rest => uppercase char ++ rest

/-- A text keeps everything after its first character. -/
theorem capitalize_cons (char : Char) (rest : List Char) :
    capitalize (char :: rest) = uppercase char ++ rest := rfl

end Raml.Text
