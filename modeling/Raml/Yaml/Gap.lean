import Raml.Yaml.Place

/-!
# Gaps in scalars

Between two words of a scalar stand blanks or line breaks. Blanks are kept when no line break is
among them; otherwise all blanks are dropped and the breaks are folded: a single break is read as a
space, and of several breaks the first is dropped. A first break that is no line feed is kept as it
is, and one that a backslash escapes leaves nothing.
-/
namespace Raml.Yaml

/-- What stands between two words of a scalar. -/
inductive Gap where
  /-- Blanks, the last one first. -/
  | blanks (chars : List Char)
  /-- A line break, unless it is escaped, and the further breaks, the last one first. -/
  | breaks (first : Option Char) (others : List Char)

namespace Gap

/-- Nothing between two characters of a word. -/
def none : Gap := blanks []

/-- Whether nothing stands here. -/
def isNone : Gap → Bool
  | blanks chars => chars.isEmpty
  | breaks _ _ => false

/-- Whether a line ends here. -/
def isBroken : Gap → Bool
  | blanks _ => false
  | breaks _ _ => true

/-- The gap with one more blank. -/
def blank (char : Char) : Gap → Gap
  | blanks chars => blanks (char :: chars)
  | breaks first others => breaks first others

/-- The gap with one more line break. -/
def lineBreak (char : Char) : Gap → Gap
  | blanks _ => breaks (some char) []
  | breaks first others => breaks first (char :: others)

/-- Folded line breaks: the first one, and the others in reverse order. -/
def foldBreaks (first : Option Char) (others : List Char) : List Char :=
  if first = some '\n' then if others.isEmpty then [' '] else others.reverse
  else first.toList ++ others.reverse

/-- What a gap is read as. -/
def text : Gap → List Char
  | blanks chars => chars.reverse
  | breaks first others => foldBreaks first others

end Gap

end Raml.Yaml
