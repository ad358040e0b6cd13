/-!
# Blank characters and trimming

A character is blank when the Unicode Character Database gives it the property White_Space.
Trimming removes the blank characters at both ends of a text.
-/
namespace Raml.Text

/-- A blank is a control that moves the cursor, a space of any width, or a line or paragraph
separator. -/
def isBlank (char : Char) : Bool :=
  let code := char.toNat
  (9 ≤ code && code ≤ 13) || code = 32 || code = 133 || code = 160 || code = 5760 ||
    (8192 ≤ code && code ≤ 8202) || code = 8232 || code = 8233 || code = 8239 || code = 8287 ||
    code = 12288

/-- Remove the blanks at the front. -/
def trimStart (text : List Char) : List Char := text.dropWhile isBlank

/-- Remove the blanks at the back. -/
def trimEnd (text : List Char) : List Char := (text.reverse.dropWhile isBlank).reverse

/-- Remove the blanks at both ends. -/
def trim (text : List Char) : List Char := trimEnd (trimStart text)

end Raml.Text
