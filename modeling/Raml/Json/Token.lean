import Raml.Json
import Raml.Json.Number
import Raml.Text.Radix

/-!
# Tokens of JSON text

JSON text is a row of marks and scalar values with blanks between them. A string, a word and a
number each extend as far as they can.
-/
namespace Raml

/-- A token of JSON text. -/
inductive JsonToken where
  | openArray
  | closeArray
  | openObject
  | closeObject
  | comma
  | colon
  /-- A string. -/
  | string (text : String)
  /-- A value that is neither a string nor a container. -/
  | scalar (value : JsonValue)

namespace JsonToken

/-- The value of four hexadecimal digits. -/
def unit? (first second third fourth : Char) : Option Nat :=
  Text.natural? 16 [first, second, third, fourth]

/-- The character that a backslash and a letter stand for. -/
def escaped? (letter : Char) : Option Char :=
  match letter with
  | '"' => some '"'
  | '\\' => some '\\'
  | '/' => some '/'
  | 'b' => some (Char.ofNat 8)
  | 'f' => some (Char.ofNat 12)
  | 'n' => some '\n'
  | 'r' => some '\r'
  | 't' => some '\t'
  | _ => none

/-- The character of the low unit of a surrogate pair, written after the high unit. -/
def lowUnit? (high : Nat) : List Char → Option (Char × List Char)
  | '\\' :: 'u' :: first :: second :: third :: fourth :: rest =>
    match unit? first second third fourth with
    | none => none
    | some low =>
      if 0xDC00 ≤ low ∧ low ≤ 0xDFFF then
        some (Char.ofNat (0x10000 + (high - 0xD800) * 1024 + (low - 0xDC00)), rest)
      else none
  | _ => none

/-- The character of an escape whose backslash has been read, and the text after it. Two units of a
surrogate pair stand for one character; a unit of a pair that stands alone is refused. -/
def escape? : List Char → Option (Char × List Char)
  | 'u' :: first :: second :: third :: fourth :: rest =>
    match unit? first second third fourth with
    | none => none
    | some unit =>
      if 0xDC00 ≤ unit ∧ unit ≤ 0xDFFF then none
      else if 0xD800 ≤ unit ∧ unit ≤ 0xDBFF then lowUnit? unit rest
      else some (Char.ofNat unit, rest)
  | letter :: rest => (escaped? letter).map fun char => (char, rest)
  | [] => none

/-- The text after a low unit is shorter. -/
theorem length_of_lowUnit? {high : Nat} {text after : List Char} {char : Char}
    (found : lowUnit? high text = some (char, after)) : after.length < text.length := by
  unfold lowUnit? at found
  repeat' split at found
  all_goals simp_all only [Option.some.injEq, Prod.mk.injEq, reduceCtorEq, List.length_cons]
  omega

/-- The text after an escape is shorter. -/
theorem length_of_escape? {text after : List Char} {char : Char}
    (found : escape? text = some (char, after)) : after.length < text.length := by
  unfold escape? at found
  split at found
  · split at found
    · contradiction
    · split at found
      · contradiction
      · split at found
        · have shorter := length_of_lowUnit? found
          simp only [List.length_cons]
          omega
        · simp only [Option.some.injEq, Prod.mk.injEq] at found
          simp only [← found.2, List.length_cons]
          omega
  · rename_i letter rest _
    cases known : escaped? letter with
    | none => simp [known] at found
    | some value =>
      simp only [known, Option.map_some, Option.some.injEq, Prod.mk.injEq] at found
      simp [← found.2]
  · contradiction

/-- The characters of a string up to its closing quote, and the text after it. A control must be
written by an escape. -/
def stringBody? : List Char → Option (List Char × List Char)
  | [] => none
  | char :: rest =>
    if char = '"' then some ([], rest)
    else if char = '\\' then
      match found : escape? rest with
      | none => none
      | some (value, after) =>
        have := length_of_escape? found
        (stringBody? after).map fun (body, last) => (value :: body, last)
    else if char.toNat < 32 then none
    else (stringBody? rest).map fun (body, last) => (char :: body, last)
termination_by text => text.length
decreasing_by
  · simp only [List.length_cons]
    omega
  · simp

/-- The text after a string is shorter than the string. -/
theorem length_of_stringBody? {text body after : List Char}
    (found : stringBody? text = some (body, after)) : after.length < text.length := by
  fun_induction stringBody? text generalizing body after with
  | case1 => contradiction
  | case2 rest =>
    simp only [Option.some.injEq, Prod.mk.injEq] at found
    simp [← found.2]
  | case3 => contradiction
  | case4 rest value next escaped shorter _ ih =>
    cases inner : stringBody? next with
    | none => simp [inner] at found
    | some read =>
      obtain ⟨later, last⟩ := read
      simp only [inner, Option.map_some, Option.some.injEq, Prod.mk.injEq] at found
      have step := ih inner
      simp only [← found.2, List.length_cons]
      omega
  | case5 => contradiction
  | case6 char rest _ _ _ ih =>
    cases inner : stringBody? rest with
    | none => simp [inner] at found
    | some read =>
      obtain ⟨later, last⟩ := read
      simp only [inner, Option.map_some, Option.some.injEq, Prod.mk.injEq] at found
      have step := ih inner
      simp only [← found.2, List.length_cons]
      omega

/-- A blank between tokens. -/
def isSpace (char : Char) : Bool := char = ' ' || char = '\n' || char = '\t' || char = '\r'

/-- A character of a number. -/
def isNumeric (char : Char) : Bool :=
  char.isDigit || char = '-' || char = '+' || char = '.' || char = 'e' || char = 'E'

/-- The value of a word. -/
def word? (letters : List Char) : Option JsonValue :=
  if letters = ['t', 'r', 'u', 'e'] then some (.bool true)
  else if letters = ['f', 'a', 'l', 's', 'e'] then some (.bool false)
  else if letters = ['n', 'u', 'l', 'l'] then some .null
  else none

/-- The mark that a character is. -/
def mark? (char : Char) : Option JsonToken :=
  match char with
  | '[' => some openArray
  | ']' => some closeArray
  | ',' => some comma
  | ':' => some colon
  | _ =>
    if char.toNat = 123 then some openObject
    else if char.toNat = 125 then some closeObject
    else none

/-- The tokens of a text. -/
def scan? : List Char → Option (List JsonToken)
  | [] => some []
  | char :: rest =>
    if isSpace char then scan? rest
    else match mark? char with
      | some mark => (scan? rest).map (mark :: ·)
      | none =>
        if char = '"' then
          match found : stringBody? rest with
          | none => none
          | some (body, after) =>
            have := length_of_stringBody? found
            (scan? after).map (string (String.ofList body) :: ·)
        else if char.isDigit || char = '-' then
          match JsonNumber.read? (char :: rest.takeWhile isNumeric) with
          | none => none
          | some number =>
            (scan? (rest.dropWhile isNumeric)).map (scalar (.number number) :: ·)
        else
          match word? (char :: rest.takeWhile Char.isAlpha) with
          | none => none
          | some value => (scan? (rest.dropWhile Char.isAlpha)).map (scalar value :: ·)
termination_by text => text.length
decreasing_by
  · simp
  · simp
  · simp only [List.length_cons]
    omega
  · have shorter := (List.dropWhile_sublist isNumeric (l := rest)).length_le
    simp only [List.length_cons]
    omega
  · have shorter := (List.dropWhile_sublist Char.isAlpha (l := rest)).length_le
    simp only [List.length_cons]
    omega

end JsonToken

end Raml
