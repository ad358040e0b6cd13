import Raml.Text.Radix
import Raml.Yaml.Gap

/-!
# Quoted scalars

In single quotes a quote is written twice and all else stands for itself. In double quotes a
backslash escapes a character or a line break. The blanks before the closing quote are kept.
-/
namespace Raml.Yaml.Quoted

/-- The character that a letter after a backslash stands for. -/
def named? (letter : Char) : Option Char :=
  match letter with
  | '0' => some (Char.ofNat 0x00)
  | 'a' => some (Char.ofNat 0x07)
  | 'b' => some (Char.ofNat 0x08)
  | 't' | '\t' => some '\t'
  | 'n' => some '\n'
  | 'v' => some (Char.ofNat 0x0B)
  | 'f' => some (Char.ofNat 0x0C)
  | 'r' => some '\r'
  | 'e' => some (Char.ofNat 0x1B)
  | 'N' => some (Char.ofNat 0x85)
  | '_' => some (Char.ofNat 0xA0)
  | 'L' => some (Char.ofNat 0x2028)
  | 'P' => some (Char.ofNat 0x2029)
  | ' ' | '"' | '/' | '\\' => some letter
  | _ => none

/-- How many hexadecimal digits follow a letter after a backslash. -/
def digitCount? (letter : Char) : Option Nat :=
  match letter with
  | 'x' => some 2
  | 'u' => some 4
  | 'U' => some 8
  | _ => none

/-- The character of a code point. -/
def character? (code : Nat) : Option Char :=
  if code < 0xD800 || (0xDFFF < code && code ≤ 0x10FFFF) then some (Char.ofNat code) else none

/-- The character that is escaped by a backslash before a text, and what follows. -/
def escape? : List Place → Option (Char × List Place)
  | [] => none
  | letter :: rest =>
    match digitCount? letter.char with
    | none => (named? letter.char).map fun char => (char, rest)
    | some count =>
      let digits := (rest.take count).map Place.char
      if digits.length < count then none
      else ((Text.natural? 16 digits).bind character?).map fun char => (char, rest.drop count)

/-- What follows an escaped character is shorter. -/
theorem length_of_escape? {places after : List Place} {char : Char}
    (found : escape? places = some (char, after)) : after.length < places.length := by
  cases places with
  | nil => simp [escape?] at found
  | cons letter rest =>
    simp only [escape?] at found
    split at found
    · obtain ⟨value, _, same⟩ := Option.map_eq_some_iff.mp found
      cases same
      simp
    · split at found
      · contradiction
      · obtain ⟨value, _, same⟩ := Option.map_eq_some_iff.mp found
        cases same
        simp only [List.length_drop, List.length_cons]
        omega

/-- The single quote. -/
def singleQuote : Char := Char.ofNat 0x27

/-- Read a scalar in single quotes after a gap. -/
def readSingle? : Gap → List Place → Option (List Char × List Place)
  | _, [] => none
  | gap, place :: rest =>
    let char := place.char
    if isBlank char then readSingle? (gap.blank char) rest
    else if isBreak char then readSingle? (gap.lineBreak char) rest
    else if atDocumentMark (place :: rest) then none
    else if char ≠ singleQuote then
      (readSingle? .none rest).map fun (text, last) => (gap.text ++ char :: text, last)
    else match rest with
      | [] => some (gap.text, [])
      | next :: after =>
        if next.char = singleQuote then
          (readSingle? .none after).map fun (text, last) => (gap.text ++ char :: text, last)
        else some (gap.text, next :: after)

/-- Read a scalar in double quotes after a gap. -/
def readDouble? (gap : Gap) (places : List Place) : Option (List Char × List Place) :=
  match places with
  | [] => none
  | place :: rest =>
    let char := place.char
    if isBlank char then readDouble? (gap.blank char) rest
    else if isBreak char then readDouble? (gap.lineBreak char) rest
    else if atDocumentMark (place :: rest) then none
    else if char = '"' then some (gap.text, rest)
    else if char = '\\' then
      match rest with
      | [] => none
      | next :: after =>
        if isBreak next.char then
          (readDouble? (.breaks none []) after).map fun (text, last) => (gap.text ++ text, last)
        else match found : escape? (next :: after) with
          | none => none
          | some (value, later) =>
            have := length_of_escape? found
            (readDouble? .none later).map fun (text, last) => (gap.text ++ value :: text, last)
    else (readDouble? .none rest).map fun (text, last) => (gap.text ++ char :: text, last)
termination_by places.length
decreasing_by all_goals simp_all only [List.length_cons]; omega

/-- What follows a scalar in single quotes is no longer than the scalar with it. -/
theorem length_of_readSingle? {gap : Gap} {places after : List Place} {text : List Char}
    (found : readSingle? gap places = some (text, after)) : after.length ≤ places.length := by
  fun_induction readSingle? gap places generalizing text after with
  | case1 | case4 => contradiction
  | case2 | case3 =>
    rename_i shorter
    exact Nat.le_succ_of_le (shorter found)
  | case5 | case7 =>
    rename_i shorter
    obtain ⟨inner, read, same⟩ := Option.map_eq_some_iff.mp found
    have step := shorter read
    cases same
    simp only [List.length_cons]
    omega
  | case6 | case8 =>
    cases found
    simp

/-- What follows a scalar in double quotes is no longer than the scalar with it. -/
theorem length_of_readDouble? {gap : Gap} {places after : List Place} {text : List Char}
    (found : readDouble? gap places = some (text, after)) : after.length ≤ places.length := by
  fun_induction readDouble? gap places generalizing text after with
  | case1 | case4 | case6 | case8 => contradiction
  | case2 | case3 =>
    rename_i shorter
    exact Nat.le_succ_of_le (shorter found)
  | case5 =>
    cases found
    simp
  | case7 | case9 | case10 =>
    rename_i shorter
    obtain ⟨inner, read, same⟩ := Option.map_eq_some_iff.mp found
    have step := shorter read
    cases same
    simp_all only [List.length_cons]
    omega

end Raml.Yaml.Quoted
