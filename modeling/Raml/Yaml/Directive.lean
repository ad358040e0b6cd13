import Raml.Yaml.Tag

/-!
# Directives

A directive in front of a document gives the version of its text, or says what a handle of tags
stands for.
-/
namespace Raml.Yaml

/-- A directive. -/
inductive Directive where
  /-- The version of the text. -/
  | version
  /-- What a handle stands for. -/
  | handle (name start : String)
  deriving DecidableEq

namespace Directive

/-- The text after the blanks at the front. -/
def afterBlanks (places : List Place) : List Place :=
  places.dropWhile fun place => isBlank place.char

/-- At most nine decimal digits, and what follows. -/
def number? (places : List Place) : Option (Nat × List Place) :=
  let digits := places.takeWhile fun place => place.char.isDigit
  if 9 < digits.length then none
  else (Text.natural? 10 (digits.map Place.char)).map fun value =>
    (value, places.dropWhile fun place => place.char.isDigit)

/-- The rest of a directive that gives the version, which is 1.1 or 1.2. -/
def version? (places : List Place) : Option (Directive × List Place) :=
  match number? places with
  | some (1, ⟨'.', _, _, _⟩ :: rest) =>
    match number? rest with
    | some (minor, after) => if minor = 1 || minor = 2 then some (version, after) else none
    | none => none
  | _ => none

/-- A handle, and what follows. -/
def handleName? : List Place → Option (String × List Place)
  | ⟨'!', _, _, _⟩ :: rest => some ((WrittenTag.namedHandle? rest).getD ("!", rest))
  | _ => none

/-- The rest of a directive that says what a handle stands for. -/
def handle? (places : List Place) : Option (Directive × List Place) :=
  match handleName? places with
  | some (name, blank :: rest) =>
    if isBlank blank.char then
      match WrittenTag.fullPart? true (afterBlanks rest) with
      | some (start, after) => if atGap after then some (handle name start, after) else none
      | none => none
    else none
  | _ => none

/-- Read a directive whose percent sign has been read, up to the end of its line. -/
def read? (places : List Place) : Option (Directive × List Place) :=
  let name := String.ofList ((places.takeWhile fun place => isWord place.char).map Place.char)
  let rest := places.dropWhile fun place => isWord place.char
  if !atGap rest then none
  else
    let found :=
      if name = "YAML" then version? (afterBlanks rest)
      else if name = "TAG" then handle? (afterBlanks rest)
      else none
    found.bind fun (directive, left) => (afterLine? left).map fun after => (directive, after)

/-- What follows the blanks is no longer than the text with them. -/
theorem length_afterBlanks_le (places : List Place) :
    (afterBlanks places).length ≤ places.length :=
  (List.dropWhile_sublist _).length_le

/-- What follows a number is no longer than the text with it. -/
theorem length_of_number? {places after : List Place} {value : Nat}
    (found : number? places = some (value, after)) : after.length ≤ places.length := by
  simp only [number?] at found
  split at found
  · contradiction
  · obtain ⟨_, _, same⟩ := Option.map_eq_some_iff.mp found
    cases same
    exact (List.dropWhile_sublist _).length_le

/-- What follows a version is no longer than the text with it. -/
theorem length_of_version? {places after : List Place} {directive : Directive}
    (found : version? places = some (directive, after)) : after.length ≤ places.length := by
  simp only [version?] at found
  split at found
  · rename_i major
    split at found
    · rename_i minor
      obtain ⟨_, same⟩ := Option.ite_none_right_eq_some.mp found
      cases same
      have first := length_of_number? major
      have second := length_of_number? minor
      simp only [List.length_cons] at first
      omega
    · contradiction
  · contradiction

/-- What follows a handle is no longer than the text with it. -/
theorem length_of_handleName? {places after : List Place} {name : String}
    (found : handleName? places = some (name, after)) : after.length ≤ places.length := by
  unfold handleName? at found
  split at found
  · rename_i rest
    cases named : WrittenTag.namedHandle? rest with
    | none =>
      simp only [named, Option.getD_none, Option.some.injEq, Prod.mk.injEq] at found
      simp [← found.2]
    | some value =>
      simp only [named, Option.getD_some, Option.some.injEq] at found
      subst found
      exact Nat.le_succ_of_le (WrittenTag.length_of_namedHandle? named)
  · contradiction

/-- What follows the meaning of a handle is no longer than the text with it. -/
theorem length_of_handle? {places after : List Place} {directive : Directive}
    (found : handle? places = some (directive, after)) : after.length ≤ places.length := by
  simp only [handle?] at found
  split at found
  · rename_i blank rest named
    obtain ⟨_, found⟩ := Option.ite_none_right_eq_some.mp found
    split at found
    · rename_i part
      obtain ⟨_, same⟩ := Option.ite_none_right_eq_some.mp found
      cases same
      have first := length_of_handleName? named
      have second := length_afterBlanks_le rest
      have third := WrittenTag.length_of_fullPart? part
      simp only [List.length_cons] at first
      omega
    · contradiction
  · contradiction

/-- What follows a directive is no longer than the text with it. -/
theorem length_of_read? {places after : List Place} {directive : Directive}
    (found : read? places = some (directive, after)) : after.length ≤ places.length := by
  have name := (List.dropWhile_sublist (fun place : Place => isWord place.char)
    (l := places)).length_le
  have blanks := length_afterBlanks_le (places.dropWhile fun place => isWord place.char)
  simp only [read?] at found
  split at found
  · contradiction
  · obtain ⟨⟨kind, left⟩, inner, line⟩ := Option.bind_eq_some_iff.mp found
    obtain ⟨_, line, same⟩ := Option.map_eq_some_iff.mp line
    cases same
    have last : after.length ≤ left.length := length_of_afterLine? line
    split at inner
    · have middle := length_of_version? inner
      omega
    · split at inner
      · have middle := length_of_handle? inner
        omega
      · contradiction

end Directive

end Raml.Yaml
