import Raml.Yaml.Token.Layout

/-!
# Tokens of a text

The tokens of a text are read one after another, each with the layout that the text before it has.
-/
namespace Raml.Yaml

/-- What follows the gap in front of a token, and whether a key may start there. A comment goes on
to the end of its line, and a byte order mark that starts a line is passed over. Tabs may not stand
where a key may start and columns count. -/
def afterGap (flow : Bool) : (comment allowed : Bool) → List Place → Bool × List Place
  | _, allowed, [] => (allowed, [])
  | comment, allowed, place :: rest =>
    let char := place.char
    if isBreak char then afterGap flow false (allowed || !flow) rest
    else if comment then afterGap flow true allowed rest
    else if char = '#' then afterGap flow true allowed rest
    else if place.isByteOrderMark then afterGap flow false allowed rest
    else if char = ' ' || (char = '\t' && (flow || !allowed)) then
      afterGap flow false allowed rest
    else (allowed, place :: rest)

/-- What follows a gap is no longer than the text with it. -/
theorem length_afterGap_le (flow comment allowed : Bool) (places : List Place) :
    (afterGap flow comment allowed places).2.length ≤ places.length := by
  fun_induction afterGap flow comment allowed places with
  | case1 | case7 => simp
  | case2 | case3 | case4 | case5 | case6 =>
    rename_i shorter
    exact Nat.le_succ_of_le shorter

/-- The tokens of the rest of a text. -/
def tokensFrom? (layout : Layout) (places : List Place) : Option (List Token) :=
  match found : afterGap layout.inFlow false layout.keyAllowed places with
  | (_, []) => layout.finish?
  | (allowed, place :: rest) =>
    let placed := (layout.allowKey allowed).closeTo place.column
    match Start.of? placed.inFlow place rest with
    | none => none
    | some start =>
      match read : Lexeme.read? placed.inFlow placed.least place rest start with
      | none => none
      | some lexeme =>
        have : lexeme.rest.length < places.length := by
          have gap := length_afterGap_le layout.inFlow false layout.keyAllowed places
          have shorter := Lexeme.length_of_read? read
          simp only [found, List.length_cons] at gap
          omega
        (placed.next? place start lexeme).bind fun next => tokensFrom? next lexeme.rest
termination_by places.length

/-- The tokens of a text. -/
def Token.ofText? (text : String) : Option (List Token) :=
  (places? text).bind (tokensFrom? .start)

end Raml.Yaml
