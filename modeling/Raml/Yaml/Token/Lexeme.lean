import Raml.Yaml.Scalar.Block
import Raml.Yaml.Scalar.Plain
import Raml.Yaml.Scalar.Quoted
import Raml.Yaml.Token

/-!
# Lexemes

The first characters of a text say what starts there, and that is read to its end. Neither takes
notice of what stands before it, apart from whether it is in brackets or braces and how far it is
indented.
-/
namespace Raml.Yaml

/-- What starts at a place. -/
inductive Start where
  | directive
  /-- A line that bounds a document. -/
  | documentMark
  /-- A bracket or brace that opens. -/
  | opening (token : Token)
  /-- A bracket or brace that closes. -/
  | closing (token : Token)
  | comma
  | dash
  | key
  | value
  | reference
  | anchor
  | tag
  /-- A scalar made of indented lines, folded or not. -/
  | block (folded : Bool)
  /-- A scalar in quotes, double or single. -/
  | quoted (double : Bool)
  | plain
  deriving DecidableEq

namespace Start

/-- Marks that no token starts with outside the places that give them a meaning. -/
def isReserved (char : Char) : Bool := isBlank char || "#%@`".toList.contains char

/-- What starts at a place. `flow` says whether it stands between brackets or braces. -/
def of? (flow : Bool) (place : Place) (rest : List Place) : Option Start :=
  if place.column = 0 && place.char = '%' then some directive
  else if atDocumentMark (place :: rest) then some documentMark
  else match place.char with
    | '[' => some (opening .openBracket)
    | ']' => some (closing .closeBracket)
    | ',' => some comma
    | '-' => some (if atGap rest then dash else plain)
    | '?' => some (if flow || atGap rest then key else plain)
    | ':' => some (if flow || atGap rest then value else plain)
    | '*' => some reference
    | '&' => some anchor
    | '!' => some tag
    | '|' => if flow then none else some (block false)
    | '>' => if flow then none else some (block true)
    | '"' => some (quoted true)
    | char =>
      if char = Quoted.singleQuote then some (quoted false)
      else if char = openBrace then some (opening .openBrace)
      else if char = closeBrace then some (closing .closeBrace)
      else if isReserved char then none
      else some plain

end Start

/-- A token with what follows. -/
structure Lexeme where
  /-- The token. -/
  token : Token
  /-- Whether a line break was read with it. -/
  broken : Bool
  /-- What follows. -/
  rest : List Place

namespace Lexeme

/-- Whether the name of an anchor may end here. -/
def endsName (places : List Place) : Bool :=
  atGap places || ((places.head?.map Place.char).any fun char =>
    "?:,]%@`".toList.contains char || char = closeBrace)

/-- The name of an anchor, and what follows. -/
def name? (places : List Place) : Option (String × List Place) :=
  let name := places.takeWhile fun place => isWord place.char
  let rest := places.dropWhile fun place => isWord place.char
  if name.isEmpty || !endsName rest then none
  else some (String.ofList (name.map Place.char), rest)

/-- A token without a line break. -/
def plainly (token : Token) (rest : List Place) : Lexeme := ⟨token, false, rest⟩

/-- Read what starts at a place to its end. `least` is the least column inside the collection around
it. -/
def read? (flow : Bool) (least : Nat) (place : Place) (rest : List Place) :
    Start → Option Lexeme
  | .directive => (Directive.read? rest).map fun (directive, after) =>
    ⟨.directive directive, true, after⟩
  | .documentMark =>
    some (plainly (if place.char = '-' then .documentStart else .documentEnd) (rest.drop 2))
  | .opening token | .closing token => some (plainly token rest)
  | .comma => some (plainly .comma rest)
  | .dash => some (plainly .dash rest)
  | .key => some (plainly .key rest)
  | .value => some (plainly .value rest)
  | .reference => (name? rest).map fun (name, after) => plainly (.reference name) after
  | .anchor => (name? rest).map fun (name, after) => plainly (.anchor name) after
  | .tag => (WrittenTag.read? flow rest).map fun (tag, after) => plainly (.tag tag) after
  | .block folded => (Block.read? folded least rest).map fun (text, after) =>
    ⟨.scalar false (String.ofList text), true, after⟩
  | .quoted double =>
    (if double then Quoted.readDouble? .none rest else Quoted.readSingle? .none rest).map
      fun (text, after) => plainly (.scalar false (String.ofList text)) after
  | .plain => (Plain.read? flow least .none rest).map fun reading =>
    ⟨.scalar true (String.ofList (place.char :: reading.text)), reading.broken, reading.rest⟩

/-- What follows a name is no longer than the text with it. -/
theorem length_of_name? {places after : List Place} {name : String}
    (found : name? places = some (name, after)) : after.length ≤ places.length := by
  simp only [name?] at found
  split at found
  · contradiction
  · cases found
    exact (List.dropWhile_sublist _).length_le

/-- What follows a lexeme is no longer than what follows its first character. -/
theorem length_of_read? {flow : Bool} {least : Nat} {place : Place} {rest : List Place}
    {start : Start} {lexeme : Lexeme} (found : read? flow least place rest start = some lexeme) :
    lexeme.rest.length ≤ rest.length := by
  cases start with
  | documentMark | opening | closing | comma | dash | key | value =>
    cases found
    simp [plainly]
  | directive =>
    obtain ⟨_, read, rfl⟩ := Option.map_eq_some_iff.mp found
    exact Directive.length_of_read? read
  | reference | anchor =>
    obtain ⟨_, read, rfl⟩ := Option.map_eq_some_iff.mp found
    exact length_of_name? read
  | tag =>
    obtain ⟨_, read, rfl⟩ := Option.map_eq_some_iff.mp found
    exact WrittenTag.length_of_read? read
  | block =>
    obtain ⟨_, read, rfl⟩ := Option.map_eq_some_iff.mp found
    exact Block.length_of_read? read
  | quoted =>
    obtain ⟨_, read, rfl⟩ := Option.map_eq_some_iff.mp found
    split at read
    · exact Quoted.length_of_readDouble? read
    · exact Quoted.length_of_readSingle? read
  | plain =>
    obtain ⟨_, read, rfl⟩ := Option.map_eq_some_iff.mp found
    exact Plain.length_of_read? read

end Lexeme

end Raml.Yaml
