import Raml.Yaml.Token.Lexeme

/-!
# Layout of YAML text

Outside brackets and braces the columns of the text bound the collections, and everywhere a key may
stand without a mark in front of it. That it is a key shows only at the colon after it, which has to
stand in the same line. So a slot is kept for the mark at every place where a key may start, and
filled or dropped later.
-/
namespace Raml.Yaml

/-- A place at which a key may have started. -/
structure PossibleKey where
  /-- Where it starts. -/
  place : Place
  /-- Whether only a key can stand there. -/
  required : Bool

/-- A token, or a slot for the mark of a key. -/
inductive Slot where
  | token (token : Token)
  | possibleKey (place : Place)

namespace Slot

/-- The token of a slot that is filled. -/
def token? : Slot → Option Token
  | token mark => some mark
  | possibleKey _ => none

/-- Fill the slot for the key that starts at a place. -/
def fill (place : Place) (tokens : List Token) : List Slot → List Slot
  | [] => []
  | token before :: rest => token before :: fill place tokens rest
  | possibleKey other :: rest =>
    if other = place then tokens.map token ++ rest else possibleKey other :: fill place tokens rest

end Slot

/-- What has been read of a text. -/
structure Layout where
  /-- The tokens, the last one first. -/
  slots : List Slot
  /-- The columns of the collections that indentation bounds, the innermost first. -/
  columns : List Nat
  /-- The last possible key in the innermost brackets or braces. -/
  key : Option PossibleKey
  /-- The last possible keys around them, the innermost first: one for every open bracket or
  brace. -/
  outer : List (Option PossibleKey)
  /-- Whether a key may start here. -/
  keyAllowed : Bool

namespace Layout

/-- The layout before any text. -/
def start : Layout := ⟨[], [], none, [], true⟩

/-- Whether brackets or braces are open. -/
def inFlow (layout : Layout) : Bool := !layout.outer.isEmpty

/-- The least column inside the innermost collection that indentation bounds. -/
def least (layout : Layout) : Nat :=
  match layout.columns with
  | [] => 0
  | column :: _ => column + 1

/-- The layout after one more token. -/
def add (token : Token) (layout : Layout) : Layout :=
  { layout with slots := .token token :: layout.slots }

/-- The layout after which a key may start or may not. -/
def allowKey (allowed : Bool) (layout : Layout) : Layout := { layout with keyAllowed := allowed }

/-- Close the collections that indentation bounds to the right of a column; inside brackets and
braces columns do not count. -/
def closeBeyond (closes : Nat → Bool) (layout : Layout) : Layout :=
  if layout.inFlow then layout
  else
    { layout with
      slots := (layout.columns.takeWhile closes).map (fun _ => .token .blockEnd) ++ layout.slots
      columns := layout.columns.dropWhile closes }

/-- Close the collections that a line at a column is not part of. -/
def closeTo (column : Nat) (layout : Layout) : Layout := layout.closeBeyond (column < ·)

/-- Close all collections that indentation bounds. -/
def closeAll (layout : Layout) : Layout := layout.closeBeyond fun _ => true

/-- Whether a collection that starts at a column would be further inside than the innermost one. -/
def opensAt (column : Nat) (layout : Layout) : Bool := !layout.inFlow && layout.least ≤ column

/-- Open a collection that indentation bounds, if there is none yet at the column. -/
def openAt (column : Nat) (token : Token) (layout : Layout) : Layout :=
  if layout.opensAt column then { layout.add token with columns := column :: layout.columns }
  else layout

/-- Give up the last possible key, which must not have been required. -/
def dropKey? (layout : Layout) : Option Layout :=
  if layout.key.any PossibleKey.required then none else some { layout with key := none }

/-- Note that a key may start here, if it may. -/
def noteKey? (place : Place) (layout : Layout) : Option Layout :=
  if layout.keyAllowed then
    layout.dropKey?.map fun dropped =>
      let required := !layout.inFlow && layout.least = place.column + 1
      { dropped with
        slots := .possibleKey place :: dropped.slots
        key := some ⟨place, required⟩ }
  else some layout

/-- Mark an item or a key that starts a line, with the collection that it is in. -/
def markEntry? (place : Place) (collection mark : Token) (layout : Layout) : Option Layout :=
  if layout.inFlow || layout.keyAllowed then
    (layout.openAt place.column collection).dropKey?.map (add mark)
  else none

/-- Whether a possible key is ended by a colon at a place: in the same line, and not more than 1024
bytes away. -/
def PossibleKey.endsAt (key : PossibleKey) (place : Place) : Bool :=
  key.place.line = place.line && place.offset ≤ key.place.offset + 1024

/-- Mark the last possible key as a key. -/
def fillKey (key : PossibleKey) (layout : Layout) : Layout :=
  let column := key.place.column
  let opens := layout.opensAt column
  { layout with
    slots := Slot.fill key.place (if opens then [.key, .blockMapping] else [.key]) layout.slots
    columns := if opens then column :: layout.columns else layout.columns
    key := none
    keyAllowed := false }

/-- Mark a value whose key has been marked, or that has none. -/
def markLoneValue? (place : Place) (layout : Layout) : Option Layout :=
  if layout.inFlow then some ((layout.allowKey false).add .value)
  else if layout.keyAllowed then
    some (((layout.openAt place.column .blockMapping).allowKey true).add .value)
  else none

/-- Mark a value. -/
def markValue? (place : Place) (layout : Layout) : Option Layout :=
  match layout.key with
  | none => layout.markLoneValue? place
  | some key =>
    if PossibleKey.endsAt key place then some ((layout.fillKey key).add .value)
    else layout.dropKey?.bind (markLoneValue? place)

/-- Enter brackets or braces. -/
def enter (layout : Layout) : Layout :=
  { layout with key := none, outer := layout.key :: layout.outer }

/-- Leave brackets or braces, if there are any. -/
def leave (layout : Layout) : Layout :=
  match layout.outer with
  | [] => layout
  | key :: outer => { layout with key := key, outer := outer }

/-- The layout after a lexeme that starts at a place. -/
def next? (place : Place) (start : Start) (lexeme : Lexeme) (layout : Layout) : Option Layout :=
  match start with
  | .directive | .documentMark =>
    layout.closeAll.dropKey?.map fun layout => (layout.allowKey false).add lexeme.token
  | .opening token => (layout.noteKey? place).map fun layout =>
    (layout.enter.allowKey true).add token
  | .closing token => layout.dropKey?.map fun layout => (layout.leave.allowKey false).add token
  | .comma => layout.dropKey?.map fun layout => (layout.allowKey true).add .comma
  | .dash => (layout.markEntry? place .blockSequence .dash).map (allowKey true)
  | .key => (layout.markEntry? place .blockMapping .key).map (allowKey !layout.inFlow)
  | .value => layout.markValue? place
  | .block _ => layout.dropKey?.map fun layout => (layout.allowKey true).add lexeme.token
  | .reference | .anchor | .tag | .quoted _ | .plain =>
    (layout.noteKey? place).map fun layout => (layout.allowKey lexeme.broken).add lexeme.token

/-- The tokens of a text that ends here. -/
def finish? (layout : Layout) : Option (List Token) :=
  layout.closeAll.dropKey?.map fun closed => (closed.slots.filterMap Slot.token?).reverse

end Layout

end Raml.Yaml
