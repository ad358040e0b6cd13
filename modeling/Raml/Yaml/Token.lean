import Raml.Yaml.Directive

/-!
# Tokens of YAML text

A token is a mark of the text, a scalar, or the bound of a collection that only the layout of the
text shows.
-/
namespace Raml.Yaml

/-- A token of YAML text. -/
inductive Token where
  /-- A directive. -/
  | directive (directive : Directive)
  /-- Three dashes alone in a line. -/
  | documentStart
  /-- Three dots alone in a line. -/
  | documentEnd
  /-- The start of a sequence that indentation shows. -/
  | blockSequence
  /-- The start of a mapping that indentation shows. -/
  | blockMapping
  /-- The end of a sequence or mapping that indentation shows. -/
  | blockEnd
  | openBracket
  | closeBracket
  | openBrace
  | closeBrace
  | comma
  /-- The mark of an item. -/
  | dash
  /-- The mark of a key, written or not. -/
  | key
  /-- The mark of a value. -/
  | value
  /-- A mark for the node of an anchor. -/
  | reference (name : String)
  /-- A name for the node that follows. -/
  | anchor (name : String)
  | tag (tag : WrittenTag)
  /-- A scalar, plain or with marks of its own. -/
  | scalar (plain : Bool) (text : String)
  deriving DecidableEq

end Raml.Yaml
