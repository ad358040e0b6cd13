import Raml.Yaml.Scalar.Value
import Raml.Yaml.Token
import Raml.Yaml.Tree

/-!
# Grammar of YAML text

The grammar reads the tokens of a text as one tree. A node is left out where the next token cannot
start one; it is then an empty scalar. Every function that goes into a node or on to the next entry
has one step of fuel less than its caller, and `Tree.ofTokens?` gives enough of it for any number of
tokens.
-/
namespace Raml.Yaml

/-- What the handles of a document stand for. -/
abbrev Handles := List (String × String)

/-- A reader of tokens, which gives what it reads and the tokens after it. -/
abbrev Reader (α : Type) := List Token → Option (α × List Token)

/-- What may be written as a node. -/
inductive Context where
  /-- Any node. -/
  | block
  /-- Any node, or items that are not indented further than the entry that they belong to. -/
  | entry
  /-- A node between brackets or braces. -/
  | flow
  deriving DecidableEq

namespace Grammar

/-- No marks in front of a node. -/
def noMarks : Marks String := ⟨none, none⟩

/-- An anchor and a tag in either order, and what follows. -/
def marks? (handles : Handles) : Reader (Marks String)
  | .anchor name :: .tag tag :: rest | .tag tag :: .anchor name :: rest =>
    (tag.resolve? handles).map fun tag => (⟨some name, some tag⟩, rest)
  | .anchor name :: rest => some (⟨some name, none⟩, rest)
  | .tag tag :: rest => (tag.resolve? handles).map fun tag => (⟨none, some tag⟩, rest)
  | rest => some (noMarks, rest)

/-- A node, or an empty scalar before a token that stops it. -/
def orEmpty (stops : List Token) (read : Reader (Tree String)) : Reader (Tree String)
  | [] => read []
  | token :: rest =>
    if token ∈ stops then some (Tree.empty noMarks, token :: rest) else read (token :: rest)

/-- A node after a mark, or an empty scalar where the mark is missing. -/
def marked (mark : Token) (stops : List Token) (read : Reader (Tree String)) :
    Reader (Tree String)
  | [] => some (Tree.empty noMarks, [])
  | token :: rest =>
    if token = mark then orEmpty stops read rest
    else some (Tree.empty noMarks, token :: rest)

/-- The tokens from the start of the next entry between brackets or braces. -/
def afterComma? (first : Bool) (close : Token) : List Token → Option (List Token)
  | [] => none
  | token :: rest =>
    if first || token = close then some (token :: rest)
    else if token = .comma then some rest
    else none

/-- The tokens that no node in an entry of an indented mapping starts with. -/
def entryStops : List Token := [.key, .value, .blockEnd]

mutual

/-- Read a node. -/
def node? (handles : Handles) : Nat → Context → Reader (Tree String)
  | 0, _, _ => none
  | fuel + 1, context, tokens =>
    match tokens with
    | .reference name :: rest => some (.reference name, rest)
    | _ =>
      match marks? handles tokens with
      | none => none
      | some (marks, rest) =>
        match context, rest with
        | .entry, .dash :: _ =>
          (looseItems? handles fuel rest).map fun (items, after) => (.sequence marks items, after)
        | _, .scalar plain text :: after => some (.scalar marks plain text, after)
        | _, .openBracket :: after =>
          (flowItems? handles fuel true after).map fun (items, last) =>
            (.sequence marks items, last)
        | _, .openBrace :: after =>
          (flowEntries? handles fuel true after).map fun (entries, last) =>
            (.mapping marks entries, last)
        | .block, .blockSequence :: after | .entry, .blockSequence :: after =>
          (items? handles fuel after).map fun (items, last) => (.sequence marks items, last)
        | .block, .blockMapping :: after | .entry, .blockMapping :: after =>
          (entries? handles fuel after).map fun (entries, last) => (.mapping marks entries, last)
        | _, _ => if marks = noMarks then none else some (.empty marks, rest)

/-- Read the items of an indented sequence. -/
def items? (handles : Handles) : Nat → Reader (List (Tree String))
  | fuel + 1, .dash :: tokens => do
    let (item, tokens) ← orEmpty [.dash, .blockEnd] (node? handles fuel .block) tokens
    let (items, tokens) ← items? handles fuel tokens
    return (item :: items, tokens)
  | _ + 1, .blockEnd :: tokens => some ([], tokens)
  | _, _ => none

/-- Read items that are not indented further than the entry that they belong to. -/
def looseItems? (handles : Handles) : Nat → Reader (List (Tree String))
  | fuel + 1, .dash :: tokens => do
    let (item, tokens) ← orEmpty (.dash :: entryStops) (node? handles fuel .block) tokens
    let (items, tokens) ← looseItems? handles fuel tokens
    return (item :: items, tokens)
  | _ + 1, tokens => some ([], tokens)
  | 0, _ => none

/-- Read the entries of an indented mapping. -/
def entries? (handles : Handles) : Nat → Reader (List (Tree String × Tree String))
  | fuel + 1, .key :: tokens => do
    let (key, tokens) ← orEmpty entryStops (node? handles fuel .entry) tokens
    let (value, tokens) ← marked .value entryStops (node? handles fuel .entry) tokens
    let (entries, tokens) ← entries? handles fuel tokens
    return ((key, value) :: entries, tokens)
  | _ + 1, .blockEnd :: tokens => some ([], tokens)
  | _, _ => none

/-- Read the items between brackets. -/
def flowItems? (handles : Handles) : Nat → Bool → Reader (List (Tree String))
  | 0, _, _ => none
  | fuel + 1, first, tokens =>
    match afterComma? first .closeBracket tokens with
    | none => none
    | some (.closeBracket :: tokens) => some ([], tokens)
    | some (.key :: tokens) => do
      let (pair, tokens) ← pair? handles fuel tokens
      let (items, tokens) ← flowItems? handles fuel false tokens
      return (pair :: items, tokens)
    | some tokens => do
      let (item, tokens) ← node? handles fuel .flow tokens
      let (items, tokens) ← flowItems? handles fuel false tokens
      return (item :: items, tokens)

/-- Read a mapping of one entry between brackets, after the mark of its key. Where the key is
missing, the token in its place is passed over. -/
def pair? (handles : Handles) : Nat → Reader (Tree String)
  | 0, _ => none
  | fuel + 1, tokens => do
    let (key, tokens) ← match tokens with
      | [] => none
      | token :: rest =>
        if token ∈ [.value, .comma, .closeBracket] then some (.empty noMarks, rest)
        else node? handles fuel .flow tokens
    let (value, tokens) ←
      marked .value [.comma, .closeBracket] (node? handles fuel .flow) tokens
    return (.mapping noMarks [(key, value)], tokens)

/-- Read the entries between braces. -/
def flowEntries? (handles : Handles) : Nat → Bool → Reader (List (Tree String × Tree String))
  | 0, _, _ => none
  | fuel + 1, first, tokens =>
    match afterComma? first .closeBrace tokens with
    | none => none
    | some (.closeBrace :: tokens) => some ([], tokens)
    | some (.key :: tokens) => do
      let (key, tokens) ←
        orEmpty [.value, .comma, .closeBrace] (node? handles fuel .flow) tokens
      let (value, tokens) ←
        marked .value [.comma, .closeBrace] (node? handles fuel .flow) tokens
      let (entries, tokens) ← flowEntries? handles fuel false tokens
      return ((key, value) :: entries, tokens)
    | some tokens => do
      let (key, tokens) ← node? handles fuel .flow tokens
      let (entries, tokens) ← flowEntries? handles fuel false tokens
      return ((key, .empty noMarks) :: entries, tokens)

end

/-- What the handles stand for in a document without directives. -/
def standardHandles : Handles := [("!", "!"), ("!!", standardTags)]

/-- Read directives, of which none may give the version or the meaning of a handle again. -/
def directives? (version : Bool) (handles : Handles) : Reader Handles
  | .directive .version :: rest => if version then none else directives? true handles rest
  | .directive (.handle name start) :: rest =>
    if (handles.lookup name).isSome then none
    else directives? version (handles ++ [(name, start)]) rest
  | rest => some (handles ++ standardHandles, rest)

/-- Whether the content of a document ends here. -/
def atDocumentBound : List Token → Bool
  | [] | .directive _ :: _ | .documentStart :: _ | .documentEnd :: _ => true
  | _ => false

/-- Read a document. -/
def document? : Reader (Tree String) := fun tokens =>
  let fuel := 3 * (tokens.length + 1)
  match tokens with
  | .directive _ :: _ | .documentStart :: _ =>
    match directives? false [] tokens with
    | some (handles, .documentStart :: rest) =>
      if atDocumentBound rest then some (.empty noMarks, rest) else node? handles fuel .block rest
    | _ => none
  | _ => node? standardHandles fuel .block tokens

end Grammar

/-- The tree of the tokens of a text with at most one document. -/
def Tree.ofTokens? (tokens : List Token) : Option (Tree String) :=
  if tokens.isEmpty then some (.empty Grammar.noMarks)
  else match Grammar.document? tokens with
    | some (tree, rest) => if rest.all (· = .documentEnd) then some tree else none
    | none => none

end Raml.Yaml
