import Raml.Facets

/-!
# Definition choices

A definition, such as a trait or a security scheme, is applied by its name, either alone or as the
only key of a mapping to its parameters.
-/
namespace Raml

/-- The choice of a definition. -/
inductive Choice where
  /-- A name alone. -/
  | bare (name : String)
  /-- A name with parameters, possibly none. -/
  | parameterized (name : String) (parameters : Facets)
  deriving DecidableEq

/-- Why a node is no choice. -/
inductive ChoiceError where
  /-- A mapping without exactly one entry. -/
  | entryCount (entries : List (Node × Node))
  /-- A name that is no scalar. -/
  | nameKey (key : Node)
  /-- Parameters that are no mapping. -/
  | parametersNode (name : String) (node : Node)
  /-- Parameters with a key that is no scalar. -/
  | parameterKey (cause : KeyError)
  /-- Neither a scalar nor a mapping. -/
  | kind (node : Node)
  deriving DecidableEq

namespace ChoiceError

/-- What is wrong, in words. -/
def message : ChoiceError → String
  | entryCount entries =>
    "definition choice " ++ (Node.mapping entries).longTag ++
      " must have exactly one key, found " ++ toString entries.length
  | nameKey key => "definition choice name must be a scalar, found " ++ key.longTag
  | parametersNode name node =>
    "parameters of '" ++ name ++ "' must be a mapping, found " ++ node.longTag
  | parameterKey cause => cause.message
  | kind node => "unmarshalable node kind " ++ node.longTag

end ChoiceError

namespace Choice

/-- The parameters of a choice. -/
def parametersOf (name : String) : Node → Except ChoiceError Facets
  | .null => .ok .empty
  | .mapping entries =>
    match Facets.ofMapping entries with
    | .ok parameters => .ok parameters
    | .error cause => .error (.parameterKey cause)
  | node => .error (.parametersNode name node)

/-- The choice that a node is. -/
def ofNode : Node → Except ChoiceError Choice
  | .mapping [(key, value)] =>
    match key.scalarText? with
    | none => .error (.nameKey key)
    | some name => (parametersOf name value).map (parameterized name)
  | .mapping entries => .error (.entryCount entries)
  | node =>
    match node.scalarText? with
    | some name => .ok (bare name)
    | none => .error (.kind node)

/-- The choices of several nodes, or the first error. -/
def ofNodes : List Node → Except ChoiceError (List Choice)
  | [] => .ok []
  | node :: rest => do
    let choice ← ofNode node
    let others ← ofNodes rest
    return choice :: others

/-- The choices of a node: one for each element of a sequence, and one for any other node. -/
def listOfNode : Node → Except ChoiceError (List Choice)
  | .sequence items => ofNodes items
  | node => (ofNode node).map fun choice => [choice]

/-- The name of the definition. -/
def name : Choice → String
  | bare name => name
  | parameterized name _ => name

/-- The parameters, if any were given. -/
def parameters? : Choice → Option Facets
  | bare _ => none
  | parameterized _ parameters => some parameters

end Choice

end Raml
