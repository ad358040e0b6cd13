import Raml.Record

/-!
# Traits

A trait is a part of a method's definition that methods take over by its name. Its fields are read
from a mapping; entries under other keys are passed over. The name is given by the place of the
declaration.
-/
namespace Raml

namespace Trait

/-- A field of a trait; an optional one applies only to what a method already declares. -/
inductive Field where
  | usage
  | description
  | body
  | headers
  | responses
  | queryParameters
  | protocols
  | optionalBody
  | optionalHeaders
  | optionalResponses
  | optionalQueryParameters
  deriving DecidableEq, Repr

namespace Field

/-- The fields in order. -/
def all : List Field :=
  [usage, description, body, headers, responses, queryParameters, protocols, optionalBody,
    optionalHeaders, optionalResponses, optionalQueryParameters]

/-- The key of a field. -/
def key : Field → String
  | usage => "usage"
  | description => "description"
  | body => "body"
  | headers => "headers"
  | responses => "responses"
  | queryParameters => "queryParameters"
  | protocols => "protocols"
  | optionalBody => "body?"
  | optionalHeaders => "headers?"
  | optionalResponses => "responses?"
  | optionalQueryParameters => "queryParameters?"

/-- The shape of a field. -/
def shape : Field → Shape
  | usage | description => .text
  | body | optionalBody => .node
  | headers | responses | queryParameters | optionalHeaders | optionalResponses
  | optionalQueryParameters => .facetMap
  | protocols => .stringList

end Field

/-- The table of the fields. -/
def table : FieldTable Field := ⟨Field.all, Field.key, Field.shape⟩

end Trait

/-- A trait. -/
structure Trait where
  /-- The name, empty until it is given. -/
  name : String
  /-- The fields. -/
  fields : Record Trait.table

/-- Why a node is no trait. -/
inductive TraitError where
  /-- An entry of the mapping cannot be read. -/
  | field (cause : FieldError)
  /-- The node is no mapping. -/
  | kind (node : Node)
  deriving DecidableEq

/-- What is wrong, in words. -/
def TraitError.message : TraitError → String
  | field cause => "Failed to decode trait: " ++ cause.message
  | kind node => "trait must be a mapping, found " ++ node.longTag

namespace Trait

/-- How to use the trait. -/
def usage (trait : Trait) : Option String := trait.fields .usage

/-- What a method does. -/
def description (trait : Trait) : Option String := trait.fields .description

/-- The request bodies. -/
def body (trait : Trait) : Option Node := trait.fields .body

/-- The request headers. -/
def headers (trait : Trait) : Facets := trait.fields .headers

/-- The responses. -/
def responses (trait : Trait) : Facets := trait.fields .responses

/-- The query parameters. -/
def queryParameters (trait : Trait) : Facets := trait.fields .queryParameters

/-- The allowed protocols. -/
def protocols (trait : Trait) : List String := trait.fields .protocols

/-- The request bodies for a method that declares one. -/
def optionalBody (trait : Trait) : Option Node := trait.fields .optionalBody

/-- The request headers for a method that declares some. -/
def optionalHeaders (trait : Trait) : Facets := trait.fields .optionalHeaders

/-- The responses for a method that declares some. -/
def optionalResponses (trait : Trait) : Facets := trait.fields .optionalResponses

/-- The query parameters for a method that declares some. -/
def optionalQueryParameters (trait : Trait) : Facets := trait.fields .optionalQueryParameters

/-- The trait that a node is, without a name. -/
def ofNode : Node → Except TraitError Trait
  | .mapping entries =>
    match Record.read table (fun _ => .ok ()) entries with
    | .ok (fields, _) => .ok ⟨"", fields⟩
    | .error cause => .error (.field cause)
  | .null => .ok ⟨"", Record.absent⟩
  | node => .error (.kind node)

/-- The trait under a name. -/
def withName (trait : Trait) (name : String) : Trait := { trait with name }

end Trait

/-- The parameter that holds the name of the method. -/
def methodNameParameter : String := "methodName"

/-- The parameters for applying a trait to a method: those of the resource type, and the name of the
method in lowercase. -/
def Facets.withMethod (parameters : Facets) (method : String) : Facets :=
  parameters.insert methodNameParameter (.string (String.ofList (Text.lowercase method.toList)))

end Raml
