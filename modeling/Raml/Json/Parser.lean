import Raml.Json.Token

/-!
# Reading JSON text

The tokens of a text are read one by one. The containers that are open are kept on a stack, the
innermost first, and the state says what may follow. At most 127 containers may be open at a time. A
name that an object gives twice keeps its first place and its last value.
-/
namespace Raml

namespace JsonReading

/-- A container that is open. -/
inductive Open where
  /-- An array with its items so far, the last one first. -/
  | array (items : List JsonValue)
  /-- An object with its members so far, and the name whose value follows. -/
  | object (members : List (String × JsonValue)) (name : String)

/-- What may follow. -/
inductive Follow where
  /-- A value. -/
  | value
  /-- A value, or the end of the innermost array. -/
  | firstItem
  /-- A name of the object with the given members. -/
  | name (members : List (String × JsonValue))
  /-- A name, or the end of the object. -/
  | firstName
  /-- A colon. -/
  | colon
  /-- A comma or the end of the innermost container, which has the given value last. -/
  | separator (value : JsonValue)

/-- The state between two tokens. -/
structure State where
  /-- The open containers. -/
  stack : List Open
  /-- What may follow. -/
  follow : Follow

/-- The greatest number of open containers. -/
def greatestDepth : Nat := 127

/-- The state after a token that starts a value. -/
def startValue? (stack : List Open) : JsonToken → Option State
  | .openArray =>
    if stack.length < greatestDepth then some ⟨.array [] :: stack, .firstItem⟩ else none
  | .openObject =>
    if stack.length < greatestDepth then some ⟨.object [] "" :: stack, .firstName⟩ else none
  | .string text => some ⟨stack, .separator (.string text)⟩
  | .scalar value => some ⟨stack, .separator value⟩
  | _ => none

/-- The innermost container with one more value. -/
def Open.add (container : Open) (value : JsonValue) : Open :=
  match container with
  | array items => array (value :: items)
  | object members name => object (Entries.insert name value members) name

/-- The state after one more token. -/
def State.next? (state : State) (token : JsonToken) : Option State :=
  match state.follow, state.stack, token with
  | .firstItem, .array _ :: outer, .closeArray => some ⟨outer, .separator (.array [])⟩
  | .value, stack, token | .firstItem, stack, token => startValue? stack token
  | .firstName, .object _ _ :: outer, .closeObject => some ⟨outer, .separator (.object [])⟩
  | .firstName, .object members _ :: outer, .string name =>
    some ⟨.object members name :: outer, .colon⟩
  | .name members, .object _ _ :: outer, .string name =>
    some ⟨.object members name :: outer, .colon⟩
  | .colon, stack, .colon => some ⟨stack, .value⟩
  | .separator value, container :: outer, .comma =>
    match container.add value with
    | .array items => some ⟨.array items :: outer, .value⟩
    | .object members name => some ⟨.object members name :: outer, .name members⟩
  | .separator value, .array items :: outer, .closeArray =>
    some ⟨outer, .separator (.array (value :: items).reverse)⟩
  | .separator value, .object members name :: outer, .closeObject =>
    some ⟨outer, .separator (.object (Entries.insert name value members))⟩
  | _, _, _ => none

/-- The state after tokens. -/
def State.run? (state : State) : List JsonToken → Option State
  | [] => some state
  | token :: rest => (state.next? token).bind fun next => next.run? rest

/-- The value of a state in which nothing is open. -/
def State.value? (state : State) : Option JsonValue :=
  match state with
  | ⟨[], .separator value⟩ => some value
  | _ => none

end JsonReading

/-- The value that a text is. -/
def JsonValue.ofText? (text : String) : Option JsonValue := do
  let tokens ← JsonToken.scan? text.toList
  let state ← (JsonReading.State.mk [] .value).run? tokens
  state.value?

end Raml
