import Raml.Json

/-!
# Required properties

An older form marks a required property by a boolean `required` in the property's own schema. The
mark is taken out of the property's schema and its name is added to the list `required` of the
schema around it. This happens in every object that has an object under `properties`, at any depth.
-/
namespace Raml.Schema

open JsonValue

/-- Whether a member is a boolean under `required`. -/
def hasRequiredMark (members : List (String × JsonValue)) : Bool :=
  ((Entries.get? "required" members).bind bool?).isSome

/-- An object's members without a boolean under `required`. -/
def dropRequiredMark (members : List (String × JsonValue)) : List (String × JsonValue) :=
  if hasRequiredMark members then Entries.swapErase "required" members else members

/-- Whether a property's schema is marked as required. -/
def isMarkedRequired (schema : JsonValue) : Bool :=
  match schema with
  | .object members => (Entries.get? "required" members).bind bool? = some true
  | _ => false

/-- The names of the properties that are marked as required. -/
def markedNames (properties : List (String × JsonValue)) : List String :=
  (properties.filter fun property => isMarkedRequired property.2).map Prod.fst

/-- A list of required names with one more name, if it is new. -/
def addName (names : List JsonValue) (name : String) : List JsonValue :=
  if names.any fun listed => listed.string? = some name then names else names ++ [.string name]

/-- Add names to the list `required`, which is created at the end when it is missing; where
something else stands, the names are dropped. -/
def addRequired (names : List String) (members : List (String × JsonValue)) :
    List (String × JsonValue) :=
  if names.isEmpty then members
  else match Entries.get? "required" members with
    | none => members ++ [("required", .array (names.foldl addName []))]
    | some (.array listed) =>
      Entries.insert "required" (.array (names.foldl addName listed)) members
    | some _ => members

/-- The names that the properties of an object mark. `inPropertyMap` says that the object is a map
of properties, so that its own `properties` loses its mark first. -/
def requiredNames (inPropertyMap : Bool) (members : List (String × JsonValue)) : List String :=
  match Entries.get? "properties" members with
  | some (.object properties) =>
    markedNames (if inPropertyMap then dropRequiredMark properties else properties)
  | _ => []

mutual

/-- Move the marks of required properties into lists. `marked` says that the value is a property's
schema, whose own mark is taken out, and `propertyMap` that it is a map of properties. -/
def listRequired (marked propertyMap : Bool) : JsonValue → JsonValue
  | .array items => .array (listRequiredItems items)
  | .object members =>
    let listed := listRequiredMembers propertyMap members
    let own := if marked then dropRequiredMark listed else listed
    .object (addRequired (requiredNames propertyMap members) own)
  | other => other

/-- Move the marks in every item. -/
def listRequiredItems : List JsonValue → List JsonValue
  | [] => []
  | item :: rest => listRequired false false item :: listRequiredItems rest

/-- Move the marks in every member. -/
def listRequiredMembers (propertyMap : Bool) :
    List (String × JsonValue) → List (String × JsonValue)
  | [] => []
  | (name, value) :: rest =>
    (name, listRequired propertyMap (name = "properties") value) ::
      listRequiredMembers propertyMap rest

end

end Raml.Schema
