import Raml.Proofs.Resolution
import Raml.Registry

/-!
# Resolution in a registry

A registry resolves its declarations and takes over what is reached; a type whose declaration did
not change keeps its cell. So a resolution in a registry follows the trace of the declaration too.
-/
namespace Raml.Registry

variable {registry : Registry} {name : String} {type : Classified}

/-- The names of the declarations are those of the types. -/
@[simp]
theorem keys_declarations (registry : Registry) : registry.declarations.keys = registry.keys :=
  OrderedMap.keys_map _ registry

/-- The declaration of a type is found under its name. -/
theorem get?_declarations (registry : Registry) (name : String) :
    registry.declarations.get? name = (registry.get? name).map Classified.declaration :=
  OrderedMap.get?_map (fun _ (type : Classified) => type.declaration) registry name

/-- A registered type has its declaration under its name. -/
theorem declared_of_get? (found : registry.get? name = some type) :
    registry.declarations.get? name = some type.declaration := by
  rw [get?_declarations, found]
  rfl

/-- The declarations after a type is written. -/
theorem declarations_insert (registry : Registry) (name : String) (type : Classified) :
    declarations (registry.insert name type) =
      registry.declarations.insert name type.declaration :=
  OrderedMap.map_insert (fun _ (type : Classified) => type.declaration) registry name type

/-- The declarations after a type is changed. -/
theorem declarations_modify (found : registry.get? name = some type)
    (change : Classified → Classified) :
    (registry.modify name change).declarations =
      registry.declarations.insert name (change type).declaration := by
  simp only [modify, found]
  exact declarations_insert registry name _

/-- The declarations reached by a resolution. -/
@[simp]
theorem declarations_resolve (registry : Registry) (name : String) :
    (registry.resolve name).reached.declarations = (registry.declarations.resolve name).reached :=
  declarations_adopt registry _

/-- A registry that takes over its own declarations is as it was. -/
theorem adopt_declarations (registry : Registry) :
    registry.adopt registry.declarations = registry := by
  apply OrderedMap.ext
  simp only [adopt, declarations, OrderedMap.map, List.map_map]
  conv => rhs; rw [← List.map_id registry.entries]
  apply List.map_congr_left
  intro entry inside
  have found : registry.get? entry.1 = some entry.2 := OrderedMap.get?_eq_some.mpr inside
  simp [found, Classified.adopt]

/-- What a registered name is resolved by. -/
theorem resolve_declarations (found : registry.get? name = some type) :
    registry.declarations.resolve name =
      Resolution.resolveType name type.declaration registry.declarations := by
  simp only [Declarations.resolve, declared_of_get? found]

/-- A resolution that reaches the same declarations leaves the registry as it was. -/
theorem resolve_eq_done (same : registry.declarations.resolve name = .done registry.declarations) :
    registry.resolve name = .done registry := by
  simp only [resolve, same, Attempt.done, adopt_declarations]

/-- The resolution of a registered type follows its trace. -/
theorem follows_resolve (found : registry.get? name = some type) :
    Resolution.Follows [(name, type.declaration)]
      (Trace.ofType name type.declaration registry.keys) registry.declarations
      (registry.resolve name).reached.declarations (registry.resolve name).stopped := by
  have follows := Declarations.follows_resolve (declared_of_get? found)
  rw [keys_declarations] at follows
  rw [declarations_resolve]
  exact follows

/-- A type with an optional property that declares an object inside an object, and with an array
whose items are declared inline. -/
def samplePerson : Declaration :=
  .ofParts "Person" none (.ofList [
    ("name", .reference "string"),
    ("address?", .inline (.ofList [("type", .string "object"), ("properties", .mapping [
      (.string "street", .string "string"),
      (.string "geo", .mapping [(.string "properties", .mapping [
        (.string "lat", .string "number")])])])])),
    ("phones", .inline (.ofList [("type", .string "array"), ("items", .mapping [
      (.string "properties", .mapping [(.string "kind?", .string "string")])])]))])

/-- The registry of that type alone. -/
def sample : Registry := declare .empty samplePerson

/-- A type with a property that declares an object, which has a property whose own properties are no
mapping. -/
def sampleBroken : Declaration :=
  .ofParts "N" none (.ofList [
    ("a", .inline (.ofList [("properties", .mapping [
      (.string "b", .mapping [(.string "properties", .string "c")])])]))])

/-- The sample can be resolved. -/
theorem stopped_sample : (sample.resolve "Person").stopped = none :=
  Option.isNone_iff_eq_none.mp (by decide +kernel)

end Raml.Registry
