import Raml.Declaration.Classified
import Raml.Schema

/-!
# Absorbing embedded schemas

A type whose expression is an embedded schema takes over the properties that the schema gives,
written over its own, and becomes an object type. A schema that gives an error changes nothing.
-/
namespace Raml

/-- The declaration with the properties of the schema that is its expression. -/
def Declaration.absorb (declaration : Declaration) : Except Schema.SchemaError Declaration :=
  (Schema.properties declaration.text).map fun absorbed =>
    (declaration.withProperties (declaration.properties.overwrite absorbed)).withExpression
      (some (.string TypeExpr.objectName))

/-- The type with the properties of the schema that is its expression; its kind is forgotten. -/
def Classified.absorb (type : Classified) : Except Schema.SchemaError Classified :=
  type.declaration.absorb.map Classified.ofDeclaration

end Raml
