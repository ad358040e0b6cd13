import Raml.Declaration
import Raml.Property.Optional

/-!
# Parts of declarations

A declaration has the name under which it is read. Its expression and its properties are replaced as
a whole; what they were before does not matter.
-/
namespace Raml

/-- A record with its own value in a field is as it was. -/
theorem Record.set_self {Field : Type} [DecidableEq Field] {table : FieldTable Field}
    (record : Record table) (field : Field) : record.set field (record field) = record := by
  funext other
  by_cases here : other = field
  · subst here
    exact set_same record other (record other)
  · exact set_of_ne record (record field) here

namespace Declaration

/-- The properties of a declaration under bare names. -/
def bareProperties (declaration : Declaration) : Properties :=
  declaration.properties.unmarkAll.reached

/-- A declaration with a property written over its properties under bare names. -/
def withProperty (declaration : Declaration) (property : String)
    (value : PropertyValue) : Declaration :=
  declaration.withProperties (declaration.bareProperties.insert property value)

/-- A declaration with its own properties is as it was. -/
theorem withProperties_properties (declaration : Declaration) :
    declaration.withProperties declaration.properties = declaration :=
  Declaration.ext rfl (congrFun (Record.set_self declaration.fields .properties)) rfl

/-- A declaration with its own expression is as it was. -/
theorem withExpression_expression (declaration : Declaration) :
    declaration.withExpression declaration.expression = declaration :=
  Declaration.ext rfl (congrFun (Record.set_self declaration.fields .type)) rfl

/-- Replacing the properties of a declaration twice leaves the last ones. -/
theorem withProperties_withProperties (declaration : Declaration) (first last : Properties) :
    (declaration.withProperties first).withProperties last = declaration.withProperties last := by
  apply Declaration.ext
  · rfl
  · intro field
    by_cases here : field = .properties
    · subst here
      rfl
    · have kept (fields : Record Declaration.table) (properties : Properties) :
          fields.set .properties properties field = fields field :=
        Record.set_of_ne fields properties here
      exact (kept _ last).trans ((kept _ first).trans (kept _ last).symm)
  · rfl

/-- The object type of given properties that a type with an embedded schema becomes. -/
def asObject (declaration : Declaration) (properties : Properties) : Declaration :=
  (declaration.withProperties properties).withExpression (some (.string TypeExpr.objectName))

/-- An object type is no embedded schema. -/
theorem isEmbedded_asObject (declaration : Declaration) (properties : Properties) :
    (declaration.asObject properties).isEmbedded = false := by
  have object : TypeExpr.classify TypeExpr.objectName ≠ .embeddedSchema := by decide +kernel
  exact decide_eq_false object

/-- A declaration has the name under which it is read. -/
theorem name_of_ofNode {name : String} {node : Node} {declaration : Declaration}
    (read : ofNode name node = .ok declaration) : declaration.name = name := by
  unfold ofNode at read
  split at read
  case h_3 entries =>
    unfold ofMapping at read
    split at read
    · cases read
      unfold adoptSchema
      split <;> rfl
    · contradiction
  case h_5 => contradiction
  all_goals
    cases read
    rfl

end Declaration

end Raml
