import Raml.Schema.Constant
import Raml.Schema.Flag
import Raml.Schema.Nullable
import Raml.Schema.Required
import Raml.Schema.Typing

/-!
# Normal form of embedded schemas

A schema is brought into the form that its projection into properties expects, in five steps.
-/
namespace Raml.Schema

/-- The normal form of a schema. -/
def normalize (schema : JsonValue) : JsonValue :=
  admitNulls (inferTypes .schema (replaceFlags .schema (listConstants
    (listRequired false false schema))))

end Raml.Schema
