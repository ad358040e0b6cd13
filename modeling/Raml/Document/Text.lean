import Raml.Document
import Raml.Node.Text

/-!
# Reading documents from text
-/
namespace Raml

/-- The document of YAML text. -/
def Document.ofText (text : String) : Except Error Document :=
  match Node.ofText? text with
  | some root => Document.ofNode root
  | none => .error .document

end Raml
