import Raml.Yaml.Token.Reading
import Raml.Yaml.Tree.Composition
import Raml.Yaml.Tree.Grammar

/-!
# Reading nodes from YAML text

Text is read as tokens, the tokens as a tree, and the tree as a node.
-/
namespace Raml

/-- The node of YAML text with at most one document; without a document it is null. -/
def Node.ofText? (text : String) : Option Node := do
  let tokens ← Yaml.Token.ofText? text
  let tree ← Yaml.Tree.ofTokens? tokens
  tree.toNode?

end Raml
