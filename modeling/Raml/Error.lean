import Raml.Lift
import Raml.Property.Optional
import Raml.Schema
import Raml.Trait

/-!
# Errors

An error is a syntax error of the document, a node of the wrong form, or a defect that no form of a
single node shows: a name that is not registered, or an optional property that cannot be one.
-/
namespace Raml

/-- Why a section of a document cannot be read. -/
inductive SectionError where
  /-- An element of the list of a section is no mapping. -/
  | element (name : String) (node : Node)
  /-- The section is neither a mapping nor a list. -/
  | kind (name : String) (node : Node)
  /-- A key has no text. -/
  | key (name : String) (node : Node)
  deriving DecidableEq

/-- What is wrong, in words. -/
def SectionError.message : SectionError → String
  | element name node => "'" ++ name ++ "' entries must be mappings, found " ++ node.longTag
  | kind name node => "'" ++ name ++ "' must be a mapping, found " ++ node.longTag
  | key name node => "'" ++ name ++ "' keys must be scalars, found " ++ node.longTag

/-- Why a node cannot be read. -/
inductive DecodeError where
  /-- A key of a mapping has no text. -/
  | key (cause : KeyError)
  /-- A node is no choice of a definition. -/
  | choice (cause : ChoiceError)
  /-- A node is no type declaration. -/
  | declaration (cause : DeclarationError)
  /-- A node is no trait. -/
  | trait (cause : TraitError)
  /-- An inline declaration cannot be lifted. -/
  | lift (cause : LiftError)
  /-- A schema has no properties to project. -/
  | schema (cause : Schema.SchemaError)
  /-- The schema of a type has no properties to project. -/
  | embedded (type : String) (cause : Schema.SchemaError)
  /-- A section of a document is of the wrong form. -/
  | document (cause : SectionError)
  deriving DecidableEq

/-- What is wrong, in words. -/
def DecodeError.message : DecodeError → String
  | key cause => cause.message
  | choice cause => cause.message
  | declaration cause => cause.message
  | trait cause => cause.message
  | lift cause => cause.message
  | schema cause => cause.message
  | embedded type cause => "Invalid JSON Schema in type '" ++ type ++ "': " ++ cause.message
  | document cause => cause.message

/-- A defect of the declarations as a whole. -/
inductive Defect where
  /-- No type has the name. -/
  | unknownType (name : String)
  /-- A type has no property of the name. -/
  | unknownProperty (name type : String)
  /-- An optional property is declared by a node that cannot be one. -/
  | optionalValue (cause : OptionalValueError)
  deriving DecidableEq

/-- What is wrong, in words. -/
def Defect.message : Defect → String
  | unknownType name => "type " ++ name ++ " not exist"
  | unknownProperty name type => "property " ++ name ++ " not exist in type " ++ type
  | optionalValue cause =>
    "unexpected value for optional property '" ++ cause.name ++ "': " ++ cause.node.longTag

/-- An error. -/
inductive Error where
  /-- The text is no document. -/
  | document
  /-- A node cannot be read. -/
  | decode (cause : DecodeError)
  /-- The declarations are defective. -/
  | configuration (defect : Defect)
  deriving DecidableEq

namespace Error

/-- What is wrong, in words. -/
def message : Error → String
  | document => "YAML Error"
  | decode cause => "Decode Error: " ++ cause.message
  | configuration defect => "Configuration Error: " ++ defect.message

/-- Whether this is a defect of the declarations as a whole. -/
def isDefect : Error → Bool
  | configuration _ => true
  | _ => false

end Error

/-- The view of a declared property of a type. -/
def Declaration.property (declaration : Declaration) (name : String) : Except Defect Property :=
  match declaration.properties.get? name with
  | some value => .ok (.ofValue name value)
  | none => .error (.unknownProperty name declaration.name)

end Raml
