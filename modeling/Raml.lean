import Raml.TypeExpr
import Raml.TypeName
import Raml.Property.Optional
import Raml.Error
import Raml.Declaration.Classified
import Raml.Json.Parser
import Raml.Json.Text
import Raml.Schema
import Raml.Nesting
import Raml.Document.Text
import Raml.Proofs.NormalForm
import Raml.Proofs.ByHand
import Raml.Proofs.LiftedNames
import Raml.Proofs.Frame
import Raml.Proofs.History
import Raml.Proofs.InlineCount
import Raml.Proofs.Reentry
import Raml.Proofs.Termination
import Raml.Proofs.IllFormed
import Raml.Proofs.Inspection
import Raml.Proofs.Retry
import Raml.Proofs.Store
import Raml.Proofs.Independence
import Raml.Proofs.Text
import Raml.Proofs.TypeExpr
import Raml.Proofs.Json
import Raml.Proofs.SchemaPass
import Raml.Proofs.SchemaPlace
import Raml.Proofs.SchemaRoute
import Raml.Proofs.SchemaData
import Raml.Proofs.AllOf
import Raml.Proofs.PropertyNames
import Raml.Proofs.RequiredProperties
import Raml.Proofs.SchemaErrors
import Raml.Proofs.KindCell
import Raml.Proofs.Visits
import Raml.Proofs.CreationOrder
import Raml.Proofs.Document
import Raml.Proofs.NodeCoding
import Raml.Proofs.RecordReading
import Raml.Proofs.CanonicalReading
import Raml.Proofs.RecordCoding
import Raml.Proofs.DeclarationCoding
import Raml.Proofs.BareForm
import Raml.Proofs.SchemaNormalForm
import Raml.Proofs.Nullability
import Raml.Proofs.PropertyView
import Raml.Proofs.Interruption
import Raml.Proofs.AllOfMerge
import Raml.Proofs.NativeShape
import Raml.Proofs.Absorption
import Raml.Proofs.WrittenNames
import Raml.Proofs.NamedEntries
import Raml.Proofs.Parents
import Raml.Proofs.Choice
import Raml.Proofs.NumberText
import Raml.Proofs.MappingNames
