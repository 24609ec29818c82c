import ShaclTypes.Distinct
import ShaclTypes.Json.Basic
import ShaclTypes.Json.Binary64
import ShaclTypes.Json.Document
import ShaclTypes.Json.Number
import ShaclTypes.Json.Reading
import ShaclTypes.Json.Token
import ShaclTypes.Model.Basic
import ShaclTypes.Model.Name
import ShaclTypes.Model.Order
import ShaclTypes.Model.Summary
import ShaclTypes.Model.ValueType
import ShaclTypes.Naming.Resolving
import ShaclTypes.Naming.Sanitized
import ShaclTypes.Naming.Settings
import ShaclTypes.Proofs.Growth
import ShaclTypes.Proofs.Inheritance
import ShaclTypes.Proofs.Inline
import ShaclTypes.Proofs.Invariant
import ShaclTypes.Proofs.Ledger
import ShaclTypes.Rdf.Collection
import ShaclTypes.Rdf.JsonForm
import ShaclTypes.Rdf.Lexical
import ShaclTypes.Rdf.NTriples
import ShaclTypes.Rdf.Order
import ShaclTypes.Rdf.PrefixMap
import ShaclTypes.Rdf.Term
import ShaclTypes.Rdf.TripleStore
import ShaclTypes.Resolution.Basic
import ShaclTypes.Resolution.Cardinality
import ShaclTypes.Resolution.Collapse
import ShaclTypes.Resolution.Composition
import ShaclTypes.Resolution.Entry
import ShaclTypes.Resolution.Error
import ShaclTypes.Resolution.Event
import ShaclTypes.Resolution.ListItem
import ShaclTypes.Resolution.Node
import ShaclTypes.Resolution.Resolver
import ShaclTypes.Resolution.Scalar
import ShaclTypes.Resolution.Scope
import ShaclTypes.Resolution.State
import ShaclTypes.Resolution.Threaded
import ShaclTypes.Resolution.Value
import ShaclTypes.Shape.Basic
import ShaclTypes.Shape.ClassHierarchy
import ShaclTypes.Shape.Graph
import ShaclTypes.Shape.Loading
import ShaclTypes.Shape.Message
import ShaclTypes.Shape.NodeKinds
import ShaclTypes.Shape.Path
import ShaclTypes.Shape.PathReading
import ShaclTypes.Shape.Reading
import ShaclTypes.Shape.Values
import ShaclTypes.Text.Blank
import ShaclTypes.Text.Digits
import ShaclTypes.Text.Extender
import ShaclTypes.Text.Hidden
import ShaclTypes.Text.Quoted
import ShaclTypes.Text.Ranges
import ShaclTypes.Text.Unassigned
import ShaclTypes.Vocabulary
import ShaclTypes.Proofs.Building
import ShaclTypes.Proofs.Rollback
import ShaclTypes.Proofs.Soundness
import ShaclTypes.Proofs.Identity
import ShaclTypes.Proofs.Catalogue
import ShaclTypes.Proofs.Mirror
import ShaclTypes.Proofs.Resolvable
import ShaclTypes.Proofs.Expected
import ShaclTypes.Proofs.Stage
import ShaclTypes.Proofs.Filling
import ShaclTypes.Proofs.Settling
import ShaclTypes.Proofs.FixedPoint
import ShaclTypes.Proofs.Named
import ShaclTypes.Proofs.Redeclaring
import ShaclTypes.Proofs.WholeGraph
import ShaclTypes.Proofs.OrderIndependence
import ShaclTypes.Proofs.Account
import ShaclTypes.Proofs.Typing
import ShaclTypes.Proofs.Integrity
import ShaclTypes.Proofs.Upkeep
import ShaclTypes.Proofs.Failure
import ShaclTypes.Proofs.Leaves
import ShaclTypes.Proofs.LoadedGraph
import ShaclTypes.Proofs.References
import ShaclTypes.Proofs.IdentifierKinds
import ShaclTypes.Proofs.Supervision
import ShaclTypes.Proofs.Lockstep
import ShaclTypes.Proofs.Threading
import ShaclTypes.Proofs.Scanning
import ShaclTypes.Proofs.Collections
import ShaclTypes.Proofs.Sightings
import ShaclTypes.Proofs.ParentsFirst
import ShaclTypes.Proofs.Kinship
import ShaclTypes.Proofs.Relatives
import ShaclTypes.Proofs.Nearness
import ShaclTypes.Proofs.CycleReport
import ShaclTypes.Proofs.Blame
import ShaclTypes.Proofs.CompactIris
import ShaclTypes.Proofs.Chains
import ShaclTypes.Proofs.PathEncoding
import ShaclTypes.Proofs.Reporting
import ShaclTypes.Proofs.Bare
import ShaclTypes.Proofs.NameBlind
import ShaclTypes.Proofs.ListCells
import ShaclTypes.Proofs.Admission
import ShaclTypes.Proofs.Additions
import ShaclTypes.Proofs.Assembly
import ShaclTypes.Proofs.Readback
import ShaclTypes.Proofs.Identifiers
import ShaclTypes.Proofs.WrittenTerms
import ShaclTypes.Proofs.Mentions
