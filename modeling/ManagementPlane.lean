import ManagementPlane.Cluster.Node
import ManagementPlane.Cluster.Supervisor
import ManagementPlane.Config.Basic
import ManagementPlane.Config.Loading
import ManagementPlane.Data.OrderedMap
import ManagementPlane.Data.PerKind
import ManagementPlane.Data.SortedMap
import ManagementPlane.Data.Step
import ManagementPlane.Decimal.Numeral
import ManagementPlane.Decimal.Shortest
import ManagementPlane.Files.Tree
import ManagementPlane.Handler.Basic
import ManagementPlane.Handler.Ledger
import ManagementPlane.Handler.Refusing
import ManagementPlane.Json.Bytes
import ManagementPlane.Json.Fields
import ManagementPlane.Json.Literal
import ManagementPlane.Json.Printer
import ManagementPlane.Json.Record
import ManagementPlane.Json.Tree
import ManagementPlane.Json.Value
import ManagementPlane.Kind
import ManagementPlane.Main
import ManagementPlane.Manager
import ManagementPlane.Memento.Basic
import ManagementPlane.Memento.Codec
import ManagementPlane.Memento.Decoding
import ManagementPlane.Memento.Encoding
import ManagementPlane.Memento.Lineage
import ManagementPlane.Mode
import ManagementPlane.Object.Basic
import ManagementPlane.Object.Error
import ManagementPlane.Object.Event
import ManagementPlane.Object.Types
import ManagementPlane.Pass.Basic
import ManagementPlane.Pass.Exposition
import ManagementPlane.Pass.Management
import ManagementPlane.Pass.Metrics
import ManagementPlane.Pass.Population
import ManagementPlane.Pass.Run
import ManagementPlane.Pass.Shells
import ManagementPlane.Plane.Basic
import ManagementPlane.Plane.Catalog
import ManagementPlane.Plane.CatalogFile
import ManagementPlane.Plane.Instantiation
import ManagementPlane.Plane.Provenance
import ManagementPlane.Plane.Scratch
import ManagementPlane.Program.Arguments
import ManagementPlane.Program.Logging
import ManagementPlane.Program.Report
import ManagementPlane.Program.Run
import ManagementPlane.Proofs.Abort
import ManagementPlane.Proofs.Acceptance
import ManagementPlane.Proofs.Accounting
import ManagementPlane.Proofs.Ancestry
import ManagementPlane.Proofs.Applications
import ManagementPlane.Proofs.Attempts
import ManagementPlane.Proofs.Blindness
import ManagementPlane.Proofs.Bookkeeping
import ManagementPlane.Proofs.Building
import ManagementPlane.Proofs.ClusterRuns
import ManagementPlane.Proofs.Content
import ManagementPlane.Proofs.Counterparts
import ManagementPlane.Proofs.Courses
import ManagementPlane.Proofs.CreationFailures
import ManagementPlane.Proofs.Decoded
import ManagementPlane.Proofs.DisabledKinds
import ManagementPlane.Proofs.Election
import ManagementPlane.Proofs.Emptiness
import ManagementPlane.Proofs.Envelopes
import ManagementPlane.Proofs.Extension
import ManagementPlane.Proofs.Faces
import ManagementPlane.Proofs.Failovers
import ManagementPlane.Proofs.FilePaths
import ManagementPlane.Proofs.FileTrees
import ManagementPlane.Proofs.Footing
import ManagementPlane.Proofs.Forest
import ManagementPlane.Proofs.FrankPasses
import ManagementPlane.Proofs.Frankness
import ManagementPlane.Proofs.Grounding
import ManagementPlane.Proofs.Hearing
import ManagementPlane.Proofs.Histories
import ManagementPlane.Proofs.Identity
import ManagementPlane.Proofs.Impartiality
import ManagementPlane.Proofs.Integrity
import ManagementPlane.Proofs.Joining
import ManagementPlane.Proofs.LastNotes
import ManagementPlane.Proofs.LastPhase
import ManagementPlane.Proofs.LastTurns
import ManagementPlane.Proofs.Leniency
import ManagementPlane.Proofs.Lineage
import ManagementPlane.Proofs.Listening
import ManagementPlane.Proofs.Listings
import ManagementPlane.Proofs.LiveGraph
import ManagementPlane.Proofs.Lockstep
import ManagementPlane.Proofs.Looseness
import ManagementPlane.Proofs.Losslessness
import ManagementPlane.Proofs.Making
import ManagementPlane.Proofs.ManagedOnce
import ManagementPlane.Proofs.Managing
import ManagementPlane.Proofs.Mastership
import ManagementPlane.Proofs.MementoText
import ManagementPlane.Proofs.Middle
import ManagementPlane.Proofs.Midway
import ManagementPlane.Proofs.MinorCourses
import ManagementPlane.Proofs.MissingShells
import ManagementPlane.Proofs.Moving
import ManagementPlane.Proofs.Muteness
import ManagementPlane.Proofs.NumberText
import ManagementPlane.Proofs.Numerals
import ManagementPlane.Proofs.Outcome
import ManagementPlane.Proofs.Overwriting
import ManagementPlane.Proofs.Ownership
import ManagementPlane.Proofs.ParentOrder
import ManagementPlane.Proofs.Parents
import ManagementPlane.Proofs.PartialReadings
import ManagementPlane.Proofs.Populating
import ManagementPlane.Proofs.Preorder
import ManagementPlane.Proofs.Provenance
import ManagementPlane.Proofs.Punctuality
import ManagementPlane.Proofs.Reading
import ManagementPlane.Proofs.Recency
import ManagementPlane.Proofs.Recording
import ManagementPlane.Proofs.Records
import ManagementPlane.Proofs.References
import ManagementPlane.Proofs.Reflection
import ManagementPlane.Proofs.Registration
import ManagementPlane.Proofs.Renewal
import ManagementPlane.Proofs.Reordering
import ManagementPlane.Proofs.Replay
import ManagementPlane.Proofs.Reporting
import ManagementPlane.Proofs.Requests
import ManagementPlane.Proofs.Revival
import ManagementPlane.Proofs.Rounding
import ManagementPlane.Proofs.Settling
import ManagementPlane.Proofs.Shadowing
import ManagementPlane.Proofs.Shelf
import ManagementPlane.Proofs.Shells
import ManagementPlane.Proofs.Showing
import ManagementPlane.Proofs.Silence
import ManagementPlane.Proofs.Slots
import ManagementPlane.Proofs.SortedValues
import ManagementPlane.Proofs.Spelling
import ManagementPlane.Proofs.Standby
import ManagementPlane.Proofs.Steps
import ManagementPlane.Proofs.Stock
import ManagementPlane.Proofs.Stops
import ManagementPlane.Proofs.StoreContents
import ManagementPlane.Proofs.StoreOrder
import ManagementPlane.Proofs.StoreRefinement
import ManagementPlane.Proofs.Tables
import ManagementPlane.Proofs.Takeover
import ManagementPlane.Proofs.Telling
import ManagementPlane.Proofs.Thoroughness
import ManagementPlane.Proofs.Traversal
import ManagementPlane.Proofs.Treatments
import ManagementPlane.Proofs.TreeRuns
import ManagementPlane.Proofs.Turns
import ManagementPlane.Proofs.TwinClosing
import ManagementPlane.Proofs.TwinLookups
import ManagementPlane.Proofs.TwinPasses
import ManagementPlane.Proofs.Twins
import ManagementPlane.Proofs.Verdicts
import ManagementPlane.Proofs.Walks
import ManagementPlane.Proofs.WriteGate
import ManagementPlane.Site
import ManagementPlane.Store.Any
import ManagementPlane.Store.Basic
import ManagementPlane.Store.File
import ManagementPlane.Store.Memory
import ManagementPlane.Text.Blank
import ManagementPlane.Text.Bytes
import ManagementPlane.Text.CaseTables
import ManagementPlane.Text.Digest
import ManagementPlane.Text.Hexadecimal
import ManagementPlane.Text.Lines
import ManagementPlane.Text.LowerCase
import ManagementPlane.Text.Quoted
import ManagementPlane.Text.Span
import ManagementPlane.Text.Timestamp
import ManagementPlane.Text.UnprintableTable
import ManagementPlane.Toml.Definition
import ManagementPlane.Toml.Document
import ManagementPlane.Toml.Quoted
import ManagementPlane.Toml.Scalar
import ManagementPlane.Toml.Value
import ManagementPlane.Transition
import ManagementPlane.View.Cluster
import ManagementPlane.View.Config
import ManagementPlane.View.Declaration
import ManagementPlane.View.Failure
import ManagementPlane.View.Journal
import ManagementPlane.View.Manager
import ManagementPlane.View.Object
import ManagementPlane.View.Site
import ManagementPlane.View.Store
import ManagementPlane.View.Types
