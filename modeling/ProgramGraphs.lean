import ProgramGraphs.CallGraph
import ProgramGraphs.Canonical.Build
import ProgramGraphs.Canonical.Graph
import ProgramGraphs.Canonical.Json
import ProgramGraphs.Class.Graph
import ProgramGraphs.Class.Info
import ProgramGraphs.Class.Json
import ProgramGraphs.Class.Name
import ProgramGraphs.Class.Vertex
import ProgramGraphs.CommandLine.Option
import ProgramGraphs.CommandLine.Parse
import ProgramGraphs.CommandLine.Run
import ProgramGraphs.Config.Basic
import ProgramGraphs.Config.File
import ProgramGraphs.Config.Json
import ProgramGraphs.Config.Toml
import ProgramGraphs.Decimal.Layout
import ProgramGraphs.Decimal.Nearest
import ProgramGraphs.Decimal.Shortest
import ProgramGraphs.DependencyGraph
import ProgramGraphs.Export.Request
import ProgramGraphs.Export.Run
import ProgramGraphs.Failure
import ProgramGraphs.Files.Basic
import ProgramGraphs.Files.Disk
import ProgramGraphs.Files.Error
import ProgramGraphs.Json.Bytes
import ProgramGraphs.Json.Decode
import ProgramGraphs.Json.Document
import ProgramGraphs.Json.Number
import ProgramGraphs.Json.Reader
import ProgramGraphs.Json.Record
import ProgramGraphs.Json.Token
import ProgramGraphs.Json.Value
import ProgramGraphs.Json.Variant
import ProgramGraphs.Main
import ProgramGraphs.Path
import ProgramGraphs.Position
import ProgramGraphs.Proofs.Canonical.Acyclic
import ProgramGraphs.Proofs.Canonical.Links
import ProgramGraphs.Proofs.Canonical.Reached
import ProgramGraphs.Proofs.Search.Cycle
import ProgramGraphs.Proofs.Search.Forest
import ProgramGraphs.Proofs.Search.Growth
import ProgramGraphs.Proofs.Search.Loop
import ProgramGraphs.Proofs.Search.Ranks
import ProgramGraphs.Proofs.Snapshot.Edges
import ProgramGraphs.Proofs.Snapshot.Tables
import ProgramGraphs.Reading.Mismatch
import ProgramGraphs.Record.Attribute
import ProgramGraphs.Record.Attributes
import ProgramGraphs.Record.Basic
import ProgramGraphs.Record.Graphs
import ProgramGraphs.Render.Document
import ProgramGraphs.Render.Dot
import ProgramGraphs.Render.Format
import ProgramGraphs.Render.GraphMl
import ProgramGraphs.Render.Json
import ProgramGraphs.Scope
import ProgramGraphs.Search.Cycle
import ProgramGraphs.Search.DepthFirst
import ProgramGraphs.Search.Numbering
import ProgramGraphs.Snapshot.Basic
import ProgramGraphs.Snapshot.Json
import ProgramGraphs.Snapshot.Read
import ProgramGraphs.Snapshot.References
import ProgramGraphs.Snapshot.View
import ProgramGraphs.Statement
import ProgramGraphs.Statement.Json
import ProgramGraphs.Text.Hidden
import ProgramGraphs.Text.Visible
import ProgramGraphs.Toml.Decode
import ProgramGraphs.Toml.Document
import ProgramGraphs.Toml.Item
import ProgramGraphs.Toml.Moment
import ProgramGraphs.Toml.Number
import ProgramGraphs.Toml.Quoted
import ProgramGraphs.Toml.Scan
import ProgramGraphs.Toml.Settings
import ProgramGraphs.Toml.Table
import ProgramGraphs.Toml.Text
import ProgramGraphs.Proofs.Canonical.Policies
import ProgramGraphs.Proofs.Canonical.Renaming
import ProgramGraphs.Proofs.Class.Tally
import ProgramGraphs.Proofs.Class.Reduce
import ProgramGraphs.Proofs.Decimal.Text
import ProgramGraphs.Proofs.Json.Tokens
import ProgramGraphs.Proofs.Json.Numerals
import ProgramGraphs.Proofs.Json.Printed
import ProgramGraphs.Proofs.Render.Facts
import ProgramGraphs.Proofs.Render.Json
import ProgramGraphs.Proofs.Render.Dot
import ProgramGraphs.Proofs.Render.GraphMl
import ProgramGraphs.Proofs.Class.Weights
import ProgramGraphs.Proofs.Render.Agreement
import ProgramGraphs.Proofs.Search.Sequence
import ProgramGraphs.Proofs.Canonical.Entries
import ProgramGraphs.Proofs.Class.Origins
import ProgramGraphs.Proofs.Snapshot.Slots
import ProgramGraphs.Proofs.Snapshot.Lookups
import ProgramGraphs.Proofs.Snapshot.Checked
import ProgramGraphs.Proofs.Class.History
import ProgramGraphs.Proofs.Files.Disk
import ProgramGraphs.Proofs.Export.Outcome
import ProgramGraphs.Proofs.Export.Failures
import ProgramGraphs.Proofs.Export.Written
import ProgramGraphs.Proofs.Export.Sequence
import ProgramGraphs.Proofs.Search.Numbering
import ProgramGraphs.Proofs.Search.Recursive
import ProgramGraphs.Proofs.Search.WhitePath
import ProgramGraphs.Proofs.Record.References
import ProgramGraphs.Proofs.Render.Keys
import ProgramGraphs.Proofs.Render.Lossless
import ProgramGraphs.Proofs.Render.Typing
import ProgramGraphs.Proofs.Canonical.Cycles
import ProgramGraphs.Proofs.Snapshot.Rows
import ProgramGraphs.Proofs.Snapshot.DerivedEntries
import ProgramGraphs.Proofs.Json.Decoding
import ProgramGraphs.Proofs.Snapshot.RoundTrip
import ProgramGraphs.Proofs.Class.Names
import ProgramGraphs.Proofs.Class.Counts
import ProgramGraphs.Proofs.Render.Legal
import ProgramGraphs.Proofs.Snapshot.Legal
import ProgramGraphs.Proofs.Toml.Quoted
import ProgramGraphs.Proofs.Toml.Values
import ProgramGraphs.Proofs.Toml.Document
import ProgramGraphs.Proofs.Config.File
import ProgramGraphs.Proofs.Record.InsertionOrder
import ProgramGraphs.Proofs.Render.Format
import ProgramGraphs.Proofs.Canonical.Enumeration
import ProgramGraphs.Proofs.Snapshot.SameMethod
