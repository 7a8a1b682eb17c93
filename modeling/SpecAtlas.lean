import SpecAtlas.Calendar
import SpecAtlas.Client
import SpecAtlas.CommandLine.Address
import SpecAtlas.CommandLine.Arguments
import SpecAtlas.CommandLine.Command
import SpecAtlas.CommandLine.Run
import SpecAtlas.Failure
import SpecAtlas.Files.Basic
import SpecAtlas.Files.Ignore
import SpecAtlas.Files.Tree
import SpecAtlas.Glob.Basic
import SpecAtlas.Glob.Expression
import SpecAtlas.Glob.Pattern
import SpecAtlas.Glob.Regex
import SpecAtlas.Index.Basic
import SpecAtlas.Index.Build
import SpecAtlas.Index.Database
import SpecAtlas.Index.Location
import SpecAtlas.Json.Decoder
import SpecAtlas.Json.Reader
import SpecAtlas.Json.Value
import SpecAtlas.Language
import SpecAtlas.Launch
import SpecAtlas.Main
import SpecAtlas.Path
import SpecAtlas.Proofs.CommandLine.Precedence
import SpecAtlas.Proofs.CommandLine.Reading
import SpecAtlas.Proofs.Files.Canonical
import SpecAtlas.Proofs.Files.Frame
import SpecAtlas.Proofs.Files.Spelling
import SpecAtlas.Proofs.Files.Tree
import SpecAtlas.Proofs.Files.Walk
import SpecAtlas.Proofs.Files.Way
import SpecAtlas.Proofs.Index.Binding
import SpecAtlas.Proofs.Index.Build
import SpecAtlas.Proofs.Index.History
import SpecAtlas.Proofs.Index.Repeat
import SpecAtlas.Proofs.Index.Rows
import SpecAtlas.Proofs.Index.Versions
import SpecAtlas.Proofs.Json.RoundTrip
import SpecAtlas.Proofs.Report.Address
import SpecAtlas.Proofs.Report.Codec
import SpecAtlas.Proofs.Report.Coverage
import SpecAtlas.Proofs.Report.Interface
import SpecAtlas.Proofs.Report.Launched
import SpecAtlas.Proofs.Report.Lookup
import SpecAtlas.Proofs.Report.Marker
import SpecAtlas.Proofs.Report.Position
import SpecAtlas.Proofs.Report.Selection
import SpecAtlas.Proofs.Report.ShellLine
import SpecAtlas.Proofs.Report.Siblings
import SpecAtlas.Proofs.Report.TableLayout
import SpecAtlas.Proofs.Scan.Cached
import SpecAtlas.Proofs.Scan.Depth
import SpecAtlas.Proofs.Service.Delegation
import SpecAtlas.Proofs.Source.Alike
import SpecAtlas.Proofs.Source.Edit
import SpecAtlas.Proofs.Source.Layout
import SpecAtlas.Proofs.Source.Lineage
import SpecAtlas.Proofs.Source.Numbering
import SpecAtlas.Proofs.Source.WellFormed
import SpecAtlas.Proofs.Spec.Alike
import SpecAtlas.Proofs.Spec.Configuration
import SpecAtlas.Proofs.Spec.Construct
import SpecAtlas.Proofs.Spec.DisplayPath
import SpecAtlas.Proofs.Spec.Edit
import SpecAtlas.Proofs.Spec.Enclosure
import SpecAtlas.Proofs.Spec.Forest
import SpecAtlas.Proofs.Spec.IncludedCall
import SpecAtlas.Proofs.Spec.Layout
import SpecAtlas.Proofs.Spec.LiteralName
import SpecAtlas.Proofs.Spec.SourceOrder
import SpecAtlas.Proofs.Spec.TestRange
import SpecAtlas.Proofs.Spec.WrittenType
import SpecAtlas.Proofs.Workspace.Calls
import SpecAtlas.Proofs.Workspace.Contents
import SpecAtlas.Proofs.Workspace.Distinct
import SpecAtlas.Proofs.Workspace.Failure
import SpecAtlas.Proofs.Workspace.Frame
import SpecAtlas.Proofs.Workspace.Repeat
import SpecAtlas.Proofs.Workspace.Rows
import SpecAtlas.Proofs.Workspace.Run
import SpecAtlas.Proofs.Workspace.Steps
import SpecAtlas.Proofs.Workspace.Transparency
import SpecAtlas.Proofs.Workspace.Views
import SpecAtlas.Report.Basic
import SpecAtlas.Report.Build
import SpecAtlas.Report.Codec
import SpecAtlas.Report.Lines
import SpecAtlas.Report.Position
import SpecAtlas.Report.Table
import SpecAtlas.Scan.Query
import SpecAtlas.Scan.Run
import SpecAtlas.Service
import SpecAtlas.Settings.Basic
import SpecAtlas.Settings.Defaults
import SpecAtlas.Snapshot
import SpecAtlas.Source.Call
import SpecAtlas.Source.Declaration
import SpecAtlas.Source.File
import SpecAtlas.Source.Node
import SpecAtlas.Source.Place
import SpecAtlas.Source.Preorder
import SpecAtlas.Source.Range
import SpecAtlas.Spec.Basic
import SpecAtlas.Spec.Lifecycle
import SpecAtlas.Spec.Outline
import SpecAtlas.Spec.Test
import SpecAtlas.Spec.TestCall
import SpecAtlas.Style
import SpecAtlas.Text.Blank
import SpecAtlas.Text.Decimal
import SpecAtlas.Text.Lines
import SpecAtlas.Text.Quotes
import SpecAtlas.Text.Shell
import SpecAtlas.Toml.Decoder
import SpecAtlas.Toml.Number
import SpecAtlas.Toml.Reader
import SpecAtlas.Toml.Text
import SpecAtlas.Toml.Value
import SpecAtlas.Workspace
import SpecAtlas.Workspace.Basic
import SpecAtlas.Workspace.Connection
import SpecAtlas.Workspace.Index
