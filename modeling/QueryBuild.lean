import QueryBuild.Build.Collaborators
import QueryBuild.Build.Event
import QueryBuild.Build.Pipeline
import QueryBuild.Build.Plan
import QueryBuild.Build.Step
import QueryBuild.BuildError
import QueryBuild.BuildUnit
import QueryBuild.CommandLine.Form
import QueryBuild.CommandLine.Invocation
import QueryBuild.CommandLine.LogFilter
import QueryBuild.CommandLine.Performance
import QueryBuild.CommandLine.Reader
import QueryBuild.CommandLine.Refusal
import QueryBuild.CommandLine.Session
import QueryBuild.CommandLine.Warning
import QueryBuild.Decimal.Shortest
import QueryBuild.Diagnostic
import QueryBuild.Digest
import QueryBuild.Files.Access
import QueryBuild.Files.Basic
import QueryBuild.Files.Resolve
import QueryBuild.Graph.Basic
import QueryBuild.Graph.Order
import QueryBuild.Graph.Reach
import QueryBuild.Host.EnvironmentFile
import QueryBuild.Host.Process
import QueryBuild.Host.Program
import QueryBuild.Host.Snapshot
import QueryBuild.Host.Tools
import QueryBuild.IoError
import QueryBuild.Json.Basic
import QueryBuild.Json.Decoder
import QueryBuild.Json.Number
import QueryBuild.Json.Reader
import QueryBuild.Main
import QueryBuild.Mismatch
import QueryBuild.Names
import QueryBuild.Path
import QueryBuild.ProcessOutput
import QueryBuild.Program.CppLiteral
import QueryBuild.Program.Render
import QueryBuild.Program.SqlLiteral
import QueryBuild.Proofs.Build.ArtifactFile
import QueryBuild.Proofs.Build.CompileThenRun
import QueryBuild.Proofs.Build.Execution
import QueryBuild.Proofs.Build.Overlap
import QueryBuild.Proofs.Build.Pointwise
import QueryBuild.Proofs.Build.Target
import QueryBuild.Proofs.Program.Rendered
import QueryBuild.Query.Dialect
import QueryBuild.Query.Grammar.Basic
import QueryBuild.Query.Grammar.Call
import QueryBuild.Query.Grammar.Change
import QueryBuild.Query.Grammar.DataType
import QueryBuild.Query.Grammar.Expression
import QueryBuild.Query.Grammar.Operand
import QueryBuild.Query.Grammar.Select
import QueryBuild.Query.Grammar.Statement
import QueryBuild.Query.Grammar.Table
import QueryBuild.Query.Keyword
import QueryBuild.Query.Lexer
import QueryBuild.Query.Literal
import QueryBuild.Query.Terminator
import QueryBuild.Query.Token
import QueryBuild.Query.Validation
import QueryBuild.Reference
import QueryBuild.Report
import QueryBuild.ReportText
import QueryBuild.Settings
import QueryBuild.SettingsFile
import QueryBuild.SettingsText
import QueryBuild.Shell.Arithmetic
import QueryBuild.Shell.Command
import QueryBuild.Shell.Condition
import QueryBuild.Shell.Field
import QueryBuild.Shell.Format
import QueryBuild.Shell.Pattern
import QueryBuild.Shell.Reader
import QueryBuild.Shell.Run
import QueryBuild.Shell.Signal
import QueryBuild.Shell.State
import QueryBuild.Staleness
import QueryBuild.Text.Blank
import QueryBuild.Text.Case
import QueryBuild.Text.Expression
import QueryBuild.Text.Hidden
import QueryBuild.Text.Letter
import QueryBuild.Text.Lossy
import QueryBuild.Text.Numeral
import QueryBuild.Text.Octets
import QueryBuild.Text.Quoted
import QueryBuild.Text.Similar
import QueryBuild.Toml.Decoder
import QueryBuild.Toml.Document
import QueryBuild.Toml.Node
import QueryBuild.Toml.Number
import QueryBuild.Toml.Problem
import QueryBuild.Toml.Quoted
import QueryBuild.Toml.Reader
import QueryBuild.Toml.Value
import QueryBuild.UnitGraph
import QueryBuild.Proofs.Files.View
import QueryBuild.Proofs.Graph.Representation
import QueryBuild.Proofs.Program.Literal
import QueryBuild.Proofs.Query.Embedded
import QueryBuild.Proofs.CommandLine.BuildReport
import QueryBuild.Proofs.Graph.CyclePath
import QueryBuild.Proofs.Graph.Distance
import QueryBuild.Proofs.Graph.Recursion
import QueryBuild.Proofs.Reference
import QueryBuild.Proofs.Report.RoundTrip
import QueryBuild.Proofs.Discovery.Mention
import QueryBuild.Proofs.Discovery.Scan
import QueryBuild.Proofs.Discovery.Table
import QueryBuild.Proofs.Program.LiteralRun
import QueryBuild.Proofs.Graph.StableOrder
import QueryBuild.Proofs.Build.Progress
import QueryBuild.Proofs.Build.FailedCompile
import QueryBuild.Proofs.Settings.RoundTrip
import QueryBuild.Proofs.Program.SqlReading
import QueryBuild.Proofs.BuildUnit
import QueryBuild.Proofs.Build.FailureDiagnostic
import QueryBuild.Proofs.CommandLine.Codegen
import QueryBuild.Proofs.Build.Incremental
