import TidyLines.Analyzer
import TidyLines.Catalogue
import TidyLines.CommandLine.Arguments
import TidyLines.CommandLine.Command
import TidyLines.CommandLine.ConfigOrigin
import TidyLines.CommandLine.Failure
import TidyLines.CommandLine.Log
import TidyLines.CommandLine.Output
import TidyLines.CommandLine.Run
import TidyLines.Config
import TidyLines.Config.Toml
import TidyLines.Discovery
import TidyLines.FileTree
import TidyLines.Glob
import TidyLines.Ignore.Files
import TidyLines.Ignore.Pattern
import TidyLines.Ignore.Rules
import TidyLines.Ignore.User
import TidyLines.Json
import TidyLines.Json.Parser
import TidyLines.Json.Printer
import TidyLines.Json.Record
import TidyLines.Json.Token
import TidyLines.Main
import TidyLines.NoBang
import TidyLines.Path
import TidyLines.Report
import TidyLines.Report.Json
import TidyLines.Rule
import TidyLines.Severity
import TidyLines.Snippet
import TidyLines.Text
import TidyLines.Text.Decimal
import TidyLines.Text.Line
import TidyLines.Text.LineReader
import TidyLines.Text.Whitespace
import TidyLines.Text.Width
import TidyLines.Text.Width.Ranges
import TidyLines.Toml
import TidyLines.Toml.Draft
import TidyLines.Toml.Moment
import TidyLines.Toml.Number
import TidyLines.Toml.Parser
import TidyLines.Toml.Quoted
import TidyLines.Toml.Scanner
import TidyLines.TrailingSpaces
import TidyLines.Violation
import TidyLines.Violation.Edit
import TidyLines.Violation.Json
import TidyLines.Workspace
import TidyLines.Proofs.Analyzer.Agreement
import TidyLines.Proofs.Analyzer.Building
import TidyLines.Proofs.Analyzer.Configuration
import TidyLines.Proofs.Analyzer.Convergence
import TidyLines.Proofs.Analyzer.Formatting
import TidyLines.Proofs.Analyzer.Linting
import TidyLines.Proofs.Analyzer.Loops
import TidyLines.Proofs.Analyzer.Mending
import TidyLines.Proofs.Analyzer.PlainMending
import TidyLines.Proofs.Analyzer.Recovery
import TidyLines.Proofs.Analyzer.RootSpelling
import TidyLines.Proofs.Analyzer.Runs
import TidyLines.Proofs.Analyzer.SingleFile
import TidyLines.Proofs.Analyzer.Sources
import TidyLines.Proofs.Analyzer.Spelling
import TidyLines.Proofs.Analyzer.Stopping
import TidyLines.Proofs.Analyzer.Undecodable
import TidyLines.Proofs.Catalogue.Selection
import TidyLines.Proofs.CommandLine.ConfigOrigin
import TidyLines.Proofs.CommandLine.ExitStatus
import TidyLines.Proofs.CommandLine.RuleNames
import TidyLines.Proofs.CommandLine.StandardInput
import TidyLines.Proofs.Discovery.Changed
import TidyLines.Proofs.Discovery.Exclusion
import TidyLines.Proofs.Discovery.Found
import TidyLines.Proofs.Discovery.Opening
import TidyLines.Proofs.Discovery.Patterns
import TidyLines.Proofs.Discovery.Removal
import TidyLines.Proofs.Discovery.Spelling
import TidyLines.Proofs.Discovery.Stability
import TidyLines.Proofs.FileTree.AddressPaths
import TidyLines.Proofs.FileTree.Differing
import TidyLines.Proofs.FileTree.Removal
import TidyLines.Proofs.FileTree.Rewriting
import TidyLines.Proofs.FileTree.Ways
import TidyLines.Proofs.Glob.Directories
import TidyLines.Proofs.Ignore.Unchanged
import TidyLines.Proofs.Json.Printing
import TidyLines.Proofs.Json.Records
import TidyLines.Proofs.Json.Spelling
import TidyLines.Proofs.Line.Joints
import TidyLines.Proofs.Line.Reading
import TidyLines.Proofs.Line.Splitting
import TidyLines.Proofs.List.StableSort
import TidyLines.Proofs.Path.Ancestors
import TidyLines.Proofs.Path.Below
import TidyLines.Proofs.Path.Parent
import TidyLines.Proofs.Path.Spelled
import TidyLines.Proofs.Report.CompactLines
import TidyLines.Proofs.Report.Encoding
import TidyLines.Proofs.Report.Totals
import TidyLines.Proofs.Rule.Locality
import TidyLines.Proofs.Text.Decimal
import TidyLines.Proofs.Text.Trimming
import TidyLines.Proofs.TrailingSpaces.Reference
import TidyLines.Proofs.TrailingSpaces.Edits
import TidyLines.Proofs.TrailingSpaces.LineStructure
import TidyLines.Proofs.TrailingSpaces.MergedLines
import TidyLines.Proofs.TrailingSpaces.Places
import TidyLines.Proofs.TrailingSpaces.Projection
import TidyLines.Proofs.TrailingSpaces.Composition
import TidyLines.Proofs.TrailingSpaces.SingleEdits
import TidyLines.Proofs.TrailingSpaces.LineEndings
import TidyLines.Proofs.TrailingSpaces.Classes
import TidyLines.Proofs.TrailingSpaces.LeastDeletion
