import LintFindings.CommandLine.Arguments
import LintFindings.CommandLine.Run
import LintFindings.Config
import LintFindings.Config.Files
import LintFindings.Config.Schema
import LintFindings.Config.Writer
import LintFindings.Converter
import LintFindings.Decimal.Shortest
import LintFindings.Error
import LintFindings.FileTree
import LintFindings.Finding
import LintFindings.Format
import LintFindings.Format.Compact
import LintFindings.Format.Diagnostic
import LintFindings.Format.Gnu
import LintFindings.Format.Located
import LintFindings.Json.Reader
import LintFindings.Json.Value
import LintFindings.Json.Writer
import LintFindings.Label
import LintFindings.LineMatch
import LintFindings.Main
import LintFindings.Pattern
import LintFindings.Proofs.CommandLine
import LintFindings.Proofs.Config.Reader
import LintFindings.Proofs.Config.RoundTrip
import LintFindings.Proofs.Config.Schema
import LintFindings.Proofs.Config.Values
import LintFindings.Proofs.Converter
import LintFindings.Proofs.Except
import LintFindings.Proofs.FileTree
import LintFindings.Proofs.Finding
import LintFindings.Proofs.Finding.Steps
import LintFindings.Proofs.Format.Brackets
import LintFindings.Proofs.Format.Canonical
import LintFindings.Proofs.Format.Compact
import LintFindings.Proofs.Format.Diagnostic
import LintFindings.Proofs.Format.Disjoint
import LintFindings.Proofs.Format.Gnu
import LintFindings.Proofs.Format.Pattern.Groups
import LintFindings.Proofs.Format.Location
import LintFindings.Proofs.Format.Parts
import LintFindings.Proofs.Format.Severity
import LintFindings.Proofs.Json.FirstMember
import LintFindings.Proofs.Json.Grammar
import LintFindings.Proofs.Json.Records
import LintFindings.Proofs.Json.RoundTrip
import LintFindings.Proofs.Label
import LintFindings.Proofs.Pattern
import LintFindings.Proofs.Regex.Answers
import LintFindings.Proofs.Regex.Names
import LintFindings.Proofs.Regex.Ways
import LintFindings.Proofs.Report
import LintFindings.Proofs.Report.Bytes
import LintFindings.Proofs.Report.Chain
import LintFindings.Proofs.Report.Layout
import LintFindings.Proofs.Report.Lines
import LintFindings.Proofs.Report.Verbatim
import LintFindings.Proofs.RunRecord
import LintFindings.Proofs.Sarif.Catalogue
import LintFindings.Proofs.Sarif.Locations
import LintFindings.Proofs.Sarif.RoundTrip
import LintFindings.Proofs.Severity
import LintFindings.Proofs.Summary.Closing
import LintFindings.Proofs.Summary.Lines
import LintFindings.Proofs.Summary.Styles
import LintFindings.Proofs.Text
import LintFindings.Proofs.Text.Layout
import LintFindings.Proofs.Text.Lines
import LintFindings.Proofs.Text.Normal
import LintFindings.Proofs.Text.Utf8
import LintFindings.Proofs.TextMap
import LintFindings.Proofs.Toml.Distinct
import LintFindings.Proofs.Toml.Statements
import LintFindings.Proofs.Toml.Strings
import LintFindings.Proofs.Toml.Table
import LintFindings.Proofs.Unicode
import LintFindings.Regex.CharSet
import LintFindings.Regex.Program
import LintFindings.Regex.Reader
import LintFindings.Regex.Search
import LintFindings.Regex.Syntax
import LintFindings.Report
import LintFindings.RunRecord
import LintFindings.Sarif.Document
import LintFindings.Sarif.Encoding
import LintFindings.Severity
import LintFindings.Summary
import LintFindings.Text.Blank
import LintFindings.Text.Decimal
import LintFindings.Text.Hex
import LintFindings.Text.Quoted
import LintFindings.Text.Table
import LintFindings.Text.Utf8
import LintFindings.Toml.Quoting
import LintFindings.Toml.Reader
import LintFindings.Toml.Scalar
import LintFindings.Toml.Table
import LintFindings.Toml.Value
import LintFindings.Unicode.Category
import LintFindings.Unicode.Folding
import LintFindings.Proofs.Format.Pattern.Groups
import LintFindings.Proofs.Format.Pattern.Compact
import LintFindings.Proofs.Format.Pattern.Gnu
import LintFindings.Proofs.Regex.Program
import LintFindings.Proofs.Regex.Follow
import LintFindings.Proofs.Regex.Search
