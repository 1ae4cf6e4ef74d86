import PropertyToolkit.Base64.Alphabet
import PropertyToolkit.Base64.Decode
import PropertyToolkit.Base64.Encode
import PropertyToolkit.Calendar
import PropertyToolkit.CommandLine.Finding
import PropertyToolkit.CommandLine.Grammar
import PropertyToolkit.CommandLine.Log
import PropertyToolkit.CommandLine.Manual
import PropertyToolkit.CommandLine.Match
import PropertyToolkit.CommandLine.Override
import PropertyToolkit.CommandLine.Report
import PropertyToolkit.CommandLine.Request
import PropertyToolkit.CommandLine.Run
import PropertyToolkit.CommandLine.Subst
import PropertyToolkit.CommandLine.Word
import PropertyToolkit.Files.Access
import PropertyToolkit.Files.Path
import PropertyToolkit.Files.Tree
import PropertyToolkit.Main
import PropertyToolkit.Module.Capability
import PropertyToolkit.Module.Identifier
import PropertyToolkit.Module.TypeSearch
import PropertyToolkit.Number.Double
import PropertyToolkit.Number.Integer
import PropertyToolkit.Number.Shortest
import PropertyToolkit.Pattern
import PropertyToolkit.PropertyFile.Entry
import PropertyToolkit.PropertyFile.Line
import PropertyToolkit.PropertyFile.Load
import PropertyToolkit.PropertyFile.Mapping
import PropertyToolkit.PropertyFile.Problem
import PropertyToolkit.PropertyFile.Read
import PropertyToolkit.Runtime
import PropertyToolkit.Substitution.Environment
import PropertyToolkit.Substitution.Expand
import PropertyToolkit.Substitution.Properties
import PropertyToolkit.Substitution.Scan
import PropertyToolkit.Substitution.Source
import PropertyToolkit.Substitution.Span
import PropertyToolkit.Substitution.Weight
import PropertyToolkit.Table
import PropertyToolkit.Text.CodePoint
import PropertyToolkit.Text.Cut
import PropertyToolkit.Text.Lowercase
import PropertyToolkit.Text.Printable
import PropertyToolkit.Text.Quoted
import PropertyToolkit.Text.Regex
import PropertyToolkit.Text.Utf8
import PropertyToolkit.Value.Basic
import PropertyToolkit.Yaml.Composition
import PropertyToolkit.Yaml.Cursor
import PropertyToolkit.Yaml.Data
import PropertyToolkit.Yaml.Depth
import PropertyToolkit.Yaml.Fault
import PropertyToolkit.Yaml.Graph
import PropertyToolkit.Yaml.Lexer
import PropertyToolkit.Yaml.Merge
import PropertyToolkit.Yaml.ScalarText
import PropertyToolkit.Yaml.Tag
import PropertyToolkit.Yaml.Timestamp
import PropertyToolkit.Yaml.Token
import PropertyToolkit.Yaml.Typed
import PropertyToolkit.Proofs.Base64.Language
import PropertyToolkit.Proofs.Base64.RoundTrip
import PropertyToolkit.Proofs.Base64.Wrapping
import PropertyToolkit.Proofs.CommandLine.AllOrNothing
import PropertyToolkit.Proofs.CommandLine.EffectiveMap
import PropertyToolkit.Proofs.CommandLine.NamedKeys
import PropertyToolkit.Proofs.CommandLine.Reports
import PropertyToolkit.Proofs.CommandLine.WholeMap
import PropertyToolkit.Proofs.Fallible
import PropertyToolkit.Proofs.Module.Conjunction
import PropertyToolkit.Proofs.Module.FilterChange
import PropertyToolkit.Proofs.Module.Identifier
import PropertyToolkit.Proofs.Module.Requirement
import PropertyToolkit.Proofs.Module.SearchOrder
import PropertyToolkit.Proofs.Module.Visibility
import PropertyToolkit.Proofs.Number.Numeral
import PropertyToolkit.Proofs.Pattern.Compilation
import PropertyToolkit.Proofs.Pattern.Glob
import PropertyToolkit.Proofs.Pattern.Placement
import PropertyToolkit.Proofs.Pattern.Search
import PropertyToolkit.Proofs.PropertyFile.Form
import PropertyToolkit.Proofs.PropertyFile.Joined
import PropertyToolkit.Proofs.PropertyFile.Layout
import PropertyToolkit.Proofs.PropertyFile.LineReader
import PropertyToolkit.Proofs.PropertyFile.Lines
import PropertyToolkit.Proofs.PropertyFile.Outcome
import PropertyToolkit.Proofs.PropertyFile.Reading
import PropertyToolkit.Proofs.PropertyFile.Resolution
import PropertyToolkit.Proofs.PropertyFile.Spelling
import PropertyToolkit.Proofs.PropertyFile.Store
import PropertyToolkit.Proofs.PropertyFile.WholeEscapes
import PropertyToolkit.Proofs.Substitution.Acyclic
import PropertyToolkit.Proofs.Substitution.Advance
import PropertyToolkit.Proofs.Substitution.Balance
import PropertyToolkit.Proofs.Substitution.BracketCount
import PropertyToolkit.Proofs.Substitution.Concatenation
import PropertyToolkit.Proofs.Substitution.Evaluation
import PropertyToolkit.Proofs.Substitution.Influence
import PropertyToolkit.Proofs.Substitution.Journal
import PropertyToolkit.Proofs.Substitution.Marked
import PropertyToolkit.Proofs.Substitution.NestedData
import PropertyToolkit.Proofs.Substitution.PartialEvaluation
import PropertyToolkit.Proofs.Substitution.Provenance
import PropertyToolkit.Proofs.Substitution.Reference
import PropertyToolkit.Proofs.Substitution.Runs
import PropertyToolkit.Proofs.Substitution.Scan
import PropertyToolkit.Proofs.Substitution.Sources
import PropertyToolkit.Proofs.Substitution.SpanWalk
import PropertyToolkit.Proofs.Substitution.Template
import PropertyToolkit.Proofs.Substitution.Termination
import PropertyToolkit.Proofs.Substitution.Turns
import PropertyToolkit.Proofs.Table
import PropertyToolkit.Proofs.Text.Cut
import PropertyToolkit.Proofs.Text.Order
import PropertyToolkit.Proofs.Text.Regex
import PropertyToolkit.Proofs.Text.Utf16
import PropertyToolkit.Proofs.Text.Utf8
import PropertyToolkit.Proofs.Value.Leaves
import PropertyToolkit.Proofs.Yaml.Composition
import PropertyToolkit.Proofs.Yaml.Data
import PropertyToolkit.Proofs.Yaml.Depth
import PropertyToolkit.Proofs.Yaml.Entries
import PropertyToolkit.Proofs.Yaml.FlatMapping
import PropertyToolkit.Proofs.Yaml.Lexing
import PropertyToolkit.Proofs.Yaml.Merging
import PropertyToolkit.Proofs.Yaml.PlainScalar
import PropertyToolkit.Proofs.Yaml.Quoting
import PropertyToolkit.Proofs.Yaml.Typed
