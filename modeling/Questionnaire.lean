import Questionnaire.Analysis.Cycle
import Questionnaire.Analysis.Dependency
import Questionnaire.Analysis.Lint
import Questionnaire.Analysis.Symbols
import Questionnaire.Analysis.Typing
import Questionnaire.Analysis.Verdict
import Questionnaire.Check
import Questionnaire.Command.EnvFile
import Questionnaire.Command.Flags
import Questionnaire.Command.LogLevel
import Questionnaire.Command.LogLine
import Questionnaire.Command.PassFilter
import Questionnaire.Command.Run
import Questionnaire.Command.Settings
import Questionnaire.Files.Disk
import Questionnaire.Files.Document
import Questionnaire.Finding
import Questionnaire.Form.Decode
import Questionnaire.Form.DocPath
import Questionnaire.Form.Document
import Questionnaire.Form.Expr
import Questionnaire.Form.Operator
import Questionnaire.Form.Statement
import Questionnaire.Form.ValueType
import Questionnaire.Json.Basic
import Questionnaire.Json.Fields
import Questionnaire.Json.Read
import Questionnaire.Json.Write
import Questionnaire.Main
import Questionnaire.Number.Binary64
import Questionnaire.Number.Integer
import Questionnaire.Number.Layout
import Questionnaire.Number.Reading
import Questionnaire.Number.Shortest
import Questionnaire.Proofs.Check.Batch
import Questionnaire.Proofs.Check.Options
import Questionnaire.Proofs.Check.Reports
import Questionnaire.Proofs.Check.Stages
import Questionnaire.Proofs.Command.Arguments
import Questionnaire.Proofs.Command.Exit
import Questionnaire.Proofs.Command.PassFilter
import Questionnaire.Proofs.Declarations
import Questionnaire.Proofs.Dependencies
import Questionnaire.Proofs.Document.Canonical
import Questionnaire.Proofs.Document.Decoded
import Questionnaire.Proofs.Document.Decoding
import Questionnaire.Proofs.Document.Description
import Questionnaire.Proofs.Document.Fidelity
import Questionnaire.Proofs.Document.FirstFault
import Questionnaire.Proofs.Document.Reading
import Questionnaire.Proofs.Document.RoundTrip
import Questionnaire.Proofs.Document.Rules
import Questionnaire.Proofs.Document.Writing
import Questionnaire.Proofs.DocumentOrder
import Questionnaire.Proofs.Findings
import Questionnaire.Proofs.Graph.Bookkeeping
import Questionnaire.Proofs.Graph.Completeness
import Questionnaire.Proofs.Graph.Disjoint
import Questionnaire.Proofs.Graph.Layout
import Questionnaire.Proofs.Graph.Links
import Questionnaire.Proofs.Graph.Reported
import Questionnaire.Proofs.Graph.Search
import Questionnaire.Proofs.Graph.Stepwise
import Questionnaire.Proofs.Graph.Walk
import Questionnaire.Proofs.Json.Indented
import Questionnaire.Proofs.Json.Members
import Questionnaire.Proofs.Json.Numerals
import Questionnaire.Proofs.Json.Ordered
import Questionnaire.Proofs.Json.Records
import Questionnaire.Proofs.Json.Spelling
import Questionnaire.Proofs.Json.Texts
import Questionnaire.Proofs.Labels
import Questionnaire.Proofs.Lists
import Questionnaire.Proofs.Located
import Questionnaire.Proofs.Number.Exact
import Questionnaire.Proofs.Number.Positional
import Questionnaire.Proofs.Number.Range
import Questionnaire.Proofs.Number.Shortest
import Questionnaire.Proofs.Phases
import Questionnaire.Proofs.Places
import Questionnaire.Proofs.Rendering
import Questionnaire.Proofs.Reordering
import Questionnaire.Proofs.Report.Colours
import Questionnaire.Proofs.Report.RoundTrip
import Questionnaire.Proofs.Resolution
import Questionnaire.Proofs.Schema.Acceptance
import Questionnaire.Proofs.Schema.Failures
import Questionnaire.Proofs.Schema.Grammar
import Questionnaire.Proofs.Schema.Keywords
import Questionnaire.Proofs.Schema.Layout
import Questionnaire.Proofs.Schema.Normalized
import Questionnaire.Proofs.Schema.Pointers
import Questionnaire.Proofs.Schema.Sites
import Questionnaire.Proofs.Schema.Validators
import Questionnaire.Proofs.Text.Quoting
import Questionnaire.Proofs.Text.Trimming
import Questionnaire.Proofs.Text.Utf8
import Questionnaire.Proofs.Typing.Accumulation
import Questionnaire.Proofs.Typing.Composition
import Questionnaire.Proofs.Typing.Judgement
import Questionnaire.Proofs.Typing.Nodes
import Questionnaire.Proofs.Typing.Operands
import Questionnaire.Proofs.Typing.Reporting
import Questionnaire.Proofs.Typing.RootCauses
import Questionnaire.Proofs.Typing.Undefined
import Questionnaire.Proofs.Typing.Widening
import Questionnaire.Proofs.WellFormed
import Questionnaire.Proofs.Widening
import Questionnaire.Report
import Questionnaire.Schema.Documents
import Questionnaire.Schema.Evaluate
import Questionnaire.Schema.Keyword
import Questionnaire.Schema.Standard
import Questionnaire.Schema.ValidationError
import Questionnaire.Schema.Validator
import Questionnaire.Text.Blank
import Questionnaire.Text.Lowercase
import Questionnaire.Text.Printable
import Questionnaire.Text.Quoted
import Questionnaire.Text.Utf8
import Questionnaire.Toolkit
import Questionnaire.Toolkit.Standard
import Questionnaire.Yaml.Convert
import Questionnaire.Yaml.Cursor
import Questionnaire.Yaml.Node
import Questionnaire.Yaml.Scalar.Block
import Questionnaire.Yaml.Scalar.Meaning
import Questionnaire.Yaml.Scalar.Plain
import Questionnaire.Yaml.Scalar.Quoted
import Questionnaire.Yaml.Source
import Questionnaire.Yaml.Tag
import Questionnaire.Yaml.Timestamp
import Questionnaire.Yaml.Token
import Questionnaire.Yaml.TokenStream
import Questionnaire.Yaml.Value
