import RowQuery.Calendar.Date
import RowQuery.Calendar.Instant
import RowQuery.CommandLine.Answer
import RowQuery.CommandLine.Arguments
import RowQuery.Dictionary
import RowQuery.Editor.Buffer
import RowQuery.Editor.Cursor
import RowQuery.Editor.Suggestion
import RowQuery.Json.Decode
import RowQuery.Json.Document
import RowQuery.Json.Number
import RowQuery.Json.Printer
import RowQuery.Json.Quoted
import RowQuery.Json.Value
import RowQuery.Main
import RowQuery.Number.Decimal
import RowQuery.Number.Digits
import RowQuery.Number.Double
import RowQuery.Number.Shortest
import RowQuery.Query.Token
import RowQuery.Query.Operator
import RowQuery.Query.Reader
import RowQuery.Rows.Fields
import RowQuery.Rows.Comparison
import RowQuery.Rows.Selector
import RowQuery.Schema.Command
import RowQuery.Schema.Diagnostic
import RowQuery.Schema.Encoding
import RowQuery.Schema.Registry
import RowQuery.Session.Basic
import RowQuery.Session.Encoding
import RowQuery.Summary.Config
import RowQuery.Summary.Encoding
import RowQuery.Summary.Metrics
import RowQuery.Text.Basic
import RowQuery.Text.Bytes
import RowQuery.Text.LetterCase
import RowQuery.Text.LetterCase.Table
import RowQuery.Text.Similarity
import RowQuery.Proofs.Query.Reader
import RowQuery.Proofs.Text.Bytes
import RowQuery.Proofs.Query.Concatenation
import RowQuery.Proofs.Query.Grammar
import RowQuery.Proofs.Query.RoundTrip
import RowQuery.Proofs.Editor.Cursor
import RowQuery.Proofs.Editor.TokenAtCursor
import RowQuery.Proofs.Rows.Selector
import RowQuery.Proofs.Schema.Registry
import RowQuery.Proofs.Editor.Suggestion
import RowQuery.Proofs.Calendar.Date
import RowQuery.Proofs.Editor.Completion
import RowQuery.Proofs.Query.Verbatim
import RowQuery.Proofs.Editor.Accepted
import RowQuery.Proofs.Text.LetterCase
import RowQuery.Proofs.Schema.Construction
import RowQuery.Proofs.Rows.UnknownKeys
import RowQuery.Proofs.Rows.KeyCase
import RowQuery.Proofs.Schema.Diagnostic
import RowQuery.Proofs.Session.Evaluation
import RowQuery.Proofs.Dictionary
import RowQuery.Proofs.Rows.Parallel
import RowQuery.Proofs.Summary.Additivity
import RowQuery.Proofs.Summary.Bands
import RowQuery.Proofs.Number.Decimal
import RowQuery.Proofs.Number.Shortest
import RowQuery.Proofs.Json.Number
import RowQuery.Proofs.Json.Numeral
import RowQuery.Proofs.Json.Quoted
import RowQuery.Proofs.Json.Layout
import RowQuery.Proofs.Json.RoundTrip
import RowQuery.Proofs.Json.Decode
import RowQuery.Proofs.Schema.Encoding
import RowQuery.Proofs.Rows.FieldMap
import RowQuery.Proofs.Summary.Encoding
import RowQuery.Proofs.Session.Encoding
import RowQuery.Proofs.Query.Lookahead
import RowQuery.Proofs.Query.Spans
import RowQuery.Proofs.Query.Typing
import RowQuery.Proofs.Query.Resumption
import RowQuery.Proofs.Editor.ForwardScan
import RowQuery.Proofs.Editor.Insertion
import RowQuery.Proofs.Calendar.Instant
import RowQuery.Proofs.Number.LetterCase
import RowQuery.Proofs.Rows.Comparison
import RowQuery.Proofs.Schema.AllowedValues
import RowQuery.Proofs.Summary.Consistency
import RowQuery.Proofs.Schema.Export
import RowQuery.Proofs.Rows.FieldMapHistory
import RowQuery.Proofs.Editor.DateLiteral
import RowQuery.Proofs.Rows.Flattening
import RowQuery.Proofs.Text.FinalSigma
import RowQuery.Proofs.Editor.KeyTyping
