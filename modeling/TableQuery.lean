import TableQuery.Calendar.Civil
import TableQuery.Calendar.Timestamp
import TableQuery.Calendar.Unit
import TableQuery.Catalog
import TableQuery.Cell
import TableQuery.Command.Arguments
import TableQuery.Command.Basic
import TableQuery.Command.Run
import TableQuery.Compilation.Clause
import TableQuery.Compilation.Resolution
import TableQuery.Compilation.Typing
import TableQuery.Context.Basic
import TableQuery.Context.Columns
import TableQuery.Context.Kind
import TableQuery.Context.Label
import TableQuery.Decimal.Arithmetic
import TableQuery.Decimal.Basic
import TableQuery.Decimal.Power
import TableQuery.Evaluation.Bucket
import TableQuery.Evaluation.Database
import TableQuery.Evaluation.Error
import TableQuery.Evaluation.Expression
import TableQuery.Evaluation.Query
import TableQuery.Evaluation.Scalar
import TableQuery.Evaluation.Statistics
import TableQuery.Evaluation.Tracker
import TableQuery.Expression
import TableQuery.Files
import TableQuery.Fingerprint.Basic
import TableQuery.Fingerprint.Sha256
import TableQuery.Formula.Diagnostic
import TableQuery.Formula.Function
import TableQuery.Formula.Operator
import TableQuery.Formula.Span
import TableQuery.Formula.Token
import TableQuery.Formula.Token.Lexer
import TableQuery.Formula.Tree
import TableQuery.Formula.Tree.Parser
import TableQuery.Formula.Tree.Printer
import TableQuery.Identifier
import TableQuery.Json.Basic
import TableQuery.Json.Reader
import TableQuery.Json.Record
import TableQuery.Json.Writer
import TableQuery.Kind
import TableQuery.Main
import TableQuery.Proofs.Calendar.Chronology
import TableQuery.Proofs.Calendar.Gregorian
import TableQuery.Proofs.Calendar.Numbering
import TableQuery.Proofs.Calendar.Offsets
import TableQuery.Proofs.Calendar.Overflow
import TableQuery.Proofs.Calendar.Reading
import TableQuery.Proofs.Calendar.Truncation
import TableQuery.Proofs.Calendar.Weeks
import TableQuery.Proofs.Compilation.Canonical
import TableQuery.Proofs.Compilation.Clause
import TableQuery.Proofs.Compilation.Columns
import TableQuery.Proofs.Compilation.Drafts
import TableQuery.Proofs.Compilation.Evaluable
import TableQuery.Proofs.Compilation.Labels
import TableQuery.Proofs.Compilation.Naming
import TableQuery.Proofs.Compilation.Segments
import TableQuery.Proofs.Compilation.Spans
import TableQuery.Proofs.Compilation.Typing
import TableQuery.Proofs.Compilation.WellKinded
import TableQuery.Proofs.Context
import TableQuery.Proofs.Decimal.Rounding
import TableQuery.Proofs.Decimal.Text
import TableQuery.Proofs.Decimal.Value
import TableQuery.Proofs.Evaluation.Accumulation
import TableQuery.Proofs.Evaluation.Aggregates
import TableQuery.Proofs.Evaluation.ChangedRows
import TableQuery.Proofs.Evaluation.ConditionalAggregates
import TableQuery.Proofs.Evaluation.Conjuncts
import TableQuery.Proofs.Evaluation.Contents
import TableQuery.Proofs.Evaluation.CustomColumns
import TableQuery.Proofs.Evaluation.Edits
import TableQuery.Proofs.Evaluation.Failure
import TableQuery.Proofs.Evaluation.Gathering
import TableQuery.Proofs.Evaluation.Groups
import TableQuery.Proofs.Evaluation.Kinds
import TableQuery.Proofs.Evaluation.Nesting
import TableQuery.Proofs.Evaluation.OrderStatistic
import TableQuery.Proofs.Evaluation.Partition
import TableQuery.Proofs.Evaluation.Percentile
import TableQuery.Proofs.Evaluation.Reindexing
import TableQuery.Proofs.Evaluation.Renumbering
import TableQuery.Proofs.Evaluation.RunningTotals
import TableQuery.Proofs.Evaluation.Safety
import TableQuery.Proofs.Evaluation.SameContents
import TableQuery.Proofs.Evaluation.Sorting
import TableQuery.Proofs.Evaluation.Statistics
import TableQuery.Proofs.Evaluation.StorageOrder
import TableQuery.Proofs.Evaluation.Substring
import TableQuery.Proofs.Evaluation.Support
import TableQuery.Proofs.Evaluation.Tracking
import TableQuery.Proofs.Evaluation.Unsorted
import TableQuery.Proofs.Evaluation.Unvalidated
import TableQuery.Proofs.Except
import TableQuery.Proofs.Expression
import TableQuery.Proofs.Formula.Grammar
import TableQuery.Proofs.Formula.Groups
import TableQuery.Proofs.Formula.Limits
import TableQuery.Proofs.Formula.Lossless
import TableQuery.Proofs.Formula.Nodes
import TableQuery.Proofs.Formula.Parentheses
import TableQuery.Proofs.Formula.Parsing
import TableQuery.Proofs.Formula.ReadTrees
import TableQuery.Proofs.Formula.Reading
import TableQuery.Proofs.Formula.RoundTrip
import TableQuery.Proofs.Formula.Scanning
import TableQuery.Proofs.Formula.Slices
import TableQuery.Proofs.Formula.Spelling
import TableQuery.Proofs.Formula.Tree
import TableQuery.Proofs.Formula.Writing
import TableQuery.Proofs.Json.Injectivity
import TableQuery.Proofs.Json.Members
import TableQuery.Proofs.Json.NumberText
import TableQuery.Proofs.Json.Numbers
import TableQuery.Proofs.Json.Reading
import TableQuery.Proofs.Json.Strings
import TableQuery.Proofs.Query.Edit
import TableQuery.Proofs.Query.Insertion
import TableQuery.Proofs.Query.Moves
import TableQuery.Proofs.Query.Positions
import TableQuery.Proofs.Query.Reads
import TableQuery.Proofs.Query.Removal
import TableQuery.Proofs.Query.Sorts
import TableQuery.Proofs.Query.Undo
import TableQuery.Proofs.Query.Uniqueness
import TableQuery.Proofs.Query.Validity
import TableQuery.Proofs.Query.Visibility
import TableQuery.Proofs.Text
import TableQuery.Proofs.Wire.Clause
import TableQuery.Proofs.Wire.Depth
import TableQuery.Proofs.Wire.Documents
import TableQuery.Proofs.Wire.Expression
import TableQuery.Proofs.Wire.Formulas
import TableQuery.Proofs.Wire.Injectivity
import TableQuery.Proofs.Wire.Number
import TableQuery.Proofs.Wire.Query
import TableQuery.Proofs.Wire.Reading
import TableQuery.Proofs.Wire.Reloading
import TableQuery.Proofs.Wire.Settled
import TableQuery.Proofs.Word
import TableQuery.Query.Basic
import TableQuery.Query.Clause
import TableQuery.Query.Edit
import TableQuery.Query.Outline
import TableQuery.Query.Renumbering
import TableQuery.Query.Validation
import TableQuery.Regex.Class
import TableQuery.Regex.Search
import TableQuery.Regex.Syntax
import TableQuery.Sample
import TableQuery.Settings
import TableQuery.Text.Outline
import TableQuery.Text.Quoted
import TableQuery.Text.Replace
import TableQuery.Text.TitleCase
import TableQuery.Text.Trim
import TableQuery.Toml.Reader
import TableQuery.Toml.Scalar
import TableQuery.Toml.Table
import TableQuery.Unicode.CaseMap
import TableQuery.Unicode.Category
import TableQuery.Unicode.Property
import TableQuery.Wire.Clause
import TableQuery.Wire.Error
import TableQuery.Wire.Expression
import TableQuery.Wire.Number
import TableQuery.Wire.Query
import TableQuery.Word
