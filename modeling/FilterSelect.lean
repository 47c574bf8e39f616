import FilterSelect.Binding.Basic
import FilterSelect.Binding.Json
import FilterSelect.Calendar.Date
import FilterSelect.Calendar.Keyword
import FilterSelect.Calendar.Pattern
import FilterSelect.Calendar.Reader
import FilterSelect.Calendar.Styles
import FilterSelect.Calendar.Timestamp
import FilterSelect.CommandLine
import FilterSelect.Configuration.Basic
import FilterSelect.Configuration.File
import FilterSelect.Directory
import FilterSelect.Endpoint
import FilterSelect.Evaluation
import FilterSelect.Fault
import FilterSelect.Json.Basic
import FilterSelect.Json.Decode
import FilterSelect.Json.Document
import FilterSelect.Json.Numeral
import FilterSelect.Json.Reader
import FilterSelect.Json.Token
import FilterSelect.Loading
import FilterSelect.Main
import FilterSelect.Number.Binary64
import FilterSelect.Number.Binary64.Reader
import FilterSelect.Number.Binary64.Shortest
import FilterSelect.Number.Decimal
import FilterSelect.Number.Decimal.Reader
import FilterSelect.Number.Integer64
import FilterSelect.Operator
import FilterSelect.Params
import FilterSelect.Proofs.Evaluation.PathTest
import FilterSelect.Proofs.Evaluation.Reference
import FilterSelect.Proofs.Joins.Alias
import FilterSelect.Proofs.Joins.Path
import FilterSelect.Proofs.Joins.Plan
import FilterSelect.Proofs.Joins.Resolution
import FilterSelect.Proofs.Operators.Test
import FilterSelect.Proofs.Rows.Choices
import FilterSelect.Proofs.Rows.Joins
import FilterSelect.Proofs.Rows.Meaning
import FilterSelect.Proofs.Rows.Semantics
import FilterSelect.Proofs.Sql.Expression
import FilterSelect.Proofs.Sql.Lexer
import FilterSelect.Proofs.Sql.Numerals
import FilterSelect.Proofs.Sql.Statements
import FilterSelect.Proofs.Sql.Strings
import FilterSelect.Proofs.Sql.Tokens
import FilterSelect.Proofs.Sql.Where
import FilterSelect.Query.Basic
import FilterSelect.Query.Json
import FilterSelect.Registry
import FilterSelect.Resolution
import FilterSelect.Schema.Basic
import FilterSelect.Schema.ColumnType
import FilterSelect.Schema.File
import FilterSelect.Schema.Json
import FilterSelect.Select.Basic
import FilterSelect.Select.Sql
import FilterSelect.Sql.Token
import FilterSelect.Text.Blank
import FilterSelect.Text.Digits
import FilterSelect.Text.Literal
import FilterSelect.Text.Visible
import FilterSelect.Value.Basic
import FilterSelect.Value.Converters
import FilterSelect.Value.Reading
import FilterSelect.Proofs.Joins.Attempts
import FilterSelect.Proofs.Joins.Consistency
import FilterSelect.Proofs.Joins.Fresh
import FilterSelect.Proofs.Joins.Qualifiers
import FilterSelect.Proofs.Joins.Renaming
import FilterSelect.Proofs.Evaluation.Faults
import FilterSelect.Proofs.Text.Digits
import FilterSelect.Proofs.Calendar.Reading
import FilterSelect.Proofs.Number.Reading
import FilterSelect.Proofs.Value.RoundTrip
import FilterSelect.Proofs.Sql.Literals
import FilterSelect.Proofs.Number.Rounding
import FilterSelect.Proofs.Json.Integers
import FilterSelect.Proofs.Json.Requoting
import FilterSelect.Proofs.Query.Requoting
import FilterSelect.Proofs.Value.Integers
import FilterSelect.Proofs.Evaluation.Integers
import FilterSelect.Proofs.Calendar.Apart
import FilterSelect.Proofs.Calendar.Unambiguous
import FilterSelect.Proofs.Params.Keys
import FilterSelect.Proofs.Params.Evaluation
import FilterSelect.Proofs.Evaluation.Footprint
import FilterSelect.Proofs.Directory.Listing
import FilterSelect.Proofs.Json.Values
import FilterSelect.Proofs.Json.Fields
import FilterSelect.Proofs.Json.Written
import FilterSelect.Proofs.Query.Written
import FilterSelect.Proofs.Loading.Written
import FilterSelect.Proofs.Loading.Places
import FilterSelect.Proofs.Loading.Restated
import FilterSelect.Proofs.Loading.Formats
import FilterSelect.Proofs.Calendar.DayNumber
import FilterSelect.Proofs.Calendar.Offsets
import FilterSelect.Proofs.Calendar.TimeAlone
import FilterSelect.Proofs.Value.Scalars
import FilterSelect.Proofs.Number.Numerals
import FilterSelect.Proofs.Number.Exponents
import FilterSelect.Proofs.Number.Shortest
import FilterSelect.Proofs.Value.Decimals
import FilterSelect.Proofs.Value.WholeNumbers
import FilterSelect.Proofs.Evaluation.Kinds
import FilterSelect.Proofs.Rows.Patterns
import FilterSelect.Proofs.Registry.History
import FilterSelect.Proofs.Registry.Names
import FilterSelect.Proofs.Schema.Closed
import FilterSelect.Proofs.Configuration.Operators
import FilterSelect.Proofs.Configuration.Layers
import FilterSelect.Proofs.Configuration.Grouping
import FilterSelect.Proofs.Calendar.Keywords
import FilterSelect.Proofs.Operators.Clock
import FilterSelect.Proofs.Evaluation.Clock
import FilterSelect.Proofs.Evaluation.Base
