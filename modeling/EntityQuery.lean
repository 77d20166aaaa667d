import EntityQuery.Text.Blank
import EntityQuery.Text.Decimal
import EntityQuery.Text.Invisible
import EntityQuery.Text.Quoted
import EntityQuery.Binary.Format
import EntityQuery.Binary.Arithmetic
import EntityQuery.Binary.DoubleDouble
import EntityQuery.Binary.Shortest
import EntityQuery.Calendar.Date
import EntityQuery.Calendar.Time
import EntityQuery.Calendar.Printer
import EntityQuery.Calendar.Reader
import EntityQuery.Json.Value
import EntityQuery.Json.Number
import EntityQuery.Json.Reader
import EntityQuery.Text.Dump
import EntityQuery.Value.Cell
import EntityQuery.Value.Literal
import EntityQuery.Entity.Reading
import EntityQuery.Entity.Basic
import EntityQuery.Condition.Path
import EntityQuery.Condition.Test
import EntityQuery.Condition.Predicate
import EntityQuery.Error
import EntityQuery.Condition.Basic
import EntityQuery.Sql.Expr
import EntityQuery.Sql.Token
import EntityQuery.Sql.Select
import EntityQuery.Sql.Backend
import EntityQuery.Sql.Resolver
import EntityQuery.Sql.Filter
import EntityQuery.Criteria.Basic
import EntityQuery.Criteria.Draft
import EntityQuery.Criteria.Compile
import EntityQuery.Runner
import EntityQuery.Store.Real
import EntityQuery.Store.Value
import EntityQuery.Store.Table
import EntityQuery.Store.Options
import EntityQuery.Proofs.Predicate.Outcome
import EntityQuery.Proofs.Condition.Leaves
import EntityQuery.Proofs.Condition.Meaning
import EntityQuery.Proofs.Resolver.Chain
import EntityQuery.Proofs.Resolver.Faithful
import EntityQuery.Proofs.Sql.Expression
import EntityQuery.Proofs.Sql.Lexeme
import EntityQuery.Proofs.Sql.Reader
import EntityQuery.Proofs.Sql.Template
import EntityQuery.Proofs.Criteria.Parameters
import EntityQuery.Proofs.Criteria.Query
import EntityQuery.Proofs.Draft.Trace
import EntityQuery.Proofs.Predicate.Columns
import EntityQuery.Proofs.Resolver.Series
import EntityQuery.Proofs.Criteria.Opened
import EntityQuery.Proofs.Criteria.Joins
import EntityQuery.Proofs.Criteria.Scoping
import EntityQuery.Proofs.Predicate.Report
import EntityQuery.Proofs.Predicate.Template
import EntityQuery.Proofs.Criteria.Validity
import EntityQuery.Proofs.Criteria.Window
import EntityQuery.Proofs.Criteria.Template
import EntityQuery.Proofs.Entity.Reading
import EntityQuery.Proofs.Store.RoundTrip
import EntityQuery.Proofs.Criteria.Results
import EntityQuery.Proofs.Criteria.Calls
import EntityQuery.Proofs.Entity.Widths
import EntityQuery.Proofs.Store.Session
import EntityQuery.Proofs.Calendar.Fields
import EntityQuery.Proofs.Calendar.Instant
import EntityQuery.Proofs.Store.Instant
import EntityQuery.Proofs.Sql.Membership
import EntityQuery.Proofs.Criteria.Membership
import EntityQuery.Proofs.Calendar.Plain
import EntityQuery.Proofs.Store.Plain
import EntityQuery.Proofs.Calendar.Chronology
import EntityQuery.Proofs.Calendar.Order
import EntityQuery.Proofs.Store.Order
import EntityQuery.Proofs.Predicate.Acceptance
import EntityQuery.Proofs.Resolver.Bookkeeping
import EntityQuery.Proofs.Sql.Quoting
import EntityQuery.Proofs.Condition.NormalForm
import EntityQuery.Proofs.Resolver.Sharing
import EntityQuery.Proofs.Criteria.Gathered
