import SchemaQuery.Json.Printer
import SchemaQuery.Json.Reader
import SchemaQuery.Dictionary
import SchemaQuery.Text.Blank
import SchemaQuery.Text.Lowercase
import SchemaQuery.Filter.Compile
import SchemaQuery.Filter.Lowering
import SchemaQuery.Filter.Codec
import SchemaQuery.Diagnostics.Sink
import SchemaQuery.Schema.Registry
import SchemaQuery.Schema.Scan
import SchemaQuery.Calendar.Instant
import SchemaQuery.Schema.Coercion
import SchemaQuery.Storage.Store
import SchemaQuery.Query.Pagination
import SchemaQuery.Query.Populate
import SchemaQuery.Query.Projection
import SchemaQuery.Rows
import SchemaQuery.Main
import SchemaQuery.Proofs.Basic
import SchemaQuery.Proofs.Schema.Integrity
import SchemaQuery.Proofs.Filter.Lowering
import SchemaQuery.Proofs.Filter.Meaning
import SchemaQuery.Proofs.Sql.Fragment
import SchemaQuery.Proofs.Filter.Rendering
import SchemaQuery.Proofs.Storage.PrimaryKeys
import SchemaQuery.Proofs.Json.Equality
import SchemaQuery.Proofs.Query.EagerLoading
import SchemaQuery.Proofs.Query.Selecting
import SchemaQuery.Proofs.Query.Paging
import SchemaQuery.Proofs.Query.RelationPaths
import SchemaQuery.Proofs.Json.Binary64
import SchemaQuery.Proofs.Rows.Saving
import SchemaQuery.Proofs.Sql.Scanning
import SchemaQuery.Proofs.Sql.Statements
import SchemaQuery.Proofs.Query.Merging
import SchemaQuery.Proofs.Query.PopulateCalls
import SchemaQuery.Proofs.Query.NestedLoading
import SchemaQuery.Proofs.Schema.Codec
import SchemaQuery.Proofs.Schema.FileTrees
import SchemaQuery.Proofs.Schema.SavedDefinitions
import SchemaQuery.Proofs.Schema.History
import SchemaQuery.Proofs.Rows.Operations
import SchemaQuery.Proofs.Rows.Isolation
import SchemaQuery.Proofs.Rows.Conformity
import SchemaQuery.Proofs.Rows.Atomicity
import SchemaQuery.Proofs.Filter.Grammar
import SchemaQuery.Proofs.Storage.Agreement
import SchemaQuery.Proofs.RoundTrips
import SchemaQuery.Proofs.Schema.RelationGraph
import SchemaQuery.Proofs.Query.FetchedColumns
import SchemaQuery.Proofs.Rows.Creating
import SchemaQuery.Proofs.Schema.Coercion
import SchemaQuery.Proofs.Schema.Scanning
import SchemaQuery.Proofs.Calendar.Dates
import SchemaQuery.Proofs.Calendar.Instants
import SchemaQuery.Proofs.Rows.Recoercion
import SchemaQuery.Proofs.Storage.Sorting
import SchemaQuery.Proofs.Json.Rounding
import SchemaQuery.Proofs.Filter.WholeNumbers
import SchemaQuery.Proofs.Filter.Patterns
import SchemaQuery.Proofs.Query.Expressions
import SchemaQuery.Proofs.Query.RelationForms
import SchemaQuery.Proofs.Query.FirstRow
import SchemaQuery.Proofs.Query.InverseRelations
import SchemaQuery.Proofs.Calendar.Chronology
import SchemaQuery.Proofs.Rows.StoredDates
import SchemaQuery.Proofs.Filter.Runs
import SchemaQuery.Proofs.Json.WrittenTexts
import SchemaQuery.Proofs.Diagnostics.LogLines
import SchemaQuery.Proofs.Json.WholeFloats
import SchemaQuery.Proofs.Schema.IntegerTexts
import SchemaQuery.Proofs.Rows.SavedRelations
import SchemaQuery.Proofs.Json.Comparison
import SchemaQuery.Proofs.Query.MergedForests
