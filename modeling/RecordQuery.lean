import RecordQuery.Main
import RecordQuery.Schema.Cache
import RecordQuery.Files.Tree
import RecordQuery.Proofs.Query.Grammar
import RecordQuery.Proofs.Query.Recognition
import RecordQuery.Proofs.Schema.Consistency
import RecordQuery.Proofs.Schema.Reach
import RecordQuery.Proofs.Schema.Resolution
import RecordQuery.Proofs.Predicate.Typing
import RecordQuery.Proofs.Query.Escapes
import RecordQuery.Proofs.Query.Lexemes
import RecordQuery.Proofs.Query.Printing
import RecordQuery.Proofs.Query.Tiling
import RecordQuery.Proofs.Query.FirstError
import RecordQuery.Proofs.Query.Composition
import RecordQuery.Proofs.Search.Meaning
import RecordQuery.Proofs.Search.Composition
import RecordQuery.Proofs.Calendar.RoundTrip
import RecordQuery.Proofs.Predicate.Writing
import RecordQuery.Proofs.Search.RoundTrip
import RecordQuery.Proofs.Schema.CacheHistory
import RecordQuery.Proofs.Schema.Introspection
import RecordQuery.Proofs.Search.Loosening
import RecordQuery.Proofs.Search.Visibility
import RecordQuery.Proofs.Query.SourceMap
import RecordQuery.Proofs.Query.Boundary
import RecordQuery.Proofs.Query.Layout
import RecordQuery.Proofs.Search.Culprit
import RecordQuery.Proofs.Search.Layout
import RecordQuery.Proofs.Predicate.Expansion
import RecordQuery.Proofs.Predicate.FieldComparison
import RecordQuery.Proofs.Number.Rounding
import RecordQuery.Proofs.Predicate.IntegerComparison
import RecordQuery.Proofs.Predicate.Substring
import RecordQuery.Proofs.Predicate.ArrayNesting
import RecordQuery.Proofs.Schema.Explanation
import RecordQuery.Proofs.Schema.Lookup
import RecordQuery.Proofs.Schema.Suggestions
import RecordQuery.Proofs.Query.Literals
import RecordQuery.Proofs.Query.Bounds
import RecordQuery.Proofs.Search.Bounds
import RecordQuery.Proofs.Report.Lookups
import RecordQuery.Proofs.Query.Replacement
import RecordQuery.Proofs.Search.QuotedNumbers
import RecordQuery.Proofs.Report.Caret
import RecordQuery.Proofs.Calendar.Layouts
import RecordQuery.Proofs.Model.Serialization
import RecordQuery.Proofs.Query.Serialization
import RecordQuery.Proofs.Predicate.Serialization
import RecordQuery.Proofs.Toml.Quoted
import RecordQuery.Proofs.Toml.Lines
import RecordQuery.Proofs.Files.Path
import RecordQuery.Proofs.Files.Tree
import RecordQuery.Proofs.Settings.File
import RecordQuery.Proofs.Settings.Runs
