import QueryPipeline.Calendar.Date
import QueryPipeline.Calendar.Iso
import QueryPipeline.Calendar.Moment
import QueryPipeline.Clause.Coerce
import QueryPipeline.Clause.Filter
import QueryPipeline.Clause.Page
import QueryPipeline.Clause.Populate
import QueryPipeline.Clause.Projection
import QueryPipeline.Clause.Scope
import QueryPipeline.Clause.Search
import QueryPipeline.Clause.Sort
import QueryPipeline.Engine.Collection
import QueryPipeline.Engine.Counting
import QueryPipeline.Entries
import QueryPipeline.Fault
import QueryPipeline.Number.Binary64
import QueryPipeline.Number.Numeral
import QueryPipeline.Number.Shortest
import QueryPipeline.Path
import QueryPipeline.Pipeline.Compiled
import QueryPipeline.Pipeline.Criteria
import QueryPipeline.Pipeline.Order
import QueryPipeline.Proofs.Clause.Complement
import QueryPipeline.Proofs.Clause.Conversion
import QueryPipeline.Proofs.Clause.DeclaredType
import QueryPipeline.Proofs.Clause.Faults
import QueryPipeline.Proofs.Clause.FilterCriteria
import QueryPipeline.Proofs.Clause.FilterMerging
import QueryPipeline.Proofs.Clause.HiddenFields
import QueryPipeline.Proofs.Clause.PageWindow
import QueryPipeline.Proofs.Clause.Population
import QueryPipeline.Proofs.Clause.Projection
import QueryPipeline.Proofs.Clause.ProjectionGrammar
import QueryPipeline.Proofs.Clause.ProjectionModes
import QueryPipeline.Proofs.Clause.Relevance
import QueryPipeline.Proofs.Clause.SearchSelection
import QueryPipeline.Proofs.Clause.SortKeys
import QueryPipeline.Proofs.Engine.Loading
import QueryPipeline.Proofs.Entries
import QueryPipeline.Proofs.Number.Range
import QueryPipeline.Proofs.Outcome
import QueryPipeline.Proofs.Path
import QueryPipeline.Proofs.Pipeline.CanonicalOrder
import QueryPipeline.Proofs.Pipeline.Combining
import QueryPipeline.Proofs.Pipeline.CriteriaMeaning
import QueryPipeline.Proofs.Pipeline.Idempotence
import QueryPipeline.Proofs.Pipeline.MatchMeaning
import QueryPipeline.Proofs.Pipeline.MergeOutcome
import QueryPipeline.Proofs.Pipeline.Merging
import QueryPipeline.Proofs.Pipeline.Paging
import QueryPipeline.Proofs.Query.Control
import QueryPipeline.Proofs.Query.Cookie
import QueryPipeline.Proofs.Query.DottedNotation
import QueryPipeline.Proofs.Query.Encoding
import QueryPipeline.Proofs.Query.JoinPlaces
import QueryPipeline.Proofs.Query.KeyGrammar
import QueryPipeline.Proofs.Query.Overwriting
import QueryPipeline.Proofs.Query.Paging
import QueryPipeline.Proofs.Query.ParameterOrder
import QueryPipeline.Proofs.Query.UnknownFields
import QueryPipeline.Proofs.Query.Written
import QueryPipeline.Proofs.Rearrangement
import QueryPipeline.Proofs.Request.Application
import QueryPipeline.Proofs.Request.CallOrder
import QueryPipeline.Proofs.Request.Counting
import QueryPipeline.Proofs.Request.Faults
import QueryPipeline.Proofs.Request.Language
import QueryPipeline.Proofs.Request.Reading
import QueryPipeline.Proofs.Request.Run
import QueryPipeline.Proofs.Request.Safety
import QueryPipeline.Proofs.Request.SearchOrder
import QueryPipeline.Proofs.Request.SortedRuns
import QueryPipeline.Proofs.Request.Total
import QueryPipeline.Proofs.Schema.Decoration
import QueryPipeline.Proofs.Schema.KnownPaths
import QueryPipeline.Proofs.Settings.Defaults
import QueryPipeline.Proofs.Settings.Replacement
import QueryPipeline.Proofs.Stage.Document
import QueryPipeline.Proofs.Stage.Preservation
import QueryPipeline.Proofs.Stage.ReadBack
import QueryPipeline.Proofs.Text.Blank
import QueryPipeline.Proofs.Text.Percent
import QueryPipeline.Proofs.Text.Pieces
import QueryPipeline.Proofs.Text.Utf8
import QueryPipeline.Proofs.Value.Equality
import QueryPipeline.Proofs.Value.Map
import QueryPipeline.Query.Cookie
import QueryPipeline.Query.Expression
import QueryPipeline.Query.Language
import QueryPipeline.Query.Parameters
import QueryPipeline.Query.QueryString
import QueryPipeline.Request.Log
import QueryPipeline.Request.Session
import QueryPipeline.Schema.Basic
import QueryPipeline.Schema.Source
import QueryPipeline.Schema.Table
import QueryPipeline.Settings.Basic
import QueryPipeline.Settings.Registry
import QueryPipeline.Stage.Basic
import QueryPipeline.Stage.Document
import QueryPipeline.Text.Blank
import QueryPipeline.Text.Digit
import QueryPipeline.Text.Escape
import QueryPipeline.Text.Lowercase
import QueryPipeline.Text.Percent
import QueryPipeline.Text.Pieces
import QueryPipeline.Text.Printable
import QueryPipeline.Text.Quoted
import QueryPipeline.Text.Utf8
import QueryPipeline.Value.Ascending
import QueryPipeline.Value.Basic
import QueryPipeline.Value.Literal
import QueryPipeline.Value.Same
import QueryPipeline.Value.Scalar
import QueryPipeline.Value.Shape
