import Criteria.Decimal.Layout
import Criteria.Decimal.Reading
import Criteria.Text.Dotted
import Criteria.Text.Blank
import Criteria.Text.Quoted
import Criteria.Text.Search
import Criteria.Text.Table
import Criteria.Json.Writer
import Criteria.Json.Reader
import Criteria.Json.Decoder
import Criteria.Trace
import Criteria.Query.Tree
import Criteria.Query.Codec
import Criteria.Query.Report
import Criteria.Schema.Codec
import Criteria.Schema.Similarity
import Criteria.Schema.Report
import Criteria.Search.Compile
import Criteria.Search.Report
import Criteria.Search.Stage
import Criteria.Disk.Store
import Criteria.Toml.Reader
import Criteria.Toml.Writer
import Criteria.Settings.Discovery
import Criteria.Settings.Template
import Criteria.Command.Run
import Criteria.Main
import Criteria.Proofs.Except
import Criteria.Proofs.Query.Forest
import Criteria.Proofs.Query.Infix
import Criteria.Proofs.Query.Shunting
import Criteria.Proofs.Query.Stacking
import Criteria.Proofs.Query.SourceOrder
import Criteria.Proofs.Query.Truth
import Criteria.Proofs.Query.Balance
import Criteria.Proofs.Query.Join
import Criteria.Proofs.Query.Reduction
import Criteria.Proofs.Query.Merging
import Criteria.Proofs.Query.Survival
import Criteria.Proofs.Query.Canonical
import Criteria.Proofs.Query.Rendering
import Criteria.Proofs.Schema.Position
import Criteria.Proofs.Schema.Candidate
import Criteria.Proofs.Schema.Soundness
import Criteria.Proofs.Schema.EditDistance
import Criteria.Proofs.Schema.Similarity
import Criteria.Proofs.Schema.Weighing
import Criteria.Proofs.Schema.Completeness
import Criteria.Proofs.Schema.Ranking
import Criteria.Proofs.Schema.Diagnostics
import Criteria.Proofs.Search.Document
import Criteria.Proofs.Search.Drafting
import Criteria.Proofs.Search.Form
import Criteria.Proofs.Search.Presence
import Criteria.Proofs.Search.Lowered
import Criteria.Proofs.Search.Assembly
import Criteria.Proofs.Search.Truth
import Criteria.Proofs.Search.Gathering
import Criteria.Proofs.Search.Grouping
import Criteria.Proofs.Search.Declared
import Criteria.Proofs.Search.Failure
import Criteria.Proofs.Search.Classification
import Criteria.Proofs.Search.Sharing
import Criteria.Proofs.Search.Refusal
import Criteria.Proofs.Search.Blankness
import Criteria.Proofs.Query.Relabelling
import Criteria.Proofs.Search.Preparation
import Criteria.Proofs.Json.Members
import Criteria.Proofs.Json.Printing
import Criteria.Proofs.Search.Wording
import Criteria.Proofs.Search.Staging
import Criteria.Proofs.Search.Confinement
import Criteria.Proofs.Search.Hollowness
import Criteria.Proofs.Search.Lifting
import Criteria.Proofs.Float
import Criteria.Proofs.Settings.Precedence
import Criteria.Proofs.Disk.Ancestry
import Criteria.Proofs.Settings.Isolation
import Criteria.Proofs.Schema.Selection
import Criteria.Proofs.Schema.Growth
import Criteria.Proofs.Query.Framing
import Criteria.Proofs.Query.Acceptance
import Criteria.Proofs.Schema.Admission
import Criteria.Proofs.Search.RuleOrder
import Criteria.Proofs.Search.Wellformed
import Criteria.Proofs.Search.Fitness
import Criteria.Proofs.Schema.Listing
import Criteria.Proofs.Search.Sorting
import Criteria.Proofs.Json.Slots
import Criteria.Proofs.Json.Decoding
import Criteria.Proofs.Query.Rereading
import Criteria.Proofs.Schema.Rereading
import Criteria.Proofs.Float.Rounding
import Criteria.Proofs.Float.Packing
import Criteria.Proofs.Float.Division
import Criteria.Proofs.Float.Scientific
import Criteria.Proofs.Float.Fraction
import Criteria.Proofs.Float.Standing
import Criteria.Proofs.Decimal.Magnitude
import Criteria.Proofs.Decimal.Shortest
import Criteria.Proofs.Decimal.Reading
import Criteria.Proofs.Toml.Reals
import Criteria.Proofs.Toml.Quoting
import Criteria.Proofs.Toml.Lexing
import Criteria.Proofs.Toml.Statements
import Criteria.Proofs.Toml.Rereading
import Criteria.Proofs.Settings.Reloading
import Criteria.Proofs.Schema.Warning
