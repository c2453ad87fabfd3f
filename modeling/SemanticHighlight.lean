import SemanticHighlight.Interceptor
import SemanticHighlight.Pool.Callers
import SemanticHighlight.Rehearsal.Clock
import SemanticHighlight.Rehearsal.Gates
import SemanticHighlight.Main
import SemanticHighlight.Proofs.Batch.Invariant
import SemanticHighlight.Proofs.Batch.Results
import SemanticHighlight.Proofs.Batch.Positions
import SemanticHighlight.Proofs.Batch.Calls
import SemanticHighlight.Proofs.Batch.OneByOne
import SemanticHighlight.Handling
import SemanticHighlight.Proofs.Batch.Calm
import SemanticHighlight.Proofs.Handling.Standing
import SemanticHighlight.Proofs.Handling.Answer
import SemanticHighlight.Proofs.Batch.Afterwards
import SemanticHighlight.Proofs.Handling.Played
import SemanticHighlight.Proofs.Json.Fields
import SemanticHighlight.Proofs.Numeric.Conversion
import SemanticHighlight.Proofs.Query.Shape
import SemanticHighlight.Proofs.Query.RoundTrip
import SemanticHighlight.Proofs.Dictionary.Put
import SemanticHighlight.Proofs.Merge.Overlay
import SemanticHighlight.Proofs.Plain.Projection
import SemanticHighlight.Proofs.Merge.Composition
import SemanticHighlight.Proofs.Handling.Outcome
import SemanticHighlight.Proofs.Resolution.Walk
import SemanticHighlight.Proofs.Pool.Fate
import SemanticHighlight.Proofs.Pool.Closing
import SemanticHighlight.Proofs.Query.Candidates
import SemanticHighlight.Proofs.Query.TextKept
import SemanticHighlight.Proofs.Query.Grammar
import SemanticHighlight.Proofs.Json.Record
import SemanticHighlight.Proofs.Request.RoundTrip
import SemanticHighlight.Proofs.Request.Directives
import SemanticHighlight.Proofs.Plain.Stable
import SemanticHighlight.Proofs.Response.Kept
import SemanticHighlight.Proofs.Merge.Order
import SemanticHighlight.Proofs.Batch.Interrupted
import SemanticHighlight.Proofs.Batch.Accounts
import SemanticHighlight.Proofs.Pool.Replacing
import SemanticHighlight.Proofs.Hit.Texts
import SemanticHighlight.Proofs.Text.Sentences
import SemanticHighlight.Proofs.Text.Boundaries
import SemanticHighlight.Proofs.Inference.Labels
import SemanticHighlight.Proofs.Json.Literals
import SemanticHighlight.Proofs.Json.Numerals
import SemanticHighlight.Proofs.Json.Strings
import SemanticHighlight.Proofs.Json.Texts
import SemanticHighlight.Proofs.Json.Nesting
import SemanticHighlight.Proofs.Query.Renumbered
import SemanticHighlight.Proofs.Query.Printed
import SemanticHighlight.Proofs.Metrics.Aggregate
import SemanticHighlight.Proofs.Pool.Capacity
import SemanticHighlight.Proofs.Pool.Ledger
import SemanticHighlight.Proofs.Pool.Bounded
import SemanticHighlight.Proofs.Block.Texts
import SemanticHighlight.Proofs.Pool.Retrying
import SemanticHighlight.Proofs.Batch.Barrier
import SemanticHighlight.Proofs.Merge.Tally
