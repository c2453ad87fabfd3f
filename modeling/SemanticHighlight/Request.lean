import SemanticHighlight.Block
import SemanticHighlight.Query.Reader

/-!
# Search requests

Only the query and the highlight block of a request mean something here. Everything
else is carried unchanged to the search engine.
-/

namespace SemanticHighlight

open Numeric

/-- How the search engine visits its shards. -/
inductive SearchType where
  | queryThenFetch
  | dfsQueryThenFetch
deriving DecidableEq, Repr

namespace SearchType

def name : SearchType → String
  | queryThenFetch => "query_then_fetch"
  | dfsQueryThenFetch => "dfs_query_then_fetch"

/-- The search types by their names. -/
def choices : List (String × SearchType) :=
  [queryThenFetch, dfsQueryThenFetch].map fun t => (t.name, t)

end SearchType

/-- What is searched for, and how the hits are to be presented. -/
structure Source where
  query : Option Query := none
  postFilter : Option Json := none
  from? : Option UInt64 := none
  size? : Option UInt64 := none
  timeout : Option String := none
  minScore : Option Single := none
  trackScores : Bool := false
  trackTotalHits : Option Json := none
  terminateAfter : Option UInt64 := none
  sort : List Json := []
  searchAfter : List Json := []
  collapse : Option Json := none
  suggest : Option Json := none
  aggregations : Option Json := none
  explain : Option Bool := none
  profile : Bool := false
  fetchSource : Option Json := none
  version : Option Bool := none
  seqNoPrimaryTerm : Option Bool := none
  highlight : Option Block := none

/-- A search request. -/
structure Request where
  indices : List String := []
  routing : Option String := none
  preference : Option String := none
  searchType : SearchType := .queryThenFetch
  scroll : Option String := none
  source : Option Source := none

/-! ## Rendering -/

/-- A list of values, absent when it is empty. -/
def listField (xs : List Json) : Option Json := Json.nonempty .array xs

namespace Source

/-- The source as an object; its query is rendered in the query language. -/
def toJson (s : Source) : Json := .ofFields
  [("query", s.query.map Query.toDsl),
   ("post_filter", s.postFilter),
   ("from", s.from?.map .ofUInt64),
   ("size", s.size?.map .ofUInt64),
   ("timeout", s.timeout.map .string),
   ("min_score", s.minScore.map .ofSingle),
   ("track_scores", Json.onlyTrue s.trackScores),
   ("track_total_hits", s.trackTotalHits),
   ("terminate_after", s.terminateAfter.map .ofUInt64),
   ("sort", listField s.sort),
   ("search_after", listField s.searchAfter),
   ("collapse", s.collapse),
   ("suggest", s.suggest),
   ("aggregations", s.aggregations),
   ("explain", s.explain.map .bool),
   ("profile", Json.onlyTrue s.profile),
   ("_source", s.fetchSource),
   ("version", s.version.map .bool),
   ("seq_no_primary_term", s.seqNoPrimaryTerm.map .bool),
   ("highlight", s.highlight.map Block.toJson)]

end Source

namespace Request

/-- The request as an object. -/
def toJson (r : Request) : Json := .ofFields
  [("indices", Json.nonempty Json.ofStrings r.indices),
   ("routing", r.routing.map .string),
   ("preference", r.preference.map .string),
   ("search_type", some (.string r.searchType.name)),
   ("scroll", r.scroll.map .string),
   ("source", r.source.map Source.toJson)]

def query? (r : Request) : Option Query := r.source.bind (·.query)

def highlight? (r : Request) : Option Block := r.source.bind (·.highlight)

end Request

/-! ## Reading -/

namespace Source

/-- The names of the parts of a source. -/
def parts : List String :=
  ["query", "post_filter", "from", "size", "timeout", "min_score", "track_scores",
   "track_total_hits", "terminate_after", "sort", "search_after", "collapse", "suggest",
   "aggregations", "explain", "profile", "_source", "version", "seq_no_primary_term",
   "highlight"]

/-- A source without its query, and the value of the query. -/
def decodeParts : Json.Decoder (Source × Option Json) := fun j => do
  let r ← Json.record parts [("aggs", "aggregations")] j
  let query ← r.optional "query" Json.Decode.value
  let postFilter ← r.optional "post_filter" Json.Decode.value
  let from? ← r.optional "from" Json.Decode.uint64
  let size? ← r.optional "size" Json.Decode.uint64
  let timeout ← r.optional "timeout" Json.Decode.text
  let minScore ← r.optional "min_score" Json.Decode.single
  let trackScores ← r.defaulted "track_scores" false Json.Decode.boolean
  let trackTotalHits ← r.optional "track_total_hits" Json.Decode.value
  let terminateAfter ← r.optional "terminate_after" Json.Decode.uint64
  let sort ← r.defaulted "sort" [] (Json.Decode.list Json.Decode.value)
  let searchAfter ← r.defaulted "search_after" [] (Json.Decode.list Json.Decode.value)
  let collapse ← r.optional "collapse" Json.Decode.value
  let suggest ← r.optional "suggest" Json.Decode.value
  let aggregations ← r.optional "aggregations" Json.Decode.value
  let explain ← r.optional "explain" Json.Decode.boolean
  let profile ← r.defaulted "profile" false Json.Decode.boolean
  let fetchSource ← r.optional "_source" Json.Decode.value
  let version ← r.optional "version" Json.Decode.boolean
  let seqNoPrimaryTerm ← r.optional "seq_no_primary_term" Json.Decode.boolean
  let highlight ← r.optional "highlight" Block.decode
  .ok ({ postFilter, from?, size?, timeout, minScore, trackScores, trackTotalHits,
         terminateAfter, sort, searchAfter, collapse, suggest, aggregations, explain,
         profile, fetchSource, version, seqNoPrimaryTerm, highlight }, query)

/-- A source. Its query is read after everything else. -/
def ofJson (j : Json) : Except Failure Source := do
  let (source, query?) ← orJson (decodeParts j)
  match query? with
  | none => .ok source
  | some query =>
    let query ← Query.ofValue query
    .ok { source with query := some query }

end Source

namespace Request

/-- The names of the parts of a request. -/
def parts : List String :=
  ["indices", "routing", "preference", "search_type", "scroll", "source"]

/-- A request without its source, and the value of the source. -/
def decodeParts : Json.Decoder (Request × Option Json) := fun j => do
  let r ← Json.record parts [] j
  let indices ← r.defaulted "indices" [] (Json.Decode.list Json.Decode.text)
  let routing ← r.optional "routing" Json.Decode.text
  let preference ← r.optional "preference" Json.Decode.text
  let searchType ←
    r.defaulted "search_type" .queryThenFetch (Json.Decode.choice SearchType.choices)
  let scroll ← r.optional "scroll" Json.Decode.text
  let source ← r.optional "source" Json.Decode.value
  .ok ({ indices, routing, preference, searchType, scroll }, source)

/-- The request that a value is. -/
def ofJson (j : Json) : Except Failure Request := do
  let (request, source?) ← orJson (decodeParts j)
  match source? with
  | none => .ok request
  | some source =>
    let source ← Source.ofJson source
    .ok { request with source := some source }

def ofText (text : String) : Except Failure Request := do
  let j ← orJson (Json.readValue text)
  ofJson j

end Request

end SemanticHighlight
