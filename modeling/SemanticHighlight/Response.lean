import SemanticHighlight.Hit

/-!
# Search responses

A response is a page of hits and the accounts of the engine that found them.
-/

namespace SemanticHighlight

open Numeric

/-- The failure of one shard. -/
structure ShardFailure where
  index : Option String
  shard : Option UInt32
  node : Option String
  reason : Json
deriving DecidableEq

namespace ShardFailure

/-- The failure of a shard as an object. -/
def toJson (f : ShardFailure) : Json := .ofFields
  [("index", f.index.map .string),
   ("shard", f.shard.map .ofUInt32),
   ("node", f.node.map .string),
   ("reason", some f.reason)]

def decode : Json.Decoder ShardFailure := fun j => do
  let r ← Json.record ["index", "shard", "node", "reason"] [] j
  let index ← r.optional "index" Json.Decode.text
  let shard ← r.optional "shard" Json.Decode.uint32
  let node ← r.optional "node" Json.Decode.text
  let reason ← r.defaulted "reason" .null Json.Decode.value
  .ok { index, shard, node, reason }

end ShardFailure

/-- How the shards of the engine fared. -/
structure Shards where
  total : UInt32 := 0
  successful : UInt32 := 0
  skipped : UInt32 := 0
  failed : UInt32 := 0
  failures : List ShardFailure := []
deriving DecidableEq

namespace Shards

/-- Shards that all succeeded. -/
def allSuccessful (total : UInt32) : Shards := { total, successful := total }

/-- The account of the shards as an object. -/
def toJson (s : Shards) : Json := .ofFields
  [("total", some (.ofUInt32 s.total)),
   ("successful", some (.ofUInt32 s.successful)),
   ("skipped", some (.ofUInt32 s.skipped)),
   ("failed", some (.ofUInt32 s.failed)),
   ("failures", Json.nonempty (fun fs => .array (fs.map ShardFailure.toJson)) s.failures)]

/-- The account of the shards. -/
def decode : Json.Decoder Shards := fun j => do
  let r ← Json.record ["total", "successful", "skipped", "failed", "failures"] [] j
  let total ← r.required "total" Json.Decode.uint32
  let successful ← r.required "successful" Json.Decode.uint32
  let skipped ← r.defaulted "skipped" 0 Json.Decode.uint32
  let failed ← r.defaulted "failed" 0 Json.Decode.uint32
  let failures ← r.defaulted "failures" [] (Json.Decode.list ShardFailure.decode)
  .ok { total, successful, skipped, failed, failures }

end Shards

/-- How the clusters of the engine fared. -/
structure Clusters where
  total : UInt32
  successful : UInt32
  skipped : UInt32
deriving DecidableEq

namespace Clusters

/-- The account of the clusters as an object. -/
def toJson (c : Clusters) : Json := .ofFields
  [("total", some (.ofUInt32 c.total)),
   ("successful", some (.ofUInt32 c.successful)),
   ("skipped", some (.ofUInt32 c.skipped))]

/-- The account of the clusters. -/
def decode : Json.Decoder Clusters := fun j => do
  let r ← Json.record ["total", "successful", "skipped"] [] j
  let total ← r.required "total" Json.Decode.uint32
  let successful ← r.required "successful" Json.Decode.uint32
  let skipped ← r.required "skipped" Json.Decode.uint32
  .ok { total, successful, skipped }

end Clusters

namespace Page

/-- The page without hits. -/
def empty {α : Type} : Page α := ⟨none, none, []⟩

/-- The greatest of some scores, if there are any. -/
def greatest (scores : List Single) : Option Single :=
  scores.foldl (fun best score => some (match best with
    | none => score
    | some best => best.max score)) none

/-- A page of all the hits there are. -/
def ofHits (hits : List Hit) : Page Hit where
  total := some ⟨UInt64.ofNat hits.length, .eq⟩
  maxScore := greatest (hits.filterMap (·.data.score))
  hits := hits

end Page

/-- A search response. -/
structure Response where
  scrollId : Option String := none
  /-- The time the search took, in milliseconds. -/
  took : UInt64
  timedOut : Bool := false
  terminatedEarly : Option Bool := none
  reducePhases : Option UInt32 := none
  shards : Shards := {}
  clusters : Option Clusters := none
  page : Page Hit := .empty
  aggregations : Option Json := none
  suggest : Option Json := none
  profile : Option Json := none
deriving DecidableEq

namespace Response

/-- A response of one shard with all the hits there are. -/
def ofHits (hits : List Hit) (took : UInt64) : Response where
  took := took
  shards := .allSuccessful 1
  page := .ofHits hits

def hits (r : Response) : List Hit := r.page.hits

/-- The response as an object; `number` spells its single-precision numbers. -/
def render (number : Single → Json) (r : Response) : Json := .ofFields
  [("_scroll_id", r.scrollId.map .string),
   ("took", some (.ofUInt64 r.took)),
   ("timed_out", some (.bool r.timedOut)),
   ("terminated_early", r.terminatedEarly.map .bool),
   ("num_reduce_phases", r.reducePhases.map .ofUInt32),
   ("_shards", some r.shards.toJson),
   ("_clusters", r.clusters.map Clusters.toJson),
   ("hits", some (Hit.pageJson number r.page)),
   ("aggregations", r.aggregations),
   ("suggest", r.suggest),
   ("profile", r.profile)]

/-- The response as a value. -/
def toJson (r : Response) : Json := r.render .ofSingle

/-- The response as it is written: single-precision numbers in their own precision. -/
def document (r : Response) : Json := r.render .ofSingleText

/-- The names of the parts of a response. -/
def parts : List String :=
  ["_scroll_id", "took", "timed_out", "terminated_early", "num_reduce_phases", "_shards",
   "_clusters", "hits", "aggregations", "suggest", "profile"]

def decode : Json.Decoder Response := fun j => do
  let r ← Json.record parts [] j
  let scrollId ← r.optional "_scroll_id" Json.Decode.text
  let took ← r.required "took" Json.Decode.uint64
  let timedOut ← r.defaulted "timed_out" false Json.Decode.boolean
  let terminatedEarly ← r.optional "terminated_early" Json.Decode.boolean
  let reducePhases ← r.optional "num_reduce_phases" Json.Decode.uint32
  let shards ← r.defaulted "_shards" {} Shards.decode
  let clusters ← r.optional "_clusters" Clusters.decode
  let page ← r.defaulted "hits" .empty Hit.decodePage
  let aggregations ← r.optional "aggregations" Json.Decode.value
  let suggest ← r.optional "suggest" Json.Decode.value
  let profile ← r.optional "profile" Json.Decode.value
  .ok { scrollId, took, timedOut, terminatedEarly, reducePhases, shards, clusters, page,
        aggregations, suggest, profile }

end Response

end SemanticHighlight
