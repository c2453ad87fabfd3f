import SemanticHighlight.Inference
import SemanticHighlight.Resolution
import SemanticHighlight.Hit
import SemanticHighlight.FieldResult
import SemanticHighlight.Text.Blank

/-!
# Pairs of a batch

A batch is over the pairs of a hit and a configuration, hit by hit and for each hit in
the order of the configurations. Each pair ends in one result, and what is here says
which result that is for every way in which it can come about.
-/

namespace SemanticHighlight

namespace Inference

/-- How a call of a backend ended. -/
inductive Reply where
  | text (text : String)
  | fault (fault : Fault)
  /-- The call broke off. -/
  | broken
deriving DecidableEq, Repr

/-- The reply of a call that came to an answer. -/
def Reply.ofAnswer : Answer → Reply
  | .ok t => text t
  | .error f => fault f

end Inference

/-- A field of a hit that is to be highlighted. -/
structure Pair where
  hitIndex : Nat
  config : FieldConfig
  /-- The text to highlight, if the hit has one that is not blank. -/
  context : Option String
deriving DecidableEq, Repr

namespace Pair

/-- The pair of a hit at a position and a configuration. -/
def ofHit (hitIndex : Nat) (hit : HitData) (config : FieldConfig) : Pair where
  hitIndex := hitIndex
  config := config
  context := (hit.sourceText? config.field).filter fun text => !Text.allBlank text

def all (hits : List HitData) (configs : List FieldConfig) : List Pair :=
  (hits.mapIdx fun i hit => configs.map (ofHit i hit)).flatten

/-- What a backend is asked for the pair, if there is a text to highlight. -/
def request? (p : Pair) : Option InferenceRequest :=
  p.context.map fun context =>
    { modelId := p.config.modelId
      queryText := p.config.queryText
      context
      preTag := p.config.preTag
      postTag := p.config.postTag }

def failed (p : Pair) (error : String) (durationMs : UInt64) : FieldResult :=
  .failed p.hitIndex p.config.field error durationMs

/-- The result without a text to highlight. -/
def skipped (p : Pair) : FieldResult :=
  .skipped p.hitIndex p.config.field "field text missing or empty"

/-- The result of a call that took so long. -/
def result (p : Pair) (reply : Inference.Reply) (durationMs : UInt64) : FieldResult :=
  match reply with
  | .text text =>
    if text = "" then p.failed "model returned no highlighted text" durationMs
    else .succeeded p.hitIndex p.config.field text durationMs
  | .fault fault => p.failed fault.full durationMs
  | .broken => p.failed "inference panicked" durationMs

/-- The result when the request was cancelled before the call. -/
def cancelled (p : Pair) (durationMs : UInt64) : FieldResult :=
  p.failed "cancelled before inference" durationMs

/-- The result when the batch was given up before the call. -/
def abandoned (p : Pair) (durationMs : UInt64) : FieldResult :=
  p.failed "batch abandoned before inference" durationMs

/-- The result when there is none by the end of the batch. -/
def missing (p : Pair) (expired : Bool) (waitedMs : UInt64) : FieldResult :=
  if expired then .late p.hitIndex p.config.field waitedMs
  else p.failed "highlight task abandoned" waitedMs

end Pair

end SemanticHighlight
