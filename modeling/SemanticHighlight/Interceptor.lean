import SemanticHighlight.Plain
import SemanticHighlight.Merge
import SemanticHighlight.Resolution
import SemanticHighlight.Batch.Basic

/-!
# The interceptor

The interceptor stands between a client and a search engine. A request with semantic
directives goes to the engine without them; what the engine answers is then highlighted
in a batch. Any other request passes through.

The interceptor acts at three moments: it says what the engine is asked
(`Interceptor.asked`), what follows from the engine's answer (`Interceptor.afterSearch`),
and what follows from the end of the batch (`Interceptor.afterBatch`). Between them the
engine and the batch do their work, and `Interceptor.apply` is the three put together for
given outcomes of that work.
-/

namespace SemanticHighlight

/-- What stands between a client and a search engine. -/
structure Interceptor where
  enabled : Bool
  resolver : Resolver

namespace Interceptor

def ofSettings (registry : Query.Registry) (s : Settings) : Interceptor :=
  ⟨s.enabled, .ofSettings registry s⟩

/-- How far a request has come. -/
inductive Progress where
  /-- The client gets this. -/
  | finished (outcome : Except Failure Response)
  /-- The hits of a response are to be highlighted. -/
  | highlighting (base : Response) (configs : List FieldConfig)

/-- Whether a request does not pass through. -/
def concerns (i : Interceptor) (r : Request) : Bool := i.enabled && r.hasSemantic

/-- What the engine is asked. -/
def asked (i : Interceptor) (r : Request) : Request := if i.concerns r then r.plain else r

/-- The failure of a request that was cancelled before its batch. -/
def cancelledBefore : Failure :=
  .cancelled "search request cancelled before semantic highlighting"

/-- The failure of a request that was cancelled during its batch. -/
def cancelledDuring : Failure :=
  .cancelled "search request cancelled during semantic highlighting"

/-- The failure of a request whose batch was refused. -/
def batchRefused (reason : Refusal) : Failure :=
  .batch "could not run the highlight batch" reason.failure

/-- What follows from the answer of the engine. -/
def afterSearch (i : Interceptor) (r : Request) (cancelled : Bool)
    (found : Except Failure Response) : Progress :=
  if i.concerns r then
    match found, (i.resolver.resolve r).1 with
    | .ok base, some configs =>
      if base.hits.isEmpty then .finished (.ok base)
      else if cancelled then .finished (.error cancelledBefore)
      else .highlighting base configs
    | found, _ => .finished found
  else .finished found

/-- What follows from the end of the batch. -/
def afterBatch (base : Response) (cancelled : Bool) (elapsedMs : UInt64)
    (outcome : Except Refusal (List FieldResult)) : Except Failure Response :=
  match outcome with
  | .error reason => .error (batchRefused reason)
  | .ok results =>
    if cancelled then .error cancelledDuring else .ok (base.merge results elapsedMs)

/-- The hits of a response that a batch is over. -/
def batchHits (base : Response) : List HitData := base.hits.map (·.data)

/-- How a batch came back to its caller. -/
structure Returned where
  outcome : Except Refusal (List FieldResult)
  /-- Whether the request is cancelled by then. -/
  cancelled : Bool
  /-- How long the batch took, in milliseconds. -/
  elapsedMs : UInt64

/-- What the work for a request comes to. -/
structure Work where
  /-- What the engine answers. -/
  search : Request → Except Failure Response
  /-- Whether the request is cancelled when the engine has answered. -/
  cancelled : Bool
  /-- How a batch over hits and configurations comes back. -/
  batch : List HitData → List FieldConfig → Returned

/-- What the client gets for a request. -/
def apply (i : Interceptor) (r : Request) (w : Work) : Except Failure Response :=
  match i.afterSearch r w.cancelled (w.search (i.asked r)) with
  | .finished outcome => outcome
  | .highlighting base configs =>
    let returned := w.batch (batchHits base) configs
    afterBatch base returned.cancelled returned.elapsedMs returned.outcome

end Interceptor

end SemanticHighlight
