import SemanticHighlight.Interceptor

/-!
# Requests under way

A request is handled step by step, `Handling.step?`: the engine answers, the interceptor
weighs the answer, and if there is something to highlight a batch works until it returns and
its results are merged. The steps of the batch may come in any order in which it can take
them, and a cancellation may come at any time. Tasks of a batch go on working when the
request has been answered.
-/

namespace SemanticHighlight

namespace Handling

/-- What is about to be done for a request. -/
inductive Stage where
  /-- Ask the engine. -/
  | asking
  /-- Weigh the answer of the engine. -/
  | weighing (found : Except Failure Response)
  /-- Wait for the batch over the hits of a response. -/
  | highlighting (base : Response)
  | answered (outcome : Except Failure Response)

end Handling

/-- A request under way. -/
structure Handling where
  stage : Handling.Stage := .asking
  /-- Whether the request is cancelled. -/
  cancelled : Bool := false
  /-- What the engine was asked. -/
  searched : List Request := []
  /-- The batch, if there is one. -/
  batch : Option Batch := none
  metrics : Metrics := {}

namespace Handling

/-- What can happen next. -/
inductive Event where
  /-- The engine answers. -/
  | search
  /-- The interceptor weighs the answer. -/
  | weigh
  /-- The batch takes a step. -/
  | work (event : Batch.Event)
  /-- The results of the batch are merged, the request having taken so long. -/
  | merge (elapsedMs : UInt64)
  /-- The request is cancelled. -/
  | cancel

/-- The request before its first step. -/
def begin (cancelled : Bool) (metrics : Metrics) : Handling := { cancelled, metrics }

/-- The answer of the engine is weighed. -/
def weighed (h : Handling) : Interceptor.Progress → Handling
  | .finished outcome => { h with stage := .answered outcome }
  | .highlighting base configs =>
    { h with
      stage := .highlighting base
      batch := some (.begin (Interceptor.batchHits base) configs h.cancelled) }

/-- A batch has ended. -/
def merged (h : Handling) (base : Response) (ending : Ending) (elapsedMs : UInt64) : Handling :=
  { h with
    stage := .answered (Interceptor.afterBatch base h.cancelled elapsedMs ending.outcome)
    metrics := ending.record (Interceptor.batchHits base).length h.metrics }

/-- A step in the handling of a request, if it is possible. -/
def step? (i : Interceptor) (r : Request) (engine : Request → Except Failure Response)
    (h : Handling) : Event → Option Handling
  | .search =>
    match h.stage with
    | .asking =>
      some { h with
        stage := .weighing (engine (i.asked r)), searched := h.searched ++ [i.asked r] }
    | _ => none
  | .weigh =>
    match h.stage with
    | .weighing found => some (h.weighed (i.afterSearch r h.cancelled found))
    | _ => none
  | .work .cancel => none
  | .work event =>
    match h.batch with
    | some b => (b.step? event).map fun b' => { h with batch := some b' }
    | none => none
  | .merge elapsedMs =>
    match h.stage, h.batch with
    | .highlighting base, some b =>
      match b.stage with
      | .returned ending => some (h.merged base ending elapsedMs)
      | _ => none
    | _, _ => none
  | .cancel =>
    some { h with
      cancelled := true, batch := h.batch.map fun b => { b with cancelled := true } }

/-- What a row of steps leads to, if all of them are possible. -/
def run? (i : Interceptor) (r : Request) (engine : Request → Except Failure Response)
    (h : Handling) (events : List Event) : Option Handling :=
  events.foldlM (step? i r engine) h

end Handling

end SemanticHighlight
