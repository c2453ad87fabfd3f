import SemanticHighlight.FieldResult

/-!
# Metrics

Counters over batches, all modulo `2 ^ 64`. `Metrics.snapshot` turns them into the
figures that are reported.
-/

namespace SemanticHighlight

/-- The figures of one batch. -/
structure BatchSummary where
  documents : UInt64
  tasks : UInt64
  /-- Results with a text. -/
  succeeded : UInt64
  timedOut : UInt64
  /-- The mean duration of a result, in milliseconds. -/
  meanMs : UInt64
  /-- How long the batch took, in nanoseconds. -/
  elapsedNs : UInt64
deriving DecidableEq, Repr

/-- The sum of the durations of results, in milliseconds. -/
def totalMs (results : List FieldResult) : UInt64 :=
  results.foldl (fun sum r => sum + r.durationMs) 0

namespace BatchSummary

/-- The figures of a batch over so many documents. -/
def ofResults (documents : UInt64) (results : List FieldResult) (elapsedNs : UInt64) :
    BatchSummary where
  documents := documents
  tasks := UInt64.ofNat results.length
  succeeded := UInt64.ofNat (results.countP (·.isApplicable))
  timedOut := UInt64.ofNat (results.countP (·.timedOut))
  meanMs := if results.isEmpty then 0 else totalMs results / UInt64.ofNat results.length
  elapsedNs := elapsedNs

end BatchSummary

/-- The counters. -/
structure Metrics where
  batches : UInt64 := 0
  failedBatches : UInt64 := 0
  documents : UInt64 := 0
  tasks : UInt64 := 0
  succeeded : UInt64 := 0
  failed : UInt64 := 0
  timedOut : UInt64 := 0
  taskMs : UInt64 := 0
  longestNs : UInt64 := 0
  /-- The greatest number of all until a batch is recorded. -/
  shortestNs : UInt64 := 0xFFFFFFFFFFFFFFFF
deriving DecidableEq, Repr

/-- The figures that are reported. -/
structure Snapshot where
  batches : UInt64 := 0
  failedBatches : UInt64 := 0
  documents : UInt64 := 0
  tasks : UInt64 := 0
  succeeded : UInt64 := 0
  failed : UInt64 := 0
  timedOut : UInt64 := 0
  meanMs : UInt64 := 0
  longestNs : UInt64 := 0
  /-- The longest of durations in the figures that nothing was recorded for. -/
  shortestNs : UInt64 := 0xFFFFFFFFFFFFFFFF
deriving DecidableEq, Repr

namespace Metrics

/-- The counters with a batch recorded. -/
def record (m : Metrics) (s : BatchSummary) (results : List FieldResult) : Metrics where
  batches := m.batches + 1
  failedBatches := m.failedBatches
  documents := m.documents + s.documents
  tasks := m.tasks + s.tasks
  succeeded := m.succeeded + s.succeeded
  failed := m.failed + (s.tasks - s.succeeded)
  timedOut := m.timedOut + s.timedOut
  taskMs := m.taskMs + totalMs results
  longestNs := if s.elapsedNs ≤ m.longestNs then m.longestNs else s.elapsedNs
  shortestNs := if m.shortestNs ≤ s.elapsedNs then m.shortestNs else s.elapsedNs

/-- The counters with a batch recorded that could not run. -/
def recordFailure (m : Metrics) : Metrics := { m with failedBatches := m.failedBatches + 1 }

/-- The counters, each set to what it was before anything was recorded. -/
def reset (m : Metrics) : Metrics :=
  { m with
    batches := 0
    failedBatches := 0
    documents := 0
    tasks := 0
    succeeded := 0
    failed := 0
    timedOut := 0
    taskMs := 0
    longestNs := 0
    shortestNs := 0xFFFFFFFFFFFFFFFF }

/-- The figures of the counters. -/
def snapshot (m : Metrics) : Snapshot where
  batches := m.batches
  failedBatches := m.failedBatches
  documents := m.documents
  tasks := m.tasks
  succeeded := m.succeeded
  failed := m.failed
  timedOut := m.timedOut
  meanMs := if 0 < m.tasks then m.taskMs / m.tasks else 0
  longestNs := m.longestNs
  shortestNs := if m.shortestNs = 0xFFFFFFFFFFFFFFFF then 0 else m.shortestNs

end Metrics

end SemanticHighlight
