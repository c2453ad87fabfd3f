import SemanticHighlight.Batch.Pair
import SemanticHighlight.Pool.Basic
import SemanticHighlight.Metrics
import SemanticHighlight.Text.Duration

/-!
# Batches

A batch asks a backend for every pair of a hit and a configuration that has a text, many
at once, and waits until all have answered, its deadline comes or the request is
cancelled. Pairs that are left over then get a result that says so.

A batch has one caller and a task for each pair that a pool admitted. What is here is
the state they share and one step of either, `Batch.step?`: steps may follow one another
in any order in which each is possible. The caller

* visits the pairs in order, which makes a slot for each, and submits those with a text;
* looks whether to wait on, and receives a result or finds none, until all are there, or
  the deadline or a cancellation ends the wait;
* drains the results that came in meanwhile, and concludes.

A task looks at the flags when a worker starts it, and either calls the backend or not.
Its result then travels to the caller as a message that names its slot. A task may also
break off and send nothing: a panic of the backend is caught, but not one that the fault it
returned causes while its message is put together.
-/

namespace SemanticHighlight

/-- How a batch ended for its caller. -/
inductive Ending where
  /-- There was no pair. -/
  | vacant
  /-- Every pair has a result. -/
  | completed (results : List FieldResult) (elapsedNs : UInt64)
  /-- A pair with a text could not be submitted. -/
  | refused (reason : Refusal)
deriving DecidableEq, Repr

namespace Ending

/-- What the caller of the batch gets. -/
def outcome : Ending → Except Refusal (List FieldResult)
  | vacant => .ok []
  | completed results _ => .ok results
  | refused reason => .error reason

/-- The counters with a batch over so many documents recorded. -/
def record (documents : Nat) (m : Metrics) : Ending → Metrics
  | vacant => m
  | completed results elapsedNs =>
    m.record (.ofResults (UInt64.ofNat documents) results elapsedNs) results
  | refused _ => m.recordFailure

end Ending

/-- What the caller of a batch is about to do. -/
inductive Stage where
  /-- Visit the next pair. -/
  | visiting
  /-- Submit the task of a slot. -/
  | submitting (slot : Nat)
  /-- Give the batch up, a submission having failed. -/
  | failing (reason : Refusal)
  /-- Look whether to wait on. -/
  | looking
  /-- Receive a result. -/
  | receiving
  /-- Take the results that are already there. -/
  | draining
  /-- Conclude the batch. -/
  | concluding
  | returned (ending : Ending)
deriving DecidableEq, Repr

/-- A batch under way. -/
structure Batch where
  pairs : List Pair
  stage : Stage := .visiting
  /-- A slot for the result of each pair visited so far. -/
  slots : List (Option FieldResult) := []
  /-- How many results the caller waits for. -/
  pending : Nat := 0
  /-- Whether the caller has seen the deadline pass. -/
  expired : Bool := false
  /-- Whether the request is cancelled. -/
  cancelled : Bool := false
  /-- Whether tasks are to make no calls any more. -/
  abandoned : Bool := false
  /-- The slots of the tasks that no worker has started. -/
  queued : List Nat := []
  /-- The slots of the tasks that wait for the backend. -/
  calling : List Nat := []
  /-- The tasks that are about to send their result. -/
  reporting : List (Nat × FieldResult) := []
  /-- The results sent and not yet received, in the order they were sent. -/
  messages : List (Nat × FieldResult) := []
  /-- The slots of the tasks that broke off, which send nothing. -/
  lost : List Nat := []
  /-- The slots of all tasks that called the backend. -/
  calls : List Nat := []
deriving DecidableEq, Repr

namespace Batch

/-- What can happen next. -/
inductive Event where
  /-- The caller visits the next pair, or finds that there is none. -/
  | visit
  /-- The caller submits a task and learns what became of it. -/
  | submit (answer : Except Refusal Unit)
  /-- The caller gives the batch up. -/
  | fail
  /-- The caller looks whether to wait on, the deadline not having come. -/
  | look
  /-- The caller looks whether to wait on and sees that the deadline has come. -/
  | expire
  /-- The caller receives a result. -/
  | receive
  /-- The caller has waited a while and there was no result. -/
  | idle
  /-- The caller finds that nobody is left to send a result. -/
  | disconnect
  /-- The caller takes a result that is already there. -/
  | drain
  /-- The caller finds no further result. -/
  | settle
  /-- The caller concludes the batch. -/
  | conclude (waitedMs elapsedNs : UInt64)
  /-- A worker starts the task of a slot, which took so long if it ends without a call. -/
  | start (slot : Nat) (durationMs : UInt64)
  /-- The backend has ended the call of a slot, which took so long. -/
  | reply (slot : Nat) (reply : Inference.Reply) (durationMs : UInt64)
  /-- The call of a slot has ended with a fault that has no message, and its task breaks
  off. -/
  | lose (slot : Nat)
  /-- The task of a slot sends its result. -/
  | report (slot : Nat)
  /-- The request is cancelled. -/
  | cancel

/-- The batch over hits and configurations before its first step. -/
def begin (hits : List HitData) (configs : List FieldConfig) (cancelled : Bool) : Batch :=
  let pairs := Pair.all hits configs
  { pairs, cancelled, stage := if pairs.isEmpty then .returned .vacant else .visiting }

/-- The caller visits the next pair. Once the deadline has passed or the request is
cancelled, nothing is submitted any more. -/
def visit (b : Batch) : Batch :=
  match b.pairs[b.slots.length]? with
  | none => { b with stage := .looking }
  | some p =>
    if p.context.isNone then { b with slots := b.slots ++ [some p.skipped] }
    else
      { b with
        slots := b.slots ++ [none]
        stage := if b.expired || b.cancelled then .visiting else .submitting b.slots.length }

/-- The caller learns what became of the task of a slot. A deadline that came first ends
the submissions and no more. -/
def submitted (b : Batch) (slot : Nat) : Except Refusal Unit → Batch
  | .ok () =>
    { b with stage := .visiting, pending := b.pending + 1, queued := b.queued ++ [slot] }
  | .error (.late _) => { b with stage := .visiting, expired := true }
  | .error reason => { b with stage := .failing reason }

def fill (b : Batch) (slot : Nat) (result : FieldResult) : Batch :=
  { b with slots := b.slots.set slot (some result) }

/-- The caller looks whether to wait on. -/
def look (b : Batch) : Batch :=
  { b with stage := if b.pending = 0 || b.cancelled then .draining else .receiving }

/-- Whether all tasks are over. -/
def isSilent (b : Batch) : Bool :=
  b.queued.isEmpty && b.calling.isEmpty && b.reporting.isEmpty

/-- Whether every pair has a result. -/
def isFull (b : Batch) : Bool := b.slots.all Option.isSome

/-- The results of all pairs. -/
def results (b : Batch) (waitedMs : UInt64) : List FieldResult :=
  List.zipWith (fun p slot => slot.getD (p.missing b.expired waitedMs)) b.pairs b.slots

/-- The caller concludes the batch. Tasks that have not called the backend will not call
it if a result is missing. -/
def conclude (b : Batch) (waitedMs elapsedNs : UInt64) : Batch :=
  { b with
    abandoned := b.abandoned || !b.isFull
    stage := .returned (.completed (b.results waitedMs) elapsedNs) }

/-- A worker starts the task of a slot. -/
def start (b : Batch) (slot : Nat) (p : Pair) (durationMs : UInt64) : Batch :=
  let b := { b with queued := b.queued.erase slot }
  if b.cancelled then { b with reporting := b.reporting ++ [(slot, p.cancelled durationMs)] }
  else if b.abandoned then
    { b with reporting := b.reporting ++ [(slot, p.abandoned durationMs)] }
  else { b with calling := b.calling ++ [slot], calls := b.calls ++ [slot] }

/-- A step of the caller or of a task, if it is possible. -/
def step? (b : Batch) : Event → Option Batch
  | .visit => if b.stage = .visiting then some b.visit else none
  | .submit answer =>
    match b.stage with
    | .submitting slot => some (b.submitted slot answer)
    | _ => none
  | .fail =>
    match b.stage with
    | .failing reason => some { b with abandoned := true, stage := .returned (.refused reason) }
    | _ => none
  | .look => if b.stage = .looking then some b.look else none
  | .expire =>
    if b.stage = .looking ∧ 0 < b.pending ∧ b.cancelled = false then
      some { b with expired := true, stage := .draining }
    else none
  | .receive =>
    match b.stage, b.messages with
    | .receiving, (slot, result) :: rest =>
      let b := { b with messages := rest, stage := .looking }
      if slot < b.slots.length then some { b.fill slot result with pending := b.pending - 1 }
      else some b
    | _, _ => none
  | .idle =>
    if b.stage = .receiving ∧ b.messages = [] then some { b with stage := .looking } else none
  | .disconnect =>
    if b.stage = .receiving ∧ b.messages = [] ∧ b.isSilent then
      some { b with stage := .draining }
    else none
  | .drain =>
    match b.stage, b.messages with
    | .draining, (slot, result) :: rest => some ({ b with messages := rest }.fill slot result)
    | _, _ => none
  | .settle =>
    if b.stage = .draining ∧ b.messages = [] then some { b with stage := .concluding }
    else none
  | .conclude waitedMs elapsedNs =>
    if b.stage = .concluding then some (b.conclude waitedMs elapsedNs) else none
  | .start slot durationMs =>
    match b.pairs[slot]? with
    | some p => if slot ∈ b.queued then some (b.start slot p durationMs) else none
    | none => none
  | .reply slot reply durationMs =>
    match b.pairs[slot]? with
    | some p =>
      if slot ∈ b.calling then
        some { b with
          calling := b.calling.erase slot
          reporting := b.reporting ++ [(slot, p.result reply durationMs)] }
      else none
    | none => none
  | .lose slot =>
    if slot ∈ b.calling then
      some { b with calling := b.calling.erase slot, lost := b.lost ++ [slot] }
    else none
  | .report slot =>
    match b.reporting.find? (·.1 = slot) with
    | some message =>
      some { b with
        reporting := b.reporting.erase message, messages := b.messages ++ [message] }
    | none => none
  | .cancel => some { b with cancelled := true }

/-- What a row of steps leads to, if all of them are possible. -/
def run? (b : Batch) (events : List Event) : Option Batch := events.foldlM step? b

theorem run?_append (b : Batch) (first second : List Event) :
    b.run? (first ++ second) = (b.run? first).bind (·.run? second) := by
  simp [run?, List.foldlM_append]

/-- What backends were asked, in the order of the calls. -/
def asked (b : Batch) : List InferenceRequest :=
  b.calls.filterMap fun slot => b.pairs[slot]?.bind Pair.request?

/-- A line that describes a scheduler of batches: its pool and its time limit. -/
def describeScheduler {ι : Type} (pool : Pool ι) (timeoutMs : UInt64) : String :=
  "BatchHighlightScheduler \x7b executor: " ++ pool.describe ++ ", batch_timeout: "
    ++ Text.duration timeoutMs ++ " \x7d"

end Batch

end SemanticHighlight
