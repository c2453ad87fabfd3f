import SemanticHighlight.Dictionary
import SemanticHighlight.Pool.Basic

/-!
# Jobs behind gates

A script for a pool, played out without a clock: every job stands behind a gate of its
own and ends as soon as a worker has begun it and its gate is open. After each step the
pool settles: workers begin what they can, the oldest job first, open gates let jobs end, and
submissions that wait for a slot are tried again, until nothing moves.

A script knows jobs by name, the pool by the number of their submission. A name that is
submitted again stands for the new job from then on, which has a gate of its own: what
became of the earlier one does not touch it.
-/

namespace SemanticHighlight

namespace Rehearsal

/-- A step of a script. -/
inductive GateStep where
  /-- Submit a job; with a deadline, give up if there is no slot. -/
  | submit (name : String) (deadline : Bool)
  /-- Submit a job without waiting for what becomes of it. -/
  | submitAside (name : String)
  /-- Ask what became of a job that was submitted aside. -/
  | join (name : String)
  /-- Open the gates of jobs. -/
  | release (names : List String)
  | resize (workers : UInt64)
  | close

/-- What became of a job. -/
inductive JobState where
  /-- It was admitted and has not ended. -/
  | active
  | ended
  /-- It will never run. -/
  | dropped
deriving DecidableEq, Repr

/-- A pool with jobs behind gates. -/
structure Gates where
  pool : Pool Nat
  /-- The names of the jobs, in the order of their submissions. -/
  names : List String := []
  /-- The jobs whose gates are open. -/
  opened : List Nat := []
  ended : List Nat := []
  dropped : List Nat := []
  /-- The jobs that wait for a slot, the one that has waited longest first. -/
  blocked : List Nat := []
  /-- What became of the submissions that were made aside. -/
  answers : List (Nat × Except Refusal Unit) := []
  /-- The jobs submitted aside that nobody has asked about, by name. -/
  aside : Dictionary Nat := .empty

namespace Gates

/-- The jobs by name, the latest of each. -/
def latest (g : Gates) : Dictionary Nat := Dictionary.ofEntries g.names.zipIdx

/-- The number of the job that comes next. -/
def next (g : Gates) : Nat := g.names.length

/-- A job has come up, and has the next number. -/
def enlist (g : Gates) (name : String) : Gates := { g with names := g.names ++ [name] }

/-- A job is given to the pool. -/
def offer (g : Gates) (job : Nat) : Gates × Pool.Submission Nat :=
  match g.pool.submit job with
  | .admitted pool => ({ g with pool }, .admitted pool)
  | .refused reason => ({ g with dropped := g.dropped ++ [job] }, .refused reason)
  | .blocked n => (g, .blocked n)

/-- The submission of a job is answered. -/
def answer (g : Gates) (job : Nat) (result : Except Refusal Unit) : Gates :=
  { g with answers := g.answers ++ [(job, result)] }

/-- A worker begins a job. -/
def start? (g : Gates) : Option Gates :=
  g.pool.startOldest?.map fun (_, pool) => { g with pool }

/-- A job that a worker has begun ends, its gate being open. -/
def finish? (g : Gates) : Option Gates := do
  let job ← g.pool.running.find? (· ∈ g.opened)
  some { g with pool := g.pool.finishAny job, ended := g.ended ++ [job] }

/-- The job that has waited longest for a slot is given to the pool again. -/
def retry? (g : Gates) : Option Gates :=
  match g.blocked with
  | [] => none
  | job :: rest =>
    match { g with blocked := rest }.offer job with
    | (g', .admitted _) => some (g'.answer job (.ok ()))
    | (g', .refused reason) => some (g'.answer job (.error reason))
    | (_, .blocked _) => none

/-- More moves than can follow one another without a new step. -/
def moves (g : Gates) : Nat := 3 * g.blocked.length + 2 * g.pool.jobs.length

/-- The pool once nothing moves any more. -/
def settle (g : Gates) : Gates := go g.moves g
where
  /-- At most so many moves. -/
  go : Nat → Gates → Gates
    | 0, g => g
    | n + 1, g =>
      match g.start?.or (g.finish?.or g.retry?) with
      | some g' => go n g'
      | none => g

/-- A job is submitted without waiting for what becomes of it. -/
def submitAside (g : Gates) (name : String) : Gates :=
  let job := g.next
  let g := { g with aside := g.aside.put name job }
  match (g.enlist name).offer job with
  | (g', .admitted _) => g'.answer job (.ok ())
  | (g', .refused reason) => g'.answer job (.error reason)
  | (g', .blocked _) => { g' with blocked := g'.blocked ++ [job] }

/-- What a submission comes to for the one who made it. -/
def outcome (answer : Except Refusal Unit) : Except Abort Unit :=
  answer.mapError fun reason => .failure reason.failure

/-- The answer to a submission that was made aside. -/
def answer? (g : Gates) (name : String) : Option (Except Refusal Unit) := do
  let job ← g.aside.find? name
  let (_, result) ← g.answers.find? (·.1 = job)
  some result

/-- A step, before the pool settles, and its outcome. -/
def act (g : Gates) : GateStep → Gates × Except Abort Unit
  | .submit name deadline =>
    match (g.enlist name).offer g.next with
    | (g', .admitted _) => (g', .ok ())
    | (g', .refused reason) => (g', outcome (.error reason))
    | (g', .blocked n) =>
      if deadline then
        ({ g' with dropped := g'.dropped ++ [g.next] }, outcome (.error (.late n)))
      else
        (g.submitAside name, .ok ())
  | .submitAside name => (g.submitAside name, .ok ())
  | .join name =>
    ({ g with aside := g.aside.erase name },
      match g.answer? name with
      | some result => outcome result
      | none => .ok ())
  | .release names =>
    ({ g with opened := g.opened ++ names.filterMap g.latest.find? }, .ok ())
  | .resize workers =>
    let (pool, answer) := g.pool.resize workers
    ({ g with pool }, answer.mapError ResizeError.abort)
  | .close => ({ g with pool := g.pool.close }, .ok ())

/-- A step and its outcome. -/
def play (g : Gates) (step : GateStep) : Gates × Except Abort Unit :=
  let (g', result) := g.act step
  (g'.settle, result)

/-- What became of a job so far. -/
def stateOf (g : Gates) (job : Nat) : JobState :=
  if job ∈ g.ended then .ended
  else if job ∈ g.dropped then .dropped
  else .active

/-- What became of every job that has a name so far. -/
def states (g : Gates) : Dictionary JobState :=
  g.latest.map g.stateOf

/-- Whether every job submitted aside has been asked about. -/
def isQuiet (g : Gates) : Bool := g.aside.entries.isEmpty

end Gates

end Rehearsal

end SemanticHighlight
