import SemanticHighlight.Pool.Generation

/-!
# The worker pool

A pool has one active generation of workers and the generations that were active
before it. Changing the number of workers makes a new generation the active one and
retires the one before; shutting the pool down retires the active one for good. A new
generation may not come about: its number is used up then, and nothing else has changed.

What is here is a pool that one caller at a time uses.
-/

namespace SemanticHighlight

/-- A pool of workers whose number can change. -/
structure Pool (ι : Type) where
  active : Generation ι
  /-- The generations before, the latest first. -/
  former : List (Generation ι) := []
  /-- How many jobs may wait beside those that a worker has begun. -/
  queueSize : UInt64
  policy : Backpressure
  shutDown : Bool := false
  /-- The number of the next generation that is to be built, the first one being `0`. -/
  next : Nat := 1
deriving DecidableEq, Repr

/-- Why a job was not admitted. -/
inductive Refusal where
  /-- The pool is shut down. -/
  | shutDown
  /-- All slots were in use, and jobs are not to wait. -/
  | saturated (outstanding : Nat)
  /-- All slots were still in use when the deadline came. -/
  | late (outstanding : Nat)
deriving DecidableEq, Repr

/-- Why a pool was not made, or the number of its workers not changed. -/
inductive ResizeError where
  | noWorkers
  /-- The pool is shut down. -/
  | shutDown
  /-- The generation that was to be active could not be built. -/
  | notBuilt (reason : BuildError)
deriving DecidableEq, Repr

/-- How an operation ends that is not carried out. -/
inductive Abort where
  /-- It fails, and says why. -/
  | failure (failure : Failure)
  /-- It panics. -/
  | panic
deriving DecidableEq, Repr

namespace Pool

/-- The wording for a pool that is shut down. -/
def shutDownMessage : String := "highlight executor is shut down"

end Pool

def Refusal.failure : Refusal → Failure
  | shutDown => .invalid Pool.shutDownMessage
  | saturated n =>
    .exhausted ("highlight pool saturated (" ++ toString n ++ " jobs outstanding)")
  | late n =>
    .timeout ("no highlight pool slot freed before the deadline (" ++ toString n
      ++ " jobs outstanding)")

/-- How an operation ends that meets an error of this kind. The sum that gives the capacity is
checked by nobody before it is taken, so one that is too large ends in a panic. -/
def ResizeError.abort : ResizeError → Abort
  | noWorkers => .failure (.config (Settings.Error.message .noWorkers))
  | shutDown => .failure (.invalid Pool.shutDownMessage)
  | notBuilt (.noThreads reason) =>
    .failure (.exhausted ("Failed to create thread pool: " ++ reason))
  | notBuilt .overflow => .panic

namespace Pool

variable {ι : Type}

/-- What becomes of a job that is given to a pool. -/
inductive Submission (ι : Type) where
  | admitted (pool : Pool ι)
  | refused (reason : Refusal)
  /-- It has to wait for one of so many jobs to end. -/
  | blocked (outstanding : Nat)
deriving DecidableEq, Repr

/-- A pool of so many workers. There has to be one at least, and the machine has to give the
threads for them. -/
def create (workers queueSize : UInt64) (policy : Backpressure)
    (threads : Except String Unit := .ok ()) : Except ResizeError (Pool ι) :=
  if workers = 0 then .error .noWorkers
  else
    match Generation.build threads 0 workers queueSize with
    | .ok active => .ok { active, queueSize, policy }
    | .error reason => .error (.notBuilt reason)

/-- The pool that settings ask for, on a machine with so many processors. -/
def ofSettings (s : Settings) (processors : UInt64) (threads : Except String Unit := .ok ()) :
    Except Abort (Pool ι) :=
  match s.check with
  | .error failure => .error (.failure failure)
  | .ok () =>
    match create (s.workers processors) s.queueSize s.backpressure threads with
    | .ok pool => .ok pool
    | .error e => .error e.abort

/-- All generations, the latest first. -/
def generations (p : Pool ι) : List (Generation ι) := p.active :: p.former

def generation? (p : Pool ι) (number : Nat) : Option (Generation ι) :=
  p.generations.find? (·.number = number)

/-- The pool with the generation of a number changed. -/
def modify (p : Pool ι) (number : Nat) (f : Generation ι → Generation ι) : Pool ι :=
  let change (g : Generation ι) : Generation ι := if g.number = number then f g else g
  { p with active := change p.active, former := p.former.map change }

/-- A generation of so many workers with the next number. -/
def build (p : Pool ι) (threads : Except String Unit) (workers : UInt64) :
    Except BuildError (Generation ι) :=
  Generation.build threads p.next workers p.queueSize

/-- The pool with a number used up. -/
def skip (p : Pool ι) : Pool ι := { p with next := p.next + 1 }

/-- The pool with a generation that has just been built as the active one. -/
def install (p : Pool ι) (g : Generation ι) : Pool ι :=
  { p.skip with active := g, former := p.active :: p.former }

/-- A generation of so many workers is put in front, if it can be built. -/
def replace (p : Pool ι) (threads : Except String Unit) (workers : UInt64) :
    Pool ι × Except BuildError Unit :=
  match p.build threads workers with
  | .ok g => (p.install g, .ok ())
  | .error reason => (p.skip, .error reason)

/-- The pool with the generation of a number retired. -/
def retire (p : Pool ι) (number : Nat) : Pool ι := p.modify number .retire

/-- A job is given to the pool. -/
def submit (p : Pool ι) (job : ι) : Submission ι :=
  if p.shutDown then .refused .shutDown
  else
    match p.active.ask p.policy job with
    | .admitted g => .admitted { p with active := g }
    | .saturated n => .refused (.saturated n)
    | .full n => .blocked n
    | .retired => .blocked p.active.inFlight

/-- The pool is to have so many workers. Their number being the same, nothing changes; else
the jobs admitted so far stay with the workers they were given to. -/
def resize (p : Pool ι) (workers : UInt64) (threads : Except String Unit := .ok ()) :
    Pool ι × Except ResizeError Unit :=
  if workers = 0 then (p, .error .noWorkers)
  else if p.shutDown then (p, .error .shutDown)
  else if p.active.workers = workers then (p, .ok ())
  else
    match p.replace threads workers with
    | (p', .ok ()) => (p'.retire p.active.number, .ok ())
    | (p', .error reason) => (p', .error (.notBuilt reason))

/-- The pool once it admits nothing more. -/
def close (p : Pool ι) : Pool ι :=
  if p.shutDown then p else { p with shutDown := true }.retire p.active.number

section Work

variable [DecidableEq ι]

/-- A worker of the generation of a number begins a job. -/
def start? (p : Pool ι) (number : Nat) (job : ι) : Option (Pool ι) := do
  let g ← (← p.generation? number).start? job
  some (p.modify number fun _ => g)

/-- A worker of the generation of a number ends a job. -/
def finish (p : Pool ι) (number : Nat) (job : ι) : Pool ι :=
  p.modify number (·.finish job)

/-- A worker begins the job that has waited longest, one of the active generation if possible.
This is one order of many that the workers may keep to. -/
def startOldest? (p : Pool ι) : Option (ι × Pool ι) :=
  p.generations.findSome? fun g => do
    let job ← g.waiting.head?
    let p' ← p.start? g.number job
    some (job, p')

/-- A worker ends a job, whichever generation holds it. -/
def finishAny (p : Pool ι) (job : ι) : Pool ι :=
  match p.generations.find? fun g => job ∈ g.running with
  | some g => p.finish g.number job
  | none => p

end Work

/-- The jobs that a worker has begun and not ended. -/
def running (p : Pool ι) : List ι := p.generations.flatMap (·.running)

/-- The jobs that the pool holds. -/
def jobs (p : Pool ι) : List ι := p.generations.flatMap (·.jobs)

/-- The name of a policy in the description of a pool. -/
def policyLabel : Backpressure → String
  | .block => "Block"
  | .reject => "Reject"

/-- A line that describes the pool. -/
def describe (p : Pool ι) : String :=
  "HighlightExecutor \x7b parallelism: " ++ toString p.active.workers.toNat
    ++ ", generation: " ++ toString p.active.number
    ++ ", queue_size: " ++ toString p.queueSize.toNat
    ++ ", policy: " ++ policyLabel p.policy
    ++ ", shut_down: " ++ (if p.shutDown then "true" else "false") ++ " \x7d"

end Pool

end SemanticHighlight
