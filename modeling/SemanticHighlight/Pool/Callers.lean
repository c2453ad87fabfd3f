import SemanticHighlight.Pool.Basic

/-!
# Callers of a pool

Several callers use one pool at once. An operation of a caller is a row of steps: each
looks at or changes the shared state at one moment, and between two of them anything
may happen. `Pool.advance?` is one such step, and `Crowd.move?` lets one of many
callers, or a worker, take the next.

* A submission looks at the flag, reads which generation is active, and asks that very
  generation for a slot; finding it retired, it begins again.
* A change of size looks at the flag, installs a new generation, and retires the one
  that was active before. If the generation cannot be built, the change has failed.
* Closing sets the flag, and retires the generation that is active then.
-/

namespace SemanticHighlight

/-- Where a caller stands between two steps. -/
inductive Caller (ι : Type) where
  /-- About to look at the flag, with a job to submit. -/
  | submitting (job : ι)
  /-- About to read which generation is active. -/
  | choosing (job : ι)
  /-- About to ask the generation of a number for a slot. -/
  | asking (job : ι) (number : Nat)
  /-- Knows what became of the job. -/
  | submitted (job : ι) (answer : Except Refusal Unit)
  /-- About to look at the flag, to change the number of workers. -/
  | resizing (workers : UInt64)
  /-- About to install a new generation, if the number differs. -/
  | installing (workers : UInt64)
  /-- About to retire the generation of a number, which is active no more. -/
  | retiring (number : Nat)
  /-- Knows what became of the change. -/
  | resized (answer : Except ResizeError Unit)
  /-- About to set the flag. -/
  | closing
  /-- About to retire the active generation, the flag being set. -/
  | sealing
  /-- Has closed the pool. -/
  | closed

/-- Whether a caller has not taken a step. -/
def Caller.isFirst {ι : Type} : Caller ι → Bool
  | submitting _ | resizing _ | closing => true
  | _ => false

/-- Whether a caller has come to its end. -/
def Caller.hasEnded {ι : Type} : Caller ι → Bool
  | submitted .. | resized _ | closed => true
  | _ => false

namespace Pool

variable {ι : Type}

/-- A job asks the generation of a number for a slot. -/
def ask? (p : Pool ι) (job : ι) (number : Nat) : Option (Admission (Generation ι)) :=
  (p.generation? number).map (·.ask p.policy job)

/-- The next step of a caller; none if it has ended or has to wait. -/
def advance? (p : Pool ι) : Caller ι → Option (Pool ι × Caller ι)
  | .submitting job =>
    some (p, if p.shutDown then .submitted job (.error .shutDown) else .choosing job)
  | .choosing job => some (p, .asking job p.active.number)
  | .asking job number =>
    match p.ask? job number with
    | some (.admitted g) => some (p.modify number fun _ => g, .submitted job (.ok ()))
    | some .retired => some (p, .submitting job)
    | some (.saturated n) => some (p, .submitted job (.error (.saturated n)))
    | some (.full _) | none => none
  | .submitted .. => none
  | .resizing workers =>
    some (p,
      if workers = 0 then .resized (.error .noWorkers)
      else if p.shutDown then .resized (.error .shutDown)
      else .installing workers)
  | .installing workers =>
    if p.active.workers = workers then some (p, .resized (.ok ()))
    else
      match p.replace (.ok ()) workers with
      | (p', .ok ()) => some (p', .retiring p.active.number)
      | (p', .error reason) => some (p', .resized (.error (.notBuilt reason)))
  | .retiring number => some (p.retire number, .resized (.ok ()))
  | .resized _ => none
  | .closing => some (if p.shutDown then (p, .closed) else ({ p with shutDown := true }, .sealing))
  | .sealing => some (p.retire p.active.number, .closed)
  | .closed => none

/-- A caller that waits for a slot gives up at its deadline. -/
def giveUp? (p : Pool ι) : Caller ι → Option (Caller ι)
  | .asking job number =>
    match p.ask? job number with
    | some (.full n) => some (.submitted job (.error (.late n)))
    | _ => none
  | _ => none

/-- A caller that is about to install a generation gets no threads for it. -/
def noThreads? (p : Pool ι) (reason : String) : Caller ι → Option (Pool ι × Caller ι)
  | .installing workers =>
    if p.active.workers = workers then none
    else some (p.skip, .resized (.error (.notBuilt (.noThreads reason))))
  | _ => none

end Pool

/-- A pool and those who use it. -/
structure Crowd (ι : Type) where
  pool : Pool ι
  callers : List (Caller ι) := []

namespace Crowd

/-- What can happen next. -/
inductive Move (ι : Type) where
  /-- A caller arrives and is about to take its first step. -/
  | arrive (caller : Caller ι)
  /-- The caller at a position takes a step. -/
  | act (position : Nat)
  /-- The caller at a position gives up waiting for a slot. -/
  | giveUp (position : Nat)
  /-- The caller at a position gets no threads for the generation that it is to install. -/
  | noThreads (position : Nat) (reason : String)
  /-- A worker of the generation of a number begins a job. -/
  | start (number : Nat) (job : ι)
  /-- A worker of the generation of a number ends a job. -/
  | finish (number : Nat) (job : ι)

variable {ι : Type} [DecidableEq ι]

/-- What a move leads to, if it can happen. -/
def move? (c : Crowd ι) : Move ι → Option (Crowd ι)
  | .arrive caller =>
    if caller.isFirst then some { c with callers := c.callers ++ [caller] } else none
  | .act position => do
    let (pool, caller) ← c.pool.advance? (← c.callers[position]?)
    some { pool, callers := c.callers.set position caller }
  | .giveUp position => do
    let caller ← c.pool.giveUp? (← c.callers[position]?)
    some { c with callers := c.callers.set position caller }
  | .noThreads position reason => do
    let (pool, caller) ← c.pool.noThreads? reason (← c.callers[position]?)
    some { pool, callers := c.callers.set position caller }
  | .start number job => do
    let pool ← c.pool.start? number job
    some { c with pool }
  | .finish number job => do
    let g ← c.pool.generation? number
    if job ∈ g.running then some { c with pool := c.pool.finish number job } else none

/-- What a row of moves leads to, if all of them can happen. -/
def run? (c : Crowd ι) (moves : List (Move ι)) : Option (Crowd ι) := moves.foldlM move? c

/-- A pool with nobody using it. -/
def alone (pool : Pool ι) : Crowd ι := { pool }

end Crowd

end SemanticHighlight
