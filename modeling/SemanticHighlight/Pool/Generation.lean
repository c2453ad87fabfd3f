import SemanticHighlight.Settings

/-!
# Generations of workers

A generation is a number of workers and the jobs they were given. It holds a job from
the moment it admits it until the job ends, and it never holds more than its capacity.
A retired generation admits nothing more and works off what it holds.

`Generation.ask` is the only way in and `Generation.finish` the only way out. In between,
`Generation.start?` takes up any of the jobs that wait: in which order the workers do so is
theirs to choose. The slots in use are counted apart from the jobs, as a caller sees only the
count; `Generation.Balanced` says that the two agree.
-/

namespace SemanticHighlight

/-- A number of workers and the jobs they were given. -/
structure Generation (ι : Type) where
  /-- How many generations went before. -/
  number : Nat
  workers : UInt64
  /-- How many jobs it may hold. -/
  capacity : UInt64
  /-- Whether it admits nothing more. -/
  retired : Bool := false
  /-- How many slots are in use. -/
  inFlight : Nat := 0
  /-- The jobs that no worker has begun, in the order of their admission. -/
  waiting : List ι := []
  /-- The jobs that a worker has begun and not ended. -/
  running : List ι := []
deriving DecidableEq, Repr

/-- Why a generation could not be built. -/
inductive BuildError where
  /-- There are no threads for its workers, for a reason that the machine gives. -/
  | noThreads (reason : String)
  /-- Its workers and the jobs that may wait beside them are too many to be added up. -/
  | overflow
deriving DecidableEq, Repr

/-- What becomes of a job that asks for a slot. -/
inductive Admission (α : Type) where
  /-- It has one, which leaves this state behind. -/
  | admitted (state : α)
  /-- There will be none here any more. -/
  | retired
  /-- All slots are in use, and it is turned away. -/
  | saturated (outstanding : Nat)
  /-- All slots are in use, and it has to wait. -/
  | full (outstanding : Nat)
deriving DecidableEq, Repr

namespace Generation

variable {ι : Type}

/-- A generation without jobs, whose capacity is the number of its workers and of the jobs that
may wait beside them. `build` makes it, if the two can be added up. -/
def fresh (number : Nat) (workers queueSize : UInt64) : Generation ι where
  number := number
  workers := workers
  capacity := workers + queueSize

/-- A generation is built: first the threads of its workers, which the machine may not give,
and then the capacity, a sum that has to have 64 bits. -/
def build (threads : Except String Unit) (number : Nat) (workers queueSize : UInt64) :
    Except BuildError (Generation ι) :=
  match threads with
  | .error reason => .error (.noThreads reason)
  | .ok () =>
    if workers.toNat + queueSize.toNat < UInt64.size then .ok (fresh number workers queueSize)
    else .error .overflow

/-- The jobs that the generation holds. -/
def jobs (g : Generation ι) : List ι := g.waiting ++ g.running

/-- Whether as many slots are in use as there are jobs. -/
def Balanced (g : Generation ι) : Prop := g.inFlight = g.jobs.length

/-- Whether a job finds a slot. -/
def hasRoom (g : Generation ι) : Bool := !g.retired && decide (g.inFlight < g.capacity.toNat)

/-- A job asks for a slot. -/
def ask (g : Generation ι) (policy : Backpressure) (job : ι) : Admission (Generation ι) :=
  if g.retired then .retired
  else if g.inFlight < g.capacity.toNat then
    .admitted { g with inFlight := g.inFlight + 1, waiting := g.waiting ++ [job] }
  else
    match policy with
    | .reject => .saturated g.inFlight
    | .block => .full g.inFlight

/-- The generation once it admits nothing more. -/
def retire (g : Generation ι) : Generation ι := { g with retired := true }

/-- A worker that is free begins a job that waits, whichever it is. -/
def start? [DecidableEq ι] (g : Generation ι) (job : ι) : Option (Generation ι) :=
  if job ∈ g.waiting ∧ g.running.length < g.workers.toNat then
    some { g with waiting := g.waiting.erase job, running := g.running ++ [job] }
  else
    none

/-- A worker ends a job, well or not, and gives its slot up. -/
def finish [DecidableEq ι] (g : Generation ι) (job : ι) : Generation ι :=
  if job ∈ g.running then
    { g with inFlight := g.inFlight - 1, running := g.running.erase job }
  else
    g

/-- What it takes to build a generation. -/
theorem build_eq_ok_iff {threads : Except String Unit} {number : Nat}
    {workers queueSize : UInt64} {g : Generation ι} :
    build threads number workers queueSize = .ok g ↔
      threads = .ok () ∧ workers.toNat + queueSize.toNat < UInt64.size ∧
        g = fresh number workers queueSize := by
  unfold build
  cases threads with
  | error reason => simp
  | ok _ =>
    by_cases hfits : workers.toNat + queueSize.toNat < UInt64.size
    · simp only [if_pos hfits, Except.ok.injEq, true_and]
      exact ⟨fun h => ⟨hfits, h.symm⟩, fun h => h.2.symm⟩
    · simp only [if_neg hfits, reduceCtorEq, false_iff]
      exact fun h => hfits h.2.1

theorem balanced_fresh (number : Nat) (workers queueSize : UInt64) :
    (fresh number workers queueSize : Generation ι).Balanced := rfl

theorem ask_eq_admitted_iff {g g' : Generation ι} {policy : Backpressure} {job : ι} :
    g.ask policy job = .admitted g' ↔
      g.hasRoom = true ∧
        g' = { g with inFlight := g.inFlight + 1, waiting := g.waiting ++ [job] } := by
  unfold ask hasRoom
  by_cases hr : g.retired
  · simp [hr]
  · by_cases hc : g.inFlight < g.capacity.toNat
    · simp only [hr, hc, if_true, Bool.false_eq_true, if_false]
      constructor
      · intro h
        cases h
        exact ⟨by simp, rfl⟩
      · rintro ⟨-, rfl⟩
        rfl
    · cases policy <;> simp [hr, hc]

theorem Balanced.ask {g g' : Generation ι} {policy : Backpressure} {job : ι}
    (h : g.Balanced) (ha : g.ask policy job = .admitted g') : g'.Balanced := by
  obtain ⟨-, rfl⟩ := ask_eq_admitted_iff.1 ha
  simp only [Balanced, jobs, List.length_append, List.length_cons, List.length_nil] at h ⊢
  omega

theorem Balanced.retire {g : Generation ι} (h : g.Balanced) : g.retire.Balanced := h

theorem start?_eq_some_iff [DecidableEq ι] {g g' : Generation ι} {job : ι} :
    g.start? job = some g' ↔
      job ∈ g.waiting ∧ g.running.length < g.workers.toNat ∧
        g' = { g with waiting := g.waiting.erase job, running := g.running ++ [job] } := by
  unfold start?
  rw [Option.ite_none_right_eq_some, Option.some.injEq, and_assoc, eq_comm (b := g')]

theorem Balanced.start [DecidableEq ι] {g g' : Generation ι} {job : ι} (h : g.Balanced)
    (hs : g.start? job = some g') : g'.Balanced := by
  obtain ⟨hwaiting, -, rfl⟩ := start?_eq_some_iff.1 hs
  have hpos := List.length_pos_of_mem hwaiting
  simp only [Balanced, jobs, List.length_append, List.length_erase_of_mem hwaiting,
    List.length_singleton] at h ⊢
  omega

theorem Balanced.finish [DecidableEq ι] {g : Generation ι} (h : g.Balanced) (job : ι) :
    (g.finish job).Balanced := by
  unfold Generation.finish
  split
  · next hm =>
    have := List.length_pos_of_mem hm
    simp only [Balanced, jobs, List.length_append, List.length_erase_of_mem hm] at h ⊢
    omega
  · exact h

end Generation

end SemanticHighlight
