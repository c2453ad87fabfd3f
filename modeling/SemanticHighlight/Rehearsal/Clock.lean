import SemanticHighlight.Batch.Basic
import SemanticHighlight.Interceptor

/-!
# Batches on a clock

A batch, played out on a clock of its own, on a pool with nothing else to do. Of all the
orders in which steps may follow one another this takes one: the caller goes on while it
can; when it has to wait, calls that are over end, oldest first, and workers start tasks;
when nobody can do anything, the clock moves on to the next moment at which somebody can.
All work takes no time but the calls of the backend, whose `Conduct` says how long they
take.

`Clock.run` plays until the batch has returned and the pool has drained. Main statement:
what it plays is a row of steps that the batch can take (`Clock.follows_run`), so whatever
holds of all such rows holds here. `Service.handle` plays a whole request in this way, and
its outcome is the interceptor's (`Service.outcome_handle`).
-/

namespace SemanticHighlight

namespace Rehearsal

/-- How a backend takes a call. -/
structure Conduct where
  reply : Inference.Reply
  /-- How long the call takes, in milliseconds; until its batch has returned if absent. -/
  takesMs : Option Nat := some 0
  /-- Whether the call cancels the request. -/
  cancels : Bool := false

/-- How a backend takes its calls. -/
abbrev Backend := InferenceRequest → Conduct

/-- A call under way. -/
structure Call where
  slot : Nat
  conduct : Conduct
  began : Nat

/-- A batch under way on a pool and a clock. -/
structure Clock where
  /-- The time, in milliseconds from the start of the batch. -/
  now : Nat := 0
  deadline : Nat
  pool : Pool Nat
  batch : Batch
  /-- The calls under way, the oldest first. -/
  underWay : List Call := []

namespace Clock

/-- The batch takes steps. -/
def steps? (c : Clock) (events : List Batch.Event) : Option Clock :=
  (c.batch.run? events).map fun batch => { c with batch }

/-- Whether the deadline has come. -/
def isLate (c : Clock) : Bool := decide (c.deadline ≤ c.now)

/-- Whether the batch has returned. -/
def hasReturned (c : Clock) : Bool :=
  match c.batch.stage with
  | .returned _ => true
  | _ => false

/-- The time in the units of a conclusion. -/
def concluding (c : Clock) : Batch.Event :=
  .conclude (UInt64.ofNat c.now) (UInt64.ofNat (c.now * 1000000))

/-- The caller goes on, if it need not wait. -/
def caller? (c : Clock) : Option Clock :=
  match c.batch.stage with
  | .visiting => c.steps? [.visit]
  | .submitting slot =>
    match c.pool.submit slot with
    | .admitted pool => { c with pool }.steps? [.submit (.ok ())]
    | .refused reason => c.steps? [.submit (.error reason)]
    | .blocked n => if c.isLate then c.steps? [.submit (.error (.late n))] else none
  | .failing _ => c.steps? [.fail]
  | .looking => if c.isLate then (c.steps? [.expire]).or (c.steps? [.look]) else c.steps? [.look]
  | .receiving =>
    (c.steps? [.receive]).or (if c.isLate then c.steps? [.idle] else none)
  | .draining => (c.steps? [.drain]).or (c.steps? [.settle])
  | .concluding => c.steps? [c.concluding]
  | .returned _ => none

/-- When a call is over, if that is known. -/
def ending? (c : Clock) (call : Call) : Option Nat :=
  match call.conduct.takesMs with
  | some ms => some (call.began + ms)
  | none => if c.hasReturned then some c.now else none

/-- The first call that is over by now, and the others. -/
def over? (c : Clock) : Option (Call × List Call) :=
  go c.underWay
where
  /-- The first call of a list that is over by now, and the others. -/
  go : List Call → Option (Call × List Call)
    | [] => none
    | call :: rest =>
      if (c.ending? call).any (· ≤ c.now) then some (call, rest)
      else (go rest).map fun (found, others) => (found, call :: others)

/-- A call that is over ends, and its task with it. -/
def finish? (c : Clock) : Option Clock := do
  let (call, underWay) ← c.over?
  let tookMs := UInt64.ofNat (c.now - call.began)
  let c := { c with underWay, pool := c.pool.finishAny call.slot }
  c.steps? [.reply call.slot call.conduct.reply tookMs, .report call.slot]

/-- A worker starts a task, which calls the backend or ends at once. -/
def start? (c : Clock) (backend : Backend) : Option Clock := do
  let (slot, pool) ← c.pool.startOldest?
  let c ← c.steps? [.start slot 0]
  match (c.batch.pairs[slot]?).bind Pair.request? with
  | some request =>
    if slot ∈ c.batch.calling then
      let conduct := backend request
      let c := { c with pool, underWay := c.underWay ++ [⟨slot, conduct, c.now⟩] }
      if conduct.cancels then c.steps? [.cancel] else some c
    else ({ c with pool := pool.finishAny slot } : Clock).steps? [.report slot]
  | none => none

/-- The clock moves on to the next moment at which somebody can do something. -/
def wait? (c : Clock) : Option Clock :=
  let endings := c.underWay.filterMap c.ending?
  let moments := if c.hasReturned || c.isLate then endings else c.deadline :: endings
  (moments.min?).map fun moment => { c with now := max c.now moment }

/-- The next move. -/
def move? (c : Clock) (backend : Backend) : Option Clock :=
  c.caller?.or (c.finish?.or ((c.start? backend).or c.wait?))

/-- More moves than there can be. Each pair is visited, submitted, started and answered
once; its result is looked for and received once; and the clock moves on once for each
call and for the deadline. -/
def moves (c : Clock) : Nat := 8 * c.batch.pairs.length + 16

/-- The clock once nobody can do anything any more. -/
def run (c : Clock) (backend : Backend) : Clock := go c.moves c
where
  /-- At most so many moves. -/
  go : Nat → Clock → Clock
    | 0, c => c
    | n + 1, c =>
      match c.move? backend with
      | some c' => go n c'
      | none => c

/-- Whether a clock has come from another by steps that its batch could take. -/
def Follows (c c' : Clock) : Prop := ∃ events, c.batch.run? events = some c'.batch

theorem Follows.refl (c : Clock) : c.Follows c := ⟨[], rfl⟩

theorem Follows.trans {c₁ c₂ c₃ : Clock} (h : c₁.Follows c₂) (h' : c₂.Follows c₃) :
    c₁.Follows c₃ := by
  obtain ⟨first, h⟩ := h
  obtain ⟨second, h'⟩ := h'
  exact ⟨first ++ second, by rw [Batch.run?_append, h]; exact h'⟩

theorem follows_of_steps? {c c' c₀ : Clock} {events : List Batch.Event}
    (h : c₀.steps? events = some c') (hb : c₀.batch = c.batch) : c.Follows c' := by
  unfold steps? at h
  obtain ⟨batch, hr, rfl⟩ := Option.map_eq_some_iff.1 h
  exact ⟨events, by rw [← hb]; exact hr⟩

theorem follows_of_caller? {c c' : Clock} (h : c.caller? = some c') : c.Follows c' := by
  unfold caller? at h
  split at h
  · exact follows_of_steps? h rfl
  · split at h
    · exact follows_of_steps? h rfl
    · exact follows_of_steps? h rfl
    · split at h
      · exact follows_of_steps? h rfl
      · cases h
  · exact follows_of_steps? h rfl
  · split at h
    · rcases Option.or_eq_some_iff.1 h with h | ⟨-, h⟩ <;> exact follows_of_steps? h rfl
    · exact follows_of_steps? h rfl
  · rcases Option.or_eq_some_iff.1 h with h | ⟨-, h⟩
    · exact follows_of_steps? h rfl
    · split at h
      · exact follows_of_steps? h rfl
      · cases h
  · rcases Option.or_eq_some_iff.1 h with h | ⟨-, h⟩ <;> exact follows_of_steps? h rfl
  · exact follows_of_steps? h rfl
  · cases h

theorem follows_of_finish? {c c' : Clock} (h : c.finish? = some c') : c.Follows c' := by
  unfold finish? at h
  obtain ⟨⟨call, underWay⟩, -, h⟩ := Option.bind_eq_some_iff.1 h
  dsimp only at h
  exact follows_of_steps? h rfl

theorem follows_of_start? {c c' : Clock} {backend : Backend}
    (h : c.start? backend = some c') : c.Follows c' := by
  unfold start? at h
  obtain ⟨⟨slot, pool⟩, -, h⟩ := Option.bind_eq_some_iff.1 h
  obtain ⟨c₁, h₁, h⟩ := Option.bind_eq_some_iff.1 h
  refine (follows_of_steps? h₁ rfl).trans ?_
  split at h
  · split at h
    · dsimp only at h
      split at h
      · exact follows_of_steps? h rfl
      · cases h
        exact ⟨[], rfl⟩
    · exact follows_of_steps? h rfl
  · cases h

theorem follows_of_wait? {c c' : Clock} (h : c.wait? = some c') : c.Follows c' := by
  unfold wait? at h
  obtain ⟨moment, -, rfl⟩ := Option.map_eq_some_iff.1 h
  exact ⟨[], rfl⟩

theorem follows_of_move? {c c' : Clock} {backend : Backend}
    (h : c.move? backend = some c') : c.Follows c' := by
  unfold move? at h
  rcases Option.or_eq_some_iff.1 h with h | ⟨-, h⟩
  · exact follows_of_caller? h
  · rcases Option.or_eq_some_iff.1 h with h | ⟨-, h⟩
    · exact follows_of_finish? h
    · rcases Option.or_eq_some_iff.1 h with h | ⟨-, h⟩
      · exact follows_of_start? h
      · exact follows_of_wait? h

theorem follows_go (backend : Backend) : ∀ (n : Nat) (c : Clock), c.Follows (run.go backend n c)
  | 0, c => Follows.refl c
  | n + 1, c => by
    unfold run.go
    split
    · next c' h => exact (follows_of_move? h).trans (follows_go backend n c')
    · exact Follows.refl c

/-- What is played out is a row of steps that the batch can take. -/
theorem follows_run (c : Clock) (backend : Backend) : c.Follows (c.run backend) :=
  follows_go backend c.moves c

/-- The end of the batch; none for a batch that has not returned. -/
def ending (c : Clock) : Ending :=
  match c.batch.stage with
  | .returned ending => ending
  | _ => .vacant

end Clock

/-- A pool with a time limit for batches, and counters, for one request after another. -/
structure Service where
  pool : Pool Nat
  timeoutMs : UInt64
  metrics : Metrics := {}

namespace Service

/-- A batch is run on the pool. -/
def play (s : Service) (backend : Backend) (hits : List HitData) (configs : List FieldConfig)
    (cancelled : Bool) : Service × Batch × Nat × Ending :=
  let start : Clock :=
    { deadline := s.timeoutMs.toNat, pool := s.pool, batch := .begin hits configs cancelled }
  let c := start.run backend
  ({ s with pool := c.pool, metrics := c.ending.record hits.length s.metrics },
    c.batch, c.now, c.ending)

/-- What came of a request. -/
structure Handled where
  outcome : Except Failure Response
  /-- The requests that the engine was asked. -/
  searched : List Request
  /-- What the backend was asked. -/
  calls : List InferenceRequest := []

/-- A request is handled, `found` being what the engine answers and `cancelled` whether
the request is cancelled by then. -/
def handle (s : Service) (i : Interceptor) (backend : Backend) (r : Request)
    (found : Except Failure Response) (cancelled : Bool) : Service × Handled :=
  match i.afterSearch r cancelled found with
  | .finished outcome => (s, { outcome, searched := [i.asked r] })
  | .highlighting base configs =>
    let (s', batch, now, ending) :=
      s.play backend (Interceptor.batchHits base) configs cancelled
    (s', {
      outcome := Interceptor.afterBatch base batch.cancelled (UInt64.ofNat now) ending.outcome
      searched := [i.asked r]
      calls := batch.asked })

/-- What a request comes to on the clock is what the interceptor makes of the work that
the clock plays out. -/
theorem outcome_handle (s : Service) (i : Interceptor) (backend : Backend) (r : Request)
    (found : Except Failure Response) (cancelled : Bool) :
    (s.handle i backend r found cancelled).2.outcome = i.apply r {
      search := fun _ => found
      cancelled
      batch := fun hits configs =>
        let (_, batch, now, ending) := s.play backend hits configs cancelled
        ⟨ending.outcome, batch.cancelled, UInt64.ofNat now⟩ } := by
  unfold handle Interceptor.apply
  cases i.afterSearch r cancelled found <;> rfl

end Service

end Rehearsal

end SemanticHighlight
