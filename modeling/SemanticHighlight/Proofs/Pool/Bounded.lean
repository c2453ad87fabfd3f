import SemanticHighlight.Proofs.Pool.Admitting
import SemanticHighlight.Proofs.Pool.Ledger

/-!
# Bounded admission

What a caller sees of the slots of a generation. A submission that is not to wait is turned away
exactly if all slots are in use, one that gives up at its deadline finds them all in use at that
moment, and one that fails has changed nothing.

`Crowd.Bounded` says so together with what holds of the slots themselves: the slots in use are
those of the jobs that were admitted and have not ended, there are no more of them than workers
and places, and none is lost or given up twice. Main statement (`Crowd.bounded_of_run`).
-/

namespace SemanticHighlight

namespace Caller

variable {ι : Type} {caller : Caller ι}

/-- The error that a submission has ended with. -/
def failure? : Caller ι → Option Failure
  | submitted _ (.error reason) => some reason.failure
  | _ => none

/-- A submission fails for a reason that it was refused for. -/
theorem failure?_eq_some {failure : Failure} (h : caller.failure? = some failure) :
    ∃ job reason, caller = .submitted job (.error reason) ∧ reason.failure = failure := by
  unfold failure? at h
  split at h
  · next job reason => exact ⟨job, reason, rfl, Option.some.inj h⟩
  · cases h

theorem failure?_of_isFirst (h : caller.isFirst = true) : caller.failure? = none := by
  cases caller <;> first | rfl | cases h

end Caller

namespace Crowd

variable {ι : Type} [DecidableEq ι] {c c' : Crowd ι} {queueSize : UInt64} {moves : List (Move ι)}
  {move : Move ι} {g : Generation ι} {n i : Nat} {job : ι}

/-- The error that the caller at a position has ended with. -/
def failureAt? (c : Crowd ι) (i : Nat) : Option Failure := c.callers[i]?.bind Caller.failure?

/-- A submission that is not to wait is turned away by a generation exactly if that is full. -/
theorem Admitting.saturated_iff (h : Admitting queueSize c) (hpolicy : c.pool.policy = .reject)
    (hcaller : c.callers[i]? = some (.asking job n)) (hg : c.pool.generation? n = some g) :
    (∃ c' message, c.move? (.act i) = some c' ∧
      c'.failureAt? i = some (.exhausted message)) ↔ g.Full := by
  have hcounted := h.counted g (Pool.mem_of_generation? hg)
  constructor
  · rintro ⟨c', message, hmove, hfailure⟩
    obtain ⟨caller, pool, caller', hcaller', hadvance, rfl⟩ := exists_advance hmove
    cases hcaller.symm.trans hcaller'
    -- the caller fails in this very step, and only by asking
    rw [failureAt?, List.getElem?_set_self'] at hfailure
    rw [hcaller] at hfailure
    cases hadvance with
    | enter _ _ | retry _ _ => cases hfailure
    | saturated hg' hask =>
      cases hg.symm.trans hg'
      exact ((hcounted.ask_eq_noRoom_iff .reject).1 hask).2.1
  · intro hfull
    have hask : g.ask c.pool.policy job = .saturated g.inFlight :=
      (hcounted.ask_eq_noRoom_iff .reject).2 ⟨hpolicy, hfull, rfl⟩
    have hadvance : c.pool.advance? (.asking job n) =
        some (c.pool, .submitted job (.error (.saturated g.inFlight))) := by
      simp [Pool.advance?, Pool.ask?, hg, hask]
    obtain ⟨hmove, hanswer⟩ := move?_act hcaller hadvance
    have hfailure := congrArg (·.bind Caller.failure?) hanswer
    exact ⟨_, _, hmove, hfailure⟩

/-- A submission that has come to its deadline was waiting for a generation that was full. -/
theorem Admitting.full_of_timeout (h : Admitting queueSize c) (hstep : Step c c')
    {message : String} (hfailure : c'.failureAt? i = some (.timeout message)) :
    c.failureAt? i = some (.timeout message) ∨
      ∃ job n g, c.callers[i]? = some (.asking job n) ∧ c.pool.policy = .block ∧
        c.pool.generation? n = some g ∧ g.Full := by
  obtain ⟨caller, hcaller, hlate⟩ := Option.bind_eq_some_iff.1 hfailure
  have hfailed : c.callers[i]? = some caller → c.failureAt? i = some (.timeout message) :=
    fun hbefore => Option.bind_eq_some_iff.2 ⟨caller, hbefore, hlate⟩
  cases hstep with
  | arrive hfirst =>
    have hanswered : caller.isFirst ≠ true := by
      intro hnew
      rw [Caller.failure?_of_isFirst hnew] at hlate
      cases hlate
    exact .inl (hfailed (getElem?_of_arrived hfirst hanswered hcaller))
  | start _ _ | finish _ _ => exact .inl (hfailed hcaller)
  | noThreads _ _ =>
    rcases Rows.getElem?_of_set hcaller with ⟨-, hbefore⟩ | ⟨-, rfl⟩
    · exact .inl (hfailed hbefore)
    · -- a change of size is no submission
      cases hlate
  | act _ hadvance =>
    rcases Rows.getElem?_of_set hcaller with ⟨-, hbefore⟩ | ⟨-, rfl⟩
    · exact .inl (hfailed hbefore)
    · -- no step of its own tells a caller that it is too late
      obtain ⟨job, reason, rfl, hreason⟩ := Caller.failure?_eq_some hlate
      cases hadvance <;> cases hreason
  | @giveUp _ n _ job g hasking hg hask =>
    rcases Rows.getElem?_of_set hcaller with ⟨-, hbefore⟩ | ⟨rfl, -⟩
    · exact .inl (hfailed hbefore)
    · obtain ⟨hpolicy, hfull, -⟩ :=
        ((h.counted g (Pool.mem_of_generation? hg)).ask_eq_noRoom_iff .block).1 hask
      exact .inr ⟨job, n, g, hasking, hpolicy, hg, hfull⟩

/-- A step of a submission that does not admit the job changes nothing in the pool. -/
theorem pool_eq_of_pending {caller : Caller ι} (hcaller : c.callers[i]? = some caller)
    (hpending : caller.pending? = some job) (hown : move = .act i ∨ move = .giveUp i)
    (hmove : c.move? move = some c') :
    c'.pool = c.pool ∨ c'.callers[i]? = some (.submitted job (.ok ())) := by
  rcases hown with rfl | rfl
  · obtain ⟨caller', pool, caller'', hcaller', hadvance, rfl⟩ := exists_advance hmove
    cases hcaller.symm.trans hcaller'
    cases hadvance with
    | turnAway _ | pass _ | choose | retry _ _ | saturated _ _ => exact .inl rfl
    | enter _ _ =>
      cases hpending
      exact .inr (List.getElem?_set_self (List.getElem?_eq_some_iff.1 hcaller).1)
    | noWorkers | tooLate _ _ | resizePass _ _ | sameSize _ | install _ _ | unbuilt _ _ | retire
    | closeAgain _ | flag _ | retireActive => cases hpending
  · obtain ⟨-, -, -, -, -, -, -, rfl⟩ := exists_giveUp hmove
    exact .inl rfl

/-- The moves of a submission that nobody interrupts. -/
def submission (c : Crowd ι) (job : ι) : List (Move ι) :=
  .arrive (.submitting job) :: List.replicate 3 (.act c.callers.length)

theorem move?_act_last {pool pool' : Pool ι} {callers : List (Caller ι)} {caller caller' : Caller ι}
    (hadvance : pool.advance? caller = some (pool', caller')) :
    move? { pool, callers := callers ++ [caller] } (.act callers.length) =
      some { pool := pool', callers := callers ++ [caller'] } := by
  simp [move?, hadvance]

/-- It asks the active generation. -/
theorem run?_submission {pool : Pool ι} {answer : Except Refusal Unit}
    (hopen : c.pool.shutDown = false)
    (hadvance : c.pool.advance? (.asking job c.pool.active.number) =
      some (pool, .submitted job answer)) :
    c.run? (c.submission job) =
      some { pool, callers := c.callers ++ [.submitted job answer] } := by
  have hpass : c.pool.advance? (.submitting job) = some (c.pool, .choosing job) := by
    simp [Pool.advance?, hopen]
  have hchoose : c.pool.advance? (.choosing job) =
    some (c.pool, .asking job c.pool.active.number) := rfl
  show ((move? { pool := c.pool, callers := c.callers ++ [.submitting job] } _).bind _) = _
  rw [move?_act_last hpass]
  show ((move? _ _).bind _) = _
  rw [move?_act_last hchoose]
  show ((move? _ _).bind _) = _
  rw [move?_act_last hadvance]
  rfl

/-- A submission that is not to wait, and that nobody interrupts, is turned away exactly if the
active generation is full. -/
theorem Admitting.rejects (h : Admitting queueSize c) (hpolicy : c.pool.policy = .reject)
    (hopen : c.pool.shutDown = false) (job : ι) :
    ∃ last answer, c.run? (c.submission job) = some last ∧
      last.callers = c.callers ++ [.submitted job answer] ∧
      ((∃ message, Caller.failure? (.submitted job answer) = some (.exhausted message)) ↔
        c.pool.active.inFlight = c.pool.active.capacity.toNat) ∧
      (answer ≠ .ok () → last.pool = c.pool) := by
  have hcounted := h.counted c.pool.active List.mem_cons_self
  -- an open pool has an open active generation, or closing would have set the flag
  have hactive : c.pool.active.retired = false := by
    by_contra hretired
    rw [h.guarded.active (by simpa using hretired)] at hopen
    cases hopen
  have hfound := c.pool.generation?_active
  by_cases hfull : c.pool.active.inFlight = c.pool.active.capacity.toNat
  · have hask : c.pool.active.ask c.pool.policy job = .saturated c.pool.active.inFlight :=
      (hcounted.ask_eq_noRoom_iff .reject).2 ⟨hpolicy, ⟨hactive, hfull⟩, rfl⟩
    have hadvance : c.pool.advance? (.asking job c.pool.active.number) =
        some (c.pool, .submitted job (.error (.saturated c.pool.active.inFlight))) := by
      simp [Pool.advance?, Pool.ask?, hfound, hask]
    exact ⟨_, _, run?_submission hopen hadvance, rfl, iff_of_true ⟨_, rfl⟩ hfull, fun _ => rfl⟩
  · have hroom : c.pool.active.hasRoom = true := by
      have hwithin := hcounted.within
      have hlt : c.pool.active.inFlight < c.pool.active.capacity.toNat := by omega
      simp [Generation.hasRoom, hactive, hlt]
    obtain ⟨g, hask⟩ : ∃ g, c.pool.active.ask c.pool.policy job = .admitted g :=
      ⟨_, Generation.ask_eq_admitted_iff.2 ⟨hroom, rfl⟩⟩
    obtain ⟨pool, hadvance⟩ : ∃ pool, c.pool.advance? (.asking job c.pool.active.number) =
        some (pool, .submitted job (.ok ())) := by
      simp [Pool.advance?, Pool.ask?, hfound, hask]
    refine ⟨_, _, run?_submission hopen hadvance, rfl, iff_of_false ?_ hfull, fun h => ?_⟩
    · rintro ⟨message, hfailure⟩
      cases hfailure
    · exact absurd rfl h

/-- What bounded admission means for a crowd that a row of moves has led to. -/
structure Bounded (first : Crowd ι) (moves : List (Move ι)) (c : Crowd ι) : Prop where
  /-- The slots in use are those of the jobs that were admitted and have not ended. -/
  counted : ∀ {n : Nat} {g : Generation ι}, c.pool.generation? n = some g →
    g.inFlight + (Pool.ofNumber n (endings moves)).length =
      (Pool.ofNumber n (first.admissions moves)).length
  /-- There are no more of them than workers and places, whose sum is the capacity. -/
  within : ∀ g ∈ c.pool.generations,
    g.capacity.toNat = g.workers.toNat + c.pool.queueSize.toNat ∧
      g.inFlight ≤ g.workers.toNat + c.pool.queueSize.toNat
  released : ∀ {n : Nat} {job : ι} {c' : Crowd ι}, c.move? (.finish n job) = some c' →
    ∃ g g', c.pool.generation? n = some g ∧ c'.pool.generation? n = some g' ∧
      g.inFlight = g'.inFlight + 1
  /-- No more slots come into use once a generation is retired, whatever happens. -/
  retired : ∀ {after : List (Move ι)} {c' : Crowd ι}, c.run? after = some c' →
    ∀ {n : Nat} {g : Generation ι}, c.pool.generation? n = some g → g.retired = true →
      ∃ g', c'.pool.generation? n = some g' ∧ g'.retired = true ∧ g'.inFlight ≤ g.inFlight
  /-- A submission that is not to wait, and that nobody interrupts, fails for want of a slot
  exactly if all slots of the active generation are in use. -/
  rejects : c.pool.policy = .reject → c.pool.shutDown = false → ∀ job,
    ∃ last answer, c.run? (c.submission job) = some last ∧
      last.callers = c.callers ++ [.submitted job answer] ∧
      ((∃ message, Caller.failure? (.submitted job answer) = some (.exhausted message)) ↔
        c.pool.active.inFlight = c.pool.active.capacity.toNat) ∧
      (answer ≠ .ok () → last.pool = c.pool)
  /-- The same for one that may have been interrupted, and the generation that it asks. -/
  saturated : c.pool.policy = .reject → ∀ {i n : Nat} {job : ι} {g : Generation ι},
    c.callers[i]? = some (.asking job n) → c.pool.generation? n = some g →
      ((∃ c' message, c.move? (.act i) = some c' ∧
        c'.failureAt? i = some (.exhausted message)) ↔ g.Full)
  /-- No step of a submission changes the pool but the one that admits the job. -/
  unchanged : ∀ {i : Nat} {job : ι} {caller : Caller ι} {move : Move ι} {c' : Crowd ι},
    c.callers[i]? = some caller → caller.pending? = some job →
    move = .act i ∨ move = .giveUp i → c.move? move = some c' →
      c'.pool = c.pool ∨ c'.callers[i]? = some (.submitted job (.ok ()))
  /-- One that fails at its deadline waits for a generation that is full at that moment. -/
  late : ∀ {move : Move ι} {i : Nat} {message : String} {c' : Crowd ι},
    c.move? move = some c' → c'.failureAt? i = some (.timeout message) →
      c.failureAt? i = some (.timeout message) ∨
        ∃ job n g, c.callers[i]? = some (.asking job n) ∧ c.pool.policy = .block ∧
          c.pool.generation? n = some g ∧ g.Full

/-- **Bounded admission.** Whatever the callers and the workers of a pool do, and in whatever
order, admission is bounded. -/
theorem bounded_of_run {workers queueSize : UInt64} {policy : Backpressure}
    {threads : Except String Unit} {p : Pool ι} {moves : List (Move ι)}
    (hp : Pool.create workers queueSize policy threads = .ok p)
    (hrun : (alone p).run? moves = some c) : Bounded (alone p) moves c := by
  have h := (admitting_of_create hp).run hrun
  -- the ledger starts from a pool that holds no job
  have hempty : (alone p).pool.held = [] := by
    obtain ⟨-, -, -, rfl⟩ := Pool.create_eq_ok_iff.1 hp
    rfl
  exact
    { counted := fun hg => inFlight_add_endings (sound_of_create hp) hempty hrun hg
        (h.counted _ (Pool.mem_of_generation? hg)).balanced
      within := by
        rw [h.built.places]
        exact fun g hg => h.within hg
      released := h.released
      retired := fun hafter => h.retired hafter
      rejects := h.rejects
      saturated := fun hpolicy => h.saturated_iff hpolicy
      unchanged := pool_eq_of_pending
      late := fun hmove => h.full_of_timeout (.of_move? hmove) }

/-- Two jobs fill a generation, the later of them is begun first and ends, and another generation
takes over. The job that is left keeps its slot, and a third one finds one in the generation that
is active now. -/
theorem bounded_of_run_resized :
    ∃ (p : Pool Nat) (moves : List (Move Nat)) (c last : Crowd Nat),
      Pool.create 1 1 .reject = .ok p ∧ (alone p).run? moves = some c ∧
        c.pool.generations.map (fun g => (g.number, g.retired, g.inFlight)) =
          [(1, false, 0), (0, true, 1)] ∧
        Bounded (alone p) moves c ∧
        1 + (Pool.ofNumber 0 (endings moves)).length =
          (Pool.ofNumber 0 ((alone p).admissions moves)).length ∧
        c.run? (c.submission 9) = some last ∧
        last.callers = c.callers ++ [.submitted 9 (.ok ())] := by
  let p : Pool Nat := { active := .fresh 0 1 1, queueSize := 1, policy := .reject }
  -- two jobs are admitted, the later one begins and ends first, and the size changes before the
  -- other
  let moves : List (Move Nat) :=
    [.arrive (.submitting 7), .act 0, .act 0, .act 0, .arrive (.submitting 8), .act 1, .act 1,
      .act 1, .start 0 8, .finish 0 8, .arrive (.resizing 2), .act 2, .act 2, .act 2]
  let former : Generation Nat :=
    { number := 0, workers := 1, capacity := 2, retired := true, inFlight := 1, waiting := [7] }
  let c : Crowd Nat :=
    { pool :=
        { active := .fresh 1 2 1, former := [former], queueSize := 1, policy := .reject, next := 2 }
      callers := [.submitted 7 (.ok ()), .submitted 8 (.ok ()), .resized (.ok ())] }
  have hp : Pool.create 1 1 .reject = .ok p := rfl
  have hrun : (alone p).run? moves = some c := rfl
  have hbounded := bounded_of_run hp hrun
  have hcounted := hbounded.counted (n := 0) (g := former) rfl
  exact ⟨p, moves, c, _, hp, hrun, rfl, hbounded, hcounted, rfl, rfl⟩

end Crowd

end SemanticHighlight
