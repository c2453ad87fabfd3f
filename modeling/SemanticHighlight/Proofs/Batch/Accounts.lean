import Mathlib.Algebra.Order.BigOperators.Group.List
import Mathlib.Algebra.Order.Ring.Nat
import SemanticHighlight.Proofs.Batch.Interrupted

/-!
# The counters account for every batch

A scheduler runs one batch after another, and each that returns leaves its trace in the
counters: one that had results is recorded with them, one whose submission failed is counted as
failed, and one without a pair is not counted at all. `Accounts` says what the counters hold
after a row of calls, one equation for each counter, and every call keeps it.

Main statement (`counters_account`): as long as they do not run over, the counters are the sums
over the calls, tasks are successful or failed, and no more are late than failed.
-/

namespace SemanticHighlight

/-- A call of a scheduler: a batch over hits and configurations that has returned. Its tasks
may go on afterwards. -/
structure Call where
  hits : List HitData
  configs : List FieldConfig
  /-- Whether the request was cancelled before the call. -/
  cancelled : Bool
  events : List Batch.Fine.Event
  last : Batch.Fine
  ending : Ending
  run : (Batch.Fine.begin hits configs cancelled).run? events = some last
  returned : last.stage = .returned ending

namespace Call

/-- What the call returned; nothing if it failed. -/
def results (c : Call) : List FieldResult :=
  match c.ending.outcome with
  | .ok results => results
  | .error _ => []

def fails (c : Call) : Bool := !c.ending.outcome.isOk

/-- Whether the call returned results, having something to highlight. -/
def counts (c : Call) : Bool := c.ending.outcome.isOk && !c.hits.isEmpty && !c.configs.isEmpty

/-- How many pairs of a hit and a configuration there are. -/
def pairs (c : Call) : Nat := c.hits.length * c.configs.length

/-- The counters after the call. -/
def record (m : Metrics) (c : Call) : Metrics := c.ending.record c.hits.length m

theorem invariant (c : Call) :
    Batch.Invariant (Pair.all c.hits c.configs) c.last.toBatch :=
  Batch.Fine.run_invariant c.run

/-- A call without a pair has nothing to do, and no other. -/
theorem vacant_iff (c : Call) : c.ending = .vacant ↔ c.hits = [] ∨ c.configs = [] := by
  constructor
  · intro h
    have hnone := c.invariant.told.vacant (h ▸ c.returned)
    rw [c.invariant.pairs_eq] at hnone
    have hzero : (Pair.all c.hits c.configs).length = c.hits.length * c.configs.length :=
      Pair.length_all
    rw [hnone, List.length_nil, eq_comm, Nat.mul_eq_zero] at hzero
    exact hzero.imp List.eq_nil_of_length_eq_zero List.eq_nil_of_length_eq_zero
  · intro h
    have hnone : Pair.all c.hits c.configs = [] := by
      refine List.eq_nil_of_length_eq_zero ?_
      rw [Pair.length_all, Nat.mul_eq_zero]
      exact h.imp (congrArg List.length) (congrArg List.length)
    -- a batch without pairs has returned before its first step, and stays so
    have hstart : (Batch.Fine.begin c.hits c.configs c.cancelled).stage = .returned .vacant := by
      unfold Batch.Fine.begin Batch.begin
      rw [hnone]
      rfl
    have hsound := Batch.Fine.begin_sound c.hits c.configs c.cancelled
    have hend := (hsound.run_returned hstart c.run).1
    rw [c.returned] at hend
    exact Stage.returned.inj hend

/-- A call does nothing, or it returns results, or it fails. -/
theorem cases (c : Call) :
    (c.ending = .vacant ∧ c.counts = false ∧ c.fails = false) ∨
    (∃ elapsedNs, c.ending = .completed c.results elapsedNs ∧ c.counts = true ∧
      c.fails = false) ∨
    (∃ reason, c.ending = .refused reason ∧ c.counts = false ∧ c.fails = true) := by
  have hvacant := c.vacant_iff
  unfold counts fails results
  cases hending : c.ending with
  | vacant =>
    refine .inl ⟨rfl, ?_, rfl⟩
    rcases hvacant.1 hending with h | h <;> simp [h]
  | completed results elapsedNs =>
    rw [hending] at hvacant
    obtain ⟨hhits, hconfigs⟩ := not_or.1 (mt hvacant.2 (by simp))
    exact .inr (.inl ⟨elapsedNs, rfl, by simp [Ending.outcome, Except.isOk, Except.toBool,
      hhits, hconfigs], rfl⟩)
  | refused reason => exact .inr (.inr ⟨reason, rfl, rfl, rfl⟩)

/-- The results of a call that returned some, in terms of its last state. -/
theorem results_eq (c : Call) (h : c.counts = true) :
    c.results.length = c.pairs ∧ ∃ waitedMs, c.results = c.last.results waitedMs := by
  have hok : c.ending.outcome = .ok c.results := by
    rcases c.cases with ⟨-, hnot, -⟩ | ⟨elapsedNs, hending, -, -⟩ | ⟨reason, -, hnot, -⟩
    · exact absurd (h.symm.trans hnot) (by simp)
    · rw [hending]
      rfl
    · exact absurd (h.symm.trans hnot) (by simp)
  obtain ⟨-, hresults⟩ := Batch.results_of_outcome c.invariant c.returned hok
  exact ⟨Batch.length_of_outcome c.invariant c.returned hok, hresults⟩

/-- A result has a text or it has none. -/
theorem applicable_add_failed (c : Call) :
    c.results.countP (·.isApplicable) + c.results.countP (!·.isApplicable) =
      c.results.length :=
  FieldResult.countP_isApplicable_add c.results

/-- A late result has no text. -/
theorem late_le_failed (c : Call) (h : c.counts = true) :
    c.results.countP (·.timedOut) ≤ c.results.countP (!·.isApplicable) := by
  obtain ⟨-, waitedMs, hresults⟩ := c.results_eq h
  rw [hresults]
  refine List.countP_mono_left fun r hr hlate => ?_
  unfold FieldResult.isApplicable
  rw [Batch.Fine.success_of_timedOut c.run hr hlate]
  rfl

/-- A call that is counted has a pair, and no fewer pairs than hits. -/
theorem hits_le_pairs (c : Call) (h : c.counts = true) :
    0 < c.pairs ∧ c.hits.length ≤ c.pairs := by
  simp only [counts, Bool.and_eq_true, Bool.not_eq_true', List.isEmpty_eq_false_iff_exists_mem]
    at h
  obtain ⟨⟨-, hit, hhit⟩, config, hconfig⟩ := h
  have hhits := List.length_pos_of_mem hhit
  have hconfigs := List.length_pos_of_mem hconfig
  exact ⟨Nat.mul_pos hhits hconfigs, Nat.le_mul_of_pos_right _ hconfigs⟩

/-- The sum of a figure over the calls that are counted. -/
def total (calls : List Call) (figure : Call → Nat) : Nat :=
  ((calls.filter Call.counts).map figure).sum

section Totals

variable {calls : List Call} {figure other : Call → Nat}

/-- The total over a longer row of calls is that before and the figure of the last, if it counts. -/
theorem total_concat (calls : List Call) (c : Call) (figure : Call → Nat) :
    total (calls ++ [c]) figure =
      total calls figure + if c.counts then figure c else 0 := by
  unfold total
  rw [List.filter_append, List.map_append, List.sum_append]
  by_cases h : c.counts <;> simp [h]

theorem total_add (calls : List Call) (figure other : Call → Nat) :
    total calls (fun c => figure c + other c) = total calls figure + total calls other := by
  unfold total
  exact List.sum_map_add

theorem total_le (h : ∀ c : Call, c.counts = true → figure c ≤ other c) :
    total calls figure ≤ total calls other := by
  unfold total
  exact List.sum_le_sum fun c hc => h c (List.mem_filter.1 hc).2

/-- The number of calls is a sum, too. -/
theorem total_one (calls : List Call) : total calls (fun _ => 1) = calls.countP Call.counts := by
  unfold total
  rw [List.countP_eq_length_filter, List.map_const', List.sum_replicate_nat, Nat.mul_one]

variable (calls)

/-- A call that is counted has a task. -/
theorem counts_le_pairs : calls.countP Call.counts ≤ total calls Call.pairs := by
  rw [← total_one]
  exact total_le fun c hc => (c.hits_le_pairs hc).1

theorem documents_le_pairs : total calls (·.hits.length) ≤ total calls Call.pairs :=
  total_le fun c hc => (c.hits_le_pairs hc).2

/-- The tasks are those with a text and those without. -/
theorem total_applicable_add_failed :
    total calls (·.results.countP (·.isApplicable)) +
      total calls (·.results.countP (!·.isApplicable)) = total calls Call.pairs := by
  rw [← total_add]
  refine Nat.le_antisymm (total_le fun c hc => ?_) (total_le fun c hc => ?_) <;>
    rw [c.applicable_add_failed, (c.results_eq hc).1]

/-- There are no more late results than failed ones, since a late one has failed. -/
theorem total_late_le_failed :
    total calls (·.results.countP (·.timedOut)) ≤
      total calls (·.results.countP (!·.isApplicable)) :=
  total_le fun c hc => c.late_le_failed hc

end Totals

end Call

open Call (total)

/-- What the counters hold after a row of calls: what the calls come to, modulo `2 ^ 64`. -/
structure Accounts (calls : List Call) (m : Metrics) : Prop where
  batches : m.batches = UInt64.ofNat (calls.countP Call.counts)
  failedBatches : m.failedBatches = UInt64.ofNat (calls.countP Call.fails)
  documents : m.documents = UInt64.ofNat (total calls (·.hits.length))
  tasks : m.tasks = UInt64.ofNat (total calls Call.pairs)
  succeeded : m.succeeded =
    UInt64.ofNat (total calls (·.results.countP (·.isApplicable)))
  failed : m.failed = UInt64.ofNat (total calls (·.results.countP (!·.isApplicable)))
  timedOut : m.timedOut = UInt64.ofNat (total calls (·.results.countP (·.timedOut)))

/-- The counters count a call once, if at all. -/
theorem Accounts.record {calls : List Call} {m : Metrics} (h : Accounts calls m) (c : Call) :
    Accounts (calls ++ [c]) (c.record m) := by
  have hcounts : (calls ++ [c]).countP Call.counts =
      calls.countP Call.counts + if c.counts then 1 else 0 := by
    rw [List.countP_append, List.countP_singleton]
  have hfails : (calls ++ [c]).countP Call.fails =
      calls.countP Call.fails + if c.fails then 1 else 0 := by
    rw [List.countP_append, List.countP_singleton]
  rcases c.cases with ⟨hending, hnot, hok⟩ | ⟨elapsedNs, hending, hcounted, hok⟩ |
    ⟨reason, hending, hnot, hfailed⟩
  · have hm : c.record m = m := by
      unfold Call.record
      rw [hending]
      rfl
    rw [hm]
    constructor <;> simp only [hcounts, hfails, Call.total_concat, hnot, hok, Nat.add_zero,
      Bool.false_eq_true, if_false]
    exacts [h.batches, h.failedBatches, h.documents, h.tasks, h.succeeded, h.failed, h.timedOut]
  · have hm : c.record m =
        m.record (.ofResults (UInt64.ofNat c.hits.length) c.results elapsedNs) c.results := by
      unfold Call.record
      rw [hending]
      rfl
    obtain ⟨hlength, -⟩ := c.results_eq hcounted
    -- the results that have no text are the rest
    have hrest : UInt64.ofNat c.results.length -
        UInt64.ofNat (c.results.countP (·.isApplicable)) =
        UInt64.ofNat (c.results.countP (!·.isApplicable)) := by
      rw [← UInt64.ofNat_sub List.countP_le_length, ← c.applicable_add_failed,
        Nat.add_sub_cancel_left]
    rw [hm]
    constructor <;> simp only [hcounts, hfails, Call.total_concat, hcounted, hok, Nat.add_zero,
      Bool.false_eq_true, if_false, if_true, UInt64.ofNat_add]
    · exact congrArg (· + 1) h.batches
    · exact h.failedBatches
    · exact congrArg (· + _) h.documents
    · rw [← hlength]
      exact congrArg (· + _) h.tasks
    · exact congrArg (· + _) h.succeeded
    · rw [← hrest]
      exact congrArg (· + _) h.failed
    · exact congrArg (· + _) h.timedOut
  · have hm : c.record m = m.recordFailure := by
      unfold Call.record
      rw [hending]
      rfl
    rw [hm]
    constructor <;> simp only [hcounts, hfails, Call.total_concat, hnot, hfailed, Nat.add_zero,
      Bool.false_eq_true, if_false, if_true, UInt64.ofNat_add]
    exacts [h.batches, congrArg (· + 1) h.failedBatches, h.documents, h.tasks, h.succeeded,
      h.failed, h.timedOut]

/-- The counters of a scheduler after a row of calls. -/
def Metrics.after (calls : List Call) : Metrics := calls.foldl Call.record {}

/-- The counters after a row of calls hold what the calls come to, by induction on the row. -/
theorem accounts_after (calls : List Call) : Accounts calls (Metrics.after calls) := by
  induction calls using List.reverseRecOn with
  | nil => exact ⟨rfl, rfl, rfl, rfl, rfl, rfl, rfl⟩
  | append_singleton calls c ih =>
    unfold Metrics.after at ih ⊢
    rw [List.foldl_append]
    exact ih.record c

/-- **The counters account for every batch.** Take the calls of a scheduler, whatever they are
asked and however they end. As long as neither the failed ones nor the tasks run over, the
figures that are reported are these: the calls that returned results, having something to
highlight; those that failed; over the former the hits, the pairs, the results with a text and
the late ones. A task is successful or failed, and no more are late than failed. -/
theorem counters_account (calls : List Call) (hfails : calls.countP Call.fails < 2 ^ 64)
    (htasks : total calls Call.pairs < 2 ^ 64) :
    let s := (Metrics.after calls).snapshot
    s.batches.toNat = calls.countP Call.counts ∧
    s.failedBatches.toNat = calls.countP Call.fails ∧
    s.documents.toNat = total calls (·.hits.length) ∧
    s.tasks.toNat = total calls Call.pairs ∧
    s.succeeded.toNat = total calls (·.results.countP (·.isApplicable)) ∧
    s.succeeded.toNat + s.failed.toNat = s.tasks.toNat ∧
    s.timedOut.toNat = total calls (·.results.countP (·.timedOut)) ∧
    s.timedOut.toNat ≤ s.failed.toNat := by
  have h := accounts_after calls
  have hsum := Call.total_applicable_add_failed calls
  have hlate := Call.total_late_le_failed calls
  have hdocuments := Call.documents_le_pairs calls
  have hbatches := Call.counts_le_pairs calls
  -- every figure is at most one of the two that do not run over
  unfold Metrics.snapshot
  dsimp only
  have toNat {n : Nat} (hn : n < 2 ^ 64) : (UInt64.ofNat n).toNat = n :=
    UInt64.toNat_ofNat_of_lt' hn
  rw [h.batches, h.failedBatches, h.documents, h.tasks, h.succeeded, h.failed, h.timedOut,
    toNat hfails, toNat htasks, toNat (by omega), toNat (by omega), toNat (by omega),
    toNat (by omega), toNat (by omega)]
  exact ⟨rfl, rfl, rfl, rfl, rfl, hsum, rfl, hlate⟩

/-- A batch of which the second submission fails, the first task being under way. -/
def refusedHalfway : List Batch.Fine.Event :=
  [.other .visit, .other (.submit (.ok ())), .look 0 0, .other .visit,
   .other (.submit (.error (.saturated 1))), .other .fail]

open Batch in
/-- Three calls of one scheduler: nothing to do, an interrupted batch, and one that is refused. -/
theorem counters_account_three :
    ∃ calls : List Call,
      calls.map (·.ending) =
        [.vacant, .completed interruptedResults 7, .refused (.saturated 1)] ∧
      calls.countP Call.fails < 2 ^ 64 ∧ total calls Call.pairs < 2 ^ 64 ∧
      let s := (Metrics.after calls).snapshot
      s.batches.toNat = 1 ∧ s.failedBatches.toNat = 1 ∧ s.documents.toNat = 3 ∧
      s.tasks.toNat = 6 ∧ s.succeeded.toNat = 1 ∧ s.timedOut.toNat = 3 ∧
      s.succeeded.toNat + s.failed.toNat = s.tasks.toNat ∧
      s.timedOut.toNat ≤ s.failed.toNat := by
  have hvacant : ((Fine.begin [] rivalConfigs false).run? []).map (·.stage) =
      some (.returned .vacant) := by decide
  have hcompleted : ((Fine.begin spoiledHits rivalConfigs false).run?
      Fine.twiceInterrupted).map (·.stage) =
      some (.returned (.completed interruptedResults 7)) := by decide
  have hrefused : ((Fine.begin spoiledHits rivalConfigs false).run?
      refusedHalfway).map (·.stage) = some (.returned (.refused (.saturated 1))) := by decide
  obtain ⟨_, hrun₁, hret₁⟩ := Option.map_eq_some_iff.1 hvacant
  obtain ⟨_, hrun₂, hret₂⟩ := Option.map_eq_some_iff.1 hcompleted
  obtain ⟨_, hrun₃, hret₃⟩ := Option.map_eq_some_iff.1 hrefused
  -- nothing to do, a batch interrupted twice, and one that was refused
  let calls : List Call :=
    [⟨_, _, _, _, _, _, hrun₁, hret₁⟩, ⟨_, _, _, _, _, _, hrun₂, hret₂⟩,
     ⟨_, _, _, _, _, _, hrun₃, hret₃⟩]
  have hfails : calls.countP Call.fails = 1 := rfl
  have htasks : total calls Call.pairs = 6 := rfl
  obtain ⟨h₁, h₂, h₃, h₄, h₅, h₆, h₇, h₈⟩ := counters_account calls
    (by rw [hfails]; decide) (by rw [htasks]; decide)
  exact ⟨calls, rfl, by rw [hfails]; decide, by rw [htasks]; decide, h₁, h₂, h₃, h₄, h₅, h₇,
    h₆, h₈⟩

end SemanticHighlight
