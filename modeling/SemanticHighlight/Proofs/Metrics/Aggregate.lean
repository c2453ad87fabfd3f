import Mathlib.Algebra.BigOperators.Group.List.Basic
import Mathlib.Algebra.Order.BigOperators.Group.List
import Mathlib.Algebra.Order.Ring.Nat
import Mathlib.Data.List.DropRight
import SemanticHighlight.Metrics

/-!
# What the metrics say of a row of recordings

Batches and failures are recorded one after the other, and now and then everything is reset.
`Metrics.noted` is what the counters hold after such a row. What was recorded before the last
reset has no effect (`Metrics.noted_recent`), so what is left are batches and failures, and any two
of those can change places (`Metrics.note_comm`).

`Tallied` says what the counters hold after batches and failures: sums modulo `2 ^ 64`, and the
extremes of the times that the batches took (`Extremes`). Each recording keeps it.

Main statement (`snapshot_noted`): the figures that are reported depend on what was recorded since
the last reset, and not on its order; and as long as no sum runs over they are the sums, the mean,
and the extremes over it (`Aggregates`).
-/

namespace SemanticHighlight

/-- A batch as it is recorded. Its figures are made from the same results. -/
structure BatchRecord where
  documents : UInt64
  results : List FieldResult
  /-- How long the batch took, in nanoseconds. -/
  elapsedNs : Nat
deriving DecidableEq, Repr

/-- The figures of a batch. Of its time as many nanoseconds are kept as 64 bits hold. -/
def BatchRecord.summary (b : BatchRecord) : BatchSummary :=
  .ofResults b.documents b.results (UInt64.ofNat b.elapsedNs)

/-- What can be done to the counters. -/
inductive Recording where
  | batch (b : BatchRecord)
  /-- A batch that could not run. -/
  | failure
  | reset
deriving DecidableEq, Repr

namespace Recording

def isReset : Recording → Bool
  | reset => true
  | _ => false

def isFailure : Recording → Bool
  | failure => true
  | _ => false

def batch? : Recording → Option BatchRecord
  | batch b => some b
  | _ => none

/-- What was recorded since the last reset. -/
def recent (rs : List Recording) : List Recording := rs.rtakeWhile (!·.isReset)

/-- The batches among the recordings. -/
def batches (rs : List Recording) : List BatchRecord := rs.filterMap batch?

/-- How many batches could not run. -/
def failures (rs : List Recording) : Nat := rs.countP (·.isFailure)

/-- A reset makes every recording before it a thing of the past. -/
theorem recent_concat (rs : List Recording) (r : Recording) :
    recent (rs ++ [r]) = if r.isReset then [] else recent rs ++ [r] := by
  unfold recent
  split
  · next h => exact List.rtakeWhile_concat_neg _ _ _ (by simp [h])
  · next h => exact List.rtakeWhile_concat_pos _ _ _ (by simp [h])

/-- No reset is among what was recorded since the last one. -/
theorem not_isReset_of_mem_recent {rs : List Recording} {r : Recording} (h : r ∈ recent rs) :
    r.isReset = false := by
  have hkept := List.mem_rtakeWhile_imp (p := fun r => !Recording.isReset r) h
  simpa using hkept

theorem batches_concat (rs : List Recording) (r : Recording) :
    batches (rs ++ [r]) = batches rs ++ r.batch?.toList := by
  unfold batches
  rw [List.filterMap_append]
  cases r <;> rfl

theorem failures_concat (rs : List Recording) (r : Recording) :
    failures (rs ++ [r]) = failures rs + if r.isFailure then 1 else 0 := by
  unfold failures
  rw [List.countP_append, List.countP_singleton]

end Recording

open Recording (recent batches failures)

/-- The results of batches. -/
def BatchRecord.resultsOf (bs : List BatchRecord) : List FieldResult := bs.flatMap (·.results)

open BatchRecord (resultsOf)

namespace Metrics

/-- The counters after one more recording. -/
def note (m : Metrics) : Recording → Metrics
  | .batch b => m.record b.summary b.results
  | .failure => m.recordFailure
  | .reset => m.reset

/-- The counters after a row of recordings. -/
def noted (rs : List Recording) : Metrics := rs.foldl note {}

/-- Noting a longer history is noting its last recording behind the rest. -/
theorem noted_concat (rs : List Recording) (r : Recording) :
    noted (rs ++ [r]) = (noted rs).note r := by
  unfold noted
  rw [List.foldl_append]
  rfl

/-- What was recorded before the last reset has no effect. -/
theorem noted_recent (rs : List Recording) : noted (recent rs) = noted rs := by
  induction rs using List.reverseRecOn with
  | nil => rfl
  | append_singleton rs r ih =>
    rw [Recording.recent_concat, noted_concat]
    cases r with
    | reset => rfl
    | batch b => exact (noted_concat ..).trans (congrArg (note · _) ih)
    | failure => exact (noted_concat ..).trans (congrArg (note · _) ih)

/-! ## The order of recordings -/

theorem toNat_longest (l x : UInt64) :
    (if x ≤ l then l else x).toNat = max l.toNat x.toNat := by
  split
  · next h => exact (Nat.max_eq_left (UInt64.le_iff_toNat_le.1 h)).symm
  · next h => exact (Nat.max_eq_right (Nat.le_of_not_le (mt UInt64.le_iff_toNat_le.2 h))).symm

theorem toNat_shortest (l x : UInt64) :
    (if l ≤ x then l else x).toNat = min l.toNat x.toNat := by
  split
  · next h => exact (Nat.min_eq_left (UInt64.le_iff_toNat_le.1 h)).symm
  · next h => exact (Nat.min_eq_right (Nat.le_of_not_le (mt UInt64.le_iff_toNat_le.2 h))).symm

/-- Two batches change places. -/
theorem record_comm (m : Metrics) (s s' : BatchSummary) (rs rs' : List FieldResult) :
    (m.record s rs).record s' rs' = (m.record s' rs').record s rs := by
  have hswap (a b c : UInt64) : a + b + c = a + c + b := by
    rw [UInt64.add_assoc, UInt64.add_comm b, UInt64.add_assoc]
  unfold record
  rw [Metrics.mk.injEq]
  dsimp only
  refine ⟨rfl, rfl, hswap .., hswap .., hswap .., hswap .., hswap .., hswap ..,
    UInt64.toNat_inj.1 ?_, UInt64.toNat_inj.1 ?_⟩
  · rw [toNat_longest, toNat_longest, toNat_longest, toNat_longest]
    exact Nat.max_right_comm ..
  · rw [toNat_shortest, toNat_shortest, toNat_shortest, toNat_shortest]
    exact Nat.min_right_comm ..

/-- Any two recordings change places, unless everything is reset in between. -/
theorem note_comm (m : Metrics) {r r' : Recording} (hr : r.isReset = false)
    (hr' : r'.isReset = false) : (m.note r).note r' = (m.note r').note r := by
  cases r with
  | reset => cases hr
  | batch b =>
    cases r' with
    | reset => cases hr'
    | batch b' => exact record_comm ..
    | failure => rfl
  | failure =>
    cases r' with
    | reset => cases hr'
    | batch _ | failure => rfl

/-- The counters do not depend on the order of what was recorded since the last reset. -/
theorem noted_perm {rs rs' : List Recording} (h : (recent rs').Perm (recent rs)) :
    noted rs' = noted rs := by
  rw [← noted_recent rs', ← noted_recent rs]
  unfold noted
  refine h.foldl_eq' (fun r hr r' hr' m => ?_) _
  exact note_comm m (Recording.not_isReset_of_mem_recent hr)
    (Recording.not_isReset_of_mem_recent hr')

end Metrics

/-! ## Sums and extremes -/

/-- The durations of results, in milliseconds. -/
def durations (rs : List FieldResult) : List Nat := rs.map (·.durationMs.toNat)

/-- Adding durations up one at a time, with wrapping, is wrapping their sum. -/
theorem totalMs_eq (rs : List FieldResult) : totalMs rs = UInt64.ofNat (durations rs).sum := by
  induction rs using List.reverseRecOn with
  | nil => rfl
  | append_singleton rs r ih =>
    unfold totalMs durations at ih ⊢
    rw [List.foldl_append, ih, List.map_append, List.sum_append, UInt64.ofNat_add]
    show _ + r.durationMs = _ + UInt64.ofNat (r.durationMs.toNat + 0)
    rw [Nat.add_zero, UInt64.ofNat_toNat]

theorem resultsOf_concat (bs : List BatchRecord) (b : BatchRecord) :
    resultsOf (bs ++ [b]) = resultsOf bs ++ b.results := by
  unfold resultsOf
  rw [List.flatMap_append, List.flatMap_singleton]

/-- The sums that the counters hold, given the batches and how many others failed. -/
structure Tallied (bs : List BatchRecord) (failed : Nat) (m : Metrics) : Prop where
  batches : m.batches = UInt64.ofNat bs.length
  failedBatches : m.failedBatches = UInt64.ofNat failed
  documents : m.documents = UInt64.ofNat (bs.map (·.documents.toNat)).sum
  tasks : m.tasks = UInt64.ofNat (resultsOf bs).length
  succeeded : m.succeeded = UInt64.ofNat ((resultsOf bs).countP (·.isApplicable))
  failed : m.failed = UInt64.ofNat ((resultsOf bs).countP (!·.isApplicable))
  timedOut : m.timedOut = UInt64.ofNat ((resultsOf bs).countP (·.timedOut))
  taskMs : m.taskMs = UInt64.ofNat (durations (resultsOf bs)).sum

/-- A failure counts up the failures and leaves the rest. -/
theorem Tallied.failure {bs : List BatchRecord} {failed : Nat} {m : Metrics}
    (h : Tallied bs failed m) : Tallied bs (failed + 1) m.recordFailure :=
  { h with
    failedBatches := by
      rw [UInt64.ofNat_add]
      exact congrArg (· + 1) h.failedBatches }

/-- A batch adds what it holds to every counter. Each field is a sum that wraps, of what was tallied
and what the batch adds. -/
theorem Tallied.batch {bs : List BatchRecord} {failed : Nat} {m : Metrics}
    (h : Tallied bs failed m) (b : BatchRecord) :
    Tallied (bs ++ [b]) failed (m.record b.summary b.results) := by
  -- the results that have no text are the rest
  have hrest : UInt64.ofNat b.results.length -
      UInt64.ofNat (b.results.countP (·.isApplicable)) =
      UInt64.ofNat (b.results.countP (!·.isApplicable)) := by
    rw [← UInt64.ofNat_sub List.countP_le_length, ← FieldResult.countP_isApplicable_add,
      Nat.add_sub_cancel_left]
  refine ⟨?_, h.failedBatches, ?_, ?_, ?_, ?_, ?_, ?_⟩ <;>
    simp only [resultsOf_concat, durations, List.map_append, List.sum_append,
      List.countP_append, List.length_append, UInt64.ofNat_add]
  · exact congrArg (· + 1) h.batches
  · show m.documents + b.documents = _ + UInt64.ofNat (b.documents.toNat + 0)
    rw [h.documents, Nat.add_zero, UInt64.ofNat_toNat]
  · exact congrArg (· + _) h.tasks
  · exact congrArg (· + _) h.succeeded
  · rw [← hrest]
    exact congrArg (· + _) h.failed
  · exact congrArg (· + _) h.timedOut
  · show m.taskMs + totalMs b.results = _
    rw [totalMs_eq, h.taskMs]
    rfl

/-! ## Extremes -/

/-- What the shortest time is while there is none. -/
def noTime : Nat := 2 ^ 64 - 1

/-- The longest and the shortest time that batches took. -/
structure Extremes (bs : List BatchRecord) (longest shortest : Nat) : Prop where
  none : bs = [] → longest = 0 ∧ shortest = noTime
  longest_mem : bs ≠ [] → ∃ b ∈ bs, b.elapsedNs = longest
  shortest_mem : bs ≠ [] → ∃ b ∈ bs, b.elapsedNs = shortest
  le_longest : ∀ b ∈ bs, b.elapsedNs ≤ longest
  shortest_le : ∀ b ∈ bs, shortest ≤ b.elapsedNs

/-- The extremes of a longer row of batches are the greater and the lesser of those before and the
new duration. Nothing is longer than the duration that stands for none. -/
theorem Extremes.concat {bs : List BatchRecord} {longest shortest : Nat}
    (h : Extremes bs longest shortest) {b : BatchRecord} (hb : b.elapsedNs ≤ noTime) :
    Extremes (bs ++ [b]) (max longest b.elapsedNs) (min shortest b.elapsedNs) where
  none := by
    intro hnil
    cases (List.append_eq_nil_iff.1 hnil).2
  longest_mem := by
    intro _
    by_cases hlonger : longest ≤ b.elapsedNs
    · exact ⟨b, List.mem_append_right _ List.mem_cons_self, (Nat.max_eq_right hlonger).symm⟩
    · have hbs : bs ≠ [] := by
        intro hnil
        obtain ⟨hzero, -⟩ := h.none hnil
        omega
      obtain ⟨b', hb', heq⟩ := h.longest_mem hbs
      exact ⟨b', List.mem_append_left _ hb', by omega⟩
  shortest_mem := by
    intro _
    by_cases hshorter : b.elapsedNs ≤ shortest
    · exact ⟨b, List.mem_append_right _ List.mem_cons_self, (Nat.min_eq_right hshorter).symm⟩
    · have hbs : bs ≠ [] := by
        intro hnil
        obtain ⟨-, hnone⟩ := h.none hnil
        omega
      obtain ⟨b', hb', heq⟩ := h.shortest_mem hbs
      exact ⟨b', List.mem_append_left _ hb', by omega⟩
  le_longest := by
    intro b' hb'
    rcases List.mem_append.1 hb' with hbefore | hlast
    · have hle := h.le_longest b' hbefore
      omega
    · rw [List.mem_singleton.1 hlast]
      exact Nat.le_max_right ..
  shortest_le := by
    intro b' hb'
    rcases List.mem_append.1 hb' with hbefore | hlast
    · have hle := h.shortest_le b' hbefore
      omega
    · rw [List.mem_singleton.1 hlast]
      exact Nat.min_le_right ..

/-- What the counters hold after batches and failures. -/
theorem tallied_noted {rs : List Recording} (h : ∀ r ∈ rs, r.isReset = false) :
    Tallied (batches rs) (failures rs) (Metrics.noted rs) := by
  induction rs using List.reverseRecOn with
  | nil => exact ⟨rfl, rfl, rfl, rfl, rfl, rfl, rfl, rfl⟩
  | append_singleton rs r ih =>
    obtain ⟨hrs, hr⟩ := List.forall_mem_append.1 h
    rw [Metrics.noted_concat, Recording.batches_concat, Recording.failures_concat]
    cases r with
    | batch b => exact (ih hrs).batch b
    | failure =>
      show Tallied (batches rs ++ []) (failures rs + 1) _
      rw [List.append_nil]
      exact (ih hrs).failure
    | reset => cases hr _ List.mem_cons_self

/-- The extremes that are kept are those of the batches that were noted, by induction on the
history. -/
theorem extremes_noted {rs : List Recording} (h : ∀ r ∈ rs, r.isReset = false)
    (htimes : ∀ b ∈ batches rs, b.elapsedNs < noTime) :
    Extremes (batches rs) (Metrics.noted rs).longestNs.toNat
      (Metrics.noted rs).shortestNs.toNat := by
  induction rs using List.reverseRecOn with
  | nil =>
    exact
      { none := fun _ => ⟨rfl, rfl⟩
        longest_mem := fun hne => absurd rfl hne
        shortest_mem := fun hne => absurd rfl hne
        le_longest := fun _ hb => absurd hb List.not_mem_nil
        shortest_le := fun _ hb => absurd hb List.not_mem_nil }
  | append_singleton rs r ih =>
    obtain ⟨hrs, hr⟩ := List.forall_mem_append.1 h
    rw [Recording.batches_concat] at htimes ⊢
    obtain ⟨hbefore, hlast⟩ := List.forall_mem_append.1 htimes
    have ih := ih hrs hbefore
    rw [Metrics.noted_concat]
    cases r with
    | batch b =>
      have hb : b.elapsedNs < noTime := hlast b List.mem_cons_self
      have hkept : b.summary.elapsedNs.toNat = b.elapsedNs :=
        UInt64.toNat_ofNat_of_lt' (Nat.lt_of_lt_of_le hb (by decide))
      have hconcat := ih.concat (Nat.le_of_lt hb)
      rw [← hkept, ← Metrics.toNat_longest, ← Metrics.toNat_shortest] at hconcat
      exact hconcat
    | failure =>
      show Extremes (batches rs ++ []) _ _
      rw [List.append_nil]
      exact ih
    | reset => cases hr _ List.mem_cons_self

/-! ## The figures that are reported -/

/-- Whether no sum runs over, and no batch took the greatest time of all. -/
structure Fits (bs : List BatchRecord) (failed : Nat) : Prop where
  batches : bs.length < 2 ^ 64
  failed : failed < 2 ^ 64
  documents : (bs.map (·.documents.toNat)).sum < 2 ^ 64
  tasks : (resultsOf bs).length < 2 ^ 64
  taskMs : (durations (resultsOf bs)).sum < 2 ^ 64
  times : ∀ b ∈ bs, b.elapsedNs < noTime

/-- What figures say of batches, and of so many others that failed. -/
structure Aggregates (bs : List BatchRecord) (failed : Nat) (s : Snapshot) : Prop where
  batches : s.batches.toNat = bs.length
  failedBatches : s.failedBatches.toNat = failed
  documents : s.documents.toNat = (bs.map (·.documents.toNat)).sum
  tasks : s.tasks.toNat = (resultsOf bs).length
  succeeded : s.succeeded.toNat = (resultsOf bs).countP (·.isApplicable)
  failed : s.failed.toNat = (resultsOf bs).countP (!·.isApplicable)
  succeeded_add_failed : s.succeeded.toNat + s.failed.toNat = s.tasks.toNat
  timedOut : s.timedOut.toNat = (resultsOf bs).countP (·.timedOut)
  /-- The mean is rounded down, and zero without a task. -/
  mean : s.meanMs.toNat = if resultsOf bs = [] then 0
    else (durations (resultsOf bs)).sum / (resultsOf bs).length
  /-- It lies between the least and the greatest duration of a task. -/
  mean_between : resultsOf bs ≠ [] →
    (∃ r ∈ resultsOf bs, r.durationMs ≤ s.meanMs) ∧ ∃ r ∈ resultsOf bs, s.meanMs ≤ r.durationMs
  longest : bs ≠ [] → (∃ b ∈ bs, b.elapsedNs = s.longestNs.toNat) ∧
    ∀ b ∈ bs, b.elapsedNs ≤ s.longestNs.toNat
  shortest : bs ≠ [] → (∃ b ∈ bs, b.elapsedNs = s.shortestNs.toNat) ∧
    ∀ b ∈ bs, s.shortestNs.toNat ≤ b.elapsedNs
  none : bs = [] → s.longestNs = 0 ∧ s.shortestNs = 0
  shortest_le_longest : s.shortestNs ≤ s.longestNs

/-- The mean of numbers, rounded down, is no less than the least and no more than the greatest. -/
theorem mean_between {rs : List FieldResult} (h : rs ≠ []) :
    (∃ r ∈ rs, r.durationMs.toNat ≤ (durations rs).sum / rs.length) ∧
      ∃ r ∈ rs, (durations rs).sum / rs.length ≤ r.durationMs.toNat := by
  have hconst (n : Nat) : (rs.map fun _ => n).sum = rs.length * n := by
    rw [List.map_const', List.sum_replicate_nat]
  constructor
  · have hlt : (rs.map (·.durationMs.toNat)).sum <
        (rs.map fun _ => (durations rs).sum / rs.length + 1).sum := by
      rw [hconst]
      exact Nat.lt_mul_div_succ _ (List.length_pos_of_ne_nil h)
    obtain ⟨r, hr, hlt⟩ := List.exists_lt_of_sum_lt _ _ hlt
    exact ⟨r, hr, Nat.le_of_lt_succ hlt⟩
  · have hle : (rs.map fun _ => (durations rs).sum / rs.length).sum ≤
        (rs.map (·.durationMs.toNat)).sum := by
      rw [hconst]
      exact Nat.mul_div_le _ _
    exact List.exists_le_of_sum_le h _ _ hle

/-- What a snapshot shows of tallied counters are the sums themselves, once they fit: no sum wraps,
so each counter is its sum, and the mean is the quotient of two of them. The parts are the counts,
the sums of durations, the mean and the extremes. -/
theorem Tallied.aggregates {bs : List BatchRecord} {failed : Nat} {m : Metrics}
    (h : Tallied bs failed m) (hextremes : Extremes bs m.longestNs.toNat m.shortestNs.toNat)
    (hfits : Fits bs failed) : Aggregates bs failed m.snapshot := by
  have toNat {n : Nat} (hn : n < 2 ^ 64) : (UInt64.ofNat n).toNat = n :=
    UInt64.toNat_ofNat_of_lt' hn
  have hcount (p : FieldResult → Bool) : (resultsOf bs).countP p < 2 ^ 64 :=
    Nat.lt_of_le_of_lt List.countP_le_length hfits.tasks
  have hsucceeded := (congrArg UInt64.toNat h.succeeded).trans (toNat (hcount _))
  have hfailed := (congrArg UInt64.toNat h.failed).trans (toNat (hcount _))
  have htasks := (congrArg UInt64.toNat h.tasks).trans (toNat hfits.tasks)
  have hmean : m.snapshot.meanMs.toNat = if resultsOf bs = [] then 0
      else (durations (resultsOf bs)).sum / (resultsOf bs).length := by
    unfold Metrics.snapshot
    dsimp only
    by_cases hnil : resultsOf bs = []
    · rw [if_pos hnil, if_neg]
      · rfl
      · rw [UInt64.lt_iff_toNat_lt, htasks, hnil]
        exact Nat.lt_irrefl 0
    · rw [if_neg hnil, if_pos]
      · rw [UInt64.toNat_div, htasks, h.taskMs, toNat hfits.taskMs]
      · rw [UInt64.lt_iff_toNat_lt, htasks]
        exact List.length_pos_of_ne_nil hnil
  -- without a batch the shortest time stands at the greatest number, and else below it
  have hshortest (hne : bs ≠ []) : m.snapshot.shortestNs = m.shortestNs := by
    refine if_neg fun hnone => ?_
    obtain ⟨b, hb, helapsed⟩ := hextremes.shortest_mem hne
    have hlt := hfits.times b hb
    rw [helapsed, hnone] at hlt
    exact absurd hlt (by decide)
  have hnone (hnil : bs = []) : m.snapshot.longestNs = 0 ∧ m.snapshot.shortestNs = 0 := by
    obtain ⟨hlongest, hshortest⟩ := hextremes.none hnil
    exact ⟨UInt64.toNat_inj.1 hlongest, if_pos (UInt64.toNat_inj.1 hshortest)⟩
  exact
    { batches := (congrArg UInt64.toNat h.batches).trans (toNat hfits.batches)
      failedBatches := (congrArg UInt64.toNat h.failedBatches).trans (toNat hfits.failed)
      documents := (congrArg UInt64.toNat h.documents).trans (toNat hfits.documents)
      tasks := htasks
      succeeded := hsucceeded
      failed := hfailed
      succeeded_add_failed := by
        show m.succeeded.toNat + m.failed.toNat = m.tasks.toNat
        rw [hsucceeded, hfailed, htasks]
        exact FieldResult.countP_isApplicable_add _
      timedOut := (congrArg UInt64.toNat h.timedOut).trans (toNat (hcount _))
      mean := hmean
      mean_between := by
        intro hne
        simp only [UInt64.le_iff_toNat_le, hmean, if_neg hne]
        exact mean_between hne
      longest := fun hne => ⟨hextremes.longest_mem hne, hextremes.le_longest⟩
      shortest := by
        intro hne
        rw [hshortest hne]
        exact ⟨hextremes.shortest_mem hne, hextremes.shortest_le⟩
      none := hnone
      shortest_le_longest := by
        by_cases hnil : bs = []
        · obtain ⟨hlongest, hshortest⟩ := hnone hnil
          rw [hlongest, hshortest]
          decide
        · rw [hshortest hnil, UInt64.le_iff_toNat_le]
          obtain ⟨b, hb, helapsed⟩ := hextremes.longest_mem hnil
          exact Nat.le_trans (hextremes.shortest_le b hb) (Nat.le_of_eq helapsed) }

/-- **The figures are the aggregate of what was recorded.** Whatever batches and failures are
recorded, and whenever everything is reset, the figures depend on what was recorded since the last
reset alone, and not on its order. As long as no sum runs over, they are the sums over it, the
mean of the durations, and the extremes of the times that the batches took. -/
theorem snapshot_noted (rs : List Recording) :
    (Fits (batches (recent rs)) (failures (recent rs)) →
      Aggregates (batches (recent rs)) (failures (recent rs)) (Metrics.noted rs).snapshot) ∧
    ∀ rs' : List Recording, (recent rs').Perm (recent rs) →
      (Metrics.noted rs').snapshot = (Metrics.noted rs).snapshot := by
  have hrecent : ∀ r ∈ recent rs, r.isReset = false :=
    fun _ => Recording.not_isReset_of_mem_recent
  constructor
  · intro hfits
    rw [← Metrics.noted_recent]
    exact (tallied_noted hrecent).aggregates (extremes_noted hrecent hfits.times) hfits
  · intro rs' hperm
    rw [Metrics.noted_perm hperm]

/-- Results of a batch of four: two texts, one of them empty, an error, and a late one. -/
def mixedResults : List FieldResult :=
  [.succeeded 0 "content" "<em>a</em>" 100, .succeeded 1 "content" "" 50,
   .failed 2 "content" "boom" 30, .late 3 "content" 220]

/-- Two batches, one of them without results, and a failure; a batch before them was reset. -/
def mixedRecordings : List Recording :=
  [.batch ⟨9, mixedResults, 7⟩, .reset, .batch ⟨4, mixedResults, 230⟩, .failure,
    .batch ⟨0, [], 100⟩]

/-- A history with a batch and a reset in it, whose recent part has two batches and a failure; in
another order they show the same. -/
theorem snapshot_noted_mixed :
    Fits (batches (recent mixedRecordings)) (failures (recent mixedRecordings)) ∧
      Aggregates [⟨4, mixedResults, 230⟩, ⟨0, [], 100⟩] 1 (Metrics.noted mixedRecordings).snapshot ∧
      (Metrics.noted mixedRecordings).snapshot =
        (Metrics.noted [.batch ⟨0, [], 100⟩, .batch ⟨4, mixedResults, 230⟩, .failure]).snapshot ∧
      (Metrics.noted mixedRecordings).snapshot.meanMs = 100 ∧
      (Metrics.noted mixedRecordings).snapshot.shortestNs = 100 := by
  have hfits : Fits (batches (recent mixedRecordings)) (failures (recent mixedRecordings)) := by
    constructor <;> decide
  obtain ⟨haggregates, hperm⟩ := snapshot_noted mixedRecordings
  refine ⟨hfits, haggregates hfits, (hperm _ ?_).symm, by decide, by decide⟩
  decide

end SemanticHighlight
