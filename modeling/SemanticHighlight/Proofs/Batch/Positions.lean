import SemanticHighlight.Proofs.Batch.Results

/-!
# A result for each pair, in order

Results belong to their pairs by position alone: the result of hit `i` and configuration `j`
stands at position `i * configs.length + j`. Main statement: whenever a batch returns
results, there is exactly one for each pair and it stands in its place
(`returned_results_positions`), however completions, the deadline and a cancellation follow
one another.
-/

namespace SemanticHighlight

/-! ## Rows of equal length -/

section Rows

variable {α : Type} {m : Nat}

/-- Rows of one length have so many entries in all. -/
theorem length_flatten_rows : ∀ {rows : List (List α)}, (∀ row ∈ rows, row.length = m) →
    rows.flatten.length = rows.length * m
  | [], _ => by simp
  | row :: rows, h => by
    have hrow : row.length = m := h row (List.mem_cons_self ..)
    have hrest := length_flatten_rows fun r hr => h r (List.mem_cons_of_mem _ hr)
    rw [List.flatten_cons, List.length_append, hrow, hrest, List.length_cons, Nat.succ_mul,
      Nat.add_comm]

/-- The entry of row `i` and column `j` stands at `i * m + j` among all entries. -/
theorem getElem?_flatten_rows {j : Nat} (hj : j < m) :
    ∀ {rows : List (List α)}, (∀ row ∈ rows, row.length = m) → ∀ i : Nat,
      rows.flatten[i * m + j]? = rows[i]?.bind (·[j]?)
  | [], _, i => by simp
  | row :: rows, h, 0 => by
    have hrow : row.length = m := h row (List.mem_cons_self ..)
    rw [List.flatten_cons, Nat.zero_mul, Nat.zero_add,
      List.getElem?_append_left (by rw [hrow]; exact hj)]
    rfl
  | row :: rows, h, i + 1 => by
    have hrow : row.length = m := h row (List.mem_cons_self ..)
    have hpos : (i + 1) * m + j = row.length + (i * m + j) := by
      rw [hrow, Nat.succ_mul]
      omega
    rw [List.flatten_cons, hpos, List.getElem?_append_right (Nat.le_add_right _ _),
      Nat.add_sub_cancel_left, List.getElem?_cons_succ]
    exact getElem?_flatten_rows hj (fun r hr => h r (List.mem_cons_of_mem _ hr)) i

/-- Every position is that of a row and a column. -/
theorem position_cases {k n : Nat} (h : k < n * m) : ∃ i < n, ∃ j < m, k = i * m + j := by
  have hm : 0 < m := by
    rcases Nat.eq_zero_or_pos m with hm | hm
    · rw [hm, Nat.mul_zero] at h
      exact absurd h (Nat.not_lt_zero k)
    · exact hm
  refine ⟨k / m, ?_, k % m, Nat.mod_lt k hm, ?_⟩
  · exact (Nat.div_lt_iff_lt_mul hm).2 h
  · rw [Nat.mul_comm, Nat.div_add_mod]

end Rows

namespace Pair

variable {hits : List HitData} {configs : List FieldConfig}

/-- Each hit has a pair for each configuration. -/
theorem rows_length :
    ∀ row ∈ hits.mapIdx fun i hit => configs.map (ofHit i hit),
      row.length = configs.length := by
  intro row hrow
  obtain ⟨i, hi, rfl⟩ := List.mem_mapIdx.1 hrow
  exact List.length_map _

theorem length_all : (all hits configs).length = hits.length * configs.length := by
  unfold all
  rw [length_flatten_rows rows_length, List.length_mapIdx]

/-- The pair of hit `i` and configuration `j` is at `i * configs.length + j`. -/
theorem getElem?_all {i j : Nat} (hi : i < hits.length) (hj : j < configs.length) :
    (all hits configs)[i * configs.length + j]? = some (ofHit i hits[i] configs[j]) := by
  unfold all
  rw [getElem?_flatten_rows hj rows_length i, List.getElem?_mapIdx,
    List.getElem?_eq_getElem hi]
  show (configs.map (ofHit i hits[i]))[j]? = _
  rw [List.getElem?_map, List.getElem?_eq_getElem hj]
  rfl

/-- Whether a result is at the place of a pair. -/
def Places (p : Pair) (r : FieldResult) : Prop :=
  r.hitIndex = p.hitIndex ∧ r.field = p.config.field

/-- Whatever the reply, the result is at the place of its pair. -/
theorem places_result (p : Pair) (reply : Inference.Reply) (durationMs : UInt64) :
    p.Places (p.result reply durationMs) := by
  unfold result
  split
  · split <;> exact ⟨rfl, rfl⟩
  · exact ⟨rfl, rfl⟩
  · exact ⟨rfl, rfl⟩

/-- What stands in for a missing result names the pair that it is for. -/
theorem places_missing (p : Pair) (expired : Bool) (waitedMs : UInt64) :
    p.Places (p.missing expired waitedMs) := by
  unfold missing
  split <;> exact ⟨rfl, rfl⟩

end Pair

namespace Batch

variable {b : Batch} {events : List Event}

/-- Whatever its origin, a result is at the place of the pair of its slot. -/
theorem Origin.places {slot : Nat} {r : FieldResult} (h : Origin events b slot r) :
    ∃ p, b.pairs[slot]? = some p ∧ p.Places r := by
  cases h with
  | skipped p hp => exact ⟨p, hp, rfl, rfl⟩
  | replied p reply ms hp => exact ⟨p, hp, p.places_result reply ms⟩
  | cancelled p ms hp => exact ⟨p, hp, rfl, rfl⟩
  | abandoned p ms hp => exact ⟨p, hp, rfl, rfl⟩

theorem length_results (h : b.slots.length = b.pairs.length) (waitedMs : UInt64) :
    (b.results waitedMs).length = b.pairs.length := by
  unfold results
  rw [List.length_zipWith, h, Nat.min_self]

/-- The result at a position is what the slot there holds, or says that it is missing. -/
theorem getElem?_results {k : Nat} {p : Pair} {slot : Option FieldResult}
    (hp : b.pairs[k]? = some p) (hs : b.slots[k]? = some slot) (waitedMs : UInt64) :
    (b.results waitedMs)[k]? = some (slot.getD (p.missing b.expired waitedMs)) := by
  unfold results
  rw [List.getElem?_zipWith, hp, hs]

section Returned

variable {hits : List HitData} {configs : List FieldConfig} {cancelled : Bool}
  {ending : Ending} {results : List FieldResult}

/-- What a batch that ended well has told its caller. -/
theorem results_of_outcome (hinv : Invariant (Pair.all hits configs) b)
    (hret : b.stage = .returned ending) (hok : ending.outcome = .ok results) :
    b.slots.length = b.pairs.length ∧ ∃ waitedMs, results = b.results waitedMs := by
  cases ending with
  | vacant =>
    have hpairs := hinv.told.vacant hret
    -- without pairs there are no slots, and the result is the empty list either way
    have hslots : b.slots.length = 0 := by
      have hle := hinv.placed.le
      rw [hpairs] at hle
      exact Nat.le_zero.1 hle
    refine ⟨by rw [hpairs, hslots]; rfl, 0, ?_⟩
    cases hok
    unfold Batch.results
    rw [hpairs]
    rfl
  | completed results' elapsedNs =>
    cases hok
    exact ⟨hinv.placed.full (by rw [hret]; rfl), hinv.told.results _ _ hret⟩
  | refused reason => cases hok

/-- Results are as many as pairs. -/
theorem length_of_outcome (hinv : Invariant (Pair.all hits configs) b)
    (hret : b.stage = .returned ending) (hok : ending.outcome = .ok results) :
    results.length = hits.length * configs.length := by
  obtain ⟨hfull, waitedMs, rfl⟩ := results_of_outcome hinv hret hok
  rw [length_results hfull, hinv.pairs_eq, Pair.length_all]

/-- **One result for each pair, in its place.** Whatever happens to a batch and in whatever
order, if it returns results then there are as many as pairs, and the one for hit `i` and
configuration `j` is at `i * configs.length + j`. -/
theorem returned_results_positions
    (hrun : (begin hits configs cancelled).run? events = some b)
    (hret : b.stage = .returned ending) (hok : ending.outcome = .ok results) :
    results.length = hits.length * configs.length ∧
      ∀ (i j : Nat) (_ : i < hits.length) (hj : j < configs.length),
        ∃ r, results[i * configs.length + j]? = some r ∧ r.hitIndex = i ∧
          r.field = configs[j].field := by
  have hinv := run_invariant hrun
  obtain ⟨hfull, waitedMs, rfl⟩ := results_of_outcome hinv hret hok
  refine ⟨length_of_outcome hinv hret hok, fun i j hi hj => ?_⟩
  have hp : b.pairs[i * configs.length + j]? = some (Pair.ofHit i hits[i] configs[j]) := by
    rw [hinv.pairs_eq]
    exact Pair.getElem?_all hi hj
  have hlt : i * configs.length + j < b.slots.length := by
    rw [hfull]
    exact (List.getElem?_eq_some_iff.1 hp).1
  have hs := List.getElem?_eq_getElem hlt
  refine ⟨_, getElem?_results hp hs waitedMs, ?_⟩
  -- an open slot is completed from its pair, a filled one holds a result with an origin
  cases hslot : b.slots[i * configs.length + j] with
  | none => exact Pair.places_missing _ b.expired waitedMs
  | some r =>
    rw [hslot] at hs
    obtain ⟨p, hp', hplaces⟩ := (run_origin hrun (.inl hs)).places
    rw [hp] at hp'
    cases hp'
    exact hplaces

end Returned

/-- Hits of which the second has a blank text. -/
def spoiledHits : List HitData :=
  ["x", " ", "y"].map fun text => { source := some [("t", .string text)] }

/-- Two models for one field. -/
def rivalConfigs : List FieldConfig :=
  [⟨"t", "first", "q", "<em>", "</em>", false⟩, ⟨"t", "second", "q", "<em>", "</em>", false⟩]

/-- The deadline comes during the submissions, and a cancellation before the wait. One result
is drained, and a task starts after the end. -/
def interruption : List Event :=
  [.visit, .submit (.ok ()), .visit, .submit (.ok ()), .visit, .visit, .start 1 0, .visit,
   .submit (.error (.late 2)), .visit, .visit, .reply 1 (.text "z") 3, .cancel, .look,
   .report 1, .drain, .settle, .conclude 5 7, .start 0 1, .report 0]

/-- What an interrupted batch returns. -/
def interruptedResults : List FieldResult :=
  [.late 0 "t" 5, .succeeded 0 "t" "z" 3, .skipped 1 "t" "field text missing or empty",
   .skipped 1 "t" "field text missing or empty", .late 2 "t" 5, .late 2 "t" 5]

/-- The interrupted batch has a result in each place. -/
theorem returned_results_positions_interrupted :
    ∃ b, (begin spoiledHits rivalConfigs false).run? interruption = some b ∧
      b.stage = .returned (.completed interruptedResults 7) ∧
      interruptedResults.length = spoiledHits.length * rivalConfigs.length ∧
      ∀ (i j : Nat) (_ : i < spoiledHits.length) (hj : j < rivalConfigs.length),
        ∃ r, interruptedResults[i * rivalConfigs.length + j]? = some r ∧ r.hitIndex = i ∧
          r.field = rivalConfigs[j].field := by
  have h : ((begin spoiledHits rivalConfigs false).run? interruption).map (·.stage) =
      some (.returned (.completed interruptedResults 7)) := by decide
  obtain ⟨b, hrun, hstage⟩ := Option.map_eq_some_iff.1 h
  exact ⟨b, hrun, hstage, returned_results_positions hrun hstage rfl⟩

end Batch

end SemanticHighlight
