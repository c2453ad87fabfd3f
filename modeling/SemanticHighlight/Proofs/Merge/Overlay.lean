import SemanticHighlight.Proofs.Dictionary.Put
import SemanticHighlight.Proofs.Merge.Texts

/-!
# A merge lays texts over the hits

`Response.Overlaid` says how a response comes out of a merge without saying how a merge is
done: but for the time, it differs from the base in the fragments of hits alone, and there each
field has the text of the last result for it, or what it had. Main statement
(`Response.merge_overlays`): a merge does that, leaves alone the hits that no result has a text
for, and reads none but the applicable results within range. No other response comes out so
(`Response.Overlaid.eq_merge`).
-/

namespace SemanticHighlight

open Dictionary (putAll find?_putAll)

namespace FieldResult

variable {r : FieldResult} {k : Nat} {field : String}

/-- Whether a result has a text for a field of the hit at a position. -/
def Supplies (r : FieldResult) (k : Nat) (field : String) : Prop :=
  r.isApplicable = true ∧ r.hitIndex = k ∧ r.field = field

/-- A result is put into a hit if it succeeded and its text is not empty. -/
theorem isApplicable_iff : r.isApplicable = true ↔ r.success = true ∧ r.text ≠ "" := by
  unfold isApplicable
  rw [Bool.and_eq_true, decide_eq_true_iff]

end FieldResult

/-- The texts of entries as fragments of their fields. -/
def HitData.fragments (entries : List (String × String)) : List (String × List String) :=
  entries.map fun (field, text) => (field, [text])

theorem HitData.withTexts_eq (h : HitData) (entries : List (String × String)) :
    h.withTexts entries =
      { h with highlight := putAll (fragments entries) h.highlight } := by
  unfold withTexts putAll fragments
  rw [List.foldl_map]

namespace Merge

variable {results : List FieldResult} {r : FieldResult} {k : Nat} {field : String}
  {hit merged other : Hit}

/-! ## The results for a hit -/

/-- Whether results have a text for the hit at a position. -/
def Reached (results : List FieldResult) (k : Nat) : Prop :=
  ∃ r ∈ results, r.isApplicable = true ∧ r.hitIndex = k

/-- Nothing is put into a hit exactly if no result reaches it. -/
theorem applied_eq_nil_iff : applied results k = [] ↔ ¬ Reached results k := by
  unfold applied Reached
  rw [List.filter_eq_nil_iff]
  simp

/-- The results that have a text for one of so many hits. -/
def inRange (results : List FieldResult) (count : Nat) : List FieldResult :=
  results.filter fun r => r.isApplicable && r.hitIndex < count

/-- Leaving out the results for hits that are not there changes nothing for one that is. -/
theorem applied_inRange (results : List FieldResult) {count : Nat} (hk : k < count) :
    applied (inRange results count) k = applied results k := by
  unfold applied inRange
  rw [List.filter_filter]
  refine List.filter_congr fun r _ => ?_
  by_cases hr : r.hitIndex = k
  · simp [hr, hk]
  · simp [hr]

/-- The last of the results that have a text for a field of the hit at a position. -/
def last? (results : List FieldResult) (k : Nat) (field : String) : Option FieldResult :=
  (applied results k).reverse.find? (·.field = field)

/-- The last result for a place is the first to be found from behind. -/
theorem last?_eq (results : List FieldResult) (k : Nat) (field : String) :
    last? results k field =
      results.reverse.find? fun r => r.isApplicable && r.hitIndex = k && r.field = field := by
  unfold last? applied
  rw [← List.filter_reverse, List.find?_filter]
  congr 1
  funext r
  simp

/-- A result is the last for a place exactly if it supplies it and none behind it does. From left to
right the row is cut at the result that was found from behind. -/
theorem last?_eq_some_iff : last? results k field = some r ↔
    r.Supplies k field ∧
      ∃ before after, results = before ++ r :: after ∧ ∀ s ∈ after, ¬ s.Supplies k field := by
  have hfor : ∀ s : FieldResult,
      (s.isApplicable && s.hitIndex = k && s.field = field) = true ↔ s.Supplies k field := by
    simp [FieldResult.Supplies, and_assoc]
  rw [last?_eq, List.find?_eq_some_iff_append, hfor]
  refine and_congr_right fun _ => ⟨?_, ?_⟩
  · rintro ⟨after, before, hsplit, hafter⟩
    refine ⟨before.reverse, after.reverse, ?_, fun s hs => ?_⟩
    · rw [List.reverse_eq_iff.1 hsplit, List.reverse_append, List.reverse_cons,
        List.append_assoc, List.singleton_append]
    · have hnot := hafter s (List.mem_reverse.1 hs)
      rw [Bool.not_eq_true', ← Bool.not_eq_true, hfor] at hnot
      exact hnot
  · rintro ⟨before, after, rfl, hafter⟩
    refine ⟨after.reverse, before.reverse, ?_, fun s hs => ?_⟩
    · rw [List.reverse_append, List.reverse_cons, List.append_assoc, List.singleton_append]
    · rw [Bool.not_eq_true', ← Bool.not_eq_true, hfor]
      exact hafter s (List.mem_reverse.1 hs)

/-- There is no last result for a place exactly if none supplies it. -/
theorem last?_eq_none_iff : last? results k field = none ↔
    ∀ r ∈ results, ¬ r.Supplies k field := by
  rw [last?_eq, List.find?_eq_none]
  simp [FieldResult.Supplies]

/-! ## Hits -/

/-- How the hit at a position comes out of a merge. -/
structure Overlaid (results : List FieldResult) (k : Nat) (hit merged : Hit) : Prop where
  others : merged = { hit with data := { hit.data with highlight := merged.data.highlight } }
  last : ∀ field before r after, results = before ++ r :: after → r.Supplies k field →
    (∀ s ∈ after, ¬ s.Supplies k field) → merged.data.highlight.find? field = some [r.text]
  kept : ∀ field, (∀ r ∈ results, ¬ r.Supplies k field) →
    merged.data.highlight.find? field = hit.data.highlight.find? field

/-- Under each field stands the text of its last result, and where there is none what stood there.
-/
theorem find?_withTexts (hit : Hit) (results : List FieldResult) (k : Nat) (field : String) :
    (withTexts hit (entries results k)).data.highlight.find? field =
      ((last? results k field).map fun r => [r.text]).or (hit.data.highlight.find? field) := by
  show (hit.data.withTexts (entries results k)).highlight.find? field = _
  rw [HitData.withTexts_eq, find?_putAll]
  unfold HitData.fragments entries
  rw [List.map_map, ← List.map_reverse, List.find?_map, Option.map_map]
  rfl

/-- A hit with the texts of its results is overlaid with them. -/
theorem withTexts_overlaid (hit : Hit) (results : List FieldResult) (k : Nat) :
    Overlaid results k hit (withTexts hit (entries results k)) where
  others := rfl
  last field before r after hsplit hr hafter := by
    rw [find?_withTexts, last?_eq_some_iff.2 ⟨hr, before, after, hsplit, hafter⟩]
    rfl
  kept field hnone := by
    rw [find?_withTexts, last?_eq_none_iff.2 hnone]
    rfl

/-- There is one way only. -/
theorem Overlaid.unique (h : Overlaid results k hit merged) (h' : Overlaid results k hit other) :
    merged = other := by
  have hsame : merged.data.highlight = other.data.highlight := by
    refine Dictionary.ext fun field => ?_
    cases hlast : last? results k field with
    | some r =>
      obtain ⟨hr, before, after, hsplit, hafter⟩ := last?_eq_some_iff.1 hlast
      rw [h.last field before r after hsplit hr hafter,
        h'.last field before r after hsplit hr hafter]
    | none =>
      have hnone := last?_eq_none_iff.1 hlast
      rw [h.kept field hnone, h'.kept field hnone]
  rw [h.others, h'.others, hsame]

end Merge

namespace Response

open Merge

variable {base merged : Response} {results results' : List FieldResult} {elapsed : UInt64}
  {k : Nat} {hit : Hit}

/-! ## Responses -/

/-- The response with another time and other hits. -/
def withHits (r : Response) (took : UInt64) (hits : List Hit) : Response :=
  { r with took, page := { r.page with hits } }

theorem merge_eq_withHits (base : Response) (results : List FieldResult) (elapsed : UInt64) :
    base.merge results elapsed =
      base.withHits elapsed (base.hits.mapIdx fun k hit => withTexts hit (entries results k)) :=
  merge_eq base results elapsed

/-- The hits after merging are those before, each with the texts for its position. -/
theorem hits_merge (base : Response) (results : List FieldResult) (elapsed : UInt64) :
    (base.merge results elapsed).hits =
      base.hits.mapIdx fun k hit => withTexts hit (entries results k) := by
  rw [merge_eq_withHits]
  rfl

theorem getElem?_hits_merge (hk : base.hits[k]? = some hit) :
    (base.merge results elapsed).hits[k]? = some (withTexts hit (entries results k)) := by
  rw [hits_merge, List.getElem?_mapIdx, hk]
  rfl

/-- How a response comes out of a merge. It is the base again when the time and the hits of
the base are put back. -/
structure Overlaid (base : Response) (results : List FieldResult) (elapsed : UInt64)
    (merged : Response) : Prop where
  took : merged.took = elapsed
  others : merged.withHits base.took base.hits = base
  length : merged.hits.length = base.hits.length
  hits : ∀ k hit, base.hits[k]? = some hit →
    ∃ hit', merged.hits[k]? = some hit' ∧ Merge.Overlaid results k hit hit'

/-- Merging overlays the response with the results, which is what the order of the results and the
absent ones are then read from. -/
theorem overlaid_merge (base : Response) (results : List FieldResult) (elapsed : UInt64) :
    Overlaid base results elapsed (base.merge results elapsed) where
  took := rfl
  others := rfl
  length := by rw [hits_merge, List.length_mapIdx]
  hits k hit hk := ⟨_, getElem?_hits_merge hk, withTexts_overlaid hit results k⟩

/-- No other response comes out of a merge. -/
theorem Overlaid.eq_merge (h : Overlaid base results elapsed merged) :
    merged = base.merge results elapsed := by
  have hhits : merged.hits = (base.merge results elapsed).hits := by
    refine List.ext_getElem? fun k => ?_
    cases hk : base.hits[k]? with
    | none =>
      have hle : merged.hits.length ≤ k := h.length ▸ List.getElem?_eq_none_iff.1 hk
      rw [List.getElem?_eq_none hle, hits_merge, List.getElem?_mapIdx, hk]
      rfl
    | some hit =>
      obtain ⟨hit', hk', hover⟩ := h.hits k hit hk
      have hsame := hover.unique (withTexts_overlaid hit results k)
      rw [hk', getElem?_hits_merge hk, hsame]
  calc merged = (merged.withHits base.took base.hits).withHits merged.took merged.hits := rfl
    _ = base.withHits elapsed (base.merge results elapsed).hits := by
        rw [h.others, h.took, hhits]
    _ = base.merge results elapsed := rfl

/-! ## What a merge reads -/

/-- A hit is shared exactly if no result reaches it. -/
theorem untouched_eq_true_iff (hk : base.hits[k]? = some hit) :
    (base.untouched results)[k]? = some true ↔ ¬ Reached results k := by
  rw [untouched_eq, List.getElem?_mapIdx, hk, ← applied_eq_nil_iff]
  simp

/-- A hit that no result reaches is what it was. -/
theorem hit_of_not_reached (hk : base.hits[k]? = some hit) (h : ¬ Reached results k) :
    (base.merge results elapsed).hits[k]? = some hit := by
  rw [getElem?_hits_merge hk]
  unfold entries
  rw [applied_eq_nil_iff.2 h]
  exact congrArg some (withTexts_nil hit)

/-- A merge reads the results that have a text for some hit, hit by hit. -/
theorem merge_congr (h : ∀ k < base.hits.length, applied results k = applied results' k) :
    base.merge results elapsed = base.merge results' elapsed ∧
      base.untouched results = base.untouched results' := by
  have hspliced : base.spliced results = base.spliced results' := by
    refine List.mapIdx_eq_mapIdx_iff.2 fun k hk => ?_
    unfold splice
    rw [h k hk]
  unfold merge untouched
  rw [hspliced]
  exact ⟨rfl, rfl⟩

/-- There is one warning for each result that would be put into a hit but for the hit, in the order
of the results. -/
theorem mergeWarnings_eq (base : Response) (results : List FieldResult) :
    base.mergeWarnings results = results.flatMap fun r =>
      if r.success = true ∧ r.text ≠ "" ∧ base.hits.length ≤ r.hitIndex then
        [warning base.hits.length r]
      else [] := by
  unfold mergeWarnings outOfRange
  induction results with
  | nil => rfl
  | cons r results ih =>
    have hout : (r.isApplicable && base.hits.length ≤ r.hitIndex) = true ↔
        r.success = true ∧ r.text ≠ "" ∧ base.hits.length ≤ r.hitIndex := by
      rw [Bool.and_eq_true, decide_eq_true_iff, FieldResult.isApplicable_iff, and_assoc]
    rw [List.flatMap_cons, ← ih, List.filter_cons, apply_ite (List.map _)]
    simp only [hout]
    split <;> rfl

/-- **What a merge does.** The response is the base with the given time and as many hits, in
which each field has the text of the last result for it, or what it had. A hit that no result
has a text for is the very hit of the base. Results without a text and results beyond the last
hit change nothing; the latter are warned about if they have a text, each once and in order. -/
theorem merge_overlays (base : Response) (results : List FieldResult) (elapsed : UInt64) :
    Overlaid base results elapsed (base.merge results elapsed) ∧
    (∀ k hit, base.hits[k]? = some hit →
      ((base.untouched results)[k]? = some true ↔ ¬ Reached results k) ∧
      (¬ Reached results k → (base.merge results elapsed).hits[k]? = some hit)) ∧
    (base.merge (inRange results base.hits.length) elapsed = base.merge results elapsed ∧
      base.untouched (inRange results base.hits.length) = base.untouched results) ∧
    base.mergeWarnings results = results.flatMap fun r =>
      if r.success = true ∧ r.text ≠ "" ∧ base.hits.length ≤ r.hitIndex then
        [warning base.hits.length r]
      else [] :=
  ⟨overlaid_merge base results elapsed,
    fun _ _ hk => ⟨untouched_eq_true_iff hk, hit_of_not_reached hk⟩,
    merge_congr fun _ hk => applied_inRange results hk,
    mergeWarnings_eq base results⟩

/-- A text is put over, a fault and a text beyond the last hit have no effect. -/
example :
    let hit (highlight : Dictionary (List String)) : Hit := ⟨{ highlight }, []⟩
    let base := ofHits [hit .empty, hit (.ofEntries [("t", ["old"]), ("u", ["kept"])])] 3
    let results : List FieldResult :=
      [.succeeded 1 "t" "first" 4, .succeeded 2 "t" "beyond" 1, .failed 0 "t" "fault" 2,
        .succeeded 1 "t" "last" 3]
    (base.merge results 9).hits =
        [hit .empty, hit (.ofEntries [("t", ["last"]), ("u", ["kept"])])] ∧
      base.untouched results = [true, false] ∧ (base.mergeWarnings results).length = 1 :=
  ⟨rfl, rfl, rfl⟩

end Response

end SemanticHighlight
