import Mathlib.Data.Finset.Card
import SemanticHighlight.CommandLine.Run
import SemanticHighlight.Proofs.Json.Value
import SemanticHighlight.Proofs.Merge.Overlay

/-!
# What a merge reports of itself

The command that merges counts the results that it applies beside the merge, and both go by the
same test: a result is applied if it has a text for one of the hits. What is seen of it in the
response is another number. A result that is put over by a later one, for the same field of the
same hit, is applied as well, and leaves no entry.

`Response.writtenFrom` is what is seen, `Merge.overwritten` what is not, and the two make up the
count (`Merge.length_inRange`). Main statement (`CommandLine.Command.merge_tallies`).
-/

namespace SemanticHighlight

namespace FieldResult

/-- The field and the hit that a result is for. -/
def place (r : FieldResult) : Nat × String := (r.hitIndex, r.field)

instance (r : FieldResult) (k : Nat) (field : String) : Decidable (r.Supplies k field) :=
  inferInstanceAs (Decidable (_ ∧ _ ∧ _))

end FieldResult

namespace Merge

variable {results : List FieldResult} {r : FieldResult} {k count : Nat} {field : String}

/-- The results that a later one, for the same field of the same hit, is put over. -/
def overwritten : List FieldResult → List FieldResult
  | [] => []
  | r :: later =>
    if r.place ∈ later.map FieldResult.place then r :: overwritten later else overwritten later

/-- The results that are not overwritten are for different places, and for all there are. -/
theorem length_eq_dedup_add (results : List FieldResult) :
    results.length =
      (results.map FieldResult.place).dedup.length + (overwritten results).length := by
  induction results with
  | nil => rfl
  | cons r later ih =>
    rw [List.length_cons, List.map_cons, overwritten, ih]
    -- `dedup` keeps the last of equal places, as a merge does
    by_cases h : r.place ∈ later.map FieldResult.place
    · rw [if_pos h, List.dedup_cons_of_mem h, List.length_cons]
      omega
    · rw [if_neg h, List.dedup_cons_of_notMem h, List.length_cons]
      omega

/-- The results that count are those that can be put into a hit that is there. -/
theorem mem_inRange : r ∈ inRange results count ↔
    r ∈ results ∧ r.isApplicable = true ∧ r.hitIndex < count := by
  unfold inRange
  rw [List.mem_filter, Bool.and_eq_true, decide_eq_true_iff]

/-- The places of these results are those at hits that are there which some result supplies. -/
theorem mem_places_inRange : (k, field) ∈ (inRange results count).map FieldResult.place ↔
    k < count ∧ ∃ r ∈ results, r.Supplies k field := by
  rw [List.mem_map]
  constructor
  · rintro ⟨r, hr, hplace⟩
    obtain ⟨hmem, happlicable, hlt⟩ := mem_inRange.1 hr
    obtain ⟨rfl, rfl⟩ := Prod.mk.inj hplace
    exact ⟨hlt, r, hmem, happlicable, rfl, rfl⟩
  · rintro ⟨hlt, r, hmem, happlicable, rfl, rfl⟩
    exact ⟨r, mem_inRange.2 ⟨hmem, happlicable, hlt⟩, rfl⟩

theorem exists_last? (h : ∃ r ∈ results, r.Supplies k field) :
    ∃ r, last? results k field = some r := by
  refine Option.ne_none_iff_exists'.1 fun hnone => ?_
  obtain ⟨r, hr, hsupplies⟩ := h
  exact last?_eq_none_iff.1 hnone r hr hsupplies

/-- A field for which there is a result has the text of the last one. -/
theorem find?_of_last? (hit : Hit) (h : last? results k field = some r) :
    (withTexts hit (entries results k)).data.highlight.find? field = some [r.text] := by
  rw [find?_withTexts, h]
  rfl

/-- A result is for no hit in range exactly if it has no text or names a hit beyond the last. -/
theorem countP_ignored_add (results : List FieldResult) (count : Nat) :
    (inRange results count).length +
      results.countP (fun r => r.success = false ∨ r.text = "" ∨ count ≤ r.hitIndex) =
        results.length := by
  have hothers : ∀ r : FieldResult, (r.success = false ∨ r.text = "" ∨ count ≤ r.hitIndex) ↔
      ¬(r.isApplicable && decide (r.hitIndex < count)) = true := by
    intro r
    rw [Bool.and_eq_true, decide_eq_true_iff, FieldResult.isApplicable_iff]
    by_cases htext : r.text = "" <;> cases r.success <;> simp [htext]
  have hsplit := List.length_eq_countP_add_countP
    (fun r : FieldResult => r.isApplicable && decide (r.hitIndex < count)) (l := results)
  rw [inRange, ← List.countP_eq_length_filter, hsplit]
  congr 1
  refine List.countP_congr fun r _ => ?_
  rw [decide_eq_true_iff, decide_eq_true_iff]
  exact hothers r

end Merge

namespace Response

open Merge

variable {base : Response} {results : List FieldResult} {took : UInt64} {k : Nat} {hit : Hit}
  {field : String}

/-- The fields of hits that have fragments. -/
def places (r : Response) : List (Nat × String) :=
  (r.hits.mapIdx fun k hit =>
    (Json.keys hit.data.highlight.entries).map fun field => (k, field)).flatten

/-- The places of a response are the fields under which its hits have fragments. -/
theorem mem_places {r : Response} : (k, field) ∈ r.places ↔
    ∃ hit, r.hits[k]? = some hit ∧ hit.data.highlight.find? field ≠ none := by
  unfold places
  rw [List.mem_flatten]
  constructor
  · rintro ⟨row, hrow, hmem⟩
    obtain ⟨i, hi, rfl⟩ := List.mem_mapIdx.1 hrow
    obtain ⟨name, hname, hpair⟩ := List.mem_map.1 hmem
    obtain ⟨rfl, rfl⟩ := Prod.mk.inj hpair
    refine ⟨r.hits[i], List.getElem?_eq_getElem hi, fun hnone => ?_⟩
    exact Json.member?_eq_none_iff.1 hnone hname
  · rintro ⟨hit, hhit, hfound⟩
    obtain ⟨hk, rfl⟩ := List.getElem?_eq_some_iff.1 hhit
    refine ⟨_, List.mem_mapIdx.2 ⟨k, hk, rfl⟩, List.mem_map.2 ⟨field, ?_, rfl⟩⟩
    by_contra hmissing
    exact hfound (Json.member?_eq_none_iff.2 hmissing)

/-- The entries of a merged response that were written from a result. -/
def writtenFrom (merged : Response) (results : List FieldResult) : Finset (Nat × String) :=
  merged.places.toFinset.filter fun place => ∃ r ∈ results, r.Supplies place.1 place.2

theorem mem_writtenFrom {merged : Response} : (k, field) ∈ merged.writtenFrom results ↔
    (∃ hit, merged.hits[k]? = some hit ∧ hit.data.highlight.find? field ≠ none) ∧
      ∃ r ∈ results, r.Supplies k field := by
  unfold writtenFrom
  rw [Finset.mem_filter, List.mem_toFinset, mem_places]

/-- What is written is what there is a result in range for. -/
theorem writtenFrom_merge (base : Response) (results : List FieldResult) (took : UInt64) :
    (base.merge results took).writtenFrom results =
      ((inRange results base.hits.length).map FieldResult.place).toFinset := by
  ext ⟨k, field⟩
  rw [mem_writtenFrom, List.mem_toFinset, mem_places_inRange]
  refine and_congr_left fun hsupplied => ?_
  constructor
  · rintro ⟨hit, hhit, -⟩
    have hlt := (List.getElem?_eq_some_iff.1 hhit).1
    rwa [(overlaid_merge base results took).length] at hlt
  · intro hlt
    obtain ⟨r, hlast⟩ := exists_last? hsupplied
    refine ⟨_, getElem?_hits_merge (List.getElem?_eq_getElem hlt), ?_⟩
    rw [find?_of_last? _ hlast]
    exact Option.some_ne_none _

/-- **The count of a merge.** Each result with a text for one of the hits is seen in an entry or
is put over by a later one. -/
theorem length_inRange (base : Response) (results : List FieldResult) (took : UInt64) :
    (inRange results base.hits.length).length =
      ((base.merge results took).writtenFrom results).card +
        (overwritten (inRange results base.hits.length)).length := by
  rw [writtenFrom_merge, List.card_toFinset]
  exact length_eq_dedup_add _

/-- Under a place that was written stands the text of its last result. -/
theorem find?_of_mem_writtenFrom
    (h : (k, field) ∈ (base.merge results took).writtenFrom results) :
    ∃ hit r, (base.merge results took).hits[k]? = some hit ∧
      last? results k field = some r ∧ hit.data.highlight.find? field = some [r.text] := by
  obtain ⟨⟨hit, hhit, -⟩, hsupplied⟩ := mem_writtenFrom.1 h
  obtain ⟨r, hlast⟩ := exists_last? hsupplied
  refine ⟨hit, r, hhit, hlast, ?_⟩
  rw [hits_merge, List.getElem?_mapIdx] at hhit
  obtain ⟨before, -, rfl⟩ := Option.map_eq_some_iff.1 hhit
  exact find?_of_last? before hlast

/-- No result is for a hit in range exactly if every hit is left as it is. -/
theorem inRange_eq_nil_iff : inRange results base.hits.length = [] ↔
    ∀ (k : Nat) (hit : Hit), base.hits[k]? = some hit →
      (base.untouched results)[k]? = some true := by
  constructor
  · intro hnil k hit hk
    refine (untouched_eq_true_iff hk).2 ?_
    rintro ⟨r, hr, happlicable, rfl⟩
    have hmem := mem_inRange.2 ⟨hr, happlicable, (List.getElem?_eq_some_iff.1 hk).1⟩
    rw [hnil] at hmem
    cases hmem
  · intro huntouched
    refine List.eq_nil_iff_forall_not_mem.2 fun r hr => ?_
    obtain ⟨hmem, happlicable, hlt⟩ := mem_inRange.1 hr
    have hk := List.getElem?_eq_getElem hlt
    exact (untouched_eq_true_iff hk).1 (huntouched _ _ hk) ⟨r, hmem, happlicable, rfl⟩

end Response

namespace CommandLine.Command

open Merge

/-- What two numbers say of a merge: how many results were applied, and how many were not. -/
structure Tally (base : Response) (results : List FieldResult) (merged : Response)
    (applied ignored : Nat) : Prop where
  /-- A result that is applied is seen in an entry or put over by a later one. -/
  entries : applied = (merged.writtenFrom results).card +
    (overwritten (inRange results base.hits.length)).length
  /-- An entry that was written has the text of the last result for it. -/
  last : ∀ k field, (k, field) ∈ merged.writtenFrom results →
    ∃ hit r, merged.hits[k]? = some hit ∧ last? results k field = some r ∧
      hit.data.highlight.find? field = some [r.text]
  others : ignored = results.countP fun r =>
    r.success = false ∨ r.text = "" ∨ base.hits.length ≤ r.hitIndex
  total : applied + ignored = results.length
  /-- None is applied exactly if each hit is the very hit of the base. -/
  noneApplied : applied = 0 ↔ ∀ (k : Nat) (hit : Hit), base.hits[k]? = some hit →
    (base.untouched results)[k]? = some true ∧ merged.hits[k]? = some hit

/-- The number that the command prints counts results, and not places. -/
theorem appliedCount_eq (base : Response) (results : List FieldResult) :
    appliedCount base results = (inRange results base.hits.length).length :=
  List.countP_eq_length_filter

/-- **What a merge reports.** Of the response that it writes, the command says how many results it
has applied and how many not. The first are as many as the entries that were written from results
and the results that a later one, for the same field of the same hit, was put over. The others are
those that did not succeed, have no text or name a hit beyond the last. There is no further result,
and none is applied exactly if every hit is left as it is. -/
theorem merge_tallies (tookMs : Option UInt64) (base : Response) (results : List FieldResult) :
    ∃ applied ignored,
      (mergeOutcome tookMs base results).report =
        .ok (.merged applied ignored (base.merge results (tookMs.getD base.took))) ∧
      Tally base results (base.merge results (tookMs.getD base.took)) applied ignored := by
  have hcount := countP_ignored_add results base.hits.length
  have happlied := appliedCount_eq base results
  refine ⟨_, _, rfl, ?_⟩
  refine
    { entries := happlied.trans (base.length_inRange results _)
      last := fun _ _ h => Response.find?_of_mem_writtenFrom h
      others := by omega
      total := by omega
      noneApplied := ?_ }
  rw [happlied, List.length_eq_zero_iff, Response.inRange_eq_nil_iff]
  constructor
  · intro huntouched k hit hk
    have hsame := huntouched k hit hk
    exact ⟨hsame, Response.hit_of_not_reached hk ((Response.untouched_eq_true_iff hk).1 hsame)⟩
  · intro h k hit hk
    exact (h k hit hk).1

/-- Two results are for one field of the only hit. Both count as applied, and one entry is
written. -/
theorem merge_tallies_overwritten :
    ∃ (base merged : Response) (results : List FieldResult),
      base = .ofHits [⟨{}, []⟩] 3 ∧
      results = [.succeeded 0 "t" "first" 1, .succeeded 0 "t" "last" 2] ∧
      (mergeOutcome none base results).report = .ok (.merged 2 0 merged) ∧
      (merged.writtenFrom results).card = 1 ∧
      (overwritten (inRange results base.hits.length)).length = 1 :=
  ⟨_, _, _, rfl, rfl, rfl, by decide, by decide⟩

end CommandLine.Command

end SemanticHighlight
