import Mathlib.Data.List.Pairwise
import SemanticHighlight.Proofs.Merge.Overlay

/-!
# The order of results

A merge puts the texts of results over the hits in the order of the results. The order shows
only where two texts meet: texts of different fields of a hit may be put in either order
(`HitData.highlighted_comm`), so a hit comes out the same from its results in any order if no
two are for one field (`Merge.update_perm`). Main statement (`Response.merge_reordered`): if no
two results have a text for the same field of the same hit, a merge gives the same response for
every order of them; and results without a text or beyond the last hit may stand anywhere in
between.
-/

namespace SemanticHighlight

open Dictionary (put_comm)

/-- Results for different fields may change places. -/
theorem HitData.highlighted_comm (h : HitData) {r s : FieldResult} (hne : r.field ≠ s.field) :
    (h.highlighted r).highlighted s = (h.highlighted s).highlighted r :=
  congrArg (fun highlight => { h with highlight })
    (put_comm (Ne.symm hne) h.highlight [s.text] [r.text])

namespace Merge

variable {results results' : List FieldResult} {k : Nat}

/-- The results for one hit may be put in any order, if no two are for the same field. The induction
is on the exchange of neighbours, where `highlighted_comm` applies. -/
theorem update_perm (hit : Hit) (hperm : results.Perm results')
    (hfields : results.Pairwise fun r s => r.field ≠ s.field) :
    update hit results = update hit results' := by
  -- any two of the results commute, a result with itself included
  have hcomm : ∀ r ∈ results, ∀ s ∈ results, ∀ h : HitData,
      (h.highlighted r).highlighted s = (h.highlighted s).highlighted r := by
    refine List.Pairwise.forall_of_forall_of_flip (fun _ _ _ => rfl) ?_ ?_
    · exact hfields.imp fun hne h => h.highlighted_comm hne
    · exact hfields.imp fun hne h => h.highlighted_comm (Ne.symm hne)
  unfold update
  rw [hperm.foldl_eq' hcomm]

/-- Whether no two results have a text for the same field of the same hit. -/
def Apart (results : List FieldResult) : Prop :=
  results.Pairwise fun r s => ∀ k field, r.Supplies k field → ¬ s.Supplies k field

/-- The results for one hit are for different fields then. -/
theorem Apart.applied (h : Apart results) (k : Nat) :
    (applied results k).Pairwise fun r s => r.field ≠ s.field := by
  have hfor : ∀ r ∈ Merge.applied results k, r.Supplies k r.field := by
    intro r hr
    obtain ⟨-, hr⟩ := List.mem_filter.1 hr
    rw [Bool.and_eq_true, decide_eq_true_iff] at hr
    exact ⟨hr.1, hr.2, rfl⟩
  refine (h.filter _).imp_of_mem fun {r s} hr hs hrs heq => ?_
  exact hrs k r.field (hfor r hr) (heq ▸ hfor s hs)

theorem applied_perm (hperm : results.Perm results') (k : Nat) :
    (applied results k).Perm (applied results' k) :=
  hperm.filter _

/-- Results without a text or beyond the last hit are not for any hit. -/
theorem applied_insert {before extra after : List FieldResult} {count : Nat}
    (hextra : ∀ r ∈ extra, r.isApplicable = true → count ≤ r.hitIndex) (hk : k < count) :
    applied (before ++ extra ++ after) k = applied (before ++ after) k := by
  have hnone : applied extra k = [] := by
    refine applied_eq_nil_iff.2 ?_
    rintro ⟨r, hr, happlicable, rfl⟩
    exact absurd (hextra r hr happlicable) (Nat.not_le.2 hk)
  unfold applied at hnone ⊢
  rw [List.filter_append, List.filter_append, hnone, List.append_nil, List.filter_append]

end Merge

namespace Response

open Merge

variable {results results' : List FieldResult}

/-- Putting results that do not meet in another order leaves the response as it is. -/
theorem merge_perm (base : Response) (hperm : results.Perm results') (h : Apart results)
    (elapsed : UInt64) : base.merge results elapsed = base.merge results' elapsed := by
  have hhits : (base.hits.mapIdx fun k hit => update hit (applied results k)) =
      base.hits.mapIdx fun k hit => update hit (applied results' k) :=
    List.mapIdx_eq_mapIdx_iff.2 fun k _ => update_perm _ (applied_perm hperm k) (h.applied k)
  unfold merge
  rw [map_hit_spliced, map_hit_spliced, hhits]

/-- Which hits are shared does not depend on the order at all. -/
theorem untouched_perm (base : Response) (hperm : results.Perm results') :
    base.untouched results = base.untouched results' := by
  rw [untouched_eq, untouched_eq]
  refine List.mapIdx_eq_mapIdx_iff.2 fun k _ => ?_
  exact (applied_perm hperm k).isEmpty_eq

/-- **The order of results does not count.** If no two results have a text for the same field of
the same hit, then merging them in any other order gives the same response, and leaves the same
hits as they are. Whatever the results, more of them that have no text, or one for a hit beyond
the last, change neither, wherever they stand. -/
theorem merge_reordered (base : Response) (results : List FieldResult) (elapsed : UInt64) :
    (Apart results → ∀ results', results.Perm results' →
      base.merge results' elapsed = base.merge results elapsed ∧
        base.untouched results' = base.untouched results) ∧
    ∀ before extra after, results = before ++ after →
      (∀ r ∈ extra, r.isApplicable = true → base.hits.length ≤ r.hitIndex) →
      base.merge (before ++ extra ++ after) elapsed = base.merge results elapsed ∧
        base.untouched (before ++ extra ++ after) = base.untouched results := by
  constructor
  · intro hapart results' hperm
    exact ⟨(base.merge_perm hperm hapart elapsed).symm, (base.untouched_perm hperm).symm⟩
  · rintro before extra after rfl hextra
    exact merge_congr fun k hk => applied_insert hextra hk

/-- Two texts for a hit, one for another and a fault come in the opposite order; a fault and a
text beyond the last hit come in between. -/
theorem merge_reordered_backwards :
    let hit (highlight : Dictionary (List String)) : Hit := ⟨{ highlight }, []⟩
    let base := ofHits [hit .empty, hit (.ofEntries [("t", ["old"])]), hit .empty] 3
    let first : List FieldResult := [.succeeded 1 "u" "below" 4, .succeeded 0 "t" "first" 1]
    let last : List FieldResult := [.failed 0 "t" "fault" 2, .succeeded 1 "t" "new" 3]
    Apart (first ++ last) ∧
      (base.merge (first ++ last) 9).hits =
        [hit (.ofEntries [("t", ["first"])]), hit (.ofEntries [("t", ["new"]), ("u", ["below"])]),
          hit .empty] ∧
      base.merge (first ++ last).reverse 9 = base.merge (first ++ last) 9 ∧
      base.untouched (first ++ last).reverse = [false, false, true] ∧
      base.merge (first ++ [.late 2 "t" 5, .succeeded 3 "t" "beyond" 1] ++ last) 9 =
        base.merge (first ++ last) 9 := by
  intro hit base first last
  have hapart : Apart (first ++ last) := by
    simp +contextual [first, last, Apart, FieldResult.Supplies, FieldResult.succeeded,
      FieldResult.failed, FieldResult.isApplicable]
  -- a late result, and one for a hit that is not there
  have hextra : ∀ r ∈ [FieldResult.late 2 "t" 5, .succeeded 3 "t" "beyond" 1],
      r.isApplicable = true → base.hits.length ≤ r.hitIndex := by decide
  obtain ⟨horder, hinsert⟩ := merge_reordered base (first ++ last) 9
  obtain ⟨hmerge, huntouched⟩ := horder hapart _ (List.reverse_perm _).symm
  exact ⟨hapart, rfl, hmerge, huntouched.trans rfl, (hinsert first _ last rfl hextra).1⟩

end Response

end SemanticHighlight
