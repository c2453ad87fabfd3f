import Mathlib.Data.List.Induction
import SemanticHighlight.Merge

/-!
# A merge reads fields and texts only

Of an applicable result, a merge reads which hit it belongs to, its field and its text: it
is a function of the `Merge.entries` of each hit (`Response.merge_eq`), which nothing else
that results say can change (`entries_map`). `applied_flatten` picks the results of one hit
out of results that come in a row for each hit.
-/

namespace SemanticHighlight

/-- The field of a result and its text. -/
def FieldResult.entry (r : FieldResult) : String × String := (r.field, r.text)

namespace HitData

/-- The hit with the text of each entry as the only fragment of its field, in order. -/
def withTexts (h : HitData) (entries : List (String × String)) : HitData :=
  { h with
    highlight := entries.foldl (fun d (field, text) => d.put field [text]) h.highlight }

/-- Putting results into a hit one at a time is putting their texts into it. -/
theorem foldl_highlighted (results : List FieldResult) :
    ∀ h : HitData, results.foldl highlighted h = h.withTexts (results.map FieldResult.entry) := by
  induction results with
  | nil => intro h; rfl
  | cons r results ih =>
    intro h
    rw [List.foldl_cons, ih]
    rfl

end HitData

namespace Merge

variable {results results' : List FieldResult}

/-- The hit with the texts of entries, in order. -/
def withTexts (hit : Hit) (entries : List (String × String)) : Hit :=
  { hit with data := hit.data.withTexts entries }

theorem withTexts_nil (hit : Hit) : withTexts hit [] = hit := by
  cases hit
  rfl

/-- A hit that is shared is the one that no result has a text for, so it is as if all hits were
built anew. -/
theorem hit_splice (results : List FieldResult) (k : Nat) (hit : Hit) :
    (splice results k hit).hit = update hit (applied results k) := by
  unfold splice
  split
  · next hnone =>
    rw [hnone]
    cases hit
    rfl
  · rfl

/-- A hit is shared exactly if no result has a text for it. -/
theorem isShared_splice (results : List FieldResult) (k : Nat) (hit : Hit) :
    (splice results k hit).isShared = (applied results k).isEmpty := by
  unfold splice
  cases applied results k <;> rfl

theorem update_eq (hit : Hit) (results : List FieldResult) :
    update hit results = withTexts hit (results.map FieldResult.entry) := by
  unfold update withTexts
  rw [HitData.foldl_highlighted]

/-- The entries of the results that have a text for the hit at a position. -/
def entries (results : List FieldResult) (index : Nat) : List (String × String) :=
  (applied results index).map FieldResult.entry

/-- What a result says beyond its hit, field, text and success does not count. -/
theorem entries_map {f : FieldResult → FieldResult}
    (hf : ∀ r, (f r).isApplicable = r.isApplicable ∧ (f r).hitIndex = r.hitIndex ∧
      (f r).entry = r.entry) (results : List FieldResult) (index : Nat) :
    entries (results.map f) index = entries results index := by
  unfold entries applied
  rw [List.filter_map, List.map_map]
  have hp : ((fun r : FieldResult => r.isApplicable && decide (r.hitIndex = index)) ∘ f) =
      fun r => r.isApplicable && decide (r.hitIndex = index) := by
    funext r
    show ((f r).isApplicable && decide ((f r).hitIndex = index)) = _
    rw [(hf r).1, (hf r).2.1]
  have he : FieldResult.entry ∘ f = FieldResult.entry := by
    funext r
    exact (hf r).2.2
  rw [hp, he]

/-- If results come in a row for each hit, those of a hit are in its row. -/
theorem applied_flatten {α : Type} {rows : Nat → α → List FieldResult}
    (hrows : ∀ k a, ∀ r ∈ rows k a, r.hitIndex = k) (xs : List α) {k : Nat} {a : α}
    (hk : xs[k]? = some a) :
    applied (xs.mapIdx rows).flatten k = (rows k a).filter FieldResult.isApplicable := by
  -- the rows of the first hits, then the next row; by induction from the end
  induction xs using List.reverseRecOn with
  | nil => cases hk
  | append_singleton xs x ih =>
    have hother : ∀ (j : Nat) (c : α), j ≠ k → applied (rows j c) k = [] := by
      intro j c hj
      refine List.filter_eq_nil_iff.2 fun r hr => ?_
      rw [hrows j c r hr]
      simp [hj]
    have hsplit : applied ((xs ++ [x]).mapIdx rows).flatten k =
        applied (xs.mapIdx rows).flatten k ++ applied (rows xs.length x) k := by
      unfold applied
      rw [List.mapIdx_append, List.flatten_append, List.filter_append]
      simp
    rw [hsplit]
    rcases Nat.lt_or_ge k xs.length with hlt | hge
    · rw [List.getElem?_append_left hlt] at hk
      rw [ih hk, hother _ _ (Nat.ne_of_gt hlt), List.append_nil]
    · have hkx : k = xs.length := by
        have hlt := (List.getElem?_eq_some_iff.1 hk).1
        rw [List.length_append, List.length_singleton] at hlt
        omega
      subst hkx
      rw [List.getElem?_concat_length] at hk
      cases hk
      have hnone : applied (xs.mapIdx rows).flatten xs.length = [] := by
        refine List.filter_eq_nil_iff.2 fun r hr => ?_
        obtain ⟨row, hrow, hr⟩ := List.mem_flatten.1 hr
        obtain ⟨j, hj, rfl⟩ := List.mem_mapIdx.1 hrow
        rw [hrows j _ r hr]
        simp [Nat.ne_of_lt hj]
      rw [hnone, List.nil_append]
      refine List.filter_congr fun r hr => ?_
      rw [hrows _ _ r hr]
      simp

end Merge

namespace Response

/-- What is read off each hit is read off what becomes of it. -/
theorem map_spliced {α : Type} (f : Merge.Spliced → α) (base : Response)
    (results : List FieldResult) :
    (base.spliced results).map f =
      base.hits.mapIdx fun k hit => f (Merge.splice results k hit) := by
  unfold spliced
  rw [List.mapIdx_eq_zipIdx_map, List.map_map, List.mapIdx_eq_zipIdx_map]
  rfl

/-- The hits of a merged response, shared or not. -/
theorem map_hit_spliced (base : Response) (results : List FieldResult) :
    (base.spliced results).map Merge.Spliced.hit =
      base.hits.mapIdx fun k hit => Merge.update hit (Merge.applied results k) := by
  rw [map_spliced]
  exact List.mapIdx_eq_mapIdx_iff.2 fun k _ => Merge.hit_splice results k _

/-- The hits that are shared, in terms of the results for them. -/
theorem untouched_eq (base : Response) (results : List FieldResult) :
    base.untouched results = base.hits.mapIdx fun k _ => (Merge.applied results k).isEmpty := by
  unfold untouched
  rw [map_spliced]
  exact List.mapIdx_eq_mapIdx_iff.2 fun k _ => Merge.isShared_splice results k _

/-- A merge, in terms of the entries of the results. -/
theorem merge_eq (base : Response) (results : List FieldResult) (took : UInt64) :
    base.merge results took = { base with
      took
      page := { base.page with
        hits := base.hits.mapIdx fun k hit =>
          Merge.withTexts hit (Merge.entries results k) } } := by
  have hupdate : (fun (k : Nat) (hit : Hit) => Merge.update hit (Merge.applied results k)) =
      fun k hit => Merge.withTexts hit (Merge.entries results k) := by
    funext k hit
    exact Merge.update_eq hit _
  unfold merge
  rw [map_hit_spliced, hupdate]

end Response

end SemanticHighlight
