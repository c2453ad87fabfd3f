import SemanticHighlight.Proofs.Merge.Overlay

/-!
# Merging again

Merging twice is merging once with the results in a row (`Response.merge_append`), since each
hit takes its results in order either way. Results that are all put over by later ones leave no
trace (`Response.merge_absorbed`). Main statement (`Response.merge_merge`): merges compose, and
merging the same results again changes nothing.
-/

namespace SemanticHighlight

open Dictionary (putAll putAll_absorbed)

namespace HitData

variable {entries later : List (String × String)}

theorem withTexts_append (h : HitData) (entries later : List (String × String)) :
    h.withTexts (entries ++ later) = (h.withTexts entries).withTexts later := by
  unfold withTexts
  rw [List.foldl_append]

/-- Texts of fields that all get another text leave no trace. -/
theorem withTexts_absorbed (hover : ∀ entry ∈ entries, ∃ text, (entry.1, text) ∈ later)
    (h : HitData) : (h.withTexts entries).withTexts later = h.withTexts later := by
  have hput : putAll (fragments later) (putAll (fragments entries) h.highlight) =
      putAll (fragments later) h.highlight := by
    refine putAll_absorbed (fun pair hpair => ?_) h.highlight
    obtain ⟨entry, hentry, rfl⟩ := List.mem_map.1 hpair
    obtain ⟨text, htext⟩ := hover entry hentry
    exact ⟨[text], List.mem_map.2 ⟨(entry.1, text), htext, rfl⟩⟩
  rw [withTexts_eq, withTexts_eq h entries, withTexts_eq h later]
  exact congrArg (fun highlight => { h with highlight }) hput

end HitData

namespace Merge

variable {earlier later : List FieldResult}

theorem entries_append (earlier later : List FieldResult) (k : Nat) :
    entries (earlier ++ later) k = entries earlier k ++ entries later k := by
  unfold entries applied
  rw [List.filter_append, List.map_append]

/-- Whether each text of the earlier results is put over by a later one. -/
def Covers (later earlier : List FieldResult) : Prop :=
  ∀ k field, (∃ r ∈ earlier, r.Supplies k field) → ∃ r ∈ later, r.Supplies k field

/-- The entries for a hit are the fields and texts of the results that supply it. -/
theorem mem_entries {results : List FieldResult} {k : Nat} {field text : String} :
    (field, text) ∈ entries results k ↔
      ∃ r ∈ results, r.Supplies k field ∧ r.text = text := by
  unfold entries applied FieldResult.entry FieldResult.Supplies
  rw [List.mem_map]
  simp only [List.mem_filter, Bool.and_eq_true, decide_eq_true_iff, Prod.mk.injEq]
  constructor
  · rintro ⟨r, ⟨hr, happ, hk⟩, hfield, htext⟩
    exact ⟨r, hr, ⟨happ, hk, hfield⟩, htext⟩
  · rintro ⟨r, hr, ⟨happ, hk, hfield⟩, htext⟩
    exact ⟨r, ⟨hr, happ, hk⟩, hfield, htext⟩

/-- If later results cover earlier ones, each field that the earlier ones enter is entered again. -/
theorem Covers.entries (h : Covers later earlier) {k : Nat} :
    ∀ entry ∈ entries earlier k, ∃ text, (entry.1, text) ∈ entries later k := by
  intro entry hentry
  obtain ⟨r, hr, hsupplies, -⟩ := mem_entries.1 hentry
  obtain ⟨s, hs, hsupplies'⟩ := h k entry.1 ⟨r, hr, hsupplies⟩
  exact ⟨s.text, mem_entries.2 ⟨s, hs, hsupplies', rfl⟩⟩

end Merge

namespace Response

open Merge

variable {earlier later results : List FieldResult}

theorem withHits_withHits (r : Response) (took took' : UInt64) (hits hits' : List Hit) :
    (r.withHits took hits).withHits took' hits' = r.withHits took' hits' := rfl

/-- Merging twice is merging once if it is so for the texts of every hit. -/
theorem merge_merge_eq
    (h : ∀ k (data : HitData), (data.withTexts (entries earlier k)).withTexts (entries later k) =
      data.withTexts (entries results k)) (base : Response) (took took' : UInt64) :
    (base.merge earlier took).merge later took' = base.merge results took' := by
  rw [merge_eq_withHits, hits_merge, List.mapIdx_mapIdx, merge_eq_withHits, withHits_withHits,
    merge_eq_withHits]
  congr 1
  refine List.mapIdx_eq_mapIdx_iff.2 fun k hk => ?_
  exact congrArg (fun data => { base.hits[k] with data }) (h k base.hits[k].data)

/-- Merging two rows of results one after the other is merging them together. -/
theorem merge_append (base : Response) (earlier later : List FieldResult)
    (took took' : UInt64) :
    (base.merge earlier took).merge later took' = base.merge (earlier ++ later) took' := by
  refine merge_merge_eq (fun k data => ?_) base took took'
  rw [entries_append, HitData.withTexts_append]

/-- Results that are all put over by the later ones leave no trace. -/
theorem merge_absorbed (h : Covers later earlier) (base : Response) (took took' : UInt64) :
    (base.merge earlier took).merge later took' = base.merge later took' :=
  merge_merge_eq (fun _ data => HitData.withTexts_absorbed h.entries data) base took took'

/-- **Merging again.** Merging results into what a merge gave is merging all the results in a
row, and the time is the later one. Merging the same results again changes nothing, whether or
not they put over each other or name hits and have texts. -/
theorem merge_merge (base : Response) (results more : List FieldResult) (took took' : UInt64) :
    (base.merge results took).merge more took' = base.merge (results ++ more) took' ∧
    (base.merge results took).merge results took = base.merge results took :=
  ⟨merge_append base results more took took', merge_absorbed (fun _ _ h => h) base took took⟩

end Response

end SemanticHighlight
