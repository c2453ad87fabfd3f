import SemanticHighlight.Response
import SemanticHighlight.FieldResult

/-!
# Merging results into a response

Each hit takes the texts of the applicable results at its position, a later result
going before an earlier one for the same field. A hit without any is shared with the base,
and only the others are built anew; the merge says which is which (`Merge.Spliced`).
-/

namespace SemanticHighlight

namespace HitData

/-- The hit with the text of a result as the only fragment of its field. -/
def highlighted (h : HitData) (r : FieldResult) : HitData :=
  { h with highlight := h.highlight.put r.field [r.text] }

end HitData

namespace Merge

/-- The results that have a text for the hit at a position, in order. -/
def applied (results : List FieldResult) (index : Nat) : List FieldResult :=
  results.filter fun r => r.isApplicable && r.hitIndex = index

/-- The results that have a text for a hit beyond the last. -/
def outOfRange (results : List FieldResult) (count : Nat) : List FieldResult :=
  results.filter fun r => r.isApplicable && count ≤ r.hitIndex

/-- The hit with the texts of results, in order. -/
def update (hit : Hit) (results : List FieldResult) : Hit :=
  { hit with data := results.foldl HitData.highlighted hit.data }

/-- A hit of a merged response. -/
inductive Spliced where
  /-- The very hit of the base. -/
  | shared (hit : Hit)
  /-- A hit that was built anew. -/
  | rebuilt (hit : Hit)

namespace Spliced

def hit : Spliced → Hit
  | shared hit | rebuilt hit => hit

def isShared : Spliced → Bool
  | shared _ => true
  | rebuilt _ => false

end Spliced

/-- What becomes of the hit at a position. -/
def splice (results : List FieldResult) (index : Nat) (hit : Hit) : Spliced :=
  match applied results index with
  | [] => .shared hit
  | found => .rebuilt (update hit found)

/-- The warning about a result for a hit beyond the last of `count`. -/
def warning (count : Nat) (r : FieldResult) : String :=
  "[semantic-hl] dropping highlight for '" ++ r.field ++ "': hit index "
    ++ toString r.hitIndex ++ " out of range (" ++ toString count ++ " hits)"

end Merge

namespace Response

/-- What becomes of each hit. -/
def spliced (base : Response) (results : List FieldResult) : List Merge.Spliced :=
  base.hits.mapIdx (Merge.splice results)

/-- The response with the texts of results at their hits, and the given time. -/
def merge (base : Response) (results : List FieldResult) (took : UInt64) : Response :=
  { base with
    took
    page := { base.page with hits := (base.spliced results).map Merge.Spliced.hit } }

/-- For each hit, whether the merged response shares it with the base. -/
def untouched (base : Response) (results : List FieldResult) : List Bool :=
  (base.spliced results).map Merge.Spliced.isShared

/-- The warnings about results that name no hit. -/
def mergeWarnings (base : Response) (results : List FieldResult) : List String :=
  (Merge.outOfRange results base.hits.length).map (Merge.warning base.hits.length)

end Response

end SemanticHighlight
