import SemanticHighlight.Proofs.Hit.Places
import SemanticHighlight.Proofs.Merge.Overlay
import SemanticHighlight.Proofs.Response.RoundTrip

/-!
# What a written response keeps

A response is read from a document, texts are merged into it, and it is written. `Response.Kept`
says what there is of the document then: what is written is read back as the same response, its
hits hold no known member among the unknown ones, and at every place, however deep, it says under
an unknown key what the document says.

Main statement (`Response.kept_of_decode`): a response with finite scores keeps the document that
it was read from, and so it does with texts merged into it. A merge puts texts into the
highlighted fields of hits (`Hit.IsRead.withTexts`), and those fields are known.
-/

namespace SemanticHighlight

/-! ## Hits with texts -/

namespace HitData

variable {h : HitData}

theorem IsRead.withTexts (hread : h.IsRead) (entries : List (String × String)) :
    (h.withTexts entries).IsRead := by
  rw [withTexts_eq]
  exact { hread with }

end HitData

namespace Hit

variable {hit : Hit}

theorem IsRead.withTexts (hread : hit.IsRead) (entries : List (String × String)) :
    (Merge.withTexts hit entries).IsRead := by
  cases hread with
  | mk hdata hinner => exact .mk (hdata.withTexts entries) hinner

theorem hasFiniteScores_withTexts (hit : Hit) (entries : List (String × String)) :
    (Merge.withTexts hit entries).hasFiniteScores = hit.hasFiniteScores := by
  cases hit
  rfl

/-- Texts change no unknown member, of the hit or of those inside it. -/
theorem others_withTexts (hit : Hit) (entries : List (String × String))
    (path : List (String × Nat)) :
    ((Merge.withTexts hit entries).at? path).map (·.data.others) =
      (hit.at? path).map (·.data.others) := by
  cases path <;> rfl

/-- The hits below one that was read could have been read. The induction is on the path. -/
theorem IsRead.at? (hread : hit.IsRead) {path : List (String × Nat)} {inner : Hit}
    (hinner : hit.at? path = some inner) : inner.IsRead := by
  induction path generalizing hit with
  | nil =>
    cases hinner
    exact hread
  | cons step path ih =>
    obtain ⟨name, i⟩ := step
    obtain ⟨next, hnext, hrest⟩ := Option.bind_eq_some_iff.1 hinner
    obtain ⟨page, hpage, hi⟩ := Option.bind_eq_some_iff.1 hnext
    cases hread with
    | mk _ hread =>
      exact ih (hread _ (Json.mem_of_member? hpage) next (List.mem_of_getElem? hi)) hrest

end Hit

namespace Response

variable {r : Response} {v : Json} {key : String}

/-! ## Places -/

/-- The document at a place in the document of a response: a position among its hits, and a place
inside the hit there. -/
def hitDocument? (v : Json) (i : Nat) (path : List (String × Nat)) : Option Json :=
  ((Json.given? parts "hits" v).bind fun page => (Page.documents page)[i]?).bind
    (Hit.document? · path)

/-- The hit at a place in a response. -/
def hitAt? (r : Response) (i : Nat) (path : List (String × Nat)) : Option Hit :=
  r.hits[i]?.bind (·.at? path)

/-- What the document of a response says of the hit at a place under a key. -/
def memberAt? (v : Json) (i : Nat) (path : List (String × Nat)) (key : String) : Option Json :=
  (hitDocument? v i path).bind (Json.get? key)

/-- At every place in a response there is a hit and the value that it was read from, or nothing. -/
theorem rel_hitDocument? (hv : v.IsValue) (h : decode v = .ok r) (i : Nat)
    (path : List (String × Nat)) :
    Option.Rel Hit.Reads (hitDocument? v i path) (r.hitAt? i path) := by
  obtain ⟨-, record, hrecord, hpage⟩ := of_decode h
  have hgiven : Json.given? parts "hits" v = Json.member? record "hits" :=
    Json.given?_of_record hrecord
  refine rel_bind ?_ fun j hit hreads => Hit.rel_document? hreads path
  rw [hgiven]
  unfold Json.Record.defaulted at hpage
  -- a response without hits has none in its document either
  cases hj : Json.member? record "hits" with
  | none =>
    rw [hj] at hpage
    unfold hits
    rw [← Except.ok.inj hpage]
    exact .none
  | some j =>
    rw [hj] at hpage
    exact rel_getElem? (Hit.forall₂_documents (Json.isValue_of_record hv hrecord hj) hpage) i

/-- Under an unknown key the hit at a place holds what the document says. -/
theorem memberAt?_eq (hv : v.IsValue) (h : decode v = .ok r) (hkey : key ∉ HitData.known)
    (i : Nat) (path : List (String × Nat)) :
    memberAt? v i path key = ((r.hitAt? i path).map (·.data.others)).bind (·.find? key) := by
  unfold memberAt?
  have hrel := rel_hitDocument? hv h i path
  generalize hitDocument? v i path = document? at hrel ⊢
  generalize r.hitAt? i path = hit? at hrel ⊢
  cases hrel with
  | none => rfl
  | some hreads => exact Hit.get?_of_reads hreads hkey

theorem IsRead.hitAt? (hread : r.IsRead) {i : Nat} {path : List (String × Nat)} {hit : Hit}
    (hhit : r.hitAt? i path = some hit) : hit.IsRead := by
  obtain ⟨outer, houter, hhit⟩ := Option.bind_eq_some_iff.1 hhit
  exact (hread.hits outer (List.mem_of_getElem? houter)).at? hhit

/-! ## Merged responses -/

/-- Merging results leads from a response that was read to one that could have been. -/
theorem IsRead.merge (hread : r.IsRead) (results : List FieldResult) (took : UInt64) :
    (r.merge results took).IsRead := by
  refine { hread with hits := fun hit hhit => ?_ }
  rw [hits_merge] at hhit
  obtain ⟨k, hk, rfl⟩ := List.mem_mapIdx.1 hhit
  exact (hread.hits _ (List.getElem_mem hk)).withTexts _

/-- Merging results changes no score. -/
theorem hasFiniteScores_merge (hfinite : r.hasFiniteScores = true) (results : List FieldResult)
    (took : UInt64) : (r.merge results took).hasFiniteScores = true := by
  obtain ⟨hmaxScore, hscores⟩ := Hit.pageHasFiniteScores_iff.1 hfinite
  refine Hit.pageHasFiniteScores_iff.2 ⟨hmaxScore, fun hit (hhit : hit ∈ (r.merge _ _).hits) => ?_⟩
  rw [hits_merge] at hhit
  obtain ⟨k, hk, rfl⟩ := List.mem_mapIdx.1 hhit
  rw [Hit.hasFiniteScores_withTexts]
  exact hscores _ (List.getElem_mem hk)

/-- A merge changes no unknown member at any place. -/
theorem others_hitAt?_merge (r : Response) (results : List FieldResult) (took : UInt64) (i : Nat)
    (path : List (String × Nat)) :
    ((r.merge results took).hitAt? i path).map (·.data.others) =
      (r.hitAt? i path).map (·.data.others) := by
  unfold hitAt?
  rw [hits_merge, List.getElem?_mapIdx]
  cases r.hits[i]? with
  | none => rfl
  | some hit => exact Hit.others_withTexts hit _ path

/-! ## What is kept -/

/-- What a response, when it is written, keeps of a document. -/
structure Kept (v : Json) (r : Response) : Prop where
  /-- It is written as a value. -/
  value : r.toJson.IsValue
  /-- It is read back. -/
  read : decode r.toJson = .ok r
  /-- What is read back is written as before. -/
  again : (decode r.toJson).map toJson = .ok r.toJson
  docId : ∀ i path hit, r.hitAt? i path = some hit → hit.data.docId = 0
  /-- No known member is among the unknown ones. -/
  unknown : ∀ i path hit, r.hitAt? i path = some hit →
    ∀ key ∈ Json.keys hit.data.others.entries, key ∉ HitData.known
  /-- There is a hit at a place exactly if the document has one there. -/
  places : v.IsValue → ∀ i path, (r.hitAt? i path).isSome = (hitDocument? v i path).isSome
  /-- The unknown members of the document, and only those, are written with their values. -/
  members : v.IsValue → ∀ i path key, key ∉ HitData.known →
    memberAt? r.toJson i path key = memberAt? v i path key

/-- Any response that was read keeps a document if its hits have the unknown members that those
of the response read from the document have. -/
theorem Kept.of_others {origin : Response} (horigin : decode v = .ok origin) (hread : r.IsRead)
    (hfinite : r.hasFiniteScores = true)
    (hothers : ∀ i path, (r.hitAt? i path).map (·.data.others) =
      (origin.hitAt? i path).map (·.data.others)) : Kept v r := by
  have hback := decode_toJson hread hfinite
  have hvalue := isValue_toJson hread
  exact {
    value := hvalue
    read := hback
    again := by rw [hback]; rfl
    docId := fun i path hit hhit => by
      cases hread.hitAt? hhit with
      | mk hdata _ => exact hdata.docId
    unknown := fun i path hit hhit => by
      cases hread.hitAt? hhit with
      | mk hdata _ => exact hdata.unknown
    -- a place is there in what was read exactly if it is in what is printed
    places := fun hv i path => by
      have hsame := congrArg Option.isSome (hothers i path)
      rw [Option.isSome_map, Option.isSome_map] at hsame
      rw [hsame, isSome_of_rel (rel_hitDocument? hv horigin i path)]
    members := fun hv i path key hkey => by
      rw [memberAt?_eq hvalue hback hkey, memberAt?_eq hv horigin hkey, hothers] }

/-- **Writing a response that was read**, from a document with finite scores at every depth, keeps
the document: it is read back as the same response, and every unknown member of every hit is
written with its value. So is the response that results are merged into, whatever they are. -/
theorem kept_of_decode (h : decode v = .ok r) (hfinite : r.hasFiniteScores = true) :
    Kept v r ∧ ∀ results took, Kept v (r.merge results took) := by
  obtain ⟨hread, -⟩ := of_decode h
  refine ⟨.of_others h hread hfinite fun _ _ => rfl, fun results took => ?_⟩
  exact .of_others h (hread.merge results took) (hasFiniteScores_merge hfinite results took)
    fun i path => others_hitAt?_merge r results took i path

/-- A response with unknown members in a hit and in one inside it, of a page that is an array. -/
def nested : Json :=
  let object (key : String) (j : Json) : Json := .object [(key, j)]
  .object
    [("took", .ofNat 3),
     ("hits", .object
       [("max_score", .null),
        ("hits", .array
          [.object
            [("_routing", .string "user"), ("_id", .string "1"), ("_score", .ofInt 2),
             ("inner_hits", object "comments"
               (.array [.null, .ofInt 1, .array
                 [.object [("_nested", object "offset" (.ofInt 0)), ("_version", .ofInt (-4))]]])),
             ("_ignored", .null)]])])]

/-- The nested response keeps its unknown members, at both depths. -/
theorem kept_of_decode_nested :
    ∃ r, decode nested = .ok r ∧ r.hasFiniteScores = true ∧ decode r.toJson = .ok r ∧
      let merged := r.merge [.succeeded 0 "body" "<em>text</em>" 5] 9
      (merged.hits.map (·.data.highlight.entries)) = [[("body", ["<em>text</em>"])]] ∧
      decode merged.toJson = .ok merged ∧
      memberAt? merged.toJson 0 [] "_ignored" = some .null ∧
      memberAt? merged.toJson 0 [("comments", 0)] "_nested" =
        some (.object [("offset", .ofInt 0)]) := by
  have h : (decode nested).toOption.map (fun r => (r.hasFiniteScores,
      (r.merge [.succeeded 0 "body" "<em>text</em>" 5] 9).hits.map (·.data.highlight.entries))) =
      some (true, [[("body", ["<em>text</em>"])]]) := by
    decide +kernel
  -- the document has an unknown member with null, and another inside an inner hit
  have hvalue : nested.IsValue := ⟨by decide +kernel, by decide +kernel⟩
  have hignored : memberAt? nested 0 [] "_ignored" = some .null := by decide +kernel
  have hplace : memberAt? nested 0 [("comments", 0)] "_nested" =
      some (.object [("offset", .ofInt 0)]) := by
    decide +kernel
  obtain ⟨r, hread, heq⟩ := toOption_map_eq_some_iff.1 h
  obtain ⟨hfinite, hhighlight⟩ := Prod.mk.injEq .. ▸ heq
  obtain ⟨hkept, hmerged⟩ := kept_of_decode hread hfinite
  have hmembers := (hmerged [.succeeded 0 "body" "<em>text</em>" 5] 9).members hvalue
  refine ⟨r, hread, hfinite, hkept.read, hhighlight, (hmerged _ 9).read, ?_, ?_⟩
  · rw [hmembers 0 [] "_ignored" (by decide), hignored]
  · rw [hmembers 0 [("comments", 0)] "_nested" (by decide), hplace]

end Response

end SemanticHighlight
