import SemanticHighlight.Request
import SemanticHighlight.Proofs.Block.RoundTrip
import SemanticHighlight.Proofs.Query.Rendered

/-!
# Requests are read back

A request that was read (`Request.IsRead`) is rendered as a value. From the value the request is
read back with the clauses of its query grouped by occurrence, and one directive for each field
(`Request.reread`, `Request.ofJson_toJson`); nothing else changes, and it is rendered as before
(`Request.toJson_reread`). Numbers of single precision are to be finite, for others are rendered
as null.

Main statement: `Request.reads_back_regrouped`, for the requests in which no field has two
directives.
-/

namespace SemanticHighlight

open Numeric

theorem orJson_eq_ok_iff {α : Type} {x : Except Json.Fault α} {a : α} :
    orJson x = .ok a ↔ x = .ok a := by
  cases x with
  | error fault => exact ⟨fun h => (by cases h), fun h => (by cases h)⟩
  | ok b => exact ⟨fun h => congrArg _ (Except.ok.inj h), fun h => congrArg _ (Except.ok.inj h)⟩

namespace Source

variable {s : Source} {j : Json}

theorem nodup_parts : parts.Nodup := by decide

/-- What holds of a source that was read. -/
structure IsRead (s : Source) : Prop where
  query : ∀ q, s.query = some q → q.Expressible
  postFilter : Json.IsOptionalValue s.postFilter
  trackTotalHits : Json.IsOptionalValue s.trackTotalHits
  sort : ∀ v ∈ s.sort, v.IsValue
  searchAfter : ∀ v ∈ s.searchAfter, v.IsValue
  collapse : Json.IsOptionalValue s.collapse
  suggest : Json.IsOptionalValue s.suggest
  aggregations : Json.IsOptionalValue s.aggregations
  fetchSource : Json.IsOptionalValue s.fetchSource
  highlight : ∀ b, s.highlight = some b → b.IsRead

/-- Whether the numbers of the query and the minimal score are finite. -/
def hasFiniteNumbers (s : Source) : Bool :=
  s.query.all Query.hasFiniteNumbers && s.minScore.all Binary.isFinite

/-- What a source is read back as. -/
def reread (s : Source) : Source :=
  { s with query := s.query.map Query.regrouped, highlight := s.highlight.map Block.perField }

/-- What is read of a source, its query apart, could be held in memory. Each part is a value by the
lemma for its kind of field. -/
theorem isRead_of_decodeParts {query? : Option Json} (h : decodeParts j = .ok (s, query?)) :
    s.query = none ∧ s.IsRead := by
  -- the fields in the order in which they are read; those that hold documents are values
  unfold decodeParts at h
  obtain ⟨r, -, h⟩ := bind_eq_ok_iff.1 h
  obtain ⟨query, -, h⟩ := bind_eq_ok_iff.1 h
  obtain ⟨postFilter, hpostFilter, h⟩ := bind_eq_ok_iff.1 h
  obtain ⟨from?, -, h⟩ := bind_eq_ok_iff.1 h
  obtain ⟨size?, -, h⟩ := bind_eq_ok_iff.1 h
  obtain ⟨timeout, -, h⟩ := bind_eq_ok_iff.1 h
  obtain ⟨minScore, -, h⟩ := bind_eq_ok_iff.1 h
  obtain ⟨trackScores, -, h⟩ := bind_eq_ok_iff.1 h
  obtain ⟨trackTotalHits, htrackTotalHits, h⟩ := bind_eq_ok_iff.1 h
  obtain ⟨terminateAfter, -, h⟩ := bind_eq_ok_iff.1 h
  obtain ⟨sort, hsort, h⟩ := bind_eq_ok_iff.1 h
  obtain ⟨searchAfter, hsearchAfter, h⟩ := bind_eq_ok_iff.1 h
  obtain ⟨collapse, hcollapse, h⟩ := bind_eq_ok_iff.1 h
  obtain ⟨suggest, hsuggest, h⟩ := bind_eq_ok_iff.1 h
  obtain ⟨aggregations, haggregations, h⟩ := bind_eq_ok_iff.1 h
  obtain ⟨explain, -, h⟩ := bind_eq_ok_iff.1 h
  obtain ⟨profile, -, h⟩ := bind_eq_ok_iff.1 h
  obtain ⟨fetchSource, hfetchSource, h⟩ := bind_eq_ok_iff.1 h
  obtain ⟨version, -, h⟩ := bind_eq_ok_iff.1 h
  obtain ⟨seqNoPrimaryTerm, -, h⟩ := bind_eq_ok_iff.1 h
  obtain ⟨highlight, hhighlight, h⟩ := bind_eq_ok_iff.1 h
  cases h
  refine ⟨rfl, ?_⟩
  exact {
    query := fun q hq => by cases hq
    postFilter := Json.Record.isOptionalValue_of_optional hpostFilter
    trackTotalHits := Json.Record.isOptionalValue_of_optional htrackTotalHits
    sort := Json.Record.isValue_of_defaulted hsort
    searchAfter := Json.Record.isValue_of_defaulted hsearchAfter
    collapse := Json.Record.isOptionalValue_of_optional hcollapse
    suggest := Json.Record.isOptionalValue_of_optional hsuggest
    aggregations := Json.Record.isOptionalValue_of_optional haggregations
    fetchSource := Json.Record.isOptionalValue_of_optional hfetchSource
    highlight := fun b hb => by
      obtain ⟨j, -, hj⟩ := Json.Record.of_optional hhighlight b hb
      exact Block.isRead_of_decode hj }

/-- A source that was read could be held in memory, and its query is one that the language has. -/
theorem isRead_of_ofJson (h : ofJson j = .ok s) : s.IsRead := by
  unfold ofJson at h
  obtain ⟨⟨source, query?⟩, hparts, h⟩ := bind_eq_ok_iff.1 h
  obtain ⟨-, hread⟩ := isRead_of_decodeParts (orJson_eq_ok_iff.1 hparts)
  dsimp only at h
  cases query? with
  | none =>
    cases h
    exact hread
  | some v =>
    obtain ⟨q, hq, h⟩ := bind_eq_ok_iff.1 h
    cases h
    refine { hread with query := fun q' hq' => ?_ }
    cases hq'
    exact Query.expressible_of_ofJson (Query.ofValue_eq_ok_iff.1 hq)

theorem minScore_isFinite (h : s.hasFiniteNumbers = true) :
    ∀ x, s.minScore = some x → x.isFinite = true :=
  all_isFinite_iff.1 (Bool.and_eq_true_iff.1 h).2

theorem isOptionalValue_dsl (s : Source) : Json.IsOptionalValue (s.query.map Query.toDsl) := by
  intro j hj
  obtain ⟨q, -, rfl⟩ := Option.map_eq_some_iff.1 hj
  exact ⟨q.isValue_toDsl, by cases q <;> simp [Query.toDsl, Query.single]⟩

/-- All parts of a source are read back, and of its query the value it is rendered as. -/
theorem decodeParts_toJson (h : s.IsRead) (hfinite : s.hasFiniteNumbers = true) :
    decodeParts s.toJson =
      .ok ({ s.reread with query := none }, s.query.map Query.toDsl) := by
  obtain ⟨r, hrecord, hr⟩ : ∃ r, Json.record parts [("aggs", "aggregations")] s.toJson = .ok r ∧
      r.Holds _ := Json.exists_record rfl nodup_parts (by decide)
  -- a block is rendered as the document of what it keeps, and that is what is read back
  have hhighlight : r.optional "highlight" Block.decode = .ok (s.highlight.map Block.perField) := by
    have hjson : s.highlight.map Block.toJson =
        (s.highlight.map Block.perField).map Block.document := by
      rw [Option.map_map]
      exact congrArg (Option.map · s.highlight) (funext Block.toJson_eq_document)
    have hfield := congrArg (fun j? => some ("highlight", j?)) hjson
    refine hr.optional_at 19 hfield fun kept hkept => ?_
    obtain ⟨b, hb, rfl⟩ := Option.map_eq_some_iff.1 hkept
    exact Block.readsBack_document (h.highlight b hb).perField
  unfold decodeParts
  refine bind_eq_ok_iff.2 ⟨r, hrecord, ?_⟩
  refine bind_eq_ok_iff.2 ⟨_, hr.value_at 0 rfl s.isOptionalValue_dsl, ?_⟩
  refine bind_eq_ok_iff.2 ⟨_, hr.value_at 1 rfl h.postFilter, ?_⟩
  refine bind_eq_ok_iff.2 ⟨_, hr.optional_at 2 rfl fun n _ => Json.readsBack_uint64 n, ?_⟩
  refine bind_eq_ok_iff.2 ⟨_, hr.optional_at 3 rfl fun n _ => Json.readsBack_uint64 n, ?_⟩
  refine bind_eq_ok_iff.2 ⟨_, hr.optional_at 4 rfl fun s _ => Json.readsBack_text s, ?_⟩
  refine bind_eq_ok_iff.2 ⟨_, hr.optional_at 5 rfl fun x hx =>
    Json.readsBack_single (minScore_isFinite hfinite x hx), ?_⟩
  refine bind_eq_ok_iff.2 ⟨_, hr.flag_at 6 rfl, ?_⟩
  refine bind_eq_ok_iff.2 ⟨_, hr.value_at 7 rfl h.trackTotalHits, ?_⟩
  refine bind_eq_ok_iff.2 ⟨_, hr.optional_at 8 rfl fun n _ => Json.readsBack_uint64 n, ?_⟩
  refine bind_eq_ok_iff.2 ⟨_, hr.list_at 9 rfl (Json.list_values h.sort), ?_⟩
  refine bind_eq_ok_iff.2 ⟨_, hr.list_at 10 rfl (Json.list_values h.searchAfter), ?_⟩
  refine bind_eq_ok_iff.2 ⟨_, hr.value_at 11 rfl h.collapse, ?_⟩
  refine bind_eq_ok_iff.2 ⟨_, hr.value_at 12 rfl h.suggest, ?_⟩
  refine bind_eq_ok_iff.2 ⟨_, hr.value_at 13 rfl h.aggregations, ?_⟩
  refine bind_eq_ok_iff.2 ⟨_, hr.optional_at 14 rfl fun b _ => Json.readsBack_boolean b, ?_⟩
  refine bind_eq_ok_iff.2 ⟨_, hr.flag_at 15 rfl, ?_⟩
  refine bind_eq_ok_iff.2 ⟨_, hr.value_at 16 rfl h.fetchSource, ?_⟩
  refine bind_eq_ok_iff.2 ⟨_, hr.optional_at 17 rfl fun b _ => Json.readsBack_boolean b, ?_⟩
  refine bind_eq_ok_iff.2 ⟨_, hr.optional_at 18 rfl fun b _ => Json.readsBack_boolean b, ?_⟩
  refine bind_eq_ok_iff.2 ⟨_, hhighlight, ?_⟩
  rfl

/-- A source is read back with its query regrouped and one directive for each field. -/
theorem ofJson_toJson (h : s.IsRead) (hfinite : s.hasFiniteNumbers = true) :
    ofJson s.toJson = .ok s.reread := by
  unfold ofJson
  refine bind_eq_ok_iff.2 ⟨_, orJson_eq_ok_iff.2 (decodeParts_toJson h hfinite), ?_⟩
  -- the query is read from its own document, once the rest has been
  cases hq : s.query with
  | none =>
    show Except.ok _ = _
    unfold reread
    rw [hq]
    rfl
  | some q =>
    have hall := (Bool.and_eq_true_iff.1 hfinite).1
    rw [hq] at hall
    have hback := Query.ofJson_toDsl (h.query q hq) hall
    refine bind_eq_ok_iff.2 ⟨_, Query.ofValue_eq_ok_iff.2 hback, ?_⟩
    unfold reread
    rw [hq]
    rfl

/-- A source prints as what it is read back as does. -/
theorem toJson_reread (s : Source) : s.reread.toJson = s.toJson := by
  have hquery : s.reread.query.map Query.toDsl = s.query.map Query.toDsl := by
    unfold reread
    rw [Option.map_map]
    exact congrArg (Option.map · s.query) (funext Query.toDsl_regrouped)
  have hhighlight : s.reread.highlight.map Block.toJson = s.highlight.map Block.toJson := by
    unfold reread
    rw [Option.map_map]
    exact congrArg (Option.map · s.highlight) (funext Block.toJson_perField)
  unfold toJson
  rw [hquery, hhighlight]
  rfl

/-- A source prints as a value. -/
theorem isValue_toJson (h : s.IsRead) : s.toJson.IsValue := by
  refine Json.isValue_ofFields nodup_parts ?_
  simp only [List.forall_mem_cons]
  exact ⟨s.isOptionalValue_dsl.holdsValue, h.postFilter.holdsValue,
    Json.holdsValue_map fun _ _ => Json.isValue_number _,
    Json.holdsValue_map fun _ _ => Json.isValue_number _,
    Json.holdsValue_map fun t _ => Json.isValue_string t,
    Json.holdsValue_map fun x _ => Json.isValue_ofSingle x,
    Json.holdsValue_onlyTrue _, h.trackTotalHits.holdsValue,
    Json.holdsValue_map fun _ _ => Json.isValue_number _,
    Json.holdsValue_nonempty (Json.isValue_array_iff.2 h.sort),
    Json.holdsValue_nonempty (Json.isValue_array_iff.2 h.searchAfter),
    h.collapse.holdsValue, h.suggest.holdsValue, h.aggregations.holdsValue,
    Json.holdsValue_map fun b _ => Json.isValue_bool b,
    Json.holdsValue_onlyTrue _, h.fetchSource.holdsValue,
    Json.holdsValue_map fun b _ => Json.isValue_bool b,
    Json.holdsValue_map fun b _ => Json.isValue_bool b,
    Json.holdsValue_map fun b hb => Block.isValue_toJson (h.highlight b hb),
    fun _ hf => absurd hf List.not_mem_nil⟩

end Source

namespace Request

variable {r : Request} {j : Json}

theorem nodup_parts : parts.Nodup := by decide

/-- What holds of a request that was read. -/
def IsRead (r : Request) : Prop := ∀ s, r.source = some s → s.IsRead

/-- Whether the boosts and vectors of the query and the minimal score are finite. -/
def hasFiniteNumbers (r : Request) : Bool := r.source.all Source.hasFiniteNumbers

/-- What a request is read back as. -/
def reread (r : Request) : Request := { r with source := r.source.map Source.reread }

/-- A request that was read could be held in memory, all its members being values. -/
theorem isRead_of_ofJson (h : ofJson j = .ok r) : r.IsRead := by
  unfold ofJson at h
  obtain ⟨⟨request, source?⟩, hparts, h⟩ := bind_eq_ok_iff.1 h
  -- the source is read apart, and put in last
  have hnone : request.source = none := by
    have hparts := orJson_eq_ok_iff.1 hparts
    unfold decodeParts at hparts
    obtain ⟨r, -, hparts⟩ := bind_eq_ok_iff.1 hparts
    obtain ⟨indices, -, hparts⟩ := bind_eq_ok_iff.1 hparts
    obtain ⟨routing, -, hparts⟩ := bind_eq_ok_iff.1 hparts
    obtain ⟨preference, -, hparts⟩ := bind_eq_ok_iff.1 hparts
    obtain ⟨searchType, -, hparts⟩ := bind_eq_ok_iff.1 hparts
    obtain ⟨scroll, -, hparts⟩ := bind_eq_ok_iff.1 hparts
    obtain ⟨source, -, hparts⟩ := bind_eq_ok_iff.1 hparts
    cases hparts
    rfl
  intro s hs
  dsimp only at h
  cases source? with
  | none =>
    cases h
    rw [hnone] at hs
    cases hs
  | some v =>
    obtain ⟨source, hsource, h⟩ := bind_eq_ok_iff.1 h
    cases h
    cases hs
    exact Source.isRead_of_ofJson hsource

theorem choice_name (t : SearchType) :
    Json.Decode.choice SearchType.choices (.string t.name) = .ok t :=
  Json.choice_name (by cases t <;> decide)

theorem isOptionalValue_source (h : r.IsRead) :
    Json.IsOptionalValue (r.source.map Source.toJson) := by
  intro j hj
  obtain ⟨s, hs, rfl⟩ := Option.map_eq_some_iff.1 hj
  exact ⟨Source.isValue_toJson (h s hs), by simp [Source.toJson, Json.ofFields]⟩

/-- All parts of a request are read back, and of its source the value it is rendered as. -/
theorem decodeParts_toJson (h : r.IsRead) :
    decodeParts r.toJson = .ok ({ r with source := none }, r.source.map Source.toJson) := by
  obtain ⟨record, hrecord, hr⟩ : ∃ record, Json.record parts [] r.toJson = .ok record ∧
      record.Holds _ := Json.exists_record rfl nodup_parts fun _ _ => rfl
  unfold decodeParts
  refine bind_eq_ok_iff.2 ⟨record, hrecord, ?_⟩
  refine bind_eq_ok_iff.2 ⟨_, hr.list_at 0 rfl (Json.readsBack_strings _).read, ?_⟩
  refine bind_eq_ok_iff.2 ⟨_, hr.optional_at 1 rfl fun s _ => Json.readsBack_text s, ?_⟩
  refine bind_eq_ok_iff.2 ⟨_, hr.optional_at 2 rfl fun s _ => Json.readsBack_text s, ?_⟩
  refine bind_eq_ok_iff.2 ⟨_, hr.given_at 3 rfl (choice_name _), ?_⟩
  refine bind_eq_ok_iff.2 ⟨_, hr.optional_at 4 rfl fun s _ => Json.readsBack_text s, ?_⟩
  refine bind_eq_ok_iff.2 ⟨_, hr.value_at 5 rfl (isOptionalValue_source h), ?_⟩
  rfl

/-- A request is read back with its query regrouped and one directive for each field. -/
theorem ofJson_toJson (h : r.IsRead) (hfinite : r.hasFiniteNumbers = true) :
    ofJson r.toJson = .ok r.reread := by
  unfold ofJson
  refine bind_eq_ok_iff.2 ⟨_, orJson_eq_ok_iff.2 (decodeParts_toJson h), ?_⟩
  unfold reread
  cases hs : r.source with
  | none => rfl
  | some s =>
    have hall : s.hasFiniteNumbers = true := by
      unfold hasFiniteNumbers at hfinite
      rw [hs] at hfinite
      exact hfinite
    refine bind_eq_ok_iff.2 ⟨_, Source.ofJson_toJson (h s hs) hall, ?_⟩
    rfl

theorem highlight?_reread (r : Request) :
    r.reread.highlight? = r.highlight?.map Block.perField := by
  obtain ⟨_, _, _, _, _, source⟩ := r
  cases source <;> rfl

theorem query?_reread (r : Request) : r.reread.query? = r.query?.map Query.regrouped := by
  obtain ⟨_, _, _, _, _, source⟩ := r
  cases source <;> rfl

/-- What is read back is rendered as before. -/
theorem toJson_reread (r : Request) : r.reread.toJson = r.toJson := by
  have hsource : r.reread.source.map Source.toJson = r.source.map Source.toJson := by
    unfold reread
    rw [Option.map_map]
    exact congrArg (Option.map · r.source) (funext Source.toJson_reread)
  unfold toJson
  rw [hsource]
  rfl

/-- A request prints as a value. -/
theorem isValue_toJson (h : r.IsRead) : r.toJson.IsValue := by
  refine Json.isValue_ofFields nodup_parts ?_
  simp only [List.forall_mem_cons]
  exact ⟨Json.holdsValue_nonempty (Json.isValue_ofStrings _),
    Json.holdsValue_map fun t _ => Json.isValue_string t,
    Json.holdsValue_map fun t _ => Json.isValue_string t,
    Json.holdsValue_some (Json.isValue_string _),
    Json.holdsValue_map fun t _ => Json.isValue_string t,
    (isOptionalValue_source h).holdsValue, fun _ hf => absurd hf List.not_mem_nil⟩

/-! ## Requests that name no field twice -/

/-- The directives of a request; none if it has no highlight block. -/
def directives (r : Request) : List Directive := (r.highlight?.map (·.directives)).getD []

/-- The request with the clauses of each boolean query grouped by occurrence. -/
def regrouped (r : Request) : Request :=
  { r with source := r.source.map fun s => { s with query := s.query.map Query.regrouped } }

/-- A block without repeated fields keeps all its directives. -/
theorem map_perField_highlight? (h : (r.directives.map (·.field)).Nodup) :
    r.highlight?.map Block.perField = r.highlight? := by
  cases hb : r.highlight? with
  | none => rfl
  | some b =>
    unfold directives at h
    rw [hb] at h
    exact congrArg some (Block.perField_eq_self_iff.2 h)

/-- A request without repeated fields is read back as itself, its query regrouped. -/
theorem reread_eq_regrouped (h : (r.directives.map (·.field)).Nodup) : r.reread = r.regrouped := by
  have hsame := map_perField_highlight? h
  obtain ⟨_, _, _, _, _, source⟩ := r
  cases source with
  | none => rfl
  | some s =>
    have hsame : s.highlight.map Block.perField = s.highlight := hsame
    unfold reread regrouped Source.reread
    dsimp only [Option.map_some]
    rw [hsame]

/-- **Rendering a request that was read and reading it back** gives the request with the clauses
of each boolean query, at every depth, grouped by occurrence, and nothing else changed: neither
any other part of its source, nor its highlight block with the directives in their order, nor
anything around them. It is rendered as a value, and what is read back is rendered as the same
value. The boosts, the elements of vectors and the minimal score are to be finite, and no field is
to have two directives. -/
theorem reads_back_regrouped {v : Json} (hread : ofJson v = .ok r)
    (hfinite : r.hasFiniteNumbers = true) (hfields : (r.directives.map (·.field)).Nodup) :
    r.toJson.IsValue ∧ ofJson r.toJson = .ok r.regrouped ∧
      (ofJson r.toJson).map toJson = .ok r.toJson := by
  have hisRead := isRead_of_ofJson hread
  have hback := ofJson_toJson hisRead hfinite
  refine ⟨isValue_toJson hisRead, ?_, ?_⟩
  · rw [hback, reread_eq_regrouped hfields]
  · rw [hback]
    show Except.ok r.reread.toJson = _
    rw [toJson_reread]

/-- A request with an alias, a search type given as an object, an empty list, a null, numbers that
are written as integers, directives in an array, and a boolean query in another order. -/
def givenValue : Json :=
  let object (key : String) (j : Json) : Json := .object [(key, j)]
  .object
    [("search_type", object "dfs_query_then_fetch" .null),
     ("indices", .array []),
     ("unknown", .bool true),
     ("source", .object
       [("aggs", object "years" .null),
        ("min_score", .ofInt 16777217),
        ("post_filter", .null),
        ("sort", .array [.null, object "date" (.string "desc")]),
        ("profile", .bool false),
        ("highlight", .object
          [("fields", .array
             [.object [("title", .object []), ("body", object "type" (.string "semantic"))],
              object "notes" (object "options" (.object [("b", .null), ("a", .ofInt 1)]))]),
           ("type", .null)]),
        ("query", object "bool" (.object
          [("should", object "term" (object "t" (.string "s"))),
           ("must", object "term" (object "t" (.string "m")))]))])]

/-- What it is rendered as once it has been read. -/
def givenRendered : Json :=
  let object (key : String) (j : Json) : Json := .object [(key, j)]
  .object
    [("search_type", .string "dfs_query_then_fetch"),
     ("source", .object
       [("query", object "bool" (.object
          [("must", .array [object "term" (object "t" (.string "m"))]),
           ("should", .array [object "term" (object "t" (.string "s"))])])),
        ("min_score", .ofSingle (.ofInt .single 16777216)),
        ("sort", .array [.null, object "date" (.string "desc")]),
        ("aggregations", object "years" .null),
        ("highlight", object "fields" (.object
          [("body", object "type" (.string "semantic")),
           ("title", .object []),
           ("notes", object "options" (.object [("a", .ofInt 1), ("b", .null)]))]))])]

/-- A request with a query whose clauses are out of order, a block, and members of every kind. -/
theorem reads_back_regrouped_given :
    ∃ r, ofJson givenValue = .ok r ∧ r.hasFiniteNumbers = true ∧
      (r.directives.map (·.field)).Nodup ∧ r.toJson = givenRendered ∧
      ofJson givenRendered = .ok r.regrouped ∧
      (ofJson givenRendered).map toJson = .ok givenRendered := by
  have h : (ofJson givenValue).toOption.map
      (fun r => (r.hasFiniteNumbers, r.directives.map (·.field), r.toJson)) =
      some (true, ["body", "title", "notes"], givenRendered) := by
    decide +kernel
  obtain ⟨r, hread, heq⟩ := toOption_map_eq_some_iff.1 h
  obtain ⟨hfinite, hrest⟩ := Prod.mk.injEq .. ▸ heq
  obtain ⟨hnames, hdsl⟩ := Prod.mk.injEq .. ▸ hrest
  have hfields : (r.directives.map (·.field)).Nodup := by
    rw [hnames]
    decide
  obtain ⟨-, hback⟩ := reads_back_regrouped hread hfinite hfields
  rw [hdsl] at hback
  exact ⟨r, hread, hfinite, hfields, hdsl, hback⟩

end Request

end SemanticHighlight
