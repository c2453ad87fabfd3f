import SemanticHighlight.Proofs.Json.Record
import SemanticHighlight.Proofs.Query.Shape

/-!
# Rendering a query and reading it back

A boolean query is rendered occurrence by occurrence, so reading it back groups its clauses
(`grouped`), at every depth (`regrouped`); a stable grouping, which keeps the order of clauses
with the same occurrence (`filter_grouped`). Main statement (`ofValue_toDsl`): any query that
was read and has finite numbers is read back regrouped from what it is rendered as, and is
then rendered as before. A query that was built, and may not be expressible, is read back as
far as it can be expressed (`ofJson_toDsl_eq`).

What a rendering leaves out, a neutral boost, a minimum of zero, a vector of no elements, is
what reading it puts in for a missing parameter.
-/

namespace SemanticHighlight.Query

open Numeric

/-! ## Grouping -/

/-- The clauses in the order of their occurrences, those with the same in the order given. -/
def grouped {α : Type} (clauses : List (Occur × α)) : List (Occur × α) :=
  Occur.all.flatMap fun occur => clauses.filter (·.1 = occur)

mutual

/-- The query with the clauses of each boolean query grouped. -/
def regrouped : Query → Query
  | term field text boost => term field text boost
  | knn field vector k boost => knn field vector k boost
  | neural inner text modelId => neural inner text modelId
  | bool clauses boost minimum => bool (grouped (regroupedClauses clauses)) boost minimum
  | hybrid queries boost => hybrid (regroupedQueries queries) boost

def regroupedClauses : List (Occur × Query) → List (Occur × Query)
  | [] => []
  | (occur, q) :: clauses => (occur, q.regrouped) :: regroupedClauses clauses

def regroupedQueries : List Query → List Query
  | [] => []
  | q :: queries => q.regrouped :: regroupedQueries queries

end

/-- What a query is read back as. -/
def reread (q : Query) : Query := q.expressed.regrouped

mutual

/-- Whether all boosts and all elements of vectors are finite. -/
def hasFiniteNumbers : Query → Bool
  | term _ _ boost => boost.isFinite
  | knn _ vector _ boost => vector.all Binary.isFinite && boost.isFinite
  | neural inner _ _ => inner.hasFiniteNumbers
  | bool clauses boost _ => haveClausesFinite clauses && boost.isFinite
  | hybrid queries boost => haveAllFinite queries && boost.isFinite

def haveClausesFinite : List (Occur × Query) → Bool
  | [] => true
  | (_, q) :: clauses => q.hasFiniteNumbers && haveClausesFinite clauses

def haveAllFinite : List Query → Bool
  | [] => true
  | q :: queries => q.hasFiniteNumbers && haveAllFinite queries

end

/-- Regrouping clauses regroups the query of each. -/
theorem regroupedClauses_eq_map (clauses : List (Occur × Query)) :
    regroupedClauses clauses = clauses.map fun c => (c.1, c.2.regrouped) := by
  induction clauses with
  | nil => rfl
  | cons c clauses ih =>
    show (c.1, c.2.regrouped) :: regroupedClauses clauses = _
    rw [ih]
    rfl

/-- Regrouping a list regroups each query of it. -/
theorem regroupedQueries_eq_map (queries : List Query) :
    regroupedQueries queries = queries.map regrouped := by
  induction queries with
  | nil => rfl
  | cons q queries ih =>
    show q.regrouped :: regroupedQueries queries = _
    rw [ih]
    rfl

/-- A `bool` query is read back with its clauses grouped by kind. -/
theorem reread_bool (clauses : List (Occur × Query)) (boost : Single) (minimum : UInt64) :
    reread (.bool clauses boost minimum) =
      .bool (grouped (clauses.map fun c => (c.1, c.2.reread))) boost minimum := by
  show Query.bool (grouped (regroupedClauses (expressedClauses clauses))) boost minimum = _
  rw [regroupedClauses_eq_map, expressedClauses_eq_map, List.map_map]
  rfl

theorem reread_hybrid (queries : List Query) (boost : Single) :
    reread (.hybrid queries boost) = .hybrid (queries.map reread) boost := by
  show Query.hybrid (regroupedQueries (expressedQueries queries)) boost = _
  rw [regroupedQueries_eq_map, expressedQueries_eq_map, List.map_map]
  rfl

/-- Clauses have finite numbers if each of them does. -/
theorem haveClausesFinite_iff {clauses : List (Occur × Query)} :
    haveClausesFinite clauses = true ↔ ∀ c ∈ clauses, c.2.hasFiniteNumbers = true := by
  induction clauses with
  | nil => exact ⟨fun _ c hc => absurd hc List.not_mem_nil, fun _ => rfl⟩
  | cons c clauses ih =>
    show (c.2.hasFiniteNumbers && haveClausesFinite clauses) = true ↔ _
    rw [Bool.and_eq_true, ih, List.forall_mem_cons]

/-- A list of queries has finite numbers if each of them does. -/
theorem haveAllFinite_iff {queries : List Query} :
    haveAllFinite queries = true ↔ ∀ q ∈ queries, q.hasFiniteNumbers = true := by
  induction queries with
  | nil => exact ⟨fun _ q hq => absurd hq List.not_mem_nil, fun _ => rfl⟩
  | cons q queries ih =>
    show (q.hasFiniteNumbers && haveAllFinite queries) = true ↔ _
    rw [Bool.and_eq_true, ih, List.forall_mem_cons]

section Grouped

variable {α : Type}

/-- Grouping keeps the clauses with an occurrence, and their order. -/
theorem filter_grouped (clauses : List (Occur × α)) (occur : Occur) :
    (grouped clauses).filter (·.1 = occur) = clauses.filter (·.1 = occur) := by
  -- filtering a group by a kind leaves all of it or nothing
  have hgroup : ∀ other, (clauses.filter (·.1 = other)).filter (·.1 = occur) =
      if other = occur then clauses.filter (·.1 = occur) else [] := by
    intro other
    rw [List.filter_filter]
    by_cases h : other = occur
    · subst h
      rw [if_pos rfl]
      simp only [Bool.and_self]
    · rw [if_neg h]
      refine List.filter_eq_nil_iff.2 fun c _ hc => ?_
      rw [Bool.and_eq_true, decide_eq_true_eq, decide_eq_true_eq] at hc
      exact h (hc.2.symm.trans hc.1)
  unfold grouped
  rw [List.filter_flatMap]
  simp only [hgroup]
  cases occur <;> simp [Occur.all]

end Grouped

/-! ## Rendering is blind to the grouping -/

/-- A list of queries is rendered query by query. -/
theorem listDsl_eq_map (queries : List Query) : listDsl queries = queries.map toDsl := by
  induction queries with
  | nil => rfl
  | cons q queries ih =>
    show q.toDsl :: listDsl queries = _
    rw [ih]
    rfl

/-- The clauses of one kind are rendered in their order, and the others left to their own group. -/
theorem clausesDsl_eq_map (occur : Occur) (clauses : List (Occur × Query)) :
    clausesDsl occur clauses = (clauses.filter (·.1 = occur)).map (·.2.toDsl) := by
  induction clauses with
  | nil => rfl
  | cons c clauses ih =>
    obtain ⟨o, q⟩ := c
    unfold clausesDsl
    by_cases h : o = occur
    · rw [if_pos h, ih, List.filter_cons_of_pos (by simpa using h)]
      rfl
    · rw [if_neg h, ih, List.filter_cons_of_neg (by simpa using h)]

/-- A query is rendered as it is when regrouped. -/
theorem toDsl_regrouped (q : Query) : q.regrouped.toDsl = q.toDsl := by
  induction q with
  | term | knn | neural => rfl
  | bool clauses boost minimum ih =>
    -- regrouping does not reorder the clauses of one kind
    have hgroup : ∀ occur, clausesDsl occur (grouped (regroupedClauses clauses)) =
        clausesDsl occur clauses := by
      intro occur
      rw [clausesDsl_eq_map, clausesDsl_eq_map, filter_grouped, regroupedClauses_eq_map,
        List.filter_map, List.map_map]
      refine List.map_congr_left fun c hc => ?_
      exact ih c (List.mem_filter.1 hc).1
    show toDsl (.bool (grouped (regroupedClauses clauses)) boost minimum) = _
    unfold toDsl
    rw [hgroup, hgroup, hgroup, hgroup]
  | hybrid queries boost ih =>
    have hqueries : listDsl (regroupedQueries queries) = listDsl queries := by
      rw [listDsl_eq_map, listDsl_eq_map, regroupedQueries_eq_map, List.map_map]
      exact List.map_congr_left fun q hq => ih q hq
    show toDsl (.hybrid (regroupedQueries queries) boost) = _
    unfold toDsl
    rw [hqueries]

/-! ## Parameters are read back -/

theorem narrowed_double (y : Finite .double) :
    narrowed (.double y) = y.convert .single := by
  unfold narrowed Json.Number.toDouble Binary.convert
  rfl

/-- A finite single is a number that is read as the single. -/
theorem exists_number {x : Single} (hx : x.isFinite = true) :
    ∃ n, Json.ofSingle x = .number n ∧ narrowed n = x := by
  cases x with
  | finite x =>
    obtain ⟨y, hwiden, hnarrow⟩ := widen_narrow x
    exact ⟨.double y, Json.ofSingle_eq hwiden, (narrowed_double y).trans hnarrow⟩
  | infinite | nan => cases hx

/-- Finite elements read back. -/
theorem elements_map {vector : List Single} (hv : ∀ x ∈ vector, x.isFinite = true) :
    elements (vector.map Json.ofSingle) = .ok vector := by
  induction vector with
  | nil => rfl
  | cons x vector ih =>
    obtain ⟨n, hn, hx⟩ := exists_number (hv x List.mem_cons_self)
    rw [List.map_cons, hn]
    unfold elements
    rw [ih fun y hy => hv y (List.mem_cons_of_mem _ hy), hx]
    rfl

theorem vectorOf_vectorJson {vector : List Single} (hv : vector.all Binary.isFinite = true) :
    vectorOf (vectorJson vector) = .ok vector :=
  elements_map (List.all_eq_true.1 hv)

theorem natural64?_ofUInt64 (n : UInt64) : natural64? (.ofUInt64 n) = some n := by
  show ((Json.Number.integer (n.toNat : Int)).natural? UInt64.size).map UInt64.ofNat = some n
  rw [Json.natural?_ofNat n.toNat_lt, Option.map_some, UInt64.ofNat_toNat]

variable {params : List (String × Json)} {boost : Single} {k minimum : UInt64}

/-- A finite boost is read back, also when it is left out for being neutral. -/
theorem boostOf_of_boostField (h : Json.member? params "boost" = boostField boost)
    (hb : boost.isFinite = true) :
    ∃ boost?, boostOf params = .ok boost? ∧ boost?.getD neutralBoost = boost := by
  unfold boostOf
  rw [h]
  unfold boostField
  by_cases hneutral : boost = neutralBoost
  · rw [if_pos hneutral]
    exact ⟨none, rfl, hneutral.symm⟩
  · rw [if_neg hneutral]
    obtain ⟨n, hn, hx⟩ := exists_number hb
    rw [hn]
    exact ⟨some (narrowed n), rfl, hx⟩

/-- The number of neighbours that is given is read. -/
theorem kOf_of_natural {j : Json} (h : Json.member? params "k" = some j)
    (hj : natural64? j = some k) : kOf params = .ok k := by
  unfold kOf
  rw [h]
  dsimp only
  rw [hj]

theorem kOf_of_none (h : Json.member? params "k" = none) : kOf params = .ok defaultK := by
  unfold kOf
  rw [h]

/-- The number of clauses that have to match is read if it is given. -/
theorem minimumOf_of_natural {j : Json}
    (h : Json.member? params "minimum_should_match" = some j)
    (hj : natural64? j = some minimum) : minimumOf params = .ok minimum := by
  unfold minimumOf
  rw [h]
  dsimp only
  rw [hj]

/-- A minimum is read back, also when it is left out for being zero. -/
theorem minimumOf_of_field (h : Json.member? params "minimum_should_match" =
    if minimum = 0 then none else some (.ofUInt64 minimum)) :
    minimumOf params = .ok minimum := by
  by_cases hzero : minimum = 0
  · rw [if_pos hzero] at h
    unfold minimumOf
    rw [h, hzero]
  · rw [if_neg hzero] at h
    exact minimumOf_of_natural h (natural64?_ofUInt64 minimum)

/-! ## Leaves are read back -/

section Leaves

variable {field text : String} {vector : List Single} {modelId : Option String}

/-- A rendered `term` query reads back from either form. The short one is used exactly for a neutral
boost. -/
theorem termOf_rendered (hb : boost.isFinite = true) :
    termOf (single field (if boost = neutralBoost then .string text
      else .object [("value", .string text), ("boost", Json.ofSingle boost)])) =
      .ok (.term field text boost) := by
  by_cases hneutral : boost = neutralBoost
  · rw [if_pos hneutral, hneutral]
    rfl
  · rw [if_neg hneutral]
    have hfield : Json.member? [("value", .string text), ("boost", Json.ofSingle boost)] "boost" =
        boostField boost := by
      simp [boostField, hneutral]
    obtain ⟨boost?, hboost, hget⟩ := boostOf_of_boostField hfield hb
    unfold termOf
    refine bind_eq_ok_iff.2 ⟨(field, _), rfl, ?_⟩
    dsimp only [Json.member?_cons, if_pos]
    refine bind_eq_ok_iff.2 ⟨text, rfl, bind_eq_ok_iff.2 ⟨boost?, hboost, ?_⟩⟩
    rw [hget]

/-- A rendered `knn` query reads back, wherever its parameters stand in the body. -/
theorem knnOf_rendered (hvector : Json.member? params "vector" = some (vectorJson vector))
    (hk : Json.member? params "k" = some (.ofUInt64 k))
    (hboost : Json.member? params "boost" = boostField boost)
    (hv : vector.all Binary.isFinite = true) (hb : boost.isFinite = true) :
    knnOf (single field (.object params)) = .ok (.knn field vector k boost) := by
  have hk := kOf_of_natural hk (natural64?_ofUInt64 k)
  obtain ⟨boost?, hboost, hget⟩ := boostOf_of_boostField hboost hb
  unfold knnOf
  refine bind_eq_ok_iff.2 ⟨(field, _), rfl, bind_eq_ok_iff.2 ⟨params, rfl, ?_⟩⟩
  rw [hvector]
  refine bind_eq_ok_iff.2 ⟨vector, vectorOf_vectorJson hv, bind_eq_ok_iff.2 ⟨k, hk, ?_⟩⟩
  refine bind_eq_ok_iff.2 ⟨boost?, hboost, ?_⟩
  rw [hget]

/-- The vector of a neural query is read back, also when it is left out for being empty. -/
theorem neuralOf_rendered (htext : Json.member? params "query_text" = some (.string text))
    (hmodel : Json.member? params "model_id" = modelId.map .string)
    (hk : kOf params = .ok k)
    (hvector : Json.member? params "vector" = Json.nonempty vectorJson vector)
    (hboost : Json.member? params "boost" = boostField boost)
    (hv : vector.all Binary.isFinite = true) (hb : boost.isFinite = true) :
    neuralOf (single field (.object params)) =
      .ok (.neural (.knn field vector k boost) text modelId) := by
  obtain ⟨boost?, hboost, hget⟩ := boostOf_of_boostField hboost hb
  unfold neuralOf
  refine bind_eq_ok_iff.2 ⟨(field, _), rfl, bind_eq_ok_iff.2 ⟨params, rfl, ?_⟩⟩
  rw [htext, hmodel, hvector]
  dsimp only
  -- a vector without elements is left out, and read as one
  cases vector with
  | nil =>
    refine bind_eq_ok_iff.2 ⟨[], rfl, bind_eq_ok_iff.2 ⟨k, hk, ?_⟩⟩
    refine bind_eq_ok_iff.2 ⟨boost?, hboost, ?_⟩
    rw [hget]
    cases modelId <;> rfl
  | cons x vector =>
    refine bind_eq_ok_iff.2 ⟨x :: vector, vectorOf_vectorJson hv, bind_eq_ok_iff.2 ⟨k, hk, ?_⟩⟩
    refine bind_eq_ok_iff.2 ⟨boost?, hboost, ?_⟩
    rw [hget]
    cases modelId <;> rfl

end Leaves

/-! ## Compound queries are read back -/

section Compound

variable {clauses : List (Occur × Query)} {back : Query → Query}

/-- Rendered queries read back in a list if each of them does on its own. -/
theorem queriesOf_map (queries : List Query) (h : ∀ q ∈ queries, ofJson q.toDsl = .ok (back q)) :
    queriesOf (queries.map toDsl) = .ok (queries.map back) := by
  induction queries with
  | nil => rfl
  | cons q queries ih =>
    rw [List.map_cons]
    unfold queriesOf
    rw [h q List.mem_cons_self, ih fun q hq => h q (List.mem_cons_of_mem _ hq)]
    rfl

/-- The queries with an occurrence, in the order given. -/
theorem queriesOf_clausesDsl (h : ∀ c ∈ clauses, ofJson c.2.toDsl = .ok (back c.2))
    (occur : Occur) :
    queriesOf (clausesDsl occur clauses) =
      .ok (((clauses.map fun c => (c.1, back c.2)).filter (·.1 = occur)).map (·.2)) := by
  have hread := queriesOf_map ((clauses.filter (·.1 = occur)).map (·.2)) <| by
    intro q hq
    obtain ⟨c, hc, rfl⟩ := List.mem_map.1 hq
    exact h c (List.mem_filter.1 hc).1
  rw [List.map_map, List.map_map] at hread
  rw [clausesDsl_eq_map, List.filter_map, List.map_map]
  exact hread

/-- Clauses that have an occurrence are those of their queries. -/
theorem map_occur_eq {occur : Occur} (h : ∀ c ∈ clauses, c.1 = occur) :
    (clauses.map (·.2)).map (occur, ·) = clauses := by
  rw [List.map_map]
  refine (List.map_congr_left fun c hc => ?_).trans (List.map_id clauses)
  show (occur, c.2) = c
  rw [← h c hc]

theorem isBoolSetting_key (occur : Occur) : isBoolSetting occur.key = false := by
  cases occur <;> rfl

theorem ofKey?_key (occur : Occur) : Occur.ofKey? occur.key = some occur := by
  cases occur <;> rfl

/-- A group of clauses is read back, also when it is left out for having none. -/
theorem clausesOf_group {rest : List (Occur × Query)} {fields : List (String × Option Json)}
    (h : ∀ c ∈ clauses, ofJson c.2.toDsl = .ok (back c.2)) (occur : Occur)
    (hrest : clausesOf (Json.present fields) = .ok rest) :
    clausesOf (Json.present
      ((occur.key, Json.nonempty .array (clausesDsl occur clauses)) :: fields)) =
      .ok ((clauses.map fun c => (c.1, back c.2)).filter (·.1 = occur) ++ rest) := by
  have hgroup := queriesOf_clausesDsl h occur
  generalize clauses.map (fun c => (c.1, back c.2)) = clauses' at hgroup ⊢
  have hoccur : ∀ c ∈ clauses'.filter (·.1 = occur), c.1 = occur :=
    fun c hc => of_decide_eq_true (List.mem_filter.1 hc).2
  rw [← map_occur_eq hoccur]
  generalize (clauses'.filter (·.1 = occur)).map (·.2) = queries at hgroup ⊢
  -- a group of no clauses is left out, and has nothing to give back
  cases hjs : clausesDsl occur clauses with
  | nil =>
    rw [hjs] at hgroup
    cases hgroup
    exact hrest
  | cons j js =>
    rw [hjs] at hgroup
    show clausesOf ((occur.key, .array (j :: js)) :: Json.present fields) = _
    unfold clausesOf
    rw [isBoolSetting_key, ofKey?_key, hgroup, hrest]
    rfl

/-- The settings of a boolean query are no clauses. -/
theorem clausesOf_setting {key : String} (hkey : isBoolSetting key = true) (j? : Option Json)
    (fields : List (String × Option Json)) :
    clausesOf (Json.present ((key, j?) :: fields)) = clausesOf (Json.present fields) := by
  cases j? with
  | none => rfl
  | some j =>
    show clausesOf ((key, j) :: Json.present fields) = _
    cases j <;> simp only [clausesOf, if_pos hkey]

/-- A rendered `bool` body reads back if its clauses do. -/
theorem boolOf_rendered (hclauses : clausesOf params = .ok clauses)
    (hminimum : Json.member? params "minimum_should_match" =
      if minimum = 0 then none else some (.ofUInt64 minimum))
    (hboost : Json.member? params "boost" = boostField boost) (hb : boost.isFinite = true) :
    boolOf (.object params) = .ok (.bool clauses boost minimum) := by
  have hminimum := minimumOf_of_field hminimum
  obtain ⟨boost?, hboost, hget⟩ := boostOf_of_boostField hboost hb
  unfold boolOf
  refine bind_eq_ok_iff.2 ⟨clauses, hclauses, bind_eq_ok_iff.2 ⟨minimum, hminimum, ?_⟩⟩
  refine bind_eq_ok_iff.2 ⟨boost?, hboost, ?_⟩
  rw [hget]

/-- A rendered `hybrid` body reads back if its queries do. -/
theorem hybridOf_rendered {queries : List Query} (hqueries : queriesAmong params = .ok queries)
    (hboost : Json.member? params "boost" = boostField boost) (hb : boost.isFinite = true) :
    hybridOf (.object params) = .ok (.hybrid queries boost) := by
  obtain ⟨boost?, hboost, hget⟩ := boostOf_of_boostField hboost hb
  unfold hybridOf
  refine bind_eq_ok_iff.2 ⟨queries, hqueries, bind_eq_ok_iff.2 ⟨boost?, hboost, ?_⟩⟩
  rw [hget]

end Compound

/-! ## Queries are read back -/

/-- Finite numbers are those of the boosts too, also of the boost that is found inside. -/
theorem isFinite_boost {q : Query} (hf : q.hasFiniteNumbers = true) : q.boost.isFinite = true := by
  induction q with
  | term => exact hf
  | neural inner text modelId ih => exact ih hf
  | knn | bool | hybrid => exact ((Bool.and_eq_true _ _).mp hf).2

/-- A neural query is read back with a vector query for what it wraps. -/
theorem ofJson_neural {inner : Query} (hf : inner.hasFiniteNumbers = true) (text : String)
    (modelId : Option String) :
    ofJson (toDsl (.neural inner text modelId)) = .ok (.neural inner.asVector text modelId) := by
  have hb := isFinite_boost hf
  show neuralOf _ = _
  cases inner with
  | knn field vector k boost =>
    obtain ⟨hv, -⟩ := (Bool.and_eq_true _ _).mp hf
    exact neuralOf_rendered rfl (by simp [Json.member?_present])
      (kOf_of_natural (by simp [Json.member?_present]) (natural64?_ofUInt64 k))
      (by simp [Json.member?_present]) (by simp [Json.member?_present, Query.boost]) hv hb
  | term | neural | bool | hybrid =>
    exact neuralOf_rendered rfl (by simp [Json.member?_present])
      (kOf_of_none (by simp [Json.member?_present]))
      (by simp [Json.member?_present, Json.nonempty]) (by simp [Json.member?_present]) rfl hb

/-- A query with finite numbers is read back as far as it can be expressed, and regrouped. -/
theorem ofJson_toDsl_eq {q : Query} (hf : q.hasFiniteNumbers = true) :
    ofJson q.toDsl = .ok q.reread := by
  induction q with
  | term field text boost =>
    show termOf _ = _
    exact termOf_rendered hf
  | knn field vector k boost =>
    obtain ⟨hv, hb⟩ := (Bool.and_eq_true _ _).mp hf
    show knnOf _ = _
    exact knnOf_rendered rfl rfl (by simp [Json.member?_present]) hv hb
  | neural inner text modelId =>
    have hinner : inner.hasFiniteNumbers = true := hf
    exact ofJson_neural hinner text modelId
  | bool clauses boost minimum ih =>
    obtain ⟨hclauses, hb⟩ := (Bool.and_eq_true _ _).mp hf
    have hread : ∀ c ∈ clauses, ofJson c.2.toDsl = .ok c.2.reread :=
      fun c hc => ih c hc (haveClausesFinite_iff.1 hclauses c hc)
    have hsettings : clausesOf (Json.present
        [("minimum_should_match", if minimum = 0 then none else some (.ofUInt64 minimum)),
         ("boost", boostField boost)]) = .ok [] := by
      rw [clausesOf_setting rfl, clausesOf_setting rfl]
      rfl
    -- the four groups in the order in which they are rendered, then what is no clause
    have hgroups := clausesOf_group hread .must (clausesOf_group hread .should
      (clausesOf_group hread .filter (clausesOf_group hread .mustNot hsettings)))
    show boolOf _ = _
    rw [reread_bool]
    exact boolOf_rendered hgroups (by simp [Json.member?_present])
      (by simp [Json.member?_present]) hb
  | hybrid queries boost ih =>
    obtain ⟨hqueries, hb⟩ := (Bool.and_eq_true _ _).mp hf
    have hread := queriesOf_map queries fun q hq => ih q hq (haveAllFinite_iff.1 hqueries q hq)
    rw [← listDsl_eq_map] at hread
    show hybridOf _ = _
    rw [reread_hybrid]
    exact hybridOf_rendered hread (by simp [Json.member?_present]) hb

/-- A query of the query language with finite numbers is read back regrouped. -/
theorem ofJson_toDsl {q : Query} (he : q.Expressible) (hf : q.hasFiniteNumbers = true) :
    ofJson q.toDsl = .ok q.regrouped := by
  rw [ofJson_toDsl_eq hf, reread, he.expressed_eq]

/-- A document is read with the same result from JSON in memory, the faults being worded differently
only. -/
theorem ofValue_eq_ok_iff {v : Json} {q : Query} : ofValue v = .ok q ↔ ofJson v = .ok q := by
  unfold ofValue
  cases ofJson v with
  | ok query => rw [Except.ok.injEq, Except.ok.injEq]
  | error e =>
    constructor
    · intro h
      cases h
    · intro h
      cases h

/-- **Rendering a query that was read and reading it back** gives the query with the clauses
of each boolean query, at every depth, in the order of their occurrences, and nothing else
changed. It is then rendered as before. Its boosts and the elements of its vectors are to be
finite, for a number that is not is rendered as null. -/
theorem ofValue_toDsl {v : Json} {q : Query} (hread : ofValue v = .ok q)
    (hfinite : q.hasFiniteNumbers = true) :
    ofValue q.toDsl = .ok q.regrouped ∧ (ofValue q.toDsl).map toDsl = .ok q.toDsl := by
  have hexpressible := expressible_of_ofJson (ofValue_eq_ok_iff.1 hread)
  have hback := ofValue_eq_ok_iff.2 (ofJson_toDsl hexpressible hfinite)
  refine ⟨hback, ?_⟩
  rw [hback]
  show Except.ok q.regrouped.toDsl = _
  rw [toDsl_regrouped]

/-- Two boolean queries, one in the other, with a single clause in place of an array, scalars
as terms, and numbers that are written as integers. -/
def nestedValue : Json :=
  let term (field : String) (value : Json) : Json := single "term" (single field value)
  single "hybrid" <| .object
    [("queries", .array
      [single "bool" <| .object
        [("should", .array
          [term "title" (.bool true),
           single "bool" (.object [("must_not", term "a" (.string "b")),
             ("filter", .array [single "knn" (single "v" (.object
               [("vector", .array [.ofInt (-3), .ofInt 16777217])]))])])]),
         ("boost", .ofInt 2),
         ("must", term "year" (.object [("value", .ofInt 1969), ("boost", .ofInt 1)])),
         ("minimum_should_match", .ofInt 0)],
       single "neural" (single "e" (.object [("query_text", .string "q"), ("vector", .array []),
         ("k", .ofInt 3), ("model_id", .null)]))])]

/-- What it is rendered as once it has been read. -/
def nestedDsl : Json :=
  let term (field text : String) : Json := single "term" (single field (.string text))
  let number (n : Int) : Json := Json.ofSingle (.ofInt .single n)
  single "hybrid" <| .object
    [("queries", .array
      [single "bool" <| .object
        [("must", .array [term "year" "1969"]),
         ("should", .array
          [term "title" "true",
           single "bool" (.object
             [("filter", .array [single "knn" (single "v" (.object
               [("vector", .array [number (-3), number 16777216]), ("k", .ofInt 10)]))]),
              ("must_not", .array [term "a" "b"])])]),
         ("boost", number 2)],
       single "neural" (single "e" (.object [("query_text", .string "q"), ("k", .ofInt 3)]))])]

/-- A `bool` query with its clauses out of order inside a `hybrid` one. It reads back regrouped, and
prints the same again. -/
theorem ofValue_toDsl_nested :
    ∃ q, ofValue nestedValue = .ok q ∧ q.hasFiniteNumbers = true ∧ q.toDsl = nestedDsl ∧
      ofValue nestedDsl = .ok q.regrouped ∧ (ofValue nestedDsl).map toDsl = .ok nestedDsl := by
  have h : (ofValue nestedValue).toOption.map (fun q => (q.hasFiniteNumbers, q.toDsl)) =
      some (true, nestedDsl) := by
    decide +kernel
  obtain ⟨q, hq, heq⟩ := Option.map_eq_some_iff.1 h
  have hread : ofValue nestedValue = .ok q := by
    cases hv : ofValue nestedValue with
    | error e => rw [hv] at hq; cases hq
    | ok q' => rw [hv] at hq; cases hq; rfl
  obtain ⟨hfinite, hdsl⟩ := Prod.mk.injEq .. ▸ heq
  have hback := ofValue_toDsl hread hfinite
  rw [hdsl] at hback
  exact ⟨q, hread, hfinite, hdsl, hback⟩

end SemanticHighlight.Query
