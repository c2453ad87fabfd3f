import SemanticHighlight.Query.Reader
import SemanticHighlight.Proofs.Json.Fields

/-!
# The shape of query trees

`Query.induct` is induction over query trees: what holds of the leaves, and of a compound
query whenever it holds of the queries in it, holds of every query. `Expressible` are the
queries that the query language has, in which a neural query wraps a vector query;
`expressible_of_ofJson` says that nothing else is read. `expressed` makes any query
expressible, with a vector query in place of whatever else a neural query wraps.
-/

namespace SemanticHighlight.Query

open Numeric

/-- Induction over query trees. -/
@[elab_as_elim, induction_eliminator]
theorem induct {motive : Query → Prop}
    (term : ∀ field text boost, motive (.term field text boost))
    (knn : ∀ field vector k boost, motive (.knn field vector k boost))
    (neural : ∀ inner text modelId, motive inner → motive (.neural inner text modelId))
    (bool : ∀ clauses boost minimum, (∀ c ∈ clauses, motive c.2) →
      motive (.bool clauses boost minimum))
    (hybrid : ∀ queries boost, (∀ q ∈ queries, motive q) → motive (.hybrid queries boost))
    (q : Query) : motive q :=
  @Query.rec motive (fun clauses => ∀ c ∈ clauses, motive c.2)
    (fun queries => ∀ q ∈ queries, motive q) (fun c => motive c.2)
    term knn neural bool hybrid
    (fun _ hc => absurd hc List.not_mem_nil)
    (fun _ _ hc hcs => List.forall_mem_cons.2 ⟨hc, hcs⟩)
    (fun _ hq => absurd hq List.not_mem_nil)
    (fun _ _ hq hqs => List.forall_mem_cons.2 ⟨hq, hqs⟩)
    (fun _ _ hq => hq) q

/-- The queries that the query language has. -/
inductive Expressible : Query → Prop
  | term (field text : String) (boost : Single) : Expressible (.term field text boost)
  | knn (field : String) (vector : List Single) (k : UInt64) (boost : Single) :
      Expressible (.knn field vector k boost)
  | neural (field : String) (vector : List Single) (k : UInt64) (boost : Single) (text : String)
      (modelId : Option String) :
      Expressible (.neural (.knn field vector k boost) text modelId)
  | bool (clauses : List (Occur × Query)) (boost : Single) (minimum : UInt64)
      (h : ∀ c ∈ clauses, Expressible c.2) : Expressible (.bool clauses boost minimum)
  | hybrid (queries : List Query) (boost : Single) (h : ∀ q ∈ queries, Expressible q) :
      Expressible (.hybrid queries boost)

/-- The vector query in place of what a neural query wraps: for the same field, if there is
one, and with the same boost. -/
def asVector : Query → Query
  | knn field vector k boost => knn field vector k boost
  | q => knn (q.field?.getD "") [] defaultK q.boost

mutual

/-- The query in which each neural query wraps a vector query. -/
def expressed : Query → Query
  | term field text boost => term field text boost
  | knn field vector k boost => knn field vector k boost
  | neural inner text modelId => neural inner.asVector text modelId
  | bool clauses boost minimum => bool (expressedClauses clauses) boost minimum
  | hybrid queries boost => hybrid (expressedQueries queries) boost

def expressedClauses : List (Occur × Query) → List (Occur × Query)
  | [] => []
  | (occur, q) :: clauses => (occur, q.expressed) :: expressedClauses clauses

def expressedQueries : List Query → List Query
  | [] => []
  | q :: queries => q.expressed :: expressedQueries queries

end

/-- In clauses each query is taken as expressed. -/
theorem expressedClauses_eq_map (clauses : List (Occur × Query)) :
    expressedClauses clauses = clauses.map fun c => (c.1, c.2.expressed) := by
  induction clauses with
  | nil => rfl
  | cons c clauses ih =>
    show (c.1, c.2.expressed) :: expressedClauses clauses = _
    rw [ih]
    rfl

/-- In a list each query is taken as expressed. -/
theorem expressedQueries_eq_map (queries : List Query) :
    expressedQueries queries = queries.map expressed := by
  induction queries with
  | nil => rfl
  | cons q queries ih =>
    show q.expressed :: expressedQueries queries = _
    rw [ih]
    rfl

/-- An expressible query is left alone. -/
theorem Expressible.expressed_eq {q : Query} (h : q.Expressible) : q.expressed = q := by
  induction h with
  | term | knn | neural => rfl
  | bool clauses boost minimum _ ih =>
    have hclauses : clauses.map (fun c => (c.1, c.2.expressed)) = clauses := by
      refine (List.map_congr_left fun c hc => ?_).trans (List.map_id clauses)
      show (c.1, c.2.expressed) = c
      rw [ih c hc]
    unfold expressed
    rw [expressedClauses_eq_map, hclauses]
  | hybrid queries boost _ ih =>
    unfold expressed
    rw [expressedQueries_eq_map, List.map_congr_left ih, List.map_id']

/-! ## What is read is expressible -/

/-- What the parser of `term` reads is a query that the language has. -/
theorem expressible_of_termOf {j : Json} {q : Query} (h : termOf j = .ok q) : q.Expressible := by
  unfold termOf at h
  obtain ⟨⟨field, spec⟩, -, h⟩ := bind_eq_ok_iff.1 h
  dsimp only at h
  split at h
  · split at h
    · cases h
    · obtain ⟨text, -, h⟩ := bind_eq_ok_iff.1 h
      obtain ⟨boost, -, h⟩ := bind_eq_ok_iff.1 h
      cases h
      exact .term ..
  · obtain ⟨text, -, h⟩ := bind_eq_ok_iff.1 h
    cases h
    exact .term ..

/-- So is what the parser of `knn` reads. -/
theorem expressible_of_knnOf {j : Json} {q : Query} (h : knnOf j = .ok q) : q.Expressible := by
  unfold knnOf at h
  obtain ⟨⟨field, spec⟩, -, h⟩ := bind_eq_ok_iff.1 h
  obtain ⟨params, -, h⟩ := bind_eq_ok_iff.1 h
  split at h
  · cases h
  · obtain ⟨vector, -, h⟩ := bind_eq_ok_iff.1 h
    obtain ⟨k, -, h⟩ := bind_eq_ok_iff.1 h
    obtain ⟨boost, -, h⟩ := bind_eq_ok_iff.1 h
    cases h
    exact .knn ..

/-- So is what the parser of `neural` reads, which wraps a vector query. -/
theorem expressible_of_neuralOf {j : Json} {q : Query} (h : neuralOf j = .ok q) :
    q.Expressible := by
  unfold neuralOf at h
  obtain ⟨⟨field, spec⟩, -, h⟩ := bind_eq_ok_iff.1 h
  obtain ⟨params, -, h⟩ := bind_eq_ok_iff.1 h
  split at h
  · -- a vector query is made of what is there, whether or not there is a vector
    generalize Json.member? params "vector" = vector? at h
    dsimp only at h
    cases vector?
    all_goals
      obtain ⟨vector, -, h⟩ := bind_eq_ok_iff.1 h
      obtain ⟨k, -, h⟩ := bind_eq_ok_iff.1 h
      obtain ⟨boost, -, h⟩ := bind_eq_ok_iff.1 h
      cases h
      exact .neural ..
  · cases h

mutual

/-- Whatever is read from a document is a query that the language has. The recursion is that of the
parsers. -/
theorem expressible_of_ofJson : ∀ {j : Json} {q : Query}, ofJson j = .ok q → q.Expressible
  | .object [(kind, body)], q, h => by
    unfold ofJson at h
    split at h
    · exact expressible_of_termOf h
    · split at h
      · exact expressible_of_boolOf h
      · split at h
        · exact expressible_of_knnOf h
        · split at h
          · exact expressible_of_neuralOf h
          · split at h
            · exact expressible_of_hybridOf h
            · cases h

/-- So is a `bool` query. -/
theorem expressible_of_boolOf : ∀ {j : Json} {q : Query}, boolOf j = .ok q → q.Expressible
  | .object params, q, h => by
    unfold boolOf at h
    obtain ⟨clauses, hclauses, h⟩ := bind_eq_ok_iff.1 h
    obtain ⟨minimum, -, h⟩ := bind_eq_ok_iff.1 h
    obtain ⟨boost, -, h⟩ := bind_eq_ok_iff.1 h
    cases h
    exact .bool _ _ _ (expressible_of_clausesOf hclauses)

/-- So is each clause. A group may be a list or a single document, and a setting holds none. -/
theorem expressible_of_clausesOf : ∀ {params : List (String × Json)}
    {clauses : List (Occur × Query)}, clausesOf params = .ok clauses →
      ∀ c ∈ clauses, c.2.Expressible
  | [], clauses, h => by
    cases h
    exact fun c hc => absurd hc List.not_mem_nil
  | (key, .array js) :: rest, clauses, h => by
    unfold clausesOf at h
    split at h
    · exact expressible_of_clausesOf h
    · split at h
      · cases h
      · obtain ⟨queries, hqueries, h⟩ := bind_eq_ok_iff.1 h
        obtain ⟨others, hothers, h⟩ := bind_eq_ok_iff.1 h
        cases h
        refine List.forall_mem_append.2 ⟨fun c hc => ?_, expressible_of_clausesOf hothers⟩
        obtain ⟨q, hq, rfl⟩ := List.mem_map.1 hc
        exact expressible_of_queriesOf hqueries q hq
  | (key, .null) :: rest, clauses, h | (key, .bool _) :: rest, clauses, h
  | (key, .number _) :: rest, clauses, h | (key, .string _) :: rest, clauses, h
  | (key, .object _) :: rest, clauses, h | (key, .unreadable) :: rest, clauses, h => by
    unfold clausesOf at h
    split at h
    · exact expressible_of_clausesOf h
    · split at h
      · cases h
      · obtain ⟨query, hquery, h⟩ := bind_eq_ok_iff.1 h
        obtain ⟨others, hothers, h⟩ := bind_eq_ok_iff.1 h
        cases h
        exact List.forall_mem_cons.2
          ⟨expressible_of_ofJson hquery, expressible_of_clausesOf hothers⟩

/-- So is a `hybrid` query. -/
theorem expressible_of_hybridOf : ∀ {j : Json} {q : Query}, hybridOf j = .ok q → q.Expressible
  | .object params, q, h => by
    unfold hybridOf at h
    obtain ⟨queries, hqueries, h⟩ := bind_eq_ok_iff.1 h
    obtain ⟨boost, -, h⟩ := bind_eq_ok_iff.1 h
    cases h
    exact .hybrid _ _ (expressible_of_queriesAmong hqueries)

/-- So is each query of a `hybrid` body. Only a list will do there. -/
theorem expressible_of_queriesAmong : ∀ {params : List (String × Json)} {queries : List Query},
    queriesAmong params = .ok queries → ∀ q ∈ queries, q.Expressible
  | (key, .array js) :: rest, queries, h => by
    unfold queriesAmong at h
    split at h
    · exact expressible_of_queriesOf h
    · exact expressible_of_queriesAmong h
  | (key, .null) :: rest, queries, h | (key, .bool _) :: rest, queries, h
  | (key, .number _) :: rest, queries, h | (key, .string _) :: rest, queries, h
  | (key, .object _) :: rest, queries, h | (key, .unreadable) :: rest, queries, h => by
    unfold queriesAmong at h
    split at h
    · cases h
    · exact expressible_of_queriesAmong h

/-- So is each query of a list. -/
theorem expressible_of_queriesOf : ∀ {js : List Json} {queries : List Query},
    queriesOf js = .ok queries → ∀ q ∈ queries, q.Expressible
  | [], queries, h => by
    cases h
    exact fun q hq => absurd hq List.not_mem_nil
  | j :: js, queries, h => by
    unfold queriesOf at h
    obtain ⟨q, hq, h⟩ := bind_eq_ok_iff.1 h
    obtain ⟨qs, hqs, h⟩ := bind_eq_ok_iff.1 h
    cases h
    exact List.forall_mem_cons.2 ⟨expressible_of_ofJson hq, expressible_of_queriesOf hqs⟩

end

end SemanticHighlight.Query
