import SemanticHighlight.Json.Decode

/-!
# Query trees

Retrieval itself happens in the search engine. The tree is kept so that the text a
query was built from can be recovered for highlighting.
-/

namespace SemanticHighlight

open Numeric

/-- How a clause of a boolean query takes part in matching. -/
inductive Occur where
  | must
  | should
  /-- Must match, without a share in the score. -/
  | filter
  | mustNot
deriving DecidableEq, Repr

namespace Occur

/-- The key of an occurrence in the query language. -/
def key : Occur → String
  | must => "must"
  | should => "should"
  | filter => "filter"
  | mustNot => "must_not"

/-- The occurrences in the order in which a boolean query is rendered. -/
def all : List Occur := [must, should, filter, mustNot]

/-- The occurrence with a given key. -/
def ofKey? (key : String) : Option Occur := all.find? (·.key = key)

/-- The mark in front of a clause in a description. -/
def mark : Occur → String
  | must => "+"
  | should => ""
  | filter => "#"
  | mustNot => "-"

end Occur

/-- A query tree. -/
inductive Query where
  /-- Documents with an exact term in a field. -/
  | term (field text : String) (boost : Single)
  /-- The `k` documents nearest to a vector. -/
  | knn (field : String) (vector : List Single) (k : UInt64) (boost : Single)
  /-- A query together with the text it was derived from. -/
  | neural (inner : Query) (text : String) (modelId : Option String)
  /-- A boolean combination of clauses, in the order they were added. -/
  | bool (clauses : List (Occur × Query)) (boost : Single) (minimumShouldMatch : UInt64)
  /-- Independently scored queries whose results are combined. -/
  | hybrid (queries : List Query) (boost : Single)

namespace Query

instance : Inhabited Query := ⟨.hybrid [] (.one .single)⟩

/-- The kinds of nodes. -/
inductive Kind where
  | term
  | knn
  | neural
  | bool
  | hybrid
deriving DecidableEq, Repr

namespace Kind

/-- The key of a kind in the query language. -/
def key : Kind → String
  | term => "term"
  | knn => "knn"
  | neural => "neural"
  | bool => "bool"
  | hybrid => "hybrid"

def all : List Kind := [term, knn, neural, bool, hybrid]

/-- The kind with a given key. -/
def ofKey? (key : String) : Option Kind := all.find? (·.key = key)

end Kind

/-- The kind of a node. -/
def kind : Query → Kind
  | term .. => .term
  | knn .. => .knn
  | neural .. => .neural
  | bool .. => .bool
  | hybrid .. => .hybrid

/-- The boost of a query that has none of its own. -/
def neutralBoost : Single := .one .single

/-- How many neighbours a vector query asks for by default. -/
def defaultK : UInt64 := 10

/-- The boost of a query; a neural query has that of the query it wraps. -/
def boost : Query → Single
  | term _ _ boost => boost
  | knn _ _ _ boost => boost
  | neural inner _ _ => inner.boost
  | bool _ boost _ => boost
  | hybrid _ boost => boost

/-- The query with another boost. -/
def withBoost (b : Single) : Query → Query
  | term field text _ => term field text b
  | knn field vector k _ => knn field vector k b
  | neural inner text modelId => neural (inner.withBoost b) text modelId
  | bool clauses _ minimum => bool clauses b minimum
  | hybrid queries _ => hybrid queries b

/-- The field a query searches in, if it searches in one. -/
def field? : Query → Option String
  | term field _ _ => some field
  | knn field _ _ _ => some field
  | neural inner _ _ => inner.field?
  | bool .. => none
  | hybrid .. => none

/-- A boolean query with a clause added at the end; other queries are left alone. -/
def addClause (q : Query) (occur : Occur) (clause : Query) : Query :=
  match q with
  | bool clauses boost minimum => bool (clauses ++ [(occur, clause)]) boost minimum
  | q => q

/-- A hybrid query with a query added at the end; other queries are left alone. -/
def addQuery (q : Query) (sub : Query) : Query :=
  match q with
  | hybrid queries boost => hybrid (queries ++ [sub]) boost
  | q => q

/-- A boolean query with another minimum of optional clauses; other queries are left alone. -/
def withMinimumShouldMatch (minimum : UInt64) : Query → Query
  | bool clauses boost _ => bool clauses boost minimum
  | q => q

/-! ## Descriptions -/

/-- Boosts are written plainly and whole ones without a point; a tie goes away from zero. -/
def boostLayout : Layout := ⟨none, none, false, .awayFromZero⟩

/-- The text of a boost in a description. -/
def boostText : Single → String
  | .finite x => String.ofList (boostLayout.write x)
  | .infinite true => "-inf"
  | .infinite false => "inf"
  | .nan => "NaN"

/-- The text with the boost at its end, unless the boost is neutral. -/
def boosted (text : String) (boost : Single) : String :=
  if boost = neutralBoost then text else text ++ "^" ++ boostText boost

mutual

/-- A readable form of a query. -/
def description : Query → String
  | term field text boost => boosted (field ++ ":" ++ text) boost
  | knn field vector k _ =>
    "knn(" ++ field ++ ", dim=" ++ toString vector.length ++ ", k=" ++ toString k.toNat ++ ")"
  | neural inner _ _ => inner.description
  | bool [] _ _ => "()"
  | bool clauses boost _ =>
    boosted ("(" ++ " ".intercalate (clauseDescriptions clauses) ++ ")") boost
  | hybrid queries _ => "hybrid(" ++ " | ".intercalate (descriptions queries) ++ ")"

def descriptions : List Query → List String
  | [] => []
  | q :: qs => q.description :: descriptions qs

def clauseDescriptions : List (Occur × Query) → List String
  | [] => []
  | (occur, q) :: clauses => (occur.mark ++ q.description) :: clauseDescriptions clauses

end

/-! ## Rendering -/

/-- An object with a single member. -/
def single (key : String) (value : Json) : Json := .object [(key, value)]

/-- The boost as a field, absent when it is neutral. -/
def boostField (boost : Single) : Option Json :=
  if boost = neutralBoost then none else some (Json.ofSingle boost)

/-- A vector as a value. -/
def vectorJson (vector : List Single) : Json := .array (vector.map Json.ofSingle)

mutual

/-- A query in the query language. A boolean query lists its clauses by occurrence. -/
def toDsl : Query → Json
  | term field text boost =>
    single "term" <| single field <|
      if boost = neutralBoost then .string text
      else .object [("value", .string text), ("boost", Json.ofSingle boost)]
  | knn field vector k boost =>
    single "knn" <| single field <| .ofFields
      [("vector", some (vectorJson vector)),
       ("k", some (.ofUInt64 k)),
       ("boost", boostField boost)]
  | neural inner text modelId =>
    single "neural" <| single (inner.field?.getD "") <| .ofFields
      [("query_text", some (.string text)),
       ("model_id", modelId.map .string),
       ("k", match inner with
         | knn _ _ k _ => some (.ofUInt64 k)
         | _ => none),
       ("vector", match inner with
         | knn _ vector _ _ => Json.nonempty vectorJson vector
         | _ => none),
       ("boost", boostField inner.boost)]
  | bool clauses boost minimum =>
    single "bool" <| .ofFields
      [("must", Json.nonempty .array (clausesDsl .must clauses)),
       ("should", Json.nonempty .array (clausesDsl .should clauses)),
       ("filter", Json.nonempty .array (clausesDsl .filter clauses)),
       ("must_not", Json.nonempty .array (clausesDsl .mustNot clauses)),
       ("minimum_should_match", if minimum = 0 then none else some (.ofUInt64 minimum)),
       ("boost", boostField boost)]
  | hybrid queries boost =>
    single "hybrid" <| .ofFields
      [("queries", some (.array (listDsl queries))), ("boost", boostField boost)]

def listDsl : List Query → List Json
  | [] => []
  | q :: qs => q.toDsl :: listDsl qs

def clausesDsl (occur : Occur) : List (Occur × Query) → List Json
  | [] => []
  | (o, q) :: clauses =>
    if o = occur then q.toDsl :: clausesDsl occur clauses else clausesDsl occur clauses

end

end Query

end SemanticHighlight
