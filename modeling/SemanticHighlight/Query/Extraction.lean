import SemanticHighlight.Query.Basic

/-!
# Recovering the text behind a query

A registry gives each kind of node at most one extractor. A node whose kind has no
extractor yields no text. The extractors of compound kinds go back to the registry
for the nodes below them, so a registry decides for whole trees.
-/

namespace SemanticHighlight.Query

/-- A rule that takes a query and a field to a text. -/
inductive Extractor where
  /-- The term of a term query. -/
  | term
  /-- The text a neural query was derived from. -/
  | neural
  /-- The first text in the clauses that must match, else in those that should, else
  in those that filter. -/
  | bool
  /-- The first text in the queries of a hybrid query. -/
  | hybrid
  /-- The text of the query inside a neural query, for another field. -/
  | inner (field : String)
  /-- A function of the node and the field alone. -/
  | answer (f : Query → String → Option String)

/-- The extractors by the kind of node they serve. -/
structure Registry where
  extractor? : Kind → Option Extractor

namespace Registry

/-- The registry without extractors. -/
def empty : Registry := ⟨fun _ => none⟩

/-- The registry in which `kind` is served by `extractor` alone. -/
def register (r : Registry) (kind : Kind) (extractor : Extractor) : Registry :=
  ⟨fun k => if k = kind then some extractor else r.extractor? k⟩

/-- The registry of the built-in extractors. Vector queries carry no text. -/
def builtin : Registry :=
  empty.register .neural .neural |>.register .term .term
    |>.register .hybrid .hybrid |>.register .bool .bool

/-- Whether a kind is served. -/
def serves (r : Registry) (kind : Kind) : Bool := (r.extractor? kind).isSome

/-- How many kinds are served. -/
def size (r : Registry) : Nat := (Kind.all.filter r.serves).length

end Registry

def nonEmpty (text? : Option String) : Option String := text?.filter (· ≠ "")

mutual

/-- The text that a registry recovers from a query for a field. -/
def extract (r : Registry) : Query → String → Option String
  | term f text boost, field =>
    match r.extractor? .term with
    | some .term => some text
    | some (.answer answer) => answer (term f text boost) field
    | _ => none
  | knn f vector k boost, field =>
    match r.extractor? .knn with
    | some (.answer answer) => answer (knn f vector k boost) field
    | _ => none
  | neural inner text modelId, field =>
    match r.extractor? .neural with
    | some .neural => some text
    | some (.inner innerField) => extract r inner innerField
    | some (.answer answer) => answer (neural inner text modelId) field
    | _ => none
  | bool clauses boost minimum, field =>
    match r.extractor? .bool with
    | some .bool =>
      (extractClauses r .must clauses field).or
        ((extractClauses r .should clauses field).or (extractClauses r .filter clauses field))
    | some (.answer answer) => answer (bool clauses boost minimum) field
    | _ => none
  | hybrid queries boost, field =>
    match r.extractor? .hybrid with
    | some .hybrid => extractFirst r queries field
    | some (.answer answer) => answer (hybrid queries boost) field
    | _ => none

/-- The first text that is not empty, in the clauses with an occurrence. -/
def extractClauses (r : Registry) (occur : Occur) :
    List (Occur × Query) → String → Option String
  | [], _ => none
  | (o, q) :: clauses, field =>
    if o = occur then
      (nonEmpty (extract r q field)).or (extractClauses r occur clauses field)
    else extractClauses r occur clauses field

/-- The first text that is not empty, in a list of queries. -/
def extractFirst (r : Registry) : List Query → String → Option String
  | [], _ => none
  | q :: queries, field =>
    (nonEmpty (extract r q field)).or (extractFirst r queries field)

end

end SemanticHighlight.Query
