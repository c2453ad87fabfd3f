import Mathlib.Data.List.Basic
import SemanticHighlight.Proofs.Query.Candidates
import SemanticHighlight.Proofs.Query.RoundTrip

/-!
# Rendering keeps the text behind a query

A query that was built, not read, need not be what is read back from its rendering: clauses
are grouped by occurrence, and a neural query that wraps anything but a vector query loses it.
Extraction sees neither. It searches the clauses one occurrence after another, so only their
order within an occurrence counts, and it takes a neural query for a leaf.

Main statement (`extract_of_rendered`): what is read back has the same text for every field.
-/

namespace SemanticHighlight.Query

variable {r : Registry} {answer? : Query → Option String}

/-- The clauses of one kind offer their texts one clause after the other. -/
theorem gatherIn_eq_flatMap (occur : Occur) (clauses : List (Occur × Query)) :
    gatherIn r answer? occur clauses =
      (clauses.filter (·.1 = occur)).flatMap (gather r answer? ·.2) := by
  induction clauses with
  | nil => rfl
  | cons c clauses ih =>
    unfold gatherIn
    by_cases ho : c.1 = occur
    · rw [if_pos ho, List.filter_cons_of_pos (by simpa using ho), List.flatMap_cons, ih]
    · rw [if_neg ho, List.filter_cons_of_neg (by simpa using ho), ih]

/-- The queries of a list offer their texts one query after the other. -/
theorem gatherAll_eq_flatMap (queries : List Query) :
    gatherAll r answer? queries = queries.flatMap (gather r answer?) := by
  induction queries with
  | nil => rfl
  | cons q queries ih =>
    unfold gatherAll
    rw [List.flatMap_cons, ih]

/-- The clauses with an occurrence contribute the same when all are grouped and read back. -/
theorem gatherIn_reread {clauses : List (Occur × Query)}
    (h : ∀ c ∈ clauses, gather r answer? c.2.reread = gather r answer? c.2) (occur : Occur) :
    gatherIn r answer? occur (grouped (clauses.map fun c => (c.1, c.2.reread))) =
      gatherIn r answer? occur clauses := by
  rw [gatherIn_eq_flatMap, gatherIn_eq_flatMap, filter_grouped, List.filter_map,
    List.flatMap_map]
  exact List.flatMap_congr fun c hc => h c (List.mem_filter.1 hc).1

/-- Reading a query back changes nothing about what is gathered, if no answer of a neural
query depends on what it wraps. -/
theorem gather_reread (hneural : ∀ inner text modelId,
      answer? (.neural inner.asVector text modelId) = answer? (.neural inner text modelId))
    (q : Query) : gather r answer? q.reread = gather r answer? q := by
  induction q with
  | term | knn => rfl
  | neural inner text modelId => exact congrArg Option.toList (hneural inner text modelId)
  | bool clauses boost minimum ih =>
    rw [reread_bool]
    unfold gather
    rw [gatherIn_reread ih, gatherIn_reread ih, gatherIn_reread ih]
  | hybrid queries boost ih =>
    rw [reread_hybrid]
    unfold gather
    rw [gatherAll_eq_flatMap, gatherAll_eq_flatMap, List.flatMap_map]
    rw [List.flatMap_congr ih]

theorem kind_reread (q : Query) : q.reread.kind = q.kind := by
  cases q <;> rfl

/-- The built-in extractors do not look at what a neural query wraps. -/
theorem answer?_reread {q : Query} (hq : q.kind.isLeaf = true) (field : String) :
    Registry.builtin.answer? q.reread field = Registry.builtin.answer? q field := by
  cases q with
  | term | knn | neural => rfl
  | bool | hybrid => cases hq

/-- A query has the text of what it is read back as. -/
theorem extract_reread (q : Query) (field : String) :
    extract .builtin q.reread field = extract .builtin q field := by
  have hr := Registry.flat_builtin
  cases hq : q.kind.isLeaf with
  | true =>
    have hq' : q.reread.kind.isLeaf = true := by rw [kind_reread, hq]
    rw [extract_leaf hq (hr.leaf .neural), extract_leaf hq' (hr.leaf .neural),
      answer?_reread hq]
  | false =>
    have hq' : q.reread.kind.isLeaf = false := by rw [kind_reread, hq]
    rw [extract_compound hr hq, extract_compound hr hq']
    unfold candidates
    rw [gather_reread fun _ _ _ => rfl]

/-- **Rendering a query keeps its text.** Any query whose boosts and vectors are finite, also
one that wraps in a neural query what cannot be expressed, is rendered as a value that is read
as a query, and the built-in extractors recover the same text from the two for every field,
or none from either. -/
theorem extract_of_rendered {q : Query} (hfinite : q.hasFiniteNumbers = true) :
    ∃ back, ofValue q.toDsl = .ok back ∧
      ∀ field, extract .builtin back field = extract .builtin q field :=
  ⟨q.reread, ofValue_eq_ok_iff.2 (ofJson_toDsl_eq hfinite), extract_reread q⟩

/-- Clauses in an order that rendering does not keep, and neural queries around a boolean
query and around another neural query. -/
def built : Query :=
  .bool
    [(.filter, .term "t" "filtered" neutralBoost),
     (.mustNot,
      .neural (.bool [(.must, .term "t" "lost" neutralBoost)] neutralBoost 1) "not" none),
     (.must, .hybrid [] neutralBoost),
     (.should,
      .neural (.neural (.term "t" "x" (.ofInt .single 3)) "inner" (some "m")) "outer" none),
     (.must, .neural (.bool [] neutralBoost 0) "" none)]
    (.ofInt .single 2) 1

/-- What is read back is another query, with its clauses grouped and without what a neural query
cannot print, and the same text is extracted from it. -/
theorem extract_of_rendered_built :
    built.hasFiniteNumbers = true ∧ extract .builtin built "t" = some "outer" ∧
      ∃ back, ofValue built.toDsl = .ok back ∧ back.toDsl ≠ built.toDsl ∧
        extract .builtin back "t" = some "outer" := by
  have hfinite : built.hasFiniteNumbers = true := by decide
  have htext : extract .builtin built "t" = some "outer" := by decide
  obtain ⟨back, hback, hkept⟩ := extract_of_rendered hfinite
  have hdsl : (ofValue built.toDsl).toOption.map (decide <| ·.toDsl = built.toDsl) =
      some false := by decide +kernel
  rw [hback] at hdsl
  have hne : back.toDsl ≠ built.toDsl := of_decide_eq_false (Option.some.inj hdsl)
  exact ⟨hfinite, htext, back, hback, hne, (hkept "t").trans htext⟩

end SemanticHighlight.Query
