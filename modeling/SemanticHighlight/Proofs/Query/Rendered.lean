import SemanticHighlight.Proofs.Json.Value
import SemanticHighlight.Proofs.Query.RoundTrip

/-!
# What rendered queries are made of

A query is rendered with strings, natural numbers, singles, arrays, and objects that repeat no
key. So what holds of these, and of arrays and objects whenever it holds of what is in them
(`Renderable`), holds of every rendered query (`Renderable.toDsl`). `isValue_toDsl` is the case
of being a value.
-/

namespace SemanticHighlight.Query

open Numeric

/-- Whether a property of documents holds of the parts of rendered queries, and is kept where
they are put together. -/
structure Renderable (P : Json → Prop) : Prop where
  string : ∀ s : String, P (.string s)
  natural : ∀ n : UInt64, P (.ofUInt64 n)
  single : ∀ x : Single, P (Json.ofSingle x)
  array : ∀ js : List Json, (∀ j ∈ js, P j) → P (.array js)
  object : ∀ ms : List (String × Json), (Json.keys ms).Nodup → (∀ m ∈ ms, P m.2) → P (.object ms)

namespace Renderable

variable {P : Json → Prop}

/-! ## Fields -/

theorem of_some {j : Json} (hj : P j) : ∀ k ∈ some j, P k := by
  rintro _ ⟨⟩
  exact hj

theorem of_none : ∀ k ∈ (none : Option Json), P k := by
  rintro _ ⟨⟩

/-- A field that is present under a condition has the property if what it holds does. -/
theorem of_ite {j : Json} {p : Prop} [Decidable p] (hj : P j) :
    ∀ k ∈ if p then none else some j, P k := by
  split
  · exact of_none
  · exact of_some hj

/-- So does a list that is left out when it is empty. -/
theorem of_nonempty {α : Type} {encode : List α → Json} {xs : List α} (h : P (encode xs)) :
    ∀ k ∈ Json.nonempty encode xs, P k := by
  unfold Json.nonempty
  split
  · exact of_none
  · exact of_some h

variable (h : Renderable P)

include h

theorem ofFields {fields : List (String × Option Json)} (hkeys : (Json.keys fields).Nodup)
    (hfields : ∀ field ∈ fields, ∀ j ∈ field.2, P j) : P (.ofFields fields) :=
  h.object _ (hkeys.sublist (Json.keys_present_sublist fields))
    fun m hm => hfields _ (Json.mem_present.1 hm) m.2 rfl

theorem ofMember {key : String} {j : Json} (hj : P j) : P (Query.single key j) :=
  h.object _ (List.pairwise_singleton ..) fun m hm => by
    rw [List.mem_singleton.1 hm]
    exact hj

theorem vectorJson (vector : List Single) : P (vectorJson vector) := by
  refine h.array _ fun j hj => ?_
  obtain ⟨x, -, rfl⟩ := List.mem_map.1 hj
  exact h.single x

theorem boostField (boost : Single) : ∀ j ∈ boostField boost, P j := of_ite (h.single boost)

/-- So do the clauses of one kind, if each rendered clause does. -/
theorem clauses {clauses : List (Occur × Query)} (hclauses : ∀ c ∈ clauses, P c.2.toDsl)
    (occur : Occur) : ∀ j ∈ Json.nonempty .array (clausesDsl occur clauses), P j := by
  refine of_nonempty (h.array _ fun j hj => ?_)
  rw [clausesDsl_eq_map] at hj
  obtain ⟨c, hc, rfl⟩ := List.mem_map.1 hj
  exact hclauses c (List.mem_filter.1 hc).1

/-! ## Queries -/

/-- A property that holds of the parts and is kept where they are put together holds of every
rendered query. The induction is on the query. -/
theorem toDsl (q : Query) : P q.toDsl := by
  have hend : ∀ field ∈ ([] : List (String × Option Json)), ∀ j ∈ field.2, P j :=
    fun _ hf => absurd hf List.not_mem_nil
  -- on the query, one list of fields for each kind
  induction q with
  | term field text boost =>
    refine h.ofMember (h.ofMember ?_)
    split
    · exact h.string text
    · refine h.object _ (by simp [Json.keys]) ?_
      simp only [List.forall_mem_cons]
      exact ⟨h.string text, h.single boost, fun _ hm => absurd hm List.not_mem_nil⟩
  | knn field vector k boost =>
    refine h.ofMember (h.ofMember (h.ofFields (by simp [Json.keys]) ?_))
    simp only [List.forall_mem_cons]
    exact ⟨of_some (h.vectorJson vector), of_some (h.natural k), h.boostField boost, hend⟩
  | neural inner text modelId =>
    refine h.ofMember (h.ofMember (h.ofFields (by simp [Json.keys]) ?_))
    simp only [List.forall_mem_cons]
    refine ⟨of_some (h.string text), ?_, ?_, ?_, h.boostField inner.boost, hend⟩
    · cases modelId with
      | none => exact of_none
      | some s => exact of_some (h.string s)
    · split
      · exact of_some (h.natural _)
      · exact of_none
    · split
      · exact of_nonempty (h.vectorJson _)
      · exact of_none
  | bool clauses boost minimum ih =>
    refine h.ofMember (h.ofFields (by simp [Json.keys]) ?_)
    simp only [List.forall_mem_cons]
    exact ⟨h.clauses ih .must, h.clauses ih .should, h.clauses ih .filter, h.clauses ih .mustNot,
      of_ite (h.natural minimum), h.boostField boost, hend⟩
  | hybrid queries boost ih =>
    refine h.ofMember (h.ofFields (by simp [Json.keys]) ?_)
    simp only [List.forall_mem_cons]
    refine ⟨of_some (h.array _ fun j hj => ?_), h.boostField boost, hend⟩
    rw [listDsl_eq_map] at hj
    obtain ⟨q, hq, rfl⟩ := List.mem_map.1 hj
    exact ih q hq

end Renderable

/-- Being a value is such a property. -/
theorem renderable_isValue : Renderable Json.IsValue where
  string := Json.isValue_string
  natural _ := Json.isValue_number _
  single := Json.isValue_ofSingle
  array _ h := Json.isValue_array_iff.2 h
  object _ hkeys h := Json.isValue_object_iff.2 ⟨hkeys, h⟩

theorem isValue_toDsl (q : Query) : q.toDsl.IsValue := renderable_isValue.toDsl q

end SemanticHighlight.Query
