import SemanticHighlight.Proofs.Json.Nesting
import SemanticHighlight.Proofs.Query.Grammar

/-!
# Other numbers in a query

A query with other doubles in place of its own is still a query: its boosts and vectors are other
ones, but what is a natural number, a number or neither is so afterwards too (`Survives`). The
parameters are looked up by their keys in both documents, and the queries in a query are reached
by recursion on what the two documents have in common.

Main statement (`exists_denotes_of_alike`).
-/

namespace SemanticHighlight

namespace Json

/-! ## Numbers of the same kind -/

/-- Two numbers that are the same integer, or both doubles. -/
inductive Number.SameKind : Number → Number → Prop
  | integer (i : Int) : SameKind (.integer i) (.integer i)
  | double (x y : Numeric.Finite .double) : SameKind (.double x) (.double y)

theorem Number.SameKind.symm {n n' : Number} : n.SameKind n' → n'.SameKind n
  | .integer i => .integer i
  | .double x y => .double y x

/-! ## Members -/

/-- A key is found on both sides or on neither. -/
theorem RenumberedMembers.member? {R : Number → Number → Prop} :
    ∀ {ms ms' : List (String × Json)}, RenumberedMembers R ms ms' → ∀ key : String,
      Option.Rel (Renumbered R) (Json.member? ms key) (Json.member? ms' key)
  | _, _, .nil, _ => .none
  | (_, _) :: _, (_, _) :: _, .cons h hs, key => by
    rw [member?_cons, member?_cons]
    split
    · exact .some h
    · exact hs.member? key

/-- What stands under the one key of an object. -/
theorem Renumbered.entry {R : Number → Number → Prop} {key : String} {j j' : Json} :
    Renumbered R (.object [(key, j)]) j' → ∃ k, j' = .object [(key, k)] ∧ Renumbered R j k
  | .object (.cons h .nil) => ⟨_, rfl, h⟩

/-- What stands under the one key of an object, when it has members itself. -/
theorem Renumbered.record {R : Number → Number → Prop} {key : String}
    {ms : List (String × Json)} {j' : Json} (h : Renumbered R (.object [(key, .object ms)]) j') :
    ∃ ms', j' = .object [(key, .object ms')] ∧ RenumberedMembers R ms ms' := by
  obtain ⟨_, rfl, hvalue⟩ := h.entry
  cases hvalue with
  | object hms => exact ⟨_, rfl, hms⟩

end Json

namespace Query

open Numeric Json

/-- Documents that are the same but for their doubles. -/
abbrev Alike : Json → Json → Prop := Renumbered Number.SameKind

/-! ## Parameters -/

/-- Whether what means something still does with other doubles. -/
def Survives {α : Type} (Means : Json → α → Prop) : Prop :=
  ∀ ⦃j j' : Json⦄, Alike j j' → ∀ ⦃a : α⦄, Means j a → ∃ a', Means j' a'

/-- A scalar has a text whatever double stands in it. -/
theorem survives_scalar : Survives Scalar := by
  intro j j' h text hj
  cases h with
  | string s => exact ⟨s, .string s⟩
  | number => exact ⟨_, .number _⟩
  | bool => exact ⟨text, hj⟩
  | null | array | object => cases hj

theorem survives_numeral : Survives Numeral := by
  rintro j j' h x ⟨⟩
  cases h
  exact ⟨_, .mk _⟩

/-- A natural number stays what it is, since integers are not exchanged. -/
theorem survives_natural : Survives Natural := by
  rintro j j' h n ⟨⟩
  cases h with
  | number h =>
    -- the integer is the same
    cases h
    exact ⟨n, .mk n⟩

/-- A list of numerals stays one. -/
theorem exists_numerals : ∀ {js js' : List Json}, RenumberedItems Number.SameKind js js' →
    ∀ {xs : List Single}, List.Forall₂ Numeral js xs → ∃ xs', List.Forall₂ Numeral js' xs'
  | _, _, .nil, _, .nil => ⟨[], .nil⟩
  | _, _, .cons h hs, _, .cons hx hxs =>
    let ⟨x, hx⟩ := survives_numeral h hx
    let ⟨xs, hxs⟩ := exists_numerals hs hxs
    ⟨x :: xs, .cons hx hxs⟩

/-- A vector stays one, with other elements. -/
theorem survives_numbers : Survives Numbers := by
  rintro j j' h xs ⟨hxs⟩
  cases h with
  | array hs =>
    obtain ⟨xs, hxs⟩ := exists_numerals hs hxs
    exact ⟨xs, .mk hxs⟩

/-- A parameter that may be left out is left out of both documents or of neither. -/
theorem Survives.parameter {α : Type} {Means : Json → α → Prop} (hmeans : Survives Means)
    {default a : α} {j? j?' : Option Json} (h : Option.Rel Alike j? j?')
    (ha : Parameter Means default j? a) : ∃ a', Parameter Means default j?' a' := by
  cases ha with
  | absent =>
    cases h
    exact ⟨default, .absent⟩
  | given ha =>
    cases h with
    | some h => exact (hmeans h ha).imp fun _ => .given

theorem exists_modelId (j? : Option Json) : ∃ modelId, ModelId j? modelId := ⟨_, modelId_iff.1 rfl⟩

section Members

variable {params params' : List (String × Json)}
  (h : RenumberedMembers Number.SameKind params params')

include h

/-- What is found under a key in one document is found in the other. -/
theorem exists_member? {key : String} {j : Json} (hj : Json.member? params key = some j) :
    ∃ j', Json.member? params' key = some j' ∧ Alike j j' := by
  have hrel := h.member? key
  rw [hj] at hrel
  generalize Json.member? params' key = j?' at hrel
  cases hrel with
  | some h => exact ⟨_, rfl, h⟩

theorem exists_boosted {boost : Single} (hb : Boosted params boost) :
    ∃ boost', Boosted params' boost' :=
  survives_numeral.parameter (h.member? "boost") hb

theorem exists_asksFor {k : UInt64} (hk : AsksFor params k) : ∃ k', AsksFor params' k' :=
  survives_natural.parameter (h.member? "k") hk

end Members

/-! ## Queries -/

section Leaves

variable {body body' : Json} (h : Alike body body') {q : Query}

include h

/-- The body of a `term` query stays one. -/
theorem exists_term (hq : Body .term body q) : ∃ q', Body .term body' q' := by
  cases hq with
  | term ht =>
    obtain ⟨value, rfl, hvalue⟩ := h.entry
    obtain ⟨text, ht⟩ := survives_scalar hvalue ht
    exact ⟨_, .term ht⟩
  | boostedTerm hv ht hb =>
    obtain ⟨params, rfl, hparams⟩ := h.record
    obtain ⟨value, hv, hvalue⟩ := exists_member? hparams hv
    obtain ⟨text, ht⟩ := survives_scalar hvalue ht
    obtain ⟨boost, hb⟩ := exists_boosted hparams hb
    exact ⟨_, .boostedTerm hv ht hb⟩

/-- The body of a `knn` query stays one. -/
theorem exists_knn (hq : Body .knn body q) : ∃ q', Body .knn body' q' := by
  cases hq with
  | knn hv hn hk hb =>
    obtain ⟨params, rfl, hparams⟩ := h.record
    obtain ⟨numbers, hv, hnumbers⟩ := exists_member? hparams hv
    obtain ⟨vector, hn⟩ := survives_numbers hnumbers hn
    obtain ⟨k, hk⟩ := exists_asksFor hparams hk
    obtain ⟨boost, hb⟩ := exists_boosted hparams hb
    exact ⟨_, .knn hv hn hk hb⟩

/-- The body of a `neural` query stays one. -/
theorem exists_neural (hq : Body .neural body q) : ∃ q', Body .neural body' q' := by
  cases hq with
  | neural ht hv hk hb hm =>
    obtain ⟨params, rfl, hparams⟩ := h.record
    obtain ⟨_, ht, htext⟩ := exists_member? hparams ht
    cases htext
    obtain ⟨vector, hv⟩ := survives_numbers.parameter (hparams.member? "vector") hv
    obtain ⟨k, hk⟩ := exists_asksFor hparams hk
    obtain ⟨boost, hb⟩ := exists_boosted hparams hb
    obtain ⟨modelId, hm⟩ := exists_modelId (Json.member? params "model_id")
    exact ⟨_, .neural ht hv hk hb hm⟩

end Leaves

mutual

/-- **A query with other doubles** in place of its own is still a query. -/
theorem exists_denotes_of_alike : ∀ {j j' : Json}, Alike j j' → ∀ {q : Query}, Denotes j q →
    ∃ q', Denotes j' q'
  | .object [(_, _)], .object [(_, _)], .object (.cons h .nil), _, hq => by
    cases hq with
    | mk hbody =>
      obtain ⟨q', hbody⟩ := exists_body h hbody
      exact ⟨q', .mk hbody⟩

/-- The body of a query stays one of its kind. The cases are those of the grammar, and the recursion
goes through items, groups and members as the grammar does. -/
theorem exists_body : ∀ {body body' : Json}, Alike body body' → ∀ {kind : Kind} {q : Query},
    Body kind body q → ∃ q', Body kind body' q'
  | .object _, .object _, .object h, kind, _, hbody => by
    cases kind with
    | term => exact exists_term (.object h) hbody
    | knn => exact exists_knn (.object h) hbody
    | neural => exact exists_neural (.object h) hbody
    | bool =>
      cases hbody with
      | bool hm hn hb =>
        obtain ⟨groups, hm⟩ := exists_groups h hm
        obtain ⟨minimum, hn⟩ :=
          survives_natural.parameter (h.member? "minimum_should_match") hn
        obtain ⟨boost, hb⟩ := exists_boosted h hb
        exact ⟨_, .bool hm hn hb⟩
    | hybrid =>
      cases hbody with
      | hybrid hj hq hb =>
        obtain ⟨js, queries, hj, hq⟩ := exists_queries h hj hq
        obtain ⟨boost, hb⟩ := exists_boosted h hb
        exact ⟨_, .hybrid hj hq hb⟩

/-- A list of queries stays one. -/
theorem exists_denotes_items : ∀ {js js' : List Json}, RenumberedItems Number.SameKind js js' →
    ∀ {queries : List Query}, List.Forall₂ Denotes js queries →
      ∃ queries', List.Forall₂ Denotes js' queries'
  | _, _, .nil, _, .nil => ⟨[], .nil⟩
  | _, _, .cons h hs, _, .cons hq hqs =>
    let ⟨q', hq'⟩ := exists_denotes_of_alike h hq
    let ⟨queries', hqs'⟩ := exists_denotes_items hs hqs
    ⟨q' :: queries', .cons hq' hqs'⟩

/-- The members of a `bool` body stay groups and settings. -/
theorem exists_groups : ∀ {ms ms' : List (String × Json)},
    RenumberedMembers Number.SameKind ms ms' →
      ∀ {groups : List (List (Occur × Query))}, List.Forall₂ Member ms groups →
        ∃ groups', List.Forall₂ Member ms' groups'
  | _, _, .nil, _, .nil => ⟨[], .nil⟩
  | _, _, .cons h hs, _, .cons hm hms =>
    let ⟨group', hm'⟩ := exists_member h hm
    let ⟨groups', hms'⟩ := exists_groups hs hms
    ⟨group' :: groups', .cons hm' hms'⟩

/-- A group of clauses stays one, and a setting a setting. -/
theorem exists_member : ∀ {j j' : Json}, Alike j j' →
    ∀ {key : String} {group : List (Occur × Query)}, Member (key, j) group →
      ∃ group', Member (key, j') group'
  | _, _, .array hs, _, _, .many hqs =>
    let ⟨_, hqs'⟩ := exists_denotes_items hs hqs
    ⟨_, .many hqs'⟩
  | _, _, h, _, _, .one hq =>
    let ⟨_, hq'⟩ := exists_denotes_of_alike h hq
    ⟨_, .one hq'⟩
  | _, _, _, _, _, .minimum _ => ⟨_, .minimum _⟩
  | _, _, _, _, _, .boost _ => ⟨_, .boost _⟩

/-- The list of queries in a `hybrid` body stays there. -/
theorem exists_queries : ∀ {ms ms' : List (String × Json)},
    RenumberedMembers Number.SameKind ms ms' →
      ∀ {js : List Json} {queries : List Query}, Json.member? ms "queries" = some (.array js) →
        List.Forall₂ Denotes js queries →
          ∃ js' queries', Json.member? ms' "queries" = some (.array js') ∧
            List.Forall₂ Denotes js' queries'
  | (key, _) :: _, _, .cons h hs, js, queries, hj, hqs => by
    rw [member?_cons] at hj
    rw [member?_cons]
    -- the first member of that name counts
    by_cases hkey : key = "queries"
    · rw [if_pos hkey] at hj ⊢
      cases hj
      cases h with
      | array hs =>
        obtain ⟨queries', hqs'⟩ := exists_denotes_items hs hqs
        exact ⟨_, queries', rfl, hqs'⟩
    · rw [if_neg hkey] at hj ⊢
      exact exists_queries hs hj hqs

end

end Query

end SemanticHighlight
