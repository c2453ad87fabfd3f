import SemanticHighlight.Query.Extraction
import SemanticHighlight.Proofs.Query.Shape

/-!
# Extraction is one search from left to right

The extractors of boolean and hybrid queries look for the first text that is not empty, node
by node. `candidates` lists what the leaves of a query answer, in the order in which they are
met: below a boolean query first the clauses that must match, then those that should, then
those that filter, and nothing below a kind that is not served.

Main statement (`extract_eq_search`), for registries in which only compound kinds go back to
the registry (`Registry.Flat`): a leaf that is served answers for itself, and of every other
query the text is the first candidate that is not empty. So clauses that must not match have
no say, and an extractor has one through nodes of its kind alone.
-/

namespace SemanticHighlight.Query

/-! ## What is searched -/

/-- Whether the nodes of a kind are leaves for extraction. A neural query is one, whatever
it wraps. -/
def Kind.isLeaf : Kind → Bool
  | term | knn | neural => true
  | bool | hybrid => false

/-- The text that an extractor gives by itself, without going back to a registry. -/
def Extractor.own : Extractor → Query → String → Option String
  | term, .term _ text _, _ => some text
  | neural, .neural _ text _, _ => some text
  | answer f, q, field => f q field
  | _, _, _ => none

namespace Registry

/-- What the extractor for the kind of a query gives by itself. -/
def answer? (r : Registry) (q : Query) (field : String) : Option String :=
  (r.extractor? q.kind).bind (·.own q field)

/-- Whether compound kinds are served by their built-in extractors, if at all, and no leaf by
the one extractor of leaves that goes back to the registry. -/
structure Flat (r : Registry) : Prop where
  bool : r.extractor? .bool = none ∨ r.extractor? .bool = some .bool
  hybrid : r.extractor? .hybrid = none ∨ r.extractor? .hybrid = some .hybrid
  leaf : ∀ kind field, r.extractor? kind ≠ some (.inner field)

end Registry

mutual

/-- The answers of the leaves that a search comes to, in the order in which it does. -/
def gather (r : Registry) (answer? : Query → Option String) : Query → List String
  | term field text boost => (answer? (term field text boost)).toList
  | knn field vector k boost => (answer? (knn field vector k boost)).toList
  | neural inner text modelId => (answer? (neural inner text modelId)).toList
  | bool clauses _ _ =>
    if r.serves .bool then
      gatherIn r answer? .must clauses ++
        (gatherIn r answer? .should clauses ++ gatherIn r answer? .filter clauses)
    else []
  | hybrid queries _ => if r.serves .hybrid then gatherAll r answer? queries else []

/-- The answers below the clauses with an occurrence. -/
def gatherIn (r : Registry) (answer? : Query → Option String) (occur : Occur) :
    List (Occur × Query) → List String
  | [] => []
  | (o, q) :: clauses =>
    if o = occur then gather r answer? q ++ gatherIn r answer? occur clauses
    else gatherIn r answer? occur clauses

/-- The answers below the queries of a list. -/
def gatherAll (r : Registry) (answer? : Query → Option String) : List Query → List String
  | [] => []
  | q :: queries => gather r answer? q ++ gatherAll r answer? queries

end

/-- The texts among which a registry chooses for a field. -/
def candidates (r : Registry) (field : String) : Query → List String :=
  gather r (r.answer? · field)

mutual

/-- The query without the clauses that must not match, as far as a search can come. -/
def withoutMustNot : Query → Query
  | term field text boost => term field text boost
  | knn field vector k boost => knn field vector k boost
  | neural inner text modelId => neural inner text modelId
  | bool clauses boost minimum => bool (clausesWithoutMustNot clauses) boost minimum
  | hybrid queries boost => hybrid (queriesWithoutMustNot queries) boost

def clausesWithoutMustNot : List (Occur × Query) → List (Occur × Query)
  | [] => []
  | (occur, q) :: clauses =>
    if occur = .mustNot then clausesWithoutMustNot clauses
    else (occur, q.withoutMustNot) :: clausesWithoutMustNot clauses

def queriesWithoutMustNot : List Query → List Query
  | [] => []
  | q :: queries => q.withoutMustNot :: queriesWithoutMustNot queries

end

/-- The nodes that a search can come to. -/
inductive Reaches : Query → Query → Prop
  | here (q : Query) : Reaches q q
  | clause {clauses : List (Occur × Query)} {boost : Numeric.Single} {minimum : UInt64}
      {occur : Occur} {q node : Query} (hc : (occur, q) ∈ clauses) (ho : occur ≠ .mustNot)
      (h : Reaches q node) : Reaches (.bool clauses boost minimum) node
  | query {queries : List Query} {boost : Numeric.Single} {q node : Query} (hq : q ∈ queries)
      (h : Reaches q node) : Reaches (.hybrid queries boost) node

variable {r r' : Registry} {field : String} {answer? answer'? : Query → Option String}

/-! ## Texts that are not empty -/

/-- The first text that is not empty is not empty. -/
theorem nonEmpty_find? (texts : List String) :
    nonEmpty (texts.find? (· ≠ "")) = texts.find? (· ≠ "") := by
  cases h : texts.find? (· ≠ "") with
  | none => rfl
  | some text =>
    have hne : text ≠ "" := by simpa using List.find?_some h
    simp [nonEmpty, Option.filter, hne]

theorem nonEmpty_eq_find? (text? : Option String) :
    nonEmpty text? = text?.toList.find? (· ≠ "") := by
  cases text? with
  | none => rfl
  | some text => by_cases h : text = "" <;> simp [nonEmpty, Option.filter, h]

/-! ## Nodes, kind by kind -/

theorem gather_leaf {q : Query} (hq : q.kind.isLeaf = true) :
    gather r answer? q = (answer? q).toList := by
  cases q with
  | term | knn | neural => rfl
  | bool | hybrid => cases hq

theorem withoutMustNot_leaf {q : Query} (hq : q.kind.isLeaf = true) : q.withoutMustNot = q := by
  cases q with
  | term | knn | neural => rfl
  | bool | hybrid => cases hq

theorem kind_withoutMustNot (q : Query) : q.withoutMustNot.kind = q.kind := by
  cases q <;> rfl

/-- A leaf that the registry is not asked again about answers for itself. -/
theorem extract_leaf {q : Query} (hq : q.kind.isLeaf = true)
    (hr : ∀ inner, r.extractor? .neural ≠ some (.inner inner)) :
    extract r q field = r.answer? q field := by
  unfold Registry.answer?
  -- a leaf is answered by its own extractor; the one case of its kind that looks inside is excluded
  cases q with
  | term f text boost =>
    show _ = (r.extractor? .term).bind _
    unfold extract
    cases r.extractor? .term with
    | none => rfl
    | some e => cases e <;> rfl
  | knn f vector k boost =>
    show _ = (r.extractor? .knn).bind _
    unfold extract
    cases r.extractor? .knn with
    | none => rfl
    | some e => cases e <;> rfl
  | neural inner text modelId =>
    show _ = (r.extractor? .neural).bind _
    unfold extract
    cases he : r.extractor? .neural with
    | none => rfl
    | some e =>
      cases e with
      | inner f => exact absurd he (hr f)
      | _ => rfl
  | bool | hybrid => cases hq

/-! ## The search -/

section Search

variable {clauses : List (Occur × Query)} {queries : List Query}

/-- The search through the clauses of one kind finds the first text among all that they offer, if it
does in each of them. The induction is on the clauses. -/
theorem extractClauses_eq_find? (occur : Occur)
    (h : ∀ c ∈ clauses, nonEmpty (extract r c.2 field) =
      (gather r answer? c.2).find? (· ≠ "")) :
    extractClauses r occur clauses field =
      (gatherIn r answer? occur clauses).find? (· ≠ "") := by
  induction clauses with
  | nil => rfl
  | cons c clauses ih =>
    obtain ⟨hc, hclauses⟩ := List.forall_mem_cons.1 h
    unfold extractClauses gatherIn
    by_cases ho : c.1 = occur
    · rw [if_pos ho, if_pos ho, List.find?_append, hc, ih hclauses]
    · rw [if_neg ho, if_neg ho, ih hclauses]

/-- The search through a list of queries does likewise. -/
theorem extractFirst_eq_find?
    (h : ∀ q ∈ queries, nonEmpty (extract r q field) = (gather r answer? q).find? (· ≠ "")) :
    extractFirst r queries field = (gatherAll r answer? queries).find? (· ≠ "") := by
  induction queries with
  | nil => rfl
  | cons q queries ih =>
    obtain ⟨hq, hqueries⟩ := List.forall_mem_cons.1 h
    unfold extractFirst gatherAll
    rw [List.find?_append, hq, ih hqueries]

/-- A boolean query searches what its clauses do, one occurrence after another. -/
theorem extract_bool (hr : r.Flat) {boost : Numeric.Single} {minimum : UInt64}
    (h : ∀ c ∈ clauses, nonEmpty (extract r c.2 field) =
      (gather r answer? c.2).find? (· ≠ "")) :
    extract r (.bool clauses boost minimum) field =
      (gather r answer? (.bool clauses boost minimum)).find? (· ≠ "") := by
  unfold extract gather Registry.serves
  rcases hr.bool with hnone | hsome
  · rw [hnone]
    rfl
  · rw [hsome, extractClauses_eq_find? .must h, extractClauses_eq_find? .should h,
      extractClauses_eq_find? .filter h]
    dsimp only [Option.isSome_some]
    rw [if_pos rfl, List.find?_append, List.find?_append]

/-- A hybrid query searches what its queries do. -/
theorem extract_hybrid (hr : r.Flat) {boost : Numeric.Single}
    (h : ∀ q ∈ queries, nonEmpty (extract r q field) = (gather r answer? q).find? (· ≠ "")) :
    extract r (.hybrid queries boost) field =
      (gather r answer? (.hybrid queries boost)).find? (· ≠ "") := by
  unfold extract gather Registry.serves
  rcases hr.hybrid with hnone | hsome
  · rw [hnone]
    rfl
  · rw [hsome]
    dsimp only [Option.isSome_some]
    rw [if_pos rfl, extractFirst_eq_find? h]

end Search

/-- Below other nodes, a node of any kind counts by its first candidate that is not empty. -/
theorem nonEmpty_extract (hr : r.Flat) (q : Query) :
    nonEmpty (extract r q field) = (candidates r field q).find? (· ≠ "") := by
  unfold candidates
  induction q with
  | term | knn | neural =>
    rw [extract_leaf rfl (hr.leaf .neural), gather_leaf rfl]
    exact nonEmpty_eq_find? _
  | bool clauses boost minimum ih => rw [extract_bool hr ih, nonEmpty_find?]
  | hybrid queries boost ih => rw [extract_hybrid hr ih, nonEmpty_find?]

/-- The text of a compound query is its first candidate that is not empty. -/
theorem extract_compound (hr : r.Flat) {q : Query} (hq : q.kind.isLeaf = false) :
    extract r q field = (candidates r field q).find? (· ≠ "") := by
  cases q with
  | term | knn | neural => cases hq
  | bool => exact extract_bool hr fun c _ => nonEmpty_extract hr c.2
  | hybrid => exact extract_hybrid hr fun q _ => nonEmpty_extract hr q

/-! ## Clauses that must not match -/

section MustNot

variable {clauses : List (Occur × Query)} {queries : List Query}

/-- The clauses of any other kind offer the same when those that must not match are taken out. -/
theorem gatherIn_withoutMustNot {occur : Occur} (ho : occur ≠ .mustNot)
    (h : ∀ c ∈ clauses, gather r answer? c.2.withoutMustNot = gather r answer? c.2) :
    gatherIn r answer? occur (clausesWithoutMustNot clauses) =
      gatherIn r answer? occur clauses := by
  induction clauses with
  | nil => rfl
  | cons c clauses ih =>
    obtain ⟨o, q⟩ := c
    obtain ⟨hq, hclauses⟩ := List.forall_mem_cons.1 h
    unfold clausesWithoutMustNot
    by_cases hnot : o = .mustNot
    · have hne : o ≠ occur := fun heq => ho (heq ▸ hnot)
      rw [if_pos hnot, ih hclauses]
      exact (if_neg hne).symm
    · rw [if_neg hnot]
      unfold gatherIn
      rw [hq, ih hclauses]

/-- So do the queries of a list. -/
theorem gatherAll_withoutMustNot
    (h : ∀ q ∈ queries, gather r answer? q.withoutMustNot = gather r answer? q) :
    gatherAll r answer? (queriesWithoutMustNot queries) = gatherAll r answer? queries := by
  induction queries with
  | nil => rfl
  | cons q queries ih =>
    obtain ⟨hq, hqueries⟩ := List.forall_mem_cons.1 h
    unfold queriesWithoutMustNot gatherAll
    rw [hq, ih hqueries]

end MustNot

/-- Nothing is gathered from the clauses that must not match. -/
theorem gather_withoutMustNot (q : Query) :
    gather r answer? q.withoutMustNot = gather r answer? q := by
  induction q with
  | term | knn | neural => rfl
  | bool clauses boost minimum ih =>
    unfold withoutMustNot gather
    rw [gatherIn_withoutMustNot (by decide) ih, gatherIn_withoutMustNot (by decide) ih,
      gatherIn_withoutMustNot (by decide) ih]
  | hybrid queries boost ih =>
    unfold withoutMustNot gather
    rw [gatherAll_withoutMustNot ih]

/-- What is extracted does not depend on clauses that must not match, however deep they stand. -/
theorem extract_withoutMustNot (hr : r.Flat) (q : Query) :
    extract r q.withoutMustNot field = extract r q field := by
  cases hq : q.kind.isLeaf with
  | true => rw [withoutMustNot_leaf hq]
  | false =>
    have hq' : q.withoutMustNot.kind.isLeaf = false := by rw [kind_withoutMustNot, hq]
    rw [extract_compound hr hq, extract_compound hr hq']
    unfold candidates
    rw [gather_withoutMustNot]

/-! ## Other extractors -/

section Congruence

variable {clauses : List (Occur × Query)} {queries : List Query}

/-- What the clauses of one kind offer depends on what each of them offers, those that must not
match apart. -/
theorem gatherIn_congr {occur : Occur} (ho : occur ≠ .mustNot)
    (h : ∀ c ∈ clauses, c.1 ≠ .mustNot → gather r answer? c.2 = gather r' answer'? c.2) :
    gatherIn r answer? occur clauses = gatherIn r' answer'? occur clauses := by
  induction clauses with
  | nil => rfl
  | cons c clauses ih =>
    obtain ⟨hc, hclauses⟩ := List.forall_mem_cons.1 h
    unfold gatherIn
    by_cases heq : c.1 = occur
    · rw [if_pos heq, if_pos heq, hc (heq ▸ ho), ih hclauses]
    · rw [if_neg heq, if_neg heq, ih hclauses]

/-- What the queries of a list offer depends on what each of them offers. -/
theorem gatherAll_congr (h : ∀ q ∈ queries, gather r answer? q = gather r' answer'? q) :
    gatherAll r answer? queries = gatherAll r' answer'? queries := by
  induction queries with
  | nil => rfl
  | cons q queries ih =>
    obtain ⟨hq, hqueries⟩ := List.forall_mem_cons.1 h
    unfold gatherAll
    rw [hq, ih hqueries]

end Congruence

/-- What is gathered depends on the nodes that a search can come to: on what leaves answer,
and on which other kinds are served. -/
theorem gather_congr {q : Query}
    (hanswer : ∀ node, Reaches q node → node.kind.isLeaf = true → answer? node = answer'? node)
    (hserves : ∀ node, Reaches q node → node.kind.isLeaf = false →
      r.serves node.kind = r'.serves node.kind) :
    gather r answer? q = gather r' answer'? q := by
  -- on the query: below a clause that must not match nothing is compared, so `Reaches` stops there
  -- too
  induction q with
  | term | knn | neural =>
    rw [gather_leaf rfl, gather_leaf rfl, hanswer _ (.here _) rfl]
  | bool clauses boost minimum ih =>
    have hclauses : ∀ c ∈ clauses, c.1 ≠ .mustNot →
        gather r answer? c.2 = gather r' answer'? c.2 := fun c hc ho =>
      ih c hc (fun node hn => hanswer node (.clause hc ho hn))
        (fun node hn => hserves node (.clause hc ho hn))
    have hbool : r.serves .bool = r'.serves .bool := hserves _ (.here _) rfl
    unfold gather
    rw [hbool, gatherIn_congr (by decide) hclauses, gatherIn_congr (by decide) hclauses,
      gatherIn_congr (by decide) hclauses]
  | hybrid queries boost ih =>
    have hqueries : ∀ q ∈ queries, gather r answer? q = gather r' answer'? q := fun q hq =>
      ih q hq (fun node hn => hanswer node (.query hq hn))
        (fun node hn => hserves node (.query hq hn))
    have hhybrid : r.serves .hybrid = r'.serves .hybrid := hserves _ (.here _) rfl
    unfold gather
    rw [hhybrid, gatherAll_congr hqueries]

namespace Registry

variable {kind : Kind} {e : Extractor}

theorem extractor?_register_self (r : Registry) (kind : Kind) (e : Extractor) :
    (r.register kind e).extractor? kind = some e := if_pos rfl

theorem extractor?_register_ne {k : Kind} (h : k ≠ kind) :
    (r.register kind e).extractor? k = r.extractor? k := if_neg h

/-- An extractor that is registered answers for its own kind, and for that only. -/
theorem answer?_register (q : Query) (field : String) :
    (r.register kind e).answer? q field =
      if q.kind = kind then e.own q field else r.answer? q field := by
  unfold answer?
  by_cases h : q.kind = kind
  · rw [if_pos h, h, extractor?_register_self]
    rfl
  · rw [if_neg h, extractor?_register_ne h]

theorem serves_register_ne {k : Kind} (h : k ≠ kind) :
    (r.register kind e).serves k = r.serves k := by
  unfold serves
  rw [extractor?_register_ne h]

/-- Leaves may be served by anything that does not go back to the registry. -/
theorem Flat.register (hr : r.Flat) (hk : kind.isLeaf = true) (he : ∀ f, e ≠ .inner f) :
    (r.register kind e).Flat := by
  have hne : ∀ k : Kind, k.isLeaf = false → k ≠ kind := by
    rintro k hleaf rfl
    exact absurd (hleaf.symm.trans hk) (by simp)
  refine ⟨?_, ?_, fun k f => ?_⟩
  · rw [extractor?_register_ne (hne .bool rfl)]
    exact hr.bool
  · rw [extractor?_register_ne (hne .hybrid rfl)]
    exact hr.hybrid
  · by_cases h : k = kind
    · rw [h, extractor?_register_self]
      exact fun heq => he f (Option.some.inj heq)
    · rw [extractor?_register_ne h]
      exact hr.leaf k f

theorem flat_builtin : builtin.Flat := by
  refine ⟨.inr rfl, .inr rfl, fun kind field => ?_⟩
  cases kind <;> simp [builtin, register, empty]

end Registry

/-- Registries that serve the kinds a search comes to alike recover the same text. -/
theorem extract_congr (hr : r.Flat) (hr' : r'.Flat) {q : Query}
    (h : ∀ node, Reaches q node → r'.extractor? node.kind = r.extractor? node.kind) :
    extract r' q field = extract r q field := by
  have hanswer : ∀ node, Reaches q node → r'.answer? node field = r.answer? node field := by
    intro node hn
    unfold Registry.answer?
    rw [h node hn]
  cases hq : q.kind.isLeaf with
  | true =>
    rw [extract_leaf hq (hr.leaf .neural), extract_leaf hq (hr'.leaf .neural),
      hanswer q (.here q)]
  | false =>
    rw [extract_compound hr hq, extract_compound hr' hq]
    unfold candidates
    rw [gather_congr (fun node hn _ => hanswer node hn) fun node hn _ => ?_]
    unfold Registry.serves
    rw [h node hn]

/-- An extractor of leaves changes what the leaves of its kind contribute. -/
theorem candidates_register {kind : Kind} (hk : kind.isLeaf = true) (e : Extractor)
    (q : Query) :
    candidates (r.register kind e) field q =
      gather r (fun leaf => if leaf.kind = kind then e.own leaf field
        else r.answer? leaf field) q := by
  unfold candidates
  refine gather_congr (fun node _ _ => Registry.answer?_register node field)
    fun node _ hleaf => Registry.serves_register_ne ?_
  rintro rfl
  exact absurd (hleaf.symm.trans hk) (by simp)

/-- **Extraction is one search from left to right.** If only compound kinds go back to the
registry, then a leaf that is served answers for itself, empty or not, and of every other
query the text is the first candidate that is not empty, if there is one. So

* clauses that must not match can be left out at every depth;
* an extractor, registered anew or in place of another, makes no difference to a query in
  which the search comes to no node of its kind;
* an extractor of leaves changes the candidates that the leaves of its kind contribute,
  wherever they stand, and no others. -/
theorem extract_eq_search (hr : r.Flat) (q : Query) (field : String) :
    extract r q field =
      (if q.kind.isLeaf = true ∧ r.serves q.kind = true then r.answer? q field
        else (candidates r field q).find? (· ≠ "")) ∧
    extract r q.withoutMustNot field = extract r q field ∧
    (∀ kind e, (r.register kind e).Flat → (∀ node, Reaches q node → node.kind ≠ kind) →
      extract (r.register kind e) q field = extract r q field) ∧
    ∀ kind e, kind.isLeaf = true → (∀ f, e ≠ .inner f) →
      (r.register kind e).Flat ∧
      candidates (r.register kind e) field q =
        gather r (fun leaf => if leaf.kind = kind then e.own leaf field
          else r.answer? leaf field) q := by
  refine ⟨?_, extract_withoutMustNot hr q, fun kind e hr' hkind => ?_, fun kind e hk he =>
    ⟨hr.register hk he, candidates_register hk e q⟩⟩
  · by_cases hq : q.kind.isLeaf = true
    · rw [extract_leaf hq (hr.leaf .neural)]
      by_cases hserves : r.serves q.kind = true
      · rw [if_pos ⟨hq, hserves⟩]
      · -- a leaf that is not served has no answer and no candidate
        have hnone : r.answer? q field = none := by
          unfold Registry.answer?
          unfold Registry.serves at hserves
          rw [Option.not_isSome_iff_eq_none.1 hserves]
          rfl
        rw [if_neg fun h => hserves h.2]
        unfold candidates
        rw [gather_leaf hq, hnone]
        rfl
    · rw [if_neg fun h => hq h.1]
      exact extract_compound hr (by simpa using hq)
  · exact extract_congr hr hr' fun node hn => Registry.extractor?_register_ne (hkind node hn)

/-- The built-in extractors, and one that gives vector queries the field as their text. -/
def fieldRegistry : Registry := Registry.builtin.register .knn (.answer fun _ field => some field)

/-- A term only among the clauses that must not match, and an empty text before the others. -/
def layered : Query :=
  let knn (field : String) : Query := .knn field [] 7 neutralBoost
  .bool
    [(.mustNot, .term "t" "excluded" neutralBoost),
     (.filter, .neural (knn "e") "filtered" none),
     (.should, .hybrid [.neural (.term "t" "wrapped" neutralBoost) "" none, knn "v"] neutralBoost),
     (.must, .bool [] neutralBoost 0)]
    neutralBoost 0

/-- The candidates stand in the order of the search, an empty one first, and the next is found. The
only term must not match, so that another extractor for terms changes nothing. -/
theorem extract_eq_search_layered :
    fieldRegistry.Flat ∧
    candidates fieldRegistry "content" layered = ["", "content", "filtered"] ∧
    extract fieldRegistry layered "content" = some "content" ∧
    extract fieldRegistry layered.withoutMustNot "content" = some "content" ∧
    extract (fieldRegistry.register .term (.answer fun _ _ => some "other")) layered "content" =
      some "content" ∧
    candidates (fieldRegistry.register .neural (.answer fun _ _ => none)) "content" layered =
      ["content"] := by
  have hflat : fieldRegistry.Flat := Registry.flat_builtin.register rfl fun f => by simp
  have hcandidates : candidates fieldRegistry "content" layered = ["", "content", "filtered"] := by
    decide
  obtain ⟨hsearch, hnot, hother, hleaf⟩ := extract_eq_search hflat layered "content"
  have htext : extract fieldRegistry layered "content" = some "content" := by
    rw [hsearch, hcandidates]
    decide
  -- the only term is behind a clause that must not match, which no node is reached through
  have hterm : ∀ node, Reaches layered node → node.kind ≠ .term := by
    intro node h
    rcases h with _ | ⟨hc, ho, h⟩
    · decide
    · simp only [List.mem_cons, Prod.mk.injEq, List.not_mem_nil, or_false] at hc
      rcases hc with ⟨rfl, rfl⟩ | ⟨rfl, rfl⟩ | ⟨rfl, rfl⟩ | ⟨rfl, rfl⟩
      · exact absurd rfl ho
      · cases h
        decide
      · rcases h with _ | _ | ⟨hq, h⟩
        · decide
        · simp only [List.mem_cons, List.not_mem_nil, or_false] at hq
          rcases hq with rfl | rfl <;> cases h <;> decide
      · rcases h with _ | ⟨hc, _, _⟩
        · decide
        · exact absurd hc List.not_mem_nil
  have hflat' : (fieldRegistry.register .term (.answer fun _ _ => some "other")).Flat :=
    hflat.register rfl fun f => by simp
  obtain ⟨-, hneural⟩ := hleaf .neural (.answer fun _ _ => none) rfl fun f => by simp
  refine ⟨hflat, hcandidates, htext, hnot.trans htext, (hother _ _ hflat' hterm).trans htext, ?_⟩
  rw [hneural]
  decide

end SemanticHighlight.Query
