import SemanticHighlight.Proofs.Query.Renumbered
import SemanticHighlight.Proofs.Query.Rendered

/-!
# Printing a query and reading it again

A query that was read is rendered, the rendering is printed, and the text is read. The numbers
of a rendering are natural numbers, which are read as they are, and singles, which are read as
some double (`HasReading`), so the text is that of a query exactly if the rendering is one
(`exists_ofText_compact_iff`). A rendering is a query exactly if its numbers are finite
(`exists_denotes_toDsl_iff`): where one is not, null stands for it, and null is no number.

Main statement (`exists_ofText_toDsl_iff`): the text is refused if the query has a number that
is not finite, and if its rendering nests too deeply, and only then. Both happen with texts that
were read: a boost may be too large for a single (`ofText_toDsl_overflowing`), and a clause that
was given alone is rendered in an array (`ofText_nestedClauses`).
-/

namespace SemanticHighlight.Query

open Numeric Json

/-! ## The text of a rendering -/

/-- Whether a document is read from its text as the same document but for its doubles. -/
def HasReading (j : Json) : Prop :=
  ∃ j', Renumbered (fun n n' => n.Reads n' ∧ n.SameKind n') j j'

/-- A single is printed as something that can be read, be it null. -/
theorem hasReading_single (x : Single) : HasReading (Json.ofSingle x) := by
  cases x with
  | finite x =>
    obtain ⟨y, hwiden, -⟩ := widen_narrow x
    obtain ⟨y', hreads⟩ := Number.exists_reads_widened hwiden
    have hwritten : Json.ofSingle (.finite x) = .number (.double y) := Json.ofSingle_eq hwiden
    rw [hwritten]
    exact ⟨_, .number ⟨hreads, .double y y'⟩⟩
  | infinite | nan => exact ⟨.null, .null⟩

/-- A list can be read if each of its items can. -/
theorem hasReading_array (js : List Json) (h : ∀ j ∈ js, HasReading j) :
    HasReading (.array js) := by
  suffices hitems : ∃ js', RenumberedItems _ js js' from
    hitems.imp' Json.array fun _ => .array
  induction js with
  | nil => exact ⟨[], .nil⟩
  | cons j js ih =>
    obtain ⟨hj, hjs⟩ := List.forall_mem_cons.1 h
    obtain ⟨j', hj⟩ := hj
    obtain ⟨js', hjs⟩ := ih hjs
    exact ⟨j' :: js', .cons hj hjs⟩

/-- An object can be read if each value in it can. -/
theorem hasReading_object (ms : List (String × Json)) (h : ∀ m ∈ ms, HasReading m.2) :
    HasReading (.object ms) := by
  suffices hmembers : ∃ ms', RenumberedMembers _ ms ms' from
    hmembers.imp' Json.object fun _ => .object
  induction ms with
  | nil => exact ⟨[], .nil⟩
  | cons m ms ih =>
    obtain ⟨key, j⟩ := m
    obtain ⟨hj, hms⟩ := List.forall_mem_cons.1 h
    obtain ⟨j', hj⟩ := hj
    obtain ⟨ms', hms⟩ := ih hms
    exact ⟨(key, j') :: ms', .cons hj hms⟩

/-- So what a rendered query is made of can be read, and is kept so where it is put together. -/
theorem renderable_hasReading : Renderable HasReading where
  string s := ⟨.string s, .string s⟩
  natural n := by
    have hn := n.toNat_lt
    exact ⟨_, .number ⟨Number.reads_integer (by omega) (by omega), .integer _⟩⟩
  single := hasReading_single
  array := hasReading_array
  object ms _ := hasReading_object ms

/-- The text of a value is that of a query if the value is one, and nests no deeper than is
allowed. -/
theorem exists_ofText_compact_iff {j : Json} (hreading : HasReading j) (hj : j.IsValue) :
    (∃ p, ofText j.compact = .ok p) ↔ j.nesting ≤ nestingLimit ∧ ∃ p, Denotes j p := by
  obtain ⟨j', h⟩ := hreading
  -- what is printed and what is read back differ in their doubles only, which no query hinges on
  have hback : Alike j' j := h.converse fun _ _ hn => hn.2.symm
  have hforth : Alike j j' := h.imp fun _ _ hn => hn.2
  have hread : ofText j.compact = orJson (if j.nesting ≤ nestingLimit then .ok j' else
      .error .malformed) >>= ofValue := by
    unfold ofText
    rw [readValue_compact (h.imp fun _ _ hn => hn.1) hj]
  rw [hread]
  constructor
  · rintro ⟨p, hp⟩
    split at hp
    · next hle => exact ⟨hle, exists_denotes_of_alike hback (((ofValue_iff_denotes j').1 p).1 hp)⟩
    · cases hp
  · rintro ⟨hle, p, hp⟩
    obtain ⟨p', hp'⟩ := exists_denotes_of_alike hforth hp
    rw [if_pos hle]
    exact ⟨p', ((ofValue_iff_denotes j').1 p').2 hp'⟩

/-! ## Numbers that are not finite -/

section Finite

variable {params : List (String × Json)} {x boost : Single}

/-- A single that reads back as a number is finite, since any other prints as null. -/
theorem isFinite_of_numeral {y : Single} (h : Numeral (Json.ofSingle x) y) :
    x.isFinite = true := by
  cases x with
  | finite => rfl
  | infinite | nan => cases h

/-- A boost that reads back is finite. It may have been left out, but then it is neutral. -/
theorem isFinite_of_boosted (hfield : Json.member? params "boost" = boostField boost) {b : Single}
    (h : Boosted params b) : boost.isFinite = true := by
  unfold Boosted at h
  rw [hfield] at h
  unfold boostField at h
  split at h
  · next hneutral =>
    rw [hneutral]
    rfl
  · cases h with
    | given h => exact isFinite_of_numeral h

/-- A vector that reads back has finite elements. -/
theorem isFinite_of_numbers {vector xs : List Single} (h : Numbers (vectorJson vector) xs) :
    vector.all Binary.isFinite = true := by
  obtain ⟨hxs⟩ := h
  induction vector generalizing xs with
  | nil => rfl
  | cons x vector ih =>
    cases hxs with
    | cons hx hxs =>
      rw [List.all_cons, isFinite_of_numeral hx, ih hxs]
      rfl

/-- A vector that is left out for being empty has no number that is not finite. -/
theorem isFinite_of_vectorField {vector xs : List Single}
    (hfield : Json.member? params "vector" = Json.nonempty vectorJson vector)
    (h : Parameter Numbers [] (Json.member? params "vector") xs) :
    vector.all Binary.isFinite = true := by
  rw [hfield] at h
  cases vector with
  | nil => rfl
  | cons x vector =>
    cases h with
    | given h => exact isFinite_of_numbers h

end Finite

/-! ## Renderings that are queries -/

/-- An object with the key of a kind is a query if what stands under the key is a body. -/
theorem denotes_kind_iff {kind : Kind} {body : Json} {q : Query} :
    Denotes (.object [(kind.key, body)]) q ↔ Body kind body q := by
  rw [← agreesBelow _ _ (Nat.lt_succ_self _) q, ofJson_kind]
  exact bodyOf_eq_ok_iff (agreesBelow _)

/-- A `term` query that reads back has a finite boost, which stands in the long form only. -/
theorem isFinite_of_term {field text : String} {boost : Single} {p : Query}
    (h : Body .term (single field (if boost = neutralBoost then .string text
      else .object [("value", .string text), ("boost", Json.ofSingle boost)])) p) :
    boost.isFinite = true := by
  split at h
  · next hneutral =>
    rw [hneutral]
    rfl
  · next hneutral =>
    cases h with
    | term ht => cases ht
    | boostedTerm hv ht hb => exact isFinite_of_boosted (by simp [boostField, hneutral]) hb

/-- An array of clauses is one of queries. -/
theorem denotes_of_member {occur : Occur} {js : List Json} {m : String × Json}
    {group : List (Occur × Query)} (h : Member m group) (hm : m = (occur.key, .array js)) :
    ∀ j ∈ js, ∃ p, Denotes j p := by
  have hkey := congrArg Prod.fst hm
  have hvalue := congrArg Prod.snd hm
  cases h with
  | many hqueries =>
    cases hvalue
    intro j hj
    obtain ⟨p, -, hp⟩ := exists_of_forall₂_left hqueries j hj
    exact ⟨p, hp⟩
  | one hq =>
    -- a query is no array
    cases hvalue
    cases hq
  | minimum | boost =>
    dsimp only at hkey
    cases occur <;> exact absurd hkey (by decide)

/-- A clause of a boolean query is rendered in the array of its occurrence, and this among the
members. -/
theorem denotes_of_clause {clauses : List (Occur × Query)} {fields : List (String × Option Json)}
    {groups : List (List (Occur × Query))}
    (h : List.Forall₂ Member (Json.present fields) groups)
    (hfields : ∀ occur, (occur.key, Json.nonempty .array (clausesDsl occur clauses)) ∈ fields) :
    ∀ c ∈ clauses, ∃ p, Denotes c.2.toDsl p := by
  intro c hc
  have hrendered : c.2.toDsl ∈ clausesDsl c.1 clauses := by
    rw [clausesDsl_eq_map]
    exact List.mem_map.2 ⟨c, List.mem_filter.2 ⟨hc, by simp⟩, rfl⟩
  -- the group of a clause is not empty, so its member is there
  have hmember : (c.1.key, Json.array (clausesDsl c.1 clauses)) ∈ Json.present fields := by
    refine Json.mem_present.2 ?_
    have hfield := hfields c.1
    cases hjs : clausesDsl c.1 clauses with
    | nil =>
      rw [hjs] at hrendered
      cases hrendered
    | cons j js =>
      rw [hjs] at hfield
      exact hfield
  obtain ⟨group, -, hgroup⟩ := exists_of_forall₂_left h _ hmember
  exact denotes_of_member hgroup rfl _ hrendered

/-- A query whose printed form denotes anything has finite numbers. The induction is on the query,
with the printed form of each kind taken apart by the grammar. -/
theorem hasFiniteNumbers_of_denotes {q : Query} (he : q.Expressible) {p : Query}
    (h : Denotes q.toDsl p) : q.hasFiniteNumbers = true := by
  -- on how the query is expressed: each number of it stands in the body that its kind denotes
  induction he generalizing p with
  | term field text boost => exact isFinite_of_term (denotes_kind_iff.1 h)
  | knn field vector k boost =>
    have hbody := (@denotes_kind_iff .knn _ _).1 h
    cases hbody with
    | knn hv hn hk hb =>
      cases hv
      exact (Bool.and_eq_true _ _).mpr ⟨isFinite_of_numbers hn,
        isFinite_of_boosted (by simp [Json.member?_present]) hb⟩
  | neural field vector k boost text modelId =>
    have hbody := (@denotes_kind_iff .neural _ _).1 h
    cases hbody with
    | neural ht hv hk hb hm =>
      exact (Bool.and_eq_true _ _).mpr
        ⟨isFinite_of_vectorField (by simp [Json.member?_present]) hv,
          isFinite_of_boosted (by simp [Json.member?_present, Query.boost]) hb⟩
  | bool clauses boost minimum _ ih =>
    have hbody := (@denotes_kind_iff .bool _ _).1 h
    cases hbody with
    | bool hm hn hb =>
      have hclauses := @denotes_of_clause clauses _ _ hm (by
        intro occur
        cases occur <;> simp [Occur.key])
      refine (Bool.and_eq_true _ _).mpr ⟨haveClausesFinite_iff.2 fun c hc => ?_,
        isFinite_of_boosted (by simp [Json.member?_present]) hb⟩
      obtain ⟨p, hp⟩ := hclauses c hc
      exact ih c hc hp
  | hybrid queries boost _ ih =>
    have hbody := (@denotes_kind_iff .hybrid _ _).1 h
    cases hbody with
    | hybrid hj hq hb =>
      cases hj
      refine (Bool.and_eq_true _ _).mpr ⟨haveAllFinite_iff.2 fun q hq' => ?_,
        isFinite_of_boosted (by simp [Json.member?_present]) hb⟩
      obtain ⟨p, -, hp⟩ := exists_of_forall₂_left hq q.toDsl (by
        rw [listDsl_eq_map]
        exact List.mem_map_of_mem hq')
      exact ih q hq' hp

/-- A query that was read is rendered as a query exactly if its numbers are finite. -/
theorem exists_denotes_toDsl_iff {q : Query} (he : q.Expressible) :
    (∃ p, Denotes q.toDsl p) ↔ q.hasFiniteNumbers = true := by
  constructor
  · rintro ⟨p, hp⟩
    exact hasFiniteNumbers_of_denotes he hp
  · intro hfinite
    have hread := ofValue_eq_ok_iff.2 (ofJson_toDsl he hfinite)
    exact ⟨q.regrouped, ((ofValue_iff_denotes _).1 _).1 hread⟩

/-! ## Printing and reading again -/

/-- A query of the query language is printed as the text of one exactly if its numbers are finite
and it is not rendered too deeply. -/
theorem Expressible.exists_ofText_iff {q : Query} (he : q.Expressible) :
    (∃ p, ofText q.toDsl.compact = .ok p) ↔
      q.hasFiniteNumbers = true ∧ q.toDsl.nesting ≤ nestingLimit := by
  rw [exists_ofText_compact_iff (renderable_hasReading.toDsl q) (isValue_toDsl q),
    exists_denotes_toDsl_iff he, and_comm]

/-- What is read from a text is a query that the language has. -/
theorem expressible_of_ofText {text : String} {q : Query} (h : ofText text = .ok q) :
    q.Expressible := by
  obtain ⟨j, -, hj⟩ := bind_eq_ok_iff.1 h
  exact expressible_of_ofJson (ofValue_eq_ok_iff.1 hj)

/-- **The printed text of a query that was read is that of a query** exactly if all numbers of
the query are finite and its rendering keeps to the limit of nesting. -/
theorem exists_ofText_toDsl_iff {text : String} {q : Query} (h : ofText text = .ok q) :
    (∃ p, ofText q.toDsl.compact = .ok p) ↔
      q.hasFiniteNumbers = true ∧ q.toDsl.nesting ≤ nestingLimit :=
  (expressible_of_ofText h).exists_ofText_iff

/-- A boolean query with a single clause in place of an array. -/
def boostedText : String :=
  "\x7b\"bool\":\x7b\"must\":\x7b\"term\":\x7b\"f\":true\x7d\x7d,\"boost\":2.5e-3\x7d\x7d"

/-- A query whose clause is a single document, and whose boost is finite, reads back from what it
prints. -/
theorem exists_ofText_toDsl_boosted :
    ∃ q, ofText boostedText = .ok q ∧ q.hasFiniteNumbers = true ∧ q.toDsl.nesting = 5 ∧
      ∃ p, ofText q.toDsl.compact = .ok p := by
  have h : (ofText boostedText).toOption.map (fun q => (q.hasFiniteNumbers, q.toDsl.nesting)) =
      some (true, 5) := by
    decide +kernel
  obtain ⟨q, hq, heq⟩ := toOption_map_eq_some_iff.1 h
  obtain ⟨hfinite, hnesting⟩ := Prod.mk.injEq .. ▸ heq
  have hback := (exists_ofText_toDsl_iff hq).2 ⟨hfinite, by rw [hnesting]; decide⟩
  exact ⟨q, hq, hfinite, hnesting, hback⟩

/-- A query with a boost beyond the range of singles. -/
def overflowingText : String :=
  "\x7b\"term\":\x7b\"f\":\x7b\"value\":\"x\",\"boost\":1e39\x7d\x7d\x7d"

/-- What it is printed as. -/
def overflowingDsl : String :=
  "\x7b\"term\":\x7b\"f\":\x7b\"value\":\"x\",\"boost\":null\x7d\x7d\x7d"

/-- A boost that is too large for a single is printed as null, and null is no boost. -/
theorem ofText_toDsl_overflowing :
    ∃ q, ofText overflowingText = .ok q ∧ q.toDsl.compact = overflowingDsl ∧
      ofText overflowingDsl = .error (.query "boost must be a number") := by
  have h : (ofText overflowingText).toOption.map (fun q => q.toDsl.compact) =
      some overflowingDsl := by
    decide +kernel
  have hrefused : (match ofText overflowingDsl with
      | .ok _ => none
      | .error e => some e) = some (.query "boost must be a number") := by
    decide +kernel
  obtain ⟨q, hq, hprinted⟩ := toOption_map_eq_some_iff.1 h
  refine ⟨q, hq, hprinted, ?_⟩
  -- the fault is compared as an option, because results have no decidable equality
  cases hread : ofText overflowingDsl with
  | ok p =>
    rw [hread] at hrefused
    cases hrefused
  | error e =>
    rw [hread] at hrefused
    cases hrefused
    rfl

/-! ## Single clauses -/

/-- Boolean queries inside one another, each with a single clause in place of an array. -/
def nestedClauses : Nat → Json
  | 0 => single "term" (single "f" (.string "x"))
  | n + 1 => single "bool" (single "must" (nestedClauses n))

def nestedQuery : Nat → Query
  | 0 => .term "f" "x" neutralBoost
  | n + 1 => .bool [(.must, nestedQuery n)] neutralBoost 0

theorem denotes_nestedClauses : ∀ n, Denotes (nestedClauses n) (nestedQuery n)
  | 0 => @Denotes.mk .term _ _ (.term (.string "x"))
  | n + 1 =>
    have hmember := @Member.one .must _ _ (denotes_nestedClauses n)
    @Denotes.mk .bool _ _ (.bool (.cons hmember .nil) .absent .absent)

theorem expressible_nestedQuery (n : Nat) : (nestedQuery n).Expressible :=
  expressible_of_ofJson (ofValue_eq_ok_iff.1
    (((ofValue_iff_denotes _).1 _).2 (denotes_nestedClauses n)))

/-- Such a query has no number in it that could be infinite. -/
theorem hasFiniteNumbers_nestedQuery (n : Nat) : (nestedQuery n).hasFiniteNumbers = true := by
  induction n with
  | zero => rfl
  | succ n ih =>
    refine (Bool.and_eq_true _ _).mpr ⟨haveClausesFinite_iff.2 fun c hc => ?_, rfl⟩
    rw [List.mem_singleton.1 hc]
    exact ih

theorem nesting_single (key : String) (j : Json) : (single key j).nesting = j.nesting + 1 :=
  congrArg (· + 1) (Nat.max_zero j.nesting)

/-- The short form goes two levels deeper with each clause. -/
theorem nesting_nestedClauses (n : Nat) : (nestedClauses n).nesting = 2 * n + 2 := by
  induction n with
  | zero => rfl
  | succ n ih =>
    rw [nestedClauses, nesting_single, nesting_single, ih]
    omega

/-- The printed form goes three levels deeper, because it has a list around each clause. That is
what makes room for a text that is read and prints one that is not. -/
theorem nesting_nestedQuery (n : Nat) : (nestedQuery n).toDsl.nesting = 3 * n + 2 := by
  induction n with
  | zero => rfl
  | succ n ih =>
    -- the clause is rendered in an array, which its value did not have
    have hdsl : (nestedQuery (n + 1)).toDsl =
        single "bool" (single "must" (.array [(nestedQuery n).toDsl])) := rfl
    have harray : (Json.array [(nestedQuery n).toDsl]).nesting = (3 * n + 2) + 1 :=
      congrArg (· + 1) ((Nat.max_zero _).trans ih)
    rw [hdsl, nesting_single, nesting_single, harray]
    omega

/-- Nested clauses are a value, every object in them having one key. -/
theorem isValue_nestedClauses (n : Nat) : (nestedClauses n).IsValue := by
  have hsingle (key : String) {j : Json} (hj : j.IsValue) : (single key j).IsValue :=
    renderable_isValue.ofMember hj
  induction n with
  | zero => exact hsingle _ (hsingle _ (Json.isValue_string "x"))
  | succ n ih => exact hsingle _ (hsingle _ ih)

theorem reads_nestedClauses : ∀ n,
    Renumbered Number.Reads (nestedClauses n) (nestedClauses n)
  | 0 => .object (.cons (.object (.cons (.string "x") .nil)) .nil)
  | n + 1 => .object (.cons (.object (.cons (reads_nestedClauses n) .nil)) .nil)

/-- A clause is rendered in an array also where it was not given in one, so a text that keeps to
the limit of nesting can be printed as one that does not. -/
theorem ofText_nestedClauses {n : Nat} (hn : n ≤ 62) :
    ofText (nestedClauses n).compact = .ok (nestedQuery n) ∧
      ((∃ p, ofText (nestedQuery n).toDsl.compact = .ok p) ↔ n ≤ 41) := by
  have hlimit : nestingLimit = 127 := rfl
  have hfinite := hasFiniteNumbers_nestedQuery n
  constructor
  · unfold ofText
    rw [readValue_compact (reads_nestedClauses n) (isValue_nestedClauses n),
      nesting_nestedClauses, if_pos (by omega)]
    exact ((ofValue_iff_denotes _).1 _).2 (denotes_nestedClauses n)
  · rw [(expressible_nestedQuery n).exists_ofText_iff, nesting_nestedQuery]
    constructor
    · rintro ⟨-, hle⟩
      omega
    · intro hle
      exact ⟨hfinite, by omega⟩

end SemanticHighlight.Query
