import Mathlib.Data.List.Forall2
import SemanticHighlight.Proofs.Query.RoundTrip

/-!
# The grammar of the query language

`Denotes` is the query language by itself: which values are queries, and which query each of
them is. A query is an object with one key, its kind, and the body that belongs to the kind
(`Body`); the members of a boolean query that hold clauses are queries or arrays of queries,
and it has no members but those of the grammar (`Member`). Elsewhere keys that the grammar
does not name are passed over.

Main statement (`ofValue_iff_denotes`): exactly the values of the grammar are read, and each
as the query it denotes; any other value is refused with an error about queries.
-/

namespace SemanticHighlight.Query

open Numeric

/-! ## The grammar -/

/-- The text of a scalar: a string, or a number or truth value as it is written. -/
inductive Scalar : Json → String → Prop
  | string (s : String) : Scalar (.string s) s
  | number (n : Json.Number) : Scalar (.number n) (String.ofList n.chars)
  | true : Scalar (.bool true) "true"
  | false : Scalar (.bool false) "false"

/-- A number stands for the single nearest to the double nearest to it. -/
inductive Numeral : Json → Single → Prop
  | mk (n : Json.Number) : Numeral (.number n) (n.toDouble.convert .single)

/-- A natural number of 64 bits, written as an integer. -/
inductive Natural : Json → UInt64 → Prop
  | mk (n : UInt64) : Natural (.number (.integer n.toNat)) n

/-- An array of numbers. -/
inductive Numbers : Json → List Single → Prop
  | mk {js : List Json} {xs : List Single} (h : List.Forall₂ Numeral js xs) :
      Numbers (.array js) xs

/-- A parameter that may be left out stands for a default then. -/
inductive Parameter {α : Type} (Means : Json → α → Prop) (default : α) :
    Option Json → α → Prop
  | absent : Parameter Means default none default
  | given {j : Json} {a : α} (h : Means j a) : Parameter Means default (some j) a

/-- The boost among the members of an object. -/
def Boosted (params : List (String × Json)) (boost : Single) : Prop :=
  Parameter Numeral neutralBoost (Json.member? params "boost") boost

/-- The number of neighbours among the members of an object. -/
def AsksFor (params : List (String × Json)) (k : UInt64) : Prop :=
  Parameter Natural defaultK (Json.member? params "k") k

/-- A model is named by a string, and by nothing else. -/
inductive ModelId : Option Json → Option String → Prop
  | named (s : String) : ModelId (some (.string s)) (some s)
  | unnamed {j? : Option Json} (h : ∀ s, j? ≠ some (.string s)) : ModelId j? none

mutual

/-- The values that are queries, and the query each of them is. -/
inductive Denotes : Json → Query → Prop
  | mk {kind : Kind} {body : Json} {q : Query} (h : Body kind body q) :
      Denotes (.object [(kind.key, body)]) q

/-- The bodies of the queries of a kind. -/
inductive Body : Kind → Json → Query → Prop
  | term {field text : String} {value : Json} (ht : Scalar value text) :
      Body .term (.object [(field, value)]) (.term field text neutralBoost)
  | boostedTerm {field text : String} {params : List (String × Json)} {value : Json}
      {boost : Single} (hv : Json.member? params "value" = some value)
      (ht : Scalar value text) (hb : Boosted params boost) :
      Body .term (.object [(field, .object params)]) (.term field text boost)
  | bool {params : List (String × Json)} {groups : List (List (Occur × Query))}
      {boost : Single} {minimum : UInt64} (hm : List.Forall₂ Member params groups)
      (hn : Parameter Natural 0 (Json.member? params "minimum_should_match") minimum)
      (hb : Boosted params boost) :
      Body .bool (.object params) (.bool groups.flatten boost minimum)
  | knn {field : String} {params : List (String × Json)} {numbers : Json}
      {vector : List Single} {k : UInt64} {boost : Single}
      (hv : Json.member? params "vector" = some numbers) (hn : Numbers numbers vector)
      (hk : AsksFor params k) (hb : Boosted params boost) :
      Body .knn (.object [(field, .object params)]) (.knn field vector k boost)
  | neural {field text : String} {params : List (String × Json)} {vector : List Single}
      {k : UInt64} {boost : Single} {modelId : Option String}
      (ht : Json.member? params "query_text" = some (.string text))
      (hv : Parameter Numbers [] (Json.member? params "vector") vector)
      (hk : AsksFor params k) (hb : Boosted params boost)
      (hm : ModelId (Json.member? params "model_id") modelId) :
      Body .neural (.object [(field, .object params)])
        (.neural (.knn field vector k boost) text modelId)
  | hybrid {params : List (String × Json)} {js : List Json} {queries : List Query}
      {boost : Single} (hj : Json.member? params "queries" = some (.array js))
      (hq : List.Forall₂ Denotes js queries) (hb : Boosted params boost) :
      Body .hybrid (.object params) (.hybrid queries boost)

/-- The members of a boolean query, and the clauses that each of them holds. -/
inductive Member : String × Json → List (Occur × Query) → Prop
  | many {occur : Occur} {js : List Json} {queries : List Query}
      (h : List.Forall₂ Denotes js queries) :
      Member (occur.key, .array js) (queries.map (occur, ·))
  | one {occur : Occur} {j : Json} {q : Query} (h : Denotes j q) :
      Member (occur.key, j) [(occur, q)]
  | minimum (j : Json) : Member ("minimum_should_match", j) []
  | boost (j : Json) : Member ("boost", j) []

end

/-! ## Parameters are read by the grammar -/

section Parameters

variable {j : Json} {params : List (String × Json)}

theorem membersOf_eq_ok_iff {clause : String} :
    membersOf clause j = .ok params ↔ j = .object params := by
  unfold membersOf
  cases j <;> simp

theorem entryOf_eq_ok_iff {clause key : String} {value : Json} :
    entryOf clause j = .ok (key, value) ↔ j = .object [(key, value)] := by
  unfold entryOf
  split <;> simp_all

/-- A text is read from a scalar exactly as the grammar spells it: texts as they are, numbers and
truth values as they print. -/
theorem scalarText_eq_ok_iff {text : String} : scalarText j = .ok text ↔ Scalar j text := by
  constructor
  · intro h
    cases j with
    | string | number => cases h; constructor
    | bool b => cases b <;> cases h <;> constructor
    | null | array | object | unreadable => cases h
  · intro h
    cases h <;> rfl

/-- A natural number is read from an integer that fits, and from nothing else. -/
theorem natural64?_eq_some_iff {n : UInt64} : natural64? j = some n ↔ Natural j n := by
  constructor
  · intro h
    cases j with
    | number number =>
      obtain ⟨m, hm, rfl⟩ := Option.map_eq_some_iff.1 h
      cases number with
      | integer i =>
        unfold Json.Number.natural? at hm
        simp only [Option.ite_none_right_eq_some, Bool.and_eq_true, decide_eq_true_eq,
          Option.some.injEq] at hm
        obtain ⟨⟨hnonneg, hlt⟩, rfl⟩ := hm
        -- an integer in range is the one that its 64 bits are read back as
        have hsize : i.toNat < UInt64.size := by omega
        have hround : ((UInt64.ofNat i.toNat).toNat : Int) = i := by
          rw [UInt64.toNat_ofNat_of_lt' hsize]
          omega
        have hnatural := Natural.mk (UInt64.ofNat i.toNat)
        rwa [hround] at hnatural
      | double | single => cases hm
    | null | bool | string | array | object | unreadable => cases h
  · intro h
    cases h with
    | mk => exact natural64?_ofUInt64 n

/-- A natural number that may be left out. -/
theorem naturalParameter_eq_ok_iff {j? : Option Json} {e : Error} {default n : UInt64} :
    (match j? with
      | none => Except.ok default
      | some j => match natural64? j with
        | some n => .ok n
        | none => .error e) = .ok n ↔ Parameter Natural default j? n := by
  constructor
  · intro h
    split at h
    · cases h
      exact .absent
    · -- given, and then a natural number or a fault
      split at h
      · next m hm =>
        cases h
        exact .given (natural64?_eq_some_iff.1 hm)
      · cases h
  · intro h
    cases h with
    | absent => rfl
    | given h =>
      dsimp only
      rw [natural64?_eq_some_iff.2 h]

theorem kOf_eq_ok_iff {k : UInt64} : kOf params = .ok k ↔ AsksFor params k :=
  naturalParameter_eq_ok_iff

theorem minimumOf_eq_ok_iff {minimum : UInt64} : minimumOf params = .ok minimum ↔
    Parameter Natural 0 (Json.member? params "minimum_should_match") minimum :=
  naturalParameter_eq_ok_iff

/-- A boost is read exactly as the grammar spells it. That it was not given and that it was given as
neutral come to the same. -/
theorem boostOf_eq_ok_iff {boost : Single} :
    (∃ boost?, boostOf params = .ok boost? ∧ boost?.getD neutralBoost = boost) ↔
      Boosted params boost := by
  unfold boostOf Boosted
  -- only what is found under the key matters from here on
  generalize Json.member? params "boost" = j?
  constructor
  · rintro ⟨boost?, h, rfl⟩
    split at h
    · cases h
      exact Parameter.absent
    · next n =>
      cases h
      exact Parameter.given (Numeral.mk n)
    · cases h
  · intro h
    cases h with
    | absent => exact ⟨none, rfl, rfl⟩
    | given h =>
      cases h with
      | mk n => exact ⟨some (narrowed n), rfl, rfl⟩

/-- The elements of a vector are read one by one, each as a numeral. -/
theorem elements_eq_ok_iff {js : List Json} {xs : List Single} :
    elements js = .ok xs ↔ List.Forall₂ Numeral js xs := by
  induction js generalizing xs with
  | nil =>
    constructor
    · intro h
      cases h
      exact .nil
    · intro h
      cases h
      rfl
  | cons j js ih =>
    constructor
    · intro h
      cases j with
      | number n =>
        obtain ⟨rest, hrest, h⟩ := bind_eq_ok_iff.1 h
        cases h
        exact .cons (.mk n) (ih.1 hrest)
      | null | bool | string | array | object | unreadable => cases h
    · intro h
      cases h with
      | cons hj hjs =>
        cases hj with
        | mk n => exact bind_eq_ok_iff.2 ⟨_, ih.2 hjs, rfl⟩

/-- A vector is read from a list of numerals. -/
theorem vectorOf_eq_ok_iff {xs : List Single} : vectorOf j = .ok xs ↔ Numbers j xs := by
  constructor
  · intro h
    cases j with
    | array js => exact .mk (elements_eq_ok_iff.1 h)
    | null | bool | number | string | object | unreadable => cases h
  · intro h
    cases h with
    | mk h => exact elements_eq_ok_iff.2 h

/-- A vector that may be left out, and what is made of it. -/
theorem bind_vector_eq_ok_iff {j? : Option Json} {f : List Single → Except Error Query}
    {q : Query} :
    (match j? with
      | some j => vectorOf j >>= f
      | none => .ok [] >>= f) = .ok q ↔
      ∃ vector, Parameter Numbers [] j? vector ∧ f vector = .ok q := by
  constructor
  · intro h
    cases j? with
    | none => exact ⟨[], .absent, h⟩
    | some j =>
      obtain ⟨vector, hvector, h⟩ := bind_eq_ok_iff.1 h
      exact ⟨vector, .given (vectorOf_eq_ok_iff.1 hvector), h⟩
  · rintro ⟨vector, hvector, h⟩
    cases hvector with
    | absent => exact h
    | given hvector => exact bind_eq_ok_iff.2 ⟨vector, vectorOf_eq_ok_iff.2 hvector, h⟩

end Parameters

/-! ## Leaves are read by the grammar -/

section Leaves

variable {body : Json} {q : Query}

/-- The parser of `term` reads what the grammar spells, in its short form and in its long one. -/
theorem termOf_eq_ok_iff : termOf body = .ok q ↔ Body .term body q := by
  constructor
  · intro h
    obtain ⟨⟨field, spec⟩, hentry, h⟩ := bind_eq_ok_iff.1 h
    rw [entryOf_eq_ok_iff.1 hentry]
    dsimp only at h
    split at h
    · split at h
      · cases h
      · next value hvalue =>
        obtain ⟨text, htext, h⟩ := bind_eq_ok_iff.1 h
        obtain ⟨boost?, hboost, h⟩ := bind_eq_ok_iff.1 h
        cases h
        exact .boostedTerm hvalue (scalarText_eq_ok_iff.1 htext)
          (boostOf_eq_ok_iff.1 ⟨boost?, hboost, rfl⟩)
    · obtain ⟨text, htext, h⟩ := bind_eq_ok_iff.1 h
      cases h
      exact .term (scalarText_eq_ok_iff.1 htext)
  · intro h
    cases h with
    | term ht =>
      refine bind_eq_ok_iff.2 ⟨_, entryOf_eq_ok_iff.2 rfl, ?_⟩
      -- a scalar is no object, so it is not taken for parameters
      cases ht <;> rfl
    | boostedTerm hv ht hb =>
      obtain ⟨boost?, hboost, rfl⟩ := boostOf_eq_ok_iff.2 hb
      refine bind_eq_ok_iff.2 ⟨_, entryOf_eq_ok_iff.2 rfl, ?_⟩
      dsimp only
      rw [hv]
      exact bind_eq_ok_iff.2 ⟨_, scalarText_eq_ok_iff.2 ht, bind_eq_ok_iff.2 ⟨_, hboost, rfl⟩⟩

/-- The parser of `knn` reads what the grammar spells. Both ways the parameters are taken one at a
time. -/
theorem knnOf_eq_ok_iff : knnOf body = .ok q ↔ Body .knn body q := by
  constructor
  · intro h
    obtain ⟨⟨field, spec⟩, hentry, h⟩ := bind_eq_ok_iff.1 h
    obtain ⟨params, hparams, h⟩ := bind_eq_ok_iff.1 h
    rw [entryOf_eq_ok_iff.1 hentry, membersOf_eq_ok_iff.1 hparams]
    -- without a vector the parser stops before it comes to the other parameters
    split at h
    · cases h
    · next numbers hnumbers =>
      obtain ⟨vector, hvector, h⟩ := bind_eq_ok_iff.1 h
      obtain ⟨k, hk, h⟩ := bind_eq_ok_iff.1 h
      obtain ⟨boost?, hboost, h⟩ := bind_eq_ok_iff.1 h
      cases h
      exact .knn hnumbers (vectorOf_eq_ok_iff.1 hvector) (kOf_eq_ok_iff.1 hk)
        (boostOf_eq_ok_iff.1 ⟨boost?, hboost, rfl⟩)
  · intro h
    cases h with
    | knn hv hn hk hb =>
      obtain ⟨boost?, hboost, rfl⟩ := boostOf_eq_ok_iff.2 hb
      refine bind_eq_ok_iff.2 ⟨_, entryOf_eq_ok_iff.2 rfl,
        bind_eq_ok_iff.2 ⟨_, membersOf_eq_ok_iff.2 rfl, ?_⟩⟩
      rw [hv]
      exact bind_eq_ok_iff.2 ⟨_, vectorOf_eq_ok_iff.2 hn,
        bind_eq_ok_iff.2 ⟨_, kOf_eq_ok_iff.2 hk, bind_eq_ok_iff.2 ⟨_, hboost, rfl⟩⟩⟩

/-- What a neural query does with the name of its model. -/
theorem modelId_iff {j? : Option Json} {modelId : Option String} :
    (match j? with
      | some (.string s) => some s
      | _ => none) = modelId ↔ ModelId j? modelId := by
  constructor
  · rintro rfl
    split
    · exact .named _
    · next hnot => exact .unnamed hnot
  · intro h
    cases h with
    | named s => rfl
    | unnamed h =>
      split
      · next s => exact absurd rfl (h s)
      · rfl

/-- The parser of `neural` reads what the grammar spells, with either source of the number of
neighbours. -/
theorem neuralOf_eq_ok_iff : neuralOf body = .ok q ↔ Body .neural body q := by
  constructor
  · intro h
    obtain ⟨⟨field, spec⟩, hentry, h⟩ := bind_eq_ok_iff.1 h
    obtain ⟨params, hparams, h⟩ := bind_eq_ok_iff.1 h
    rw [entryOf_eq_ok_iff.1 hentry, membersOf_eq_ok_iff.1 hparams]
    -- without a text the parser stops before it comes to the other parameters
    split at h
    · next text htext =>
      obtain ⟨vector, hvector, h⟩ := bind_vector_eq_ok_iff.1 h
      obtain ⟨k, hk, h⟩ := bind_eq_ok_iff.1 h
      obtain ⟨boost?, hboost, h⟩ := bind_eq_ok_iff.1 h
      cases h
      exact .neural htext hvector (kOf_eq_ok_iff.1 hk)
        (boostOf_eq_ok_iff.1 ⟨boost?, hboost, rfl⟩) (modelId_iff.1 rfl)
    · cases h
  · intro h
    cases h with
    | neural ht hv hk hb hm =>
      obtain ⟨boost?, hboost, rfl⟩ := boostOf_eq_ok_iff.2 hb
      refine bind_eq_ok_iff.2 ⟨_, entryOf_eq_ok_iff.2 rfl,
        bind_eq_ok_iff.2 ⟨_, membersOf_eq_ok_iff.2 rfl, ?_⟩⟩
      rw [ht]
      exact bind_vector_eq_ok_iff.2 ⟨_, hv, bind_eq_ok_iff.2 ⟨_, kOf_eq_ok_iff.2 hk,
        bind_eq_ok_iff.2 ⟨_, hboost,
          congrArg Except.ok (congrArg (Query.neural _ _) (modelId_iff.2 hm))⟩⟩⟩

end Leaves

/-! ## Trees are read by the grammar -/

/-- Whether a value is read as the query it denotes, and as no other. -/
def Agrees (j : Json) : Prop := ∀ q, ofJson j = .ok q ↔ Denotes j q

/-- Whether this is so of all values below a size. -/
def AgreesBelow (n : Nat) : Prop := ∀ j : Json, sizeOf j < n → Agrees j

section Trees

variable {n : Nat} {params : List (String × Json)} {js : List Json} {queries : List Query}
  {clauses : List (Occur × Query)} {q : Query}

/-- If a parser and the grammar agree on every item of a list, they do on the list. -/
theorem queriesOf_eq_ok_iff (h : ∀ j ∈ js, Agrees j) :
    queriesOf js = .ok queries ↔ List.Forall₂ Denotes js queries := by
  induction js generalizing queries with
  | nil =>
    constructor
    · intro hread
      cases hread
      exact .nil
    · intro hread
      cases hread
      rfl
  | cons j js ih =>
    -- the parser and the grammar agree on the head by hypothesis, and on the rest by induction
    obtain ⟨hj, hjs⟩ := List.forall_mem_cons.1 h
    constructor
    · intro hread
      obtain ⟨q, hq, hread⟩ := bind_eq_ok_iff.1 hread
      obtain ⟨rest, hrest, hread⟩ := bind_eq_ok_iff.1 hread
      cases hread
      exact .cons ((hj q).1 hq) ((ih hjs).1 hrest)
    · intro hread
      cases hread with
      | cons hq hrest =>
        exact bind_eq_ok_iff.2 ⟨_, (hj _).2 hq, bind_eq_ok_iff.2 ⟨_, (ih hjs).2 hrest, rfl⟩⟩

/-- The queries that a group of clauses is of: an array of queries, or one query. -/
def queriesWithin : Json → Except Error (List Query)
  | .array js => queriesOf js
  | j => (ofJson j).map ([·])

/-- The clauses that a member of a boolean query holds. -/
def groupOf (key : String) (j : Json) : Except Error (List (Occur × Query)) :=
  if isBoolSetting key then .ok []
  else
    match Occur.ofKey? key with
    | none => .error (.unsupportedParameter key)
    | some occur => (queriesWithin j).map (·.map (occur, ·))

/-- Clauses are read member by member. -/
theorem clausesOf_cons (key : String) (j : Json) (rest : List (String × Json)) :
    clausesOf ((key, j) :: rest) =
      groupOf key j >>= fun clauses => (clausesOf rest).map (clauses ++ ·) := by
  unfold groupOf
  -- an array and a single document are two equations of the parser, and one of `groupOf`
  cases j with
  | array js =>
    conv_lhs => unfold clausesOf
    cases isBoolSetting key with
    | true => cases clausesOf rest <;> rfl
    | false =>
      cases Occur.ofKey? key with
      | none => rfl
      | some occur =>
        simp only [Bool.false_eq_true, ↓reduceIte, queriesWithin]
        cases queriesOf js <;> cases clausesOf rest <;> rfl
  | null | bool | number | string | object | unreadable =>
    conv_lhs => unfold clausesOf
    cases isBoolSetting key with
    | true => cases clausesOf rest <;> rfl
    | false =>
      cases Occur.ofKey? key with
      | none => rfl
      | some occur =>
        simp only [Bool.false_eq_true, ↓reduceIte, queriesWithin]
        generalize ofJson _ = read
        cases read <;> cases clausesOf rest <;> rfl

/-- The items of an array are smaller than it. -/
theorem AgreesBelow.of_mem (h : AgreesBelow n) (hjs : sizeOf (Json.array js) < n) :
    ∀ j ∈ js, Agrees j := by
  intro j hj
  have hlt := List.sizeOf_lt_of_mem hj
  simp only [Json.array.sizeOf_spec] at hjs
  exact h j (by omega)

/-- The queries of a group are a list of documents, or a single one. -/
theorem queriesWithin_eq_ok_iff {j : Json} (h : AgreesBelow n) (hj : sizeOf j < n) :
    queriesWithin j = .ok queries ↔
      (∃ js, j = .array js ∧ List.Forall₂ Denotes js queries) ∨
        ∃ q, Denotes j q ∧ [q] = queries := by
  constructor
  · intro hread
    cases j with
    | array js =>
      exact .inl ⟨js, rfl, (queriesOf_eq_ok_iff (h.of_mem hj)).1 hread⟩
    | object members =>
      obtain ⟨q, hq, hqueries⟩ := map_eq_ok_iff.1 hread
      exact .inr ⟨q, (h _ hj q).1 hq, hqueries⟩
    | null | bool | number | string | unreadable => cases hread
  · rintro (⟨js, rfl, hjs⟩ | ⟨q, hq, rfl⟩)
    · exact (queriesOf_eq_ok_iff (h.of_mem hj)).2 hjs
    · -- a query is an object, so it is not taken for an array of queries
      have hread := (h _ hj q).2 hq
      cases hq
      exact map_eq_ok_iff.2 ⟨q, hread, rfl⟩

theorem isBoolSetting_iff {key : String} :
    isBoolSetting key = true ↔ key = "minimum_should_match" ∨ key = "boost" := by
  simp [isBoolSetting]

/-- The kind of a clause is known by its key. -/
theorem ofKey?_eq_some_iff {key : String} {occur : Occur} :
    Occur.ofKey? key = some occur ↔ key = occur.key := by
  constructor
  · intro h
    have hkey := List.find?_some h
    exact (of_decide_eq_true hkey).symm
  · rintro rfl
    exact ofKey?_key occur

/-- The clauses of a group all have the kind that its key names. -/
theorem groupOf_occur (occur : Occur) {j : Json} (h : queriesWithin j = .ok queries) :
    groupOf occur.key j = .ok (queries.map (occur, ·)) := by
  unfold groupOf
  rw [isBoolSetting_key, ofKey?_key, h]
  rfl

/-- A member of a `bool` body is read as the grammar spells it: a group of clauses, or a setting,
which holds none. -/
theorem groupOf_eq_ok_iff {key : String} {j : Json} (h : AgreesBelow n) (hj : sizeOf j < n) :
    groupOf key j = .ok clauses ↔ Member (key, j) clauses := by
  constructor
  · intro hread
    unfold groupOf at hread
    split at hread
    · next hset =>
      cases hread
      -- a setting holds no clauses, whatever stands under it
      obtain rfl | rfl := isBoolSetting_iff.1 hset
      · exact .minimum j
      · exact .boost j
    · split at hread
      · cases hread
      · next occur hoccur =>
        obtain rfl := ofKey?_eq_some_iff.1 hoccur
        obtain ⟨queries, hqueries, rfl⟩ := map_eq_ok_iff.1 hread
        obtain ⟨js, rfl, hjs⟩ | ⟨q, hq, rfl⟩ := (queriesWithin_eq_ok_iff h hj).1 hqueries
        · exact .many hjs
        · exact .one hq
  · intro hmember
    cases hmember with
    | many hjs =>
      exact groupOf_occur _ ((queriesWithin_eq_ok_iff h hj).2 (.inl ⟨_, rfl, hjs⟩))
    | one hq => exact groupOf_occur _ ((queriesWithin_eq_ok_iff h hj).2 (.inr ⟨_, hq, rfl⟩))
    | minimum | boost => rfl

/-- The clauses of a `bool` body are those of its members, one group behind the other. The induction
is on the members, with the bound on their size kept. -/
theorem clausesOf_eq_ok_iff (h : AgreesBelow n) (hparams : sizeOf params ≤ n) :
    clausesOf params = .ok clauses ↔
      ∃ groups, List.Forall₂ Member params groups ∧ groups.flatten = clauses := by
  induction params generalizing clauses with
  | nil =>
    constructor
    · intro hread
      cases hread
      exact ⟨[], .nil, rfl⟩
    · rintro ⟨groups, hgroups, rfl⟩
      cases hgroups
      rfl
  | cons param rest ih =>
    obtain ⟨key, j⟩ := param
    simp only [List.cons.sizeOf_spec, Prod.mk.sizeOf_spec] at hparams
    -- both the member and the rest are smaller than the body
    have hj : sizeOf j < n := by omega
    have hrest : sizeOf rest ≤ n := by omega
    rw [clausesOf_cons]
    constructor
    · intro hread
      obtain ⟨group, hgroup, hread⟩ := bind_eq_ok_iff.1 hread
      obtain ⟨others, hothers, rfl⟩ := map_eq_ok_iff.1 hread
      obtain ⟨groups, hgroups, rfl⟩ := (ih hrest).1 hothers
      exact ⟨group :: groups, .cons ((groupOf_eq_ok_iff h hj).1 hgroup) hgroups, rfl⟩
    · rintro ⟨groups, hgroups, rfl⟩
      cases hgroups with
      | cons hgroup hgroups =>
        exact bind_eq_ok_iff.2 ⟨_, (groupOf_eq_ok_iff h hj).2 hgroup,
          map_eq_ok_iff.2 ⟨_, (ih hrest).2 ⟨_, hgroups, rfl⟩, rfl⟩⟩

/-- The queries among parameters are an array of theirs. -/
theorem queriesAmong_eq_ok_iff : queriesAmong params = .ok queries ↔
    ∃ js, Json.member? params "queries" = some (.array js) ∧ queriesOf js = .ok queries := by
  induction params with
  | nil =>
    constructor
    · intro h
      cases h
    · rintro ⟨js, h, -⟩
      cases h
  | cons param rest ih =>
    obtain ⟨key, j⟩ := param
    unfold Json.member?
    by_cases hkey : key = "queries"
    · cases j <;> unfold queriesAmong <;> simp [hkey]
    · cases j <;> unfold queriesAmong <;> simp [hkey, ih]

/-- The parser of `bool` reads what the grammar spells, if the two agree on all that is smaller. -/
theorem boolOf_eq_ok_iff {body : Json} (h : AgreesBelow (sizeOf body)) :
    boolOf body = .ok q ↔ Body .bool body q := by
  constructor
  · intro hread
    cases body with
    | object params =>
      obtain ⟨clauses, hclauses, hread⟩ := bind_eq_ok_iff.1 hread
      obtain ⟨minimum, hminimum, hread⟩ := bind_eq_ok_iff.1 hread
      obtain ⟨boost?, hboost, hread⟩ := bind_eq_ok_iff.1 hread
      cases hread
      -- the clauses come member by member, the settings are looked up on their own
      obtain ⟨groups, hgroups, rfl⟩ := (clausesOf_eq_ok_iff h (by simp)).1 hclauses
      exact .bool hgroups (minimumOf_eq_ok_iff.1 hminimum)
        (boostOf_eq_ok_iff.1 ⟨boost?, hboost, rfl⟩)
    | null | bool | number | string | array | unreadable => cases hread
  · intro hbody
    cases hbody with
    | bool hm hn hb =>
      obtain ⟨boost?, hboost, rfl⟩ := boostOf_eq_ok_iff.2 hb
      exact bind_eq_ok_iff.2 ⟨_, (clausesOf_eq_ok_iff h (by simp)).2 ⟨_, hm, rfl⟩,
        bind_eq_ok_iff.2 ⟨_, minimumOf_eq_ok_iff.2 hn, bind_eq_ok_iff.2 ⟨_, hboost, rfl⟩⟩⟩

/-- The members of an object are smaller than it. -/
theorem sizeOf_member?_lt {key : String} {j : Json} (h : Json.member? params key = some j) :
    sizeOf j < sizeOf (Json.object params) := by
  induction params with
  | nil => cases h
  | cons param rest ih =>
    obtain ⟨k, a⟩ := param
    simp only [Json.object.sizeOf_spec, List.cons.sizeOf_spec, Prod.mk.sizeOf_spec] at ih ⊢
    rw [Json.member?_cons] at h
    split at h
    · cases h
      omega
    · have := ih h
      omega

/-- The parser of `hybrid` reads what the grammar spells, if the two agree on all that is smaller.
-/
theorem hybridOf_eq_ok_iff {body : Json} (h : AgreesBelow (sizeOf body)) :
    hybridOf body = .ok q ↔ Body .hybrid body q := by
  constructor
  · intro hread
    cases body with
    | object params =>
      obtain ⟨queries, hqueries, hread⟩ := bind_eq_ok_iff.1 hread
      obtain ⟨boost?, hboost, hread⟩ := bind_eq_ok_iff.1 hread
      cases hread
      obtain ⟨js, hjs, hqueries⟩ := queriesAmong_eq_ok_iff.1 hqueries
      exact .hybrid hjs ((queriesOf_eq_ok_iff (h.of_mem (sizeOf_member?_lt hjs))).1 hqueries)
        (boostOf_eq_ok_iff.1 ⟨boost?, hboost, rfl⟩)
    | null | bool | number | string | array | unreadable => cases hread
  · intro hbody
    cases hbody with
    | hybrid hj hq hb =>
      obtain ⟨boost?, hboost, rfl⟩ := boostOf_eq_ok_iff.2 hb
      have hqueries := (queriesOf_eq_ok_iff (h.of_mem (sizeOf_member?_lt hj))).2 hq
      exact bind_eq_ok_iff.2 ⟨_, queriesAmong_eq_ok_iff.2 ⟨_, hj, hqueries⟩,
        bind_eq_ok_iff.2 ⟨_, hboost, rfl⟩⟩

/-- The reader of the bodies of a kind. -/
def bodyOf : Kind → Json → Except Error Query
  | .term => termOf
  | .bool => boolOf
  | .knn => knnOf
  | .neural => neuralOf
  | .hybrid => hybridOf

/-- The parser of each kind reads what the grammar spells, if the two agree on all that is smaller.
-/
theorem bodyOf_eq_ok_iff {kind : Kind} {body : Json} (h : AgreesBelow (sizeOf body)) :
    bodyOf kind body = .ok q ↔ Body kind body q := by
  cases kind with
  | term => exact termOf_eq_ok_iff
  | bool => exact boolOf_eq_ok_iff h
  | knn => exact knnOf_eq_ok_iff
  | neural => exact neuralOf_eq_ok_iff
  | hybrid => exact hybridOf_eq_ok_iff h

theorem ofJson_kind (kind : Kind) (body : Json) :
    ofJson (.object [(kind.key, body)]) = bodyOf kind body := by
  unfold ofJson
  cases kind <;> rfl

/-- Nothing is read but a body under the key of its kind. -/
theorem exists_kind {j : Json} (h : ofJson j = .ok q) :
    ∃ kind body, j = .object [(Kind.key kind, body)] := by
  unfold ofJson at h
  -- the parser tries the keys one after the other
  split at h
  · next key body =>
    split at h
    · next hkey => exact ⟨.term, body, by rw [hkey]; rfl⟩
    · split at h
      · next hkey => exact ⟨.bool, body, by rw [hkey]; rfl⟩
      · split at h
        · next hkey => exact ⟨.knn, body, by rw [hkey]; rfl⟩
        · split at h
          · next hkey => exact ⟨.neural, body, by rw [hkey]; rfl⟩
          · split at h
            · next hkey => exact ⟨.hybrid, body, by rw [hkey]; rfl⟩
            · cases h
  · cases h
  · cases h

/-- What is in a body is smaller than the object around it. -/
theorem AgreesBelow.of_body {key : String} {body : Json} (h : AgreesBelow n)
    (hj : sizeOf (Json.object [(key, body)]) < n + 1) : AgreesBelow (sizeOf body) := by
  simp only [Json.object.sizeOf_spec, List.cons.sizeOf_spec, Prod.mk.sizeOf_spec] at hj
  exact fun part hpart => h part (by omega)

/-- All values are read as the queries they denote. -/
theorem agreesBelow (n : Nat) : AgreesBelow n := by
  -- by size, not by structure: the queries in a body lie several levels below the object
  induction n with
  | zero =>
    intro j hj
    cases hj
  | succ n ih =>
    intro j hj q
    constructor
    · intro hread
      obtain ⟨kind, body, rfl⟩ := exists_kind hread
      rw [ofJson_kind] at hread
      exact .mk ((bodyOf_eq_ok_iff (ih.of_body hj)).1 hread)
    · intro hdenotes
      cases hdenotes with
      | mk hbody =>
        rw [ofJson_kind]
        exact (bodyOf_eq_ok_iff (ih.of_body hj)).2 hbody

end Trees

/-- The values that are read are those of the grammar, each as the query it denotes; all others
are refused with an error about queries. -/
theorem ofValue_iff_denotes (v : Json) :
    (∀ q, ofValue v = .ok q ↔ Denotes v q) ∧
      ((∃ message, ofValue v = .error (.query message)) ↔ ¬ ∃ q, Denotes v q) := by
  have hread (q : Query) : ofValue v = .ok q ↔ Denotes v q :=
    ofValue_eq_ok_iff.trans (agreesBelow _ v (Nat.lt_succ_self _) q)
  refine ⟨hread, ?_⟩
  constructor
  · rintro ⟨message, hrefused⟩ ⟨q, hq⟩
    rw [(hread q).2 hq] at hrefused
    cases hrefused
  · intro hnone
    unfold ofValue at hread ⊢
    cases hjson : ofJson v with
    | ok q => exact absurd ⟨q, (hread q).1 (by rw [hjson])⟩ hnone
    | error e => exact ⟨e.message, rfl⟩

end SemanticHighlight.Query
