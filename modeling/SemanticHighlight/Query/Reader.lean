import SemanticHighlight.Query.Basic
import SemanticHighlight.Failure

/-!
# Reading the query language

`Query.ofJson` reads a query tree from a JSON value, and `Query.ofText` from a text. A
query is an object whose one key names its kind; each kind has its own parameters, and
unknown ones are passed over except directly inside a boolean query.
-/

namespace SemanticHighlight.Query

open Numeric

/-- Why a value is no query. -/
inductive Error where
  /-- A clause is no object. -/
  | notObject (clause : String)
  /-- A clause has not exactly one key. -/
  | notSingle (clause : String) (found : Nat)
  | unsupportedKind (name : String)
  /-- A boolean query has an unknown parameter. -/
  | unsupportedParameter (name : String)
  | termWithoutValue
  | termNotScalar
  | minimumNotNatural
  | boostNotNumber
  | kNotNatural
  | knnWithoutVector
  | vectorNotNumbers
  | neuralWithoutText
  | hybridWithoutQueries
deriving DecidableEq, Repr

/-- The wording of an error. -/
def Error.message : Error → String
  | notObject clause => clause ++ " clause must be an object"
  | notSingle clause found =>
    clause ++ " clause must have exactly one key, found " ++ toString found
  | unsupportedKind name => "Unsupported query type: " ++ name
  | unsupportedParameter name => "Unsupported bool parameter: " ++ name
  | termWithoutValue => "term query requires a value"
  | termNotScalar => "term value must be a scalar"
  | minimumNotNatural => "minimum_should_match must be a non-negative integer"
  | boostNotNumber => "boost must be a number"
  | kNotNatural => "k must be a non-negative integer"
  | knnWithoutVector => "knn query requires a vector"
  | vectorNotNumbers => "vector must be an array of numbers"
  | neuralWithoutText => "neural query requires a string query_text"
  | hybridWithoutQueries => "hybrid query requires a queries array"

/-! ## Parameters -/

/-- The members of an object. -/
def membersOf (clause : String) : Json → Except Error (List (String × Json))
  | .object ms => .ok ms
  | _ => .error (.notObject clause)

/-- The key and the value of an object with one member. -/
def entryOf (clause : String) : Json → Except Error (String × Json)
  | .object [entry] => .ok entry
  | .object ms => .error (.notSingle clause ms.length)
  | _ => .error (.notObject clause)

/-- The text of a scalar: a string, or a number or truth value as it is written. -/
def scalarText : Json → Except Error String
  | .string s => .ok s
  | .number n => .ok (String.ofList n.chars)
  | .bool b => .ok (if b then "true" else "false")
  | _ => .error .termNotScalar

/-- A number as a single, by way of a double. -/
def narrowed (n : Json.Number) : Single := n.toDouble.convert .single

/-- The boost among parameters, if it is given. -/
def boostOf (params : List (String × Json)) : Except Error (Option Single) :=
  match Json.member? params "boost" with
  | none => .ok none
  | some (.number n) => .ok (some (narrowed n))
  | some _ => .error .boostNotNumber

/-- The natural number that a value is, if it is one of 64 bits. -/
def natural64? : Json → Option UInt64
  | .number n => (n.natural? UInt64.size).map UInt64.ofNat
  | _ => none

/-- How many neighbours the parameters ask for. -/
def kOf (params : List (String × Json)) : Except Error UInt64 :=
  match Json.member? params "k" with
  | none => .ok defaultK
  | some j =>
    match natural64? j with
    | some k => .ok k
    | none => .error .kNotNatural

/-- The minimum of optional clauses among parameters, zero if it is not given. -/
def minimumOf (params : List (String × Json)) : Except Error UInt64 :=
  match Json.member? params "minimum_should_match" with
  | none => .ok 0
  | some j =>
    match natural64? j with
    | some n => .ok n
    | none => .error .minimumNotNatural

/-- The elements of a vector. -/
def elements : List Json → Except Error (List Single)
  | [] => .ok []
  | .number n :: js => do
    let xs ← elements js
    .ok (narrowed n :: xs)
  | _ :: _ => .error .vectorNotNumbers

def vectorOf : Json → Except Error (List Single)
  | .array js => elements js
  | _ => .error .vectorNotNumbers

/-! ## Leaves -/

/-- A term query: a scalar, or an object with a scalar value and a boost. -/
def termOf (body : Json) : Except Error Query := do
  let (field, spec) ← entryOf "term" body
  match spec with
  | .object params =>
    match Json.member? params "value" with
    | none => .error .termWithoutValue
    | some value =>
      let text ← scalarText value
      let boost ← boostOf params
      .ok (.term field text (boost.getD neutralBoost))
  | scalar =>
    let text ← scalarText scalar
    .ok (.term field text neutralBoost)

/-- A vector query. -/
def knnOf (body : Json) : Except Error Query := do
  let (field, spec) ← entryOf "knn" body
  let params ← membersOf "knn" spec
  match Json.member? params "vector" with
  | none => .error .knnWithoutVector
  | some vector =>
    let vector ← vectorOf vector
    let k ← kOf params
    let boost ← boostOf params
    .ok (.knn field vector k (boost.getD neutralBoost))

/-- A query derived from a text: the text and the vector query it became. -/
def neuralOf (body : Json) : Except Error Query := do
  let (field, spec) ← entryOf "neural" body
  let params ← membersOf "neural" spec
  match Json.member? params "query_text" with
  | some (.string text) =>
    let vector ←
      match Json.member? params "vector" with
      | some vector => vectorOf vector
      | none => .ok []
    let k ← kOf params
    let boost ← boostOf params
    let modelId :=
      match Json.member? params "model_id" with
      | some (.string modelId) => some modelId
      | _ => none
    .ok (.neural (.knn field vector k (boost.getD neutralBoost)) text modelId)
  | _ => .error .neuralWithoutText

/-! ## Trees -/

/-- The keys of a boolean query that hold no clauses. -/
def isBoolSetting (key : String) : Bool := key = "minimum_should_match" || key = "boost"

mutual

/-- The query tree that a value is. -/
def ofJson : Json → Except Error Query
  | .object [(kind, body)] =>
    if kind = "term" then termOf body
    else if kind = "bool" then boolOf body
    else if kind = "knn" then knnOf body
    else if kind = "neural" then neuralOf body
    else if kind = "hybrid" then hybridOf body
    else .error (.unsupportedKind kind)
  | .object ms => .error (.notSingle "query" ms.length)
  | _ => .error (.notObject "query")

def boolOf : Json → Except Error Query
  | .object params => do
    let clauses ← clausesOf params
    let minimum ← minimumOf params
    let boost ← boostOf params
    .ok (.bool clauses (boost.getD neutralBoost) minimum)
  | _ => .error (.notObject "bool")

/-- The clauses among the parameters of a boolean query, in the order given. A
group of clauses is an array of queries or one query. -/
def clausesOf : List (String × Json) → Except Error (List (Occur × Query))
  | [] => .ok []
  | (key, .array js) :: rest =>
    if isBoolSetting key then clausesOf rest
    else
      match Occur.ofKey? key with
      | none => .error (.unsupportedParameter key)
      | some occur => do
        let queries ← queriesOf js
        let clauses ← clausesOf rest
        .ok (queries.map (occur, ·) ++ clauses)
  | (key, j) :: rest =>
    if isBoolSetting key then clausesOf rest
    else
      match Occur.ofKey? key with
      | none => .error (.unsupportedParameter key)
      | some occur => do
        let query ← ofJson j
        let clauses ← clausesOf rest
        .ok ((occur, query) :: clauses)

def hybridOf : Json → Except Error Query
  | .object params => do
    let queries ← queriesAmong params
    let boost ← boostOf params
    .ok (.hybrid queries (boost.getD neutralBoost))
  | _ => .error (.notObject "hybrid")

/-- The queries of a hybrid query, found among its parameters. -/
def queriesAmong : List (String × Json) → Except Error (List Query)
  | [] => .error .hybridWithoutQueries
  | (key, .array js) :: rest => if key = "queries" then queriesOf js else queriesAmong rest
  | (key, _) :: rest =>
    if key = "queries" then .error .hybridWithoutQueries else queriesAmong rest

def queriesOf : List Json → Except Error (List Query)
  | [] => .ok []
  | j :: js => do
    let query ← ofJson j
    let queries ← queriesOf js
    .ok (query :: queries)

end

/-! ## Texts -/

/-- The query tree that a value is, its errors being failures. -/
def ofValue (j : Json) : Except Failure Query :=
  match ofJson j with
  | .ok query => .ok query
  | .error e => .error (.query e.message)

/-- The query tree of a text. -/
def ofText (text : String) : Except Failure Query := do
  let j ← orJson (Json.readValue text)
  ofValue j

end SemanticHighlight.Query
