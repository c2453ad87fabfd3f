import SemanticHighlight.Dictionary

/-!
# Search hits

A hit is what it says of itself, `HitData`, and the pages of hits found inside it.
Members of a hit that the library does not know are kept with their values.

`Hit.toJson` renders a hit for a given spelling of single-precision numbers, and
`Hit.decode` reads one. `HitData.sourceText?` looks up the text of a field.
-/

namespace SemanticHighlight

open Numeric

/-- Whether a count of hits is exact. -/
inductive Relation where
  | eq
  /-- At least so many. -/
  | gte
deriving DecidableEq, Repr

namespace Relation

def name : Relation → String
  | eq => "eq"
  | gte => "gte"

/-- The relations by their names. -/
def choices : List (String × Relation) := [eq, gte].map fun r => (r.name, r)

end Relation

/-- How many hits there are in all. -/
structure Total where
  value : UInt64
  relation : Relation
deriving DecidableEq

namespace Total

/-- A count of hits as an object. -/
def toJson (t : Total) : Json := .ofFields
  [("value", some (.ofUInt64 t.value)), ("relation", some (.string t.relation.name))]

/-- A count of hits. -/
def decode : Json.Decoder Total := fun j => do
  let r ← Json.record ["value", "relation"] [] j
  let value ← r.required "value" Json.Decode.uint64
  let relation ← r.required "relation" (Json.Decode.choice Relation.choices)
  .ok { value, relation }

end Total

/-- A page of hits. -/
structure Page (α : Type) where
  total : Option Total
  maxScore : Option Single
  hits : List α
deriving DecidableEq

/-- What a hit says of itself. -/
structure HitData where
  index : String := ""
  id : String := ""
  score : Option Single := none
  /-- The number of the document in the engine; no part of the JSON form. -/
  docId : UInt64 := 0
  version : Option Int64 := none
  seqNo : Option Int64 := none
  primaryTerm : Option Int64 := none
  /-- The document itself, its members in order. -/
  source : Option (List (String × Json)) := none
  documentFields : Dictionary (List Json) := .empty
  /-- The members that are not known. -/
  others : Dictionary Json := .empty
  /-- The highlighted fragments of fields. -/
  highlight : Dictionary (List String) := .empty
  matchedQueries : List String := []
  explanation : Option Json := none
  shard : Option String := none
  sort : List Json := []
deriving DecidableEq

/-- A hit, with the pages of hits found inside it by name. They are the entries of a
dictionary, but a type that is nested in itself cannot say so. -/
structure Hit where
  data : HitData
  innerHits : List (String × Page Hit)

instance : Inhabited Hit := ⟨{}, []⟩

namespace Hit

/-! ## Equality -/

mutual

/-- Whether two hits are the same. -/
def same : Hit → Hit → Bool
  | ⟨a, as⟩, ⟨b, bs⟩ => a == b && sameInner as bs

def sameInner : List (String × Page Hit) → List (String × Page Hit) → Bool
  | [], [] => true
  | (k, a) :: as, (l, b) :: bs => k == l && samePage a b && sameInner as bs
  | _, _ => false

def samePage : Page Hit → Page Hit → Bool
  | ⟨t, m, as⟩, ⟨u, n, bs⟩ => t == u && m == n && sameHits as bs

def sameHits : List Hit → List Hit → Bool
  | [], [] => true
  | a :: as, b :: bs => same a b && sameHits as bs
  | _, _ => false

end

mutual

theorem same_iff : ∀ a b : Hit, same a b = true ↔ a = b
  | ⟨a, as⟩, ⟨b, bs⟩ => by simp [same, sameInner_iff as]

theorem sameInner_iff : ∀ as bs : List (String × Page Hit), sameInner as bs = true ↔ as = bs
  | [], bs => by cases bs <;> simp [sameInner]
  | (k, a) :: as, bs => by
    cases bs with
    | nil => simp [sameInner]
    | cons b bs =>
      obtain ⟨l, b⟩ := b
      simp [sameInner, samePage_iff a, sameInner_iff as]

theorem samePage_iff : ∀ a b : Page Hit, samePage a b = true ↔ a = b
  | ⟨t, m, as⟩, ⟨u, n, bs⟩ => by simp [samePage, sameHits_iff as, and_assoc]

theorem sameHits_iff : ∀ as bs : List Hit, sameHits as bs = true ↔ as = bs
  | [], bs => by cases bs <;> simp [sameHits]
  | a :: as, bs => by cases bs <;> simp [sameHits, same_iff a, sameHits_iff as]

end

instance : DecidableEq Hit := fun a b => decidable_of_iff _ (same_iff a b)

end Hit

/-! ## Rendering -/

namespace HitData

/-- The known members of a hit in front of the unknown ones. -/
def leading (number : Single → Json) (h : HitData) : List (String × Option Json) :=
  [("_index", some (.string h.index)),
   ("_id", some (.string h.id)),
   ("_score", some ((h.score.map number).getD .null)),
   ("_version", h.version.map .ofInt64),
   ("_seq_no", h.seqNo.map .ofInt64),
   ("_primary_term", h.primaryTerm.map .ofInt64),
   ("_source", h.source.map .object),
   ("fields", h.documentFields.toJson? .array)]

/-- The known members of a hit after the unknown ones. -/
def trailing (h : HitData) (innerHits : List (String × Json)) : List (String × Option Json) :=
  [("highlight", h.highlight.toJson? .ofStrings),
   ("matched_queries", Json.nonempty .ofStrings h.matchedQueries),
   ("_explanation", h.explanation),
   ("_shard", h.shard.map .string),
   ("inner_hits", Json.nonempty .object innerHits),
   ("sort", Json.nonempty .array h.sort)]

end HitData

namespace Page

/-- A page as an object, with the given hits. -/
def render {α : Type} (number : Single → Json) (p : Page α) (hits : List Json) : Json :=
  .ofFields
    [("total", p.total.map Total.toJson),
     ("max_score", some ((p.maxScore.map number).getD .null)),
     ("hits", some (.array hits))]

end Page

namespace Hit

mutual

/-- A hit as an object; `number` spells its single-precision numbers. -/
def toJson (number : Single → Json) : Hit → Json
  | ⟨data, inner⟩ =>
    .object (Json.present (data.leading number) ++ data.others.entries
      ++ Json.present (data.trailing (innerJson number inner)))

def innerJson (number : Single → Json) : List (String × Page Hit) → List (String × Json)
  | [] => []
  | (name, page) :: rest => (name, pageJson number page) :: innerJson number rest

def pageJson (number : Single → Json) : Page Hit → Json
  | ⟨total, maxScore, hits⟩ =>
    Page.render number (⟨total, maxScore, hits⟩ : Page Hit) (hitsJson number hits)

def hitsJson (number : Single → Json) : List Hit → List Json
  | [] => []
  | h :: hs => h.toJson number :: hitsJson number hs

end

end Hit

/-! ## Reading -/

namespace HitData

/-- The members of a hit that are known. -/
def known : List String :=
  ["_index", "_id", "_score", "_version", "_seq_no", "_primary_term", "_source", "fields",
   "highlight", "matched_queries", "_explanation", "_shard", "inner_hits", "sort"]

/-- What a hit with the given members says of itself. -/
def decode (ms : List (String × Json)) : Except Json.Fault HitData := do
  let r ← Json.Record.declared known [] ms
  let index ← r.defaulted "_index" "" Json.Decode.text
  let id ← r.defaulted "_id" "" Json.Decode.text
  let score ← r.optional "_score" Json.Decode.single
  let version ← r.optional "_version" Json.Decode.int64
  let seqNo ← r.optional "_seq_no" Json.Decode.int64
  let primaryTerm ← r.optional "_primary_term" Json.Decode.int64
  let source ← r.optional "_source" Json.Decode.object
  let documentFields ←
    r.defaulted "fields" .empty (Dictionary.decode (Json.Decode.list Json.Decode.value))
  let others ← Json.Decode.eachMember Json.Decode.value (ms.filter (·.1 ∉ known))
  let highlight ←
    r.defaulted "highlight" .empty (Dictionary.decode (Json.Decode.list Json.Decode.text))
  let matchedQueries ← r.defaulted "matched_queries" [] (Json.Decode.list Json.Decode.text)
  let explanation ← r.optional "_explanation" Json.Decode.value
  let shard ← r.optional "_shard" Json.Decode.text
  let sort ← r.defaulted "sort" [] (Json.Decode.list Json.Decode.value)
  .ok { index, id, score, version, seqNo, primaryTerm, source, documentFields,
        others := Dictionary.ofEntries others, highlight, matchedQueries, explanation,
        shard, sort }

end HitData

namespace Page

/-- A page without its hits. -/
def decodeFrame (α : Type) : Json.Decoder (Page α) := fun j => do
  let r ← Json.record ["total", "max_score", "hits"] [] j
  let total ← r.optional "total" Total.decode
  let maxScore ← r.optional "max_score" Json.Decode.single
  .ok { total, maxScore, hits := [] }

end Page

namespace Hit

mutual

def decode : Json → Except Json.Fault Hit
  | .object ms => do
    let data ← HitData.decode ms
    let pages ← innerAmong ms
    .ok { data, innerHits := pages.entries }
  | _ => .error (.unexpected "an object")

/-- The inner hits among the members of a hit. -/
def innerAmong : List (String × Json) → Except Json.Fault (Dictionary (Page Hit))
  | [] => .ok .empty
  | (key, .object ms) :: rest =>
    if key = "inner_hits" then do
      let pages ← pagesOf ms
      .ok (Dictionary.ofEntries pages)
    else innerAmong rest
  | (key, _) :: rest =>
    if key = "inner_hits" then .error (.unexpected "an object") else innerAmong rest

def pagesOf : List (String × Json) → Except Json.Fault (List (String × Page Hit))
  | [] => .ok []
  | (name, j) :: rest => do
    let page ← decodePage j
    let pages ← pagesOf rest
    .ok ((name, page) :: pages)

def decodePage : Json → Except Json.Fault (Page Hit)
  | .object ms => do
    let frame ← Page.decodeFrame Hit (.object ms)
    let hits ← hitsAmong ms
    .ok { frame with hits }
  | .array [total, maxScore, .array js] => do
    let frame ← Page.decodeFrame Hit (.array [total, maxScore])
    let hits ← decodeHits js
    .ok { frame with hits }
  | .array [_, _, _] => .error (.unexpected "an array")
  | j => Page.decodeFrame Hit j

/-- The hits among the members of a page. -/
def hitsAmong : List (String × Json) → Except Json.Fault (List Hit)
  | [] => .ok []
  | (key, .array js) :: rest => if key = "hits" then decodeHits js else hitsAmong rest
  | (key, _) :: rest =>
    if key = "hits" then .error (.unexpected "an array") else hitsAmong rest

def decodeHits : List Json → Except Json.Fault (List Hit)
  | [] => .ok []
  | j :: js => do
    let hit ← decode j
    let hits ← decodeHits js
    .ok (hit :: hits)

end

end Hit

/-! ## Texts of fields -/

namespace HitData

/-- The parts of a path, between its dots. -/
def segments : List Char → List (List Char)
  | [] => [[]]
  | c :: cs =>
    if c = '.' then [] :: segments cs
    else
      match segments cs with
      | [] => [[c]]
      | s :: ss => (c :: s) :: ss

/-- The value found by descending through objects along keys. -/
def descend : Json → List String → Option Json
  | j, [] => some j
  | .object ms, key :: keys => (Json.member? ms key).bind (descend · keys)
  | _, _ :: _ => none

/-- The strings of a list that holds nothing else. -/
def strings? : List Json → Option (List String)
  | [] => some []
  | .string s :: js => (strings? js).map (s :: ·)
  | _ :: _ => none

/-- The text of a value: a string, or strings joined by blanks. -/
def textOf : Json → Option String
  | .string s => some s
  | .array [] => none
  | .array js => (strings? js).map (" ".intercalate ·)
  | _ => none

/-- The text of a field of the document. A key that is spelled like the whole path
goes before the path. -/
def sourceText? (h : HitData) (path : String) : Option String := do
  let members ← h.source
  let value ←
    match Json.member? members path with
    | some value => some value
    | none => descend (.object members) ((segments path.toList).map String.ofList)
  textOf value

end HitData

end SemanticHighlight
