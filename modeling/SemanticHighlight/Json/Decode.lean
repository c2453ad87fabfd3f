import SemanticHighlight.Json.Reader

/-!
# Reading typed data from JSON

A decoder takes a document to a value of some type or to the reason it cannot.
Records are read by `Json.record`, which finds the document of each declared field,
so that a decoder of a record states only what each of its fields holds.
-/

namespace SemanticHighlight.Json

/-- Why a document could not be read. -/
inductive Fault where
  /-- The text is no JSON document. -/
  | malformed
  /-- The document is not of the expected kind. -/
  | unexpected (expected : String)
  /-- A record lacks a field. -/
  | missing (field : String)
  /-- A record gives a field twice. -/
  | repeated (field : String)
deriving DecidableEq, Repr

namespace Fault

/-- The wording of a fault. -/
def message : Fault → String
  | malformed => "malformed text"
  | unexpected expected => "expected " ++ expected
  | missing field => "missing field " ++ field
  | repeated field => "repeated field " ++ field

end Fault

/-- A reader of documents. -/
abbrev Decoder (α : Type) := Json → Except Fault α

/-- The document of a text, with nesting beyond the limit unreadable. -/
def read (s : String) : Except Fault Json :=
  match parse? s with
  | some j => .ok (j.limitNesting nestingLimit)
  | none => .error .malformed

namespace Decode

/-! ## Single values -/

/-- Any value, with repeated keys collapsed. -/
def value : Decoder Json := fun j =>
  if j.isReadable then .ok j.collapse else .error .malformed

def text : Decoder String
  | .string s => .ok s
  | _ => .error (.unexpected "a string")

/-- A truth value. -/
def boolean : Decoder Bool
  | .bool b => .ok b
  | _ => .error (.unexpected "a boolean")

/-- A natural number below `bound`, written as an integer. -/
def naturalBelow (bound : Nat) : Decoder Nat
  | .number n =>
    match n.natural? bound with
    | some n => .ok n
    | none => .error (.unexpected "a natural number in range")
  | _ => .error (.unexpected "a natural number")

/-- A 64-bit natural number. -/
def uint64 : Decoder UInt64 := fun j => (naturalBelow UInt64.size j).map UInt64.ofNat

/-- A 32-bit natural number. -/
def uint32 : Decoder UInt32 := fun j => (naturalBelow UInt32.size j).map UInt32.ofNat

/-- A signed 64-bit integer. -/
def int64 : Decoder Int64
  | .number (.integer n) =>
    if -2 ^ (63 : Nat) ≤ n ∧ n < 2 ^ (63 : Nat) then .ok (Int64.ofInt n)
    else .error (.unexpected "an integer in range")
  | _ => .error (.unexpected "an integer")

/-- A single, rounded from any number. -/
def single : Decoder Numeric.Single
  | .number n => .ok n.toSingle
  | _ => .error (.unexpected "a number")

/-- A choice among names, given as the name or as an object of the name and null. -/
def choice {α : Type} (names : List (String × α)) : Decoder α := fun j =>
  let name? : Option String :=
    match j with
    | .string name => some name
    | .object [(name, .null)] => some name
    | _ => none
  match name?.bind (member? names) with
  | some a => .ok a
  | none => .error (.unexpected "one of a choice of names")

/-! ## Containers -/

/-- The items of a list, each read by `d`. -/
def each {α : Type} (d : Decoder α) : List Json → Except Fault (List α)
  | [] => .ok []
  | j :: js => do
    let a ← d j
    let as ← each d js
    .ok (a :: as)

def list {α : Type} (d : Decoder α) : Decoder (List α)
  | .array js => each d js
  | _ => .error (.unexpected "an array")

/-- Null for absence. -/
def optional {α : Type} (d : Decoder α) : Decoder (Option α)
  | .null => .ok none
  | j => (d j).map some

/-- The members of an object with their values read by `d`, in order and with
repetitions. -/
def eachMember {α : Type} (d : Decoder α) :
    List (String × Json) → Except Fault (List (String × α))
  | [] => .ok []
  | (k, j) :: ms => do
    let a ← d j
    let as ← eachMember d ms
    .ok ((k, a) :: as)

/-- The members of an object. -/
def members {α : Type} (d : Decoder α) : Decoder (List (String × α))
  | .object ms => eachMember d ms
  | _ => .error (.unexpected "an object")

/-- An object of any values, with repeated keys collapsed. -/
def object : Decoder (List (String × Json)) := fun j => do
  match ← value j with
  | .object ms => .ok ms
  | _ => .error (.unexpected "an object")

end Decode

/-- The value of a text. -/
def readValue (s : String) : Except Fault Json := read s >>= Decode.value

/-! ## Records -/

/-- The fields of a record that a document gives, by their declared names. -/
abbrev Record := List (String × Json)

namespace Record

/-- The declared name of a key, given the other spellings of names. -/
def canonical (aliases : List (String × String)) (key : String) : String :=
  (member? aliases key).getD key

/-- The members with declared names, if none is given twice. -/
def declared (names : List String) (aliases : List (String × String)) :
    List (String × Json) → Except Fault Record
  | [] => .ok []
  | (key, j) :: ms => do
    let fields ← declared names aliases ms
    let name := canonical aliases key
    if name ∈ names then
      if (member? fields name).isSome then .error (.repeated name)
      else .ok ((name, j) :: fields)
    else .ok fields

/-- A field that must be given. -/
def required {α : Type} (r : Record) (name : String) (d : Decoder α) : Except Fault α :=
  match member? r name with
  | some j => d j
  | none => .error (.missing name)

/-- A field that counts as `default` when it is not given. -/
def defaulted {α : Type} (r : Record) (name : String) (default : α) (d : Decoder α) :
    Except Fault α :=
  match member? r name with
  | some j => d j
  | none => .ok default

/-- A field that is absent when it is null or not given. -/
def optional {α : Type} (r : Record) (name : String) (d : Decoder α) :
    Except Fault (Option α) :=
  r.defaulted name none (Decode.optional d)

end Record

/-- The fields of a record: the declared members of an object, the other members
being passed over, or an array of the fields in the order of their declaration, of
which the last may be missing. -/
def record (names : List String) (aliases : List (String × String)) : Decoder Record
  | .object ms => Record.declared names aliases ms
  | .array js =>
    if js.length ≤ names.length then .ok (names.zip js)
    else .error (.unexpected s!"at most {names.length} fields")
  | _ => .error (.unexpected "a record")

end SemanticHighlight.Json
