import SemanticHighlight.Json.Number

/-!
# JSON documents

An object lists its members in the order they were written, and may repeat a
key. `Json.collapse` keeps, of a repeated key, the first place and the last value;
a document with no repeated key and no unreadable place is a plain *value*.
-/

namespace SemanticHighlight

/-- A JSON document. -/
inductive Json where
  | null
  | bool (b : Bool)
  | number (n : Json.Number)
  | string (s : String)
  | array (items : List Json)
  | object (members : List (String × Json))
  /-- A place whose text is well formed but stands for nothing: a number beyond
  the doubles, half a surrogate pair, or arrays and objects nested too deeply. -/
  | unreadable

namespace Json

instance : Inhabited Json := ⟨.null⟩

/-! ## Equality -/

mutual

/-- Whether two documents are the same. -/
def same : Json → Json → Bool
  | .null, .null => true
  | .bool a, .bool b => a == b
  | .number a, .number b => a == b
  | .string a, .string b => a == b
  | .array a, .array b => sameItems a b
  | .object a, .object b => sameMembers a b
  | .unreadable, .unreadable => true
  | _, _ => false

def sameItems : List Json → List Json → Bool
  | [], [] => true
  | a :: as, b :: bs => same a b && sameItems as bs
  | _, _ => false

def sameMembers : List (String × Json) → List (String × Json) → Bool
  | [], [] => true
  | (k, a) :: as, (l, b) :: bs => k == l && same a b && sameMembers as bs
  | _, _ => false

end

mutual

theorem same_iff : ∀ a b : Json, same a b = true ↔ a = b
  | .null, b => by cases b <;> simp [same]
  | .bool _, b => by cases b <;> simp [same]
  | .number _, b => by cases b <;> simp [same]
  | .string _, b => by cases b <;> simp [same]
  | .array as, b => by cases b <;> simp [same, sameItems_iff as]
  | .object as, b => by cases b <;> simp [same, sameMembers_iff as]
  | .unreadable, b => by cases b <;> simp [same]

theorem sameItems_iff : ∀ as bs : List Json, sameItems as bs = true ↔ as = bs
  | [], bs => by cases bs <;> simp [sameItems]
  | a :: as, bs => by cases bs <;> simp [sameItems, same_iff a, sameItems_iff as]

theorem sameMembers_iff : ∀ as bs : List (String × Json), sameMembers as bs = true ↔ as = bs
  | [], bs => by cases bs <;> simp [sameMembers]
  | (k, a) :: as, bs => by
    cases bs with
    | nil => simp [sameMembers]
    | cons b bs =>
      obtain ⟨l, b⟩ := b
      simp [sameMembers, same_iff a, sameMembers_iff as]

end

instance : DecidableEq Json := fun a b => decidable_of_iff _ (same_iff a b)

/-! ## Members -/

/-- The members `ms` with `key` set to `value`: in its place if the key is there,
at the end otherwise. -/
def setMember {α : Type} (key : String) (value : α) : List (String × α) → List (String × α)
  | [] => [(key, value)]
  | (k, v) :: ms => if k = key then (k, value) :: ms else (k, v) :: setMember key value ms

/-- The value of the first member with a key. -/
def member? {α : Type} (ms : List (String × α)) (key : String) : Option α :=
  match ms with
  | [] => none
  | (k, v) :: ms => if k = key then some v else member? ms key

/-- The member of an object, if the document is one that has it. -/
def get? (key : String) : Json → Option Json
  | .object ms => member? ms key
  | _ => none

/-! ## Values -/

/-- The members with each key once: its first place and its last value. -/
def distinct {α : Type} (ms : List (String × α)) : List (String × α) :=
  ms.foldl (fun done (key, value) => setMember key value done) []

mutual

/-- The document with every repeated key collapsed to its first place and last value. -/
def collapse : Json → Json
  | .array items => .array (collapseItems items)
  | .object ms => .object (distinct (collapseValues ms))
  | j => j

def collapseItems : List Json → List Json
  | [] => []
  | j :: js => collapse j :: collapseItems js

def collapseValues : List (String × Json) → List (String × Json)
  | [] => []
  | (k, j) :: ms => (k, collapse j) :: collapseValues ms

end

mutual

/-- Whether no place of the document is unreadable. -/
def isReadable : Json → Bool
  | .array items => areReadable items
  | .object ms => areMembersReadable ms
  | .unreadable => false
  | _ => true

def areReadable : List Json → Bool
  | [] => true
  | j :: js => isReadable j && areReadable js

def areMembersReadable : List (String × Json) → Bool
  | [] => true
  | (_, j) :: ms => isReadable j && areMembersReadable ms

end

mutual

/-- The document in which an array or object nested in `depth` others is unreadable. -/
def limitNesting : Nat → Json → Json
  | 0, .array _ => .unreadable
  | 0, .object _ => .unreadable
  | depth + 1, .array items => .array (limitItems depth items)
  | depth + 1, .object ms => .object (limitMembers depth ms)
  | _, j => j

def limitItems (depth : Nat) : List Json → List Json
  | [] => []
  | j :: js => limitNesting depth j :: limitItems depth js

def limitMembers (depth : Nat) : List (String × Json) → List (String × Json)
  | [] => []
  | (k, j) :: ms => (k, limitNesting depth j) :: limitMembers depth ms

end

/-! ## Building documents -/

def ofInt (n : Int) : Json := .number (.integer n)

/-- A natural number. -/
def ofNat (n : Nat) : Json := .number (.integer n)

/-- A 64-bit number. -/
def ofUInt64 (n : UInt64) : Json := ofNat n.toNat

/-- A 32-bit number. -/
def ofUInt32 (n : UInt32) : Json := ofNat n.toNat

/-- A signed 64-bit number. -/
def ofInt64 (n : Int64) : Json := ofInt n.toInt

/-- A single as a value: widened to a double, and null when it is not finite. -/
def ofSingle (x : Numeric.Single) : Json :=
  match x.convert .double with
  | .finite x => .number (.double x)
  | _ => .null

/-- A single as text: printed in its own precision, and null when it is not finite. -/
def ofSingleText : Numeric.Single → Json
  | .finite x => .number (.single x)
  | _ => .null

def ofStrings (ss : List String) : Json := .array (ss.map .string)

/-- The members for those fields that are present. -/
def present (fields : List (String × Option Json)) : List (String × Json) :=
  fields.filterMap fun (k, j?) => j?.map (k, ·)

/-- An object of those fields that are present. -/
def ofFields (fields : List (String × Option Json)) : Json := .object (present fields)

/-- A list, absent when it is empty. -/
def nonempty {α : Type} (toJson : List α → Json) (xs : List α) : Option Json :=
  if xs.isEmpty then none else some (toJson xs)

/-- A flag, absent unless it is set. -/
def onlyTrue (b : Bool) : Option Json := if b then some (.bool true) else none

end Json

end SemanticHighlight
