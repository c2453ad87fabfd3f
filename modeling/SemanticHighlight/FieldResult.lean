import SemanticHighlight.Json.Decode

/-!
# Results

A result is what became of highlighting one field of one hit. It belongs to its hit
by position alone.
-/

namespace SemanticHighlight

/-- What became of highlighting one field of one hit. -/
structure FieldResult where
  /-- The position of the hit. -/
  hitIndex : Nat
  field : String
  /-- The highlighted text; empty unless successful. -/
  text : String := ""
  success : Bool
  durationMs : UInt64 := 0
  /-- Whether the deadline of the batch came first. -/
  timedOut : Bool := false
  error : Option String := none
deriving DecidableEq, Repr

namespace FieldResult

/-- A successful result. -/
def succeeded (hitIndex : Nat) (field text : String) (durationMs : UInt64) : FieldResult :=
  { hitIndex, field, text, success := true, durationMs }

def failed (hitIndex : Nat) (field error : String) (durationMs : UInt64) : FieldResult :=
  { hitIndex, field, success := false, durationMs, error := some error }

/-- The result for a field that was never worked on. -/
def skipped (hitIndex : Nat) (field reason : String) : FieldResult :=
  failed hitIndex field reason 0

/-- The result for work that the deadline of its batch left behind. -/
def late (hitIndex : Nat) (field : String) (waitedMs : UInt64) : FieldResult :=
  { failed hitIndex field "highlight task timed out" waitedMs with timedOut := true }

/-- Whether the result has a text for its hit. -/
def isApplicable (r : FieldResult) : Bool := r.success && r.text ≠ ""

/-- A result has a text or it has none. -/
theorem countP_isApplicable_add (rs : List FieldResult) :
    rs.countP (·.isApplicable) + rs.countP (!·.isApplicable) = rs.length := by
  rw [List.length_eq_countP_add_countP (·.isApplicable)]
  simp only [Bool.not_eq_true, Bool.decide_eq_false]

/-- A result as an object. -/
def toJson (r : FieldResult) : Json := .ofFields
  [("hit_index", some (.ofNat r.hitIndex)),
   ("field_name", some (.string r.field)),
   ("text", some (.string r.text)),
   ("success", some (.bool r.success)),
   ("duration_ms", some (.ofUInt64 r.durationMs)),
   ("timed_out", some (.bool r.timedOut)),
   ("error", r.error.map .string)]

def decode : Json.Decoder FieldResult := fun j => do
  let r ← Json.record
    ["hit_index", "field_name", "text", "success", "duration_ms", "timed_out", "error"] [] j
  let hitIndex ← r.required "hit_index" (Json.Decode.naturalBelow UInt64.size)
  let field ← r.required "field_name" Json.Decode.text
  let text ← r.defaulted "text" "" Json.Decode.text
  let success ← r.required "success" Json.Decode.boolean
  let durationMs ← r.defaulted "duration_ms" 0 Json.Decode.uint64
  let timedOut ← r.defaulted "timed_out" false Json.Decode.boolean
  let error ← r.optional "error" Json.Decode.text
  .ok { hitIndex, field, text, success, durationMs, timedOut, error }

end FieldResult

end SemanticHighlight
