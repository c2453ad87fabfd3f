import SemanticHighlight.Failure

/-!
# Settings of the highlighting phase

`Settings.validate` says which settings can be used.
-/

namespace SemanticHighlight

/-- What happens to a job that finds the worker pool full. -/
inductive Backpressure where
  /-- It waits for a slot. -/
  | block
  /-- It is turned away. -/
  | reject
deriving DecidableEq, Repr

namespace Backpressure

/-- The name of a policy. -/
def name : Backpressure → String
  | block => "block"
  | reject => "reject"

/-- The policies by their names. -/
def choices : List (String × Backpressure) := [block, reject].map fun p => (p.name, p)

end Backpressure

/-- The settings of the highlighting phase. -/
structure Settings where
  enabled : Bool := true
  /-- How many workers there are; as many as processors when absent. -/
  parallelism : Option UInt64 := none
  /-- How many jobs may wait beside those being worked on. -/
  queueSize : UInt64 := 1000
  backpressure : Backpressure := .block
  /-- How long a batch may take, in milliseconds. -/
  batchTimeoutMs : UInt64 := 30000
  defaultPreTag : String := "<em>"
  defaultPostTag : String := "</em>"
deriving DecidableEq, Repr

namespace Settings

/-- Why settings cannot be used. -/
inductive Error where
  | noWorkers
  | noQueue
  | noTime
deriving DecidableEq, Repr

/-- The wording of an error. -/
def Error.message : Error → String
  | noWorkers => "parallelism must be positive"
  | noQueue => "queue_size must be positive"
  | noTime => "batch_timeout_ms must be positive"

/-- Settings can be used when no number of them is zero; the first that is decides the error. -/
def validate (s : Settings) : Except Error Unit :=
  if s.parallelism = some 0 then .error .noWorkers
  else if s.queueSize = 0 then .error .noQueue
  else if s.batchTimeoutMs = 0 then .error .noTime
  else .ok ()

/-- How many workers there are, on a machine with so many processors. -/
def workers (s : Settings) (processors : UInt64) : UInt64 := s.parallelism.getD processors

/-- The settings as an object. -/
def toJson (s : Settings) : Json := .ofFields
  [("enabled", some (.bool s.enabled)),
   ("parallelism", some ((s.parallelism.map .ofUInt64).getD .null)),
   ("queue_size", some (.ofUInt64 s.queueSize)),
   ("backpressure", some (.string s.backpressure.name)),
   ("batch_timeout_ms", some (.ofUInt64 s.batchTimeoutMs)),
   ("default_pre_tag", some (.string s.defaultPreTag)),
   ("default_post_tag", some (.string s.defaultPostTag))]

/-- The names of the settings. -/
def parts : List String :=
  ["enabled", "parallelism", "queue_size", "backpressure", "batch_timeout_ms",
   "default_pre_tag", "default_post_tag"]

/-- Settings; what is not given has its default. -/
def decode : Json.Decoder Settings := fun j => do
  let d : Settings := {}
  let r ← Json.record parts [] j
  let enabled ← r.defaulted "enabled" d.enabled Json.Decode.boolean
  let parallelism ← r.optional "parallelism" Json.Decode.uint64
  let queueSize ← r.defaulted "queue_size" d.queueSize Json.Decode.uint64
  let backpressure ←
    r.defaulted "backpressure" d.backpressure (Json.Decode.choice Backpressure.choices)
  let batchTimeoutMs ← r.defaulted "batch_timeout_ms" d.batchTimeoutMs Json.Decode.uint64
  let defaultPreTag ← r.defaulted "default_pre_tag" d.defaultPreTag Json.Decode.text
  let defaultPostTag ← r.defaulted "default_post_tag" d.defaultPostTag Json.Decode.text
  .ok { enabled, parallelism, queueSize, backpressure, batchTimeoutMs, defaultPreTag,
        defaultPostTag }

/-- Settings that can be used. -/
def check (s : Settings) : Except Failure Unit :=
  match s.validate with
  | .ok () => .ok ()
  | .error e => .error (.config e.message)

/-- The settings of a text, if they can be used. -/
def ofText (text : String) : Except Failure Settings := do
  let settings ← orJson (Json.read text >>= decode)
  settings.check
  .ok settings

end Settings

end SemanticHighlight
