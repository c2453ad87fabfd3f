import SemanticHighlight.Json.Decode

/-!
# Failures

What an operation of the library can fail with. A failure of one inference call is
none of these: it stays with the hit it was raised for.
-/

namespace SemanticHighlight

/-- Why an operation failed. -/
inductive Failure where
  /-- A file could not be read. -/
  | io (message : String)
  /-- A document could not be read. -/
  | json (fault : Json.Fault)
  /-- A query could not be read, or there is none. -/
  | query (message : String)
  /-- Settings are out of range. -/
  | config (message : String)
  | inference (message : String)
  /-- A deadline passed. -/
  | timeout (message : String)
  /-- A worker pool turned a job away. -/
  | exhausted (message : String)
  /-- The request was cancelled. -/
  | cancelled (message : String)
  /-- The operation is not possible in this state. -/
  | invalid (message : String)
  /-- The search engine failed. -/
  | search (message : String)
  /-- The highlighting phase as a whole could not run. -/
  | batch (message : String) (cause : Failure)
  /-- Any other failure: its message and those of its causes. -/
  | other (message : String) (causes : List String)
deriving DecidableEq, Repr, Inhabited

namespace Failure

/-- The wording of a failure. The causes of a failure are not part of it. -/
def text : Failure → String
  | io message => "I/O error: " ++ message
  | json fault => "JSON error: " ++ fault.message
  | query message => "Query error: " ++ message
  | config message => "Invalid configuration: " ++ message
  | inference message => "Inference error: " ++ message
  | timeout message => "Timeout: " ++ message
  | exhausted message => "Resource exhausted: " ++ message
  | cancelled message => "Operation cancelled: " ++ message
  | invalid message => "Invalid operation: " ++ message
  | search message => "Search error: " ++ message
  | batch message _ => "Semantic highlighting enhancement failed: " ++ message
  | other message _ => "Anyhow error: " ++ message

/-- The wordings of the failures behind a failure, the nearest first. -/
def causes : Failure → List String
  | io message => [message]
  | json fault => [fault.message]
  | batch _ cause => cause.text :: cause.causes
  | other message causes => message :: causes
  | _ => []

/-- Whether the highlighting phase failed as a whole. -/
def isBatch : Failure → Bool
  | batch .. => true
  | _ => false

end Failure

/-- A result in which a document fault is a failure. -/
def orJson {α : Type} : Except Json.Fault α → Except Failure α
  | .ok a => .ok a
  | .error fault => .error (.json fault)

end SemanticHighlight
