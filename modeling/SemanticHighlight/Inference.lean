import SemanticHighlight.Text.Sentence

/-!
# Inference

A backend takes a query text and a context to highlighted text. One kind of backend
asks a model for a label per sentence: `Inference.tagSentences` puts tags around the
sentences labelled 1.
-/

namespace SemanticHighlight

/-- What is asked of a backend. -/
structure InferenceRequest where
  modelId : String
  queryText : String
  /-- The text to highlight. -/
  context : String
  preTag : String
  postTag : String
deriving DecidableEq, Repr

namespace Inference

/-- Why a backend failed: a message, and those of its causes. -/
structure Fault where
  message : String
  causes : List String
deriving DecidableEq, Repr

namespace Fault

/-- A fault without further causes. -/
def plain (message : String) : Fault := ⟨message, []⟩

/-- The fault of a list of messages, the outermost first. -/
def ofChain : List String → Fault
  | [] => plain ""
  | message :: causes => ⟨message, causes⟩

/-- The messages of a fault, the outermost first. -/
def chain (f : Fault) : List String := f.message :: f.causes

/-- All messages of a fault. -/
def full (f : Fault) : String := ": ".intercalate f.chain

end Fault

/-- What a backend answers. -/
abbrev Answer := Except Fault String

/-- The sentences with tags around those labelled 1. The first label other than 0
and 1 is a fault. -/
def tagged (preTag postTag : String) : List String → List Int → Except Fault (List String)
  | s :: ss, label :: labels =>
    if label = 0 then (tagged preTag postTag ss labels).map (s :: ·)
    else if label = 1 then
      (tagged preTag postTag ss labels).map ((preTag ++ s ++ postTag) :: ·)
    else
      .error (.plain ("malformed model output: label " ++ toString label ++ " is not 0 or 1"))
  | _, _ => .ok []

/-- The context with tags around the sentences labelled 1, its sentences being joined
by blanks; empty when no sentence is labelled 1. `label` is the model: it takes
sentences to a label for each. -/
def tagSentences (label : List String → Except Fault (List Int)) (r : InferenceRequest) :
    Answer := do
  let sentences := Text.sentences r.context
  if sentences.isEmpty then
    .error (.plain "context has no sentences")
  else
    match label sentences with
    | .error fault =>
      .error ⟨"model " ++ r.modelId ++ " failed to label sentences", fault.chain⟩
    | .ok labels =>
      if labels.length ≠ sentences.length then
        .error (.plain ("malformed model output: " ++ toString labels.length ++ " labels for "
          ++ toString sentences.length ++ " sentences"))
      else
        let parts ← tagged r.preTag r.postTag sentences labels
        .ok (if labels.any (· = 1) then " ".intercalate parts else "")

end Inference

end SemanticHighlight
