import SemanticHighlight.CommandLine.Arguments
import SemanticHighlight.Merge
import SemanticHighlight.Resolution
import SemanticHighlight.Text.Quoted

/-!
# Reports

A report is the result of a command. It is written as JSON, or in lines for a reader
with a title above them unless little output is wanted.
-/

namespace SemanticHighlight.CommandLine

open Numeric

/-- The result of a command. -/
inductive Report where
  | plain (hadSemantic : Bool) (request : Json)
  | configs (configs : List FieldConfig)
  | extraction (field query : String) (text : Option String)
  /-- A response with so many results applied and the others not. -/
  | merged (applied ignored : Nat) (response : Response)

namespace Report

def title : Report → String
  | plain .. => "Plain request"
  | configs .. => "Resolved configs"
  | extraction .. => "Extracted query text"
  | merged .. => "Merged response"

/-- A text that may be absent, as JSON. -/
def textOrNull (text : Option String) : Json := (text.map .string).getD .null

/-- The members of a report as an object. -/
def members : Report → List (String × Json)
  | plain hadSemantic request =>
    [("had_semantic_highlight", .bool hadSemantic), ("request", request)]
  | configs cs => [("configs", .array (cs.map FieldConfig.toJson))]
  | extraction field query text =>
    [("field", .string field), ("query_kind", .string query), ("query_text", textOrNull text)]
  | merged applied ignored response =>
    [("applied", .ofNat applied), ("ignored", .ofNat ignored), ("response", response.toJson)]

def toJson (r : Report) : Json := .object r.members

/-- The lines about a configuration. -/
def configLines (c : FieldConfig) : List String :=
  ["", c.field, "─────────────",
   "model:      " ++ c.modelId,
   "query text: " ++ Text.quoted c.queryText,
   "tags:       " ++ c.preTag ++ " … " ++ c.postTag,
   "use_batch:  " ++ (if c.useBatch then "true" else "false")]

/-- A score with three places; nought if there is none. -/
def scoreText : Option Single → String
  | some (.finite x) => String.ofList (fixed 3 x)
  | _ => "0.000"

/-- The lines about a hit at a position. -/
def hitLines (position : Nat) (h : HitData) : List String :=
  ["",
   "Hit " ++ toString position ++ ": " ++ h.index ++ "/" ++ h.id
     ++ " (Score: " ++ scoreText h.score ++ ")",
   "─────────────"]
  ++ h.highlight.entries.map fun (field, fragments) =>
    field ++ ": [" ++ ", ".intercalate fragments ++ "]"

def lines : Report → List String
  | plain hadSemantic request =>
    [if hadSemantic then "Semantic highlight directives removed."
     else "No semantic highlight directives; request unchanged.",
     "", request.pretty]
  | configs [] => ["No semantic highlighting applies to this request."]
  | configs cs =>
    ["Semantic Highlight Configs:", "═══════════════════════════"] ++ cs.flatMap configLines
  | extraction field query text =>
    ["field: " ++ field, "query_kind: " ++ query, "query_text: " ++ text.getD "null"]
  | merged applied ignored response =>
    ["Merged Hits:", "════════════"]
    ++ (response.hits.mapIdx fun i h => hitLines i h.data).flatten
    ++ ["", "Highlights applied: " ++ toString applied, "Results ignored: " ++ toString ignored,
        "Took: " ++ toString response.took.toNat ++ "ms"]

def write (o : Options) (r : Report) : String :=
  let all :=
    match o.format with
    | .json => [if o.pretty then r.toJson.pretty else r.toJson.compact]
    | .human => (if o.verbosity = 0 then [] else [r.title, ""]) ++ r.lines
  String.join (all.map (· ++ "\n"))

end Report

end SemanticHighlight.CommandLine
