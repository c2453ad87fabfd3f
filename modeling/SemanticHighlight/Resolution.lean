import SemanticHighlight.Request
import SemanticHighlight.Query.Extraction
import SemanticHighlight.Json.Text
import SemanticHighlight.Settings

/-!
# Resolving semantic directives

A semantic directive resolves to a configuration: the model to ask, the text to ask
it about, and the tags around what it finds. A directive without a usable model is
skipped with a warning.

Each part of a configuration has its own chain of places where it is looked up, the
directive itself first, then the block, then the settings.
-/

namespace SemanticHighlight

/-- How a model is to highlight one field of every hit. -/
structure FieldConfig where
  field : String
  modelId : String
  queryText : String
  preTag : String
  postTag : String
  useBatch : Bool
deriving DecidableEq, Repr

namespace FieldConfig

/-- A configuration as an object. -/
def toJson (c : FieldConfig) : Json := .ofFields
  [("field_name", some (.string c.field)),
   ("model_id", some (.string c.modelId)),
   ("query_text", some (.string c.queryText)),
   ("pre_tag", some (.string c.preTag)),
   ("post_tag", some (.string c.postTag)),
   ("use_batch", some (.bool c.useBatch))]

def decode : Json.Decoder FieldConfig := fun j => do
  let r ← Json.record
    ["field_name", "model_id", "query_text", "pre_tag", "post_tag", "use_batch"] [] j
  let field ← r.required "field_name" Json.Decode.text
  let modelId ← r.required "model_id" Json.Decode.text
  let queryText ← r.required "query_text" Json.Decode.text
  let preTag ← r.required "pre_tag" Json.Decode.text
  let postTag ← r.required "post_tag" Json.Decode.text
  let useBatch ← r.required "use_batch" Json.Decode.boolean
  .ok { field, modelId, queryText, preTag, postTag, useBatch }

end FieldConfig

namespace Resolution

/-- What is worth a warning about a directive. -/
inductive Warning where
  /-- Neither the directive nor the block names a model. -/
  | noModel (field : String)
  /-- The model is not named by a string, or by an empty one. -/
  | unusableModel (field : String) (given : Json)
  /-- The query holds no text for the field. -/
  | noQueryText (field : String)
deriving DecidableEq

/-- The wording of a warning. -/
def Warning.text : Warning → String
  | noModel field =>
    "[semantic-hl] skipping field '" ++ field ++ "': no model_id in field or request options"
  | unusableModel field given =>
    "[semantic-hl] skipping field '" ++ field
      ++ "': model_id must be a non-empty string, got " ++ given.compact
  | noQueryText field => "[semantic-hl] no query text recovered for field '" ++ field ++ "'"

end Resolution

/-- What resolves directives: the extractors of query texts and the tags of last resort. -/
structure Resolver where
  registry : Query.Registry
  defaultPreTag : String
  defaultPostTag : String

namespace Resolver

open Resolution

/-- A resolver with the tags of the settings. -/
def ofSettings (registry : Query.Registry) (s : Settings) : Resolver :=
  ⟨registry, s.defaultPreTag, s.defaultPostTag⟩

/-- The model of a directive, its own if it names one and else that of its block. A
model is usable when it is a string that is not empty. -/
def model (b : Block) (d : Directive) : Except Warning String :=
  match d.model?.or b.model? with
  | some (.string id) =>
    if id = "" then .error (.unusableModel d.field (.string id)) else .ok id
  | some given => .error (.unusableModel d.field given)
  | none => .error (.noModel d.field)

/-- The text that the query of a request holds for a field; empty if there is none. -/
def queryText (r : Resolver) (request : Request) (field : String) : String :=
  (request.query?.bind fun q => q.extract r.registry field).getD ""

/-- The first tag of a list that may be absent. -/
def firstTag (tags : Option (List String)) : Option String := tags.bind List.head?

/-- The first tag of the directive, else of the block, else the given one. -/
def tag (directive block : Option (List String)) (default : String) : String :=
  ((firstTag directive).or (firstTag block)).getD default

/-- Whether batched inference is asked for: the option of the directive, if it has
it, and else that of the block is true. -/
def useBatch (b : Block) (d : Directive) : Bool :=
  (d.options.find? batchOption).or (b.options.find? batchOption) = some (.bool true)

/-- The configuration of a semantic directive, if it has one, and the warnings about it. -/
def resolveDirective (r : Resolver) (request : Request) (b : Block) (d : Directive) :
    Option FieldConfig × List Warning :=
  match model b d with
  | .error warning => (none, [warning])
  | .ok modelId =>
    let queryText := r.queryText request d.field
    (some {
      field := d.field
      modelId
      queryText
      preTag := tag d.preTags b.preTags r.defaultPreTag
      postTag := tag d.postTags b.postTags r.defaultPostTag
      useBatch := useBatch b d
    }, if queryText = "" then [.noQueryText d.field] else [])

/-- The configurations of the semantic directives of a request in their order, absent
if there are none, and the warnings about them. -/
def resolve (r : Resolver) (request : Request) : Option (List FieldConfig) × List Warning :=
  match request.highlight? with
  | none => (none, [])
  | some b =>
    let resolved := b.semantic.map (r.resolveDirective request b)
    let configs := resolved.filterMap (·.1)
    (if configs.isEmpty then none else some configs, resolved.flatMap (·.2))

end Resolver

end SemanticHighlight
