import SemanticHighlight.Dictionary

/-!
# Highlight blocks

The highlight block of a search request lists directives, one per field and in an
order that matters. A directive is *semantic* when a model is to highlight its
field, and lexical when the search engine itself does.

The directives of a block are given as an object, which may repeat a field, or as an
array of objects. A block has two renderings: `Block.document` repeats a field as
often as the block does, `Block.toJson` is a value and keeps one entry per field.
-/

namespace SemanticHighlight

/-- The highlighter that asks a model. -/
def semanticHighlighter : String := "semantic"

/-- The option naming the model. -/
def modelOption : String := "model_id"

/-- The option naming the highlighter. -/
def highlighterOption : String := "type"

/-- The option asking for batched inference. -/
def batchOption : String := "use_batch"

/-- How one field is to be highlighted. -/
structure Directive where
  field : String
  highlighter : Option String
  preTags : Option (List String)
  postTags : Option (List String)
  fragmentSize : Option UInt64
  fragmentCount : Option UInt64
  options : Dictionary Json
deriving DecidableEq

namespace Directive

/-- The directive that says nothing but its field. -/
def plain (field : String) : Directive := ⟨field, none, none, none, none, none, .empty⟩

instance : Inhabited Directive := ⟨plain ""⟩

/-- The model that the directive itself names, whatever kind of value that is. -/
def model? (d : Directive) : Option Json := d.options.find? modelOption

/-- The directive as an object. The field is not part of it. -/
def toJson (d : Directive) : Json := .ofFields
  [("type", d.highlighter.map .string),
   ("pre_tags", d.preTags.map .ofStrings),
   ("post_tags", d.postTags.map .ofStrings),
   ("fragment_size", d.fragmentSize.map .ofUInt64),
   ("number_of_fragments", d.fragmentCount.map .ofUInt64),
   ("options", d.options.toJson? id)]

/-- The names of the parts of a directive. -/
def parts : List String :=
  ["type", "pre_tags", "post_tags", "fragment_size", "number_of_fragments", "options"]

/-- A directive for no field yet. -/
def decode : Json.Decoder Directive := fun j => do
  let r ← Json.record parts [] j
  let highlighter ← r.optional "type" Json.Decode.text
  let preTags ← r.optional "pre_tags" (Json.Decode.list Json.Decode.text)
  let postTags ← r.optional "post_tags" (Json.Decode.list Json.Decode.text)
  let fragmentSize ← r.optional "fragment_size" Json.Decode.uint64
  let fragmentCount ← r.optional "number_of_fragments" Json.Decode.uint64
  let options ← r.defaulted "options" .empty (Dictionary.decode Json.Decode.value)
  .ok { field := "", highlighter, preTags, postTags, fragmentSize, fragmentCount, options }

/-- The directive for a given field. -/
def forField (entry : String × Directive) : Directive := { entry.2 with field := entry.1 }

/-- The directives of one object of an array: each field once, in the order of fields. -/
def decodeGroup : Json.Decoder (List Directive) := fun j =>
  (Dictionary.decode decode j).map (·.entries.map forField)

/-- The directives of a block, as an object or as an array of objects. -/
def decodeAll : Json.Decoder (List Directive)
  | .object ms => (Json.Decode.eachMember decode ms).map (·.map forField)
  | .array js => (Json.Decode.each decodeGroup js).map List.flatten
  | _ => .error (.unexpected "an object of directives or an array of objects")

end Directive

/-- The highlight block of a request: settings for all fields, and the directives. -/
structure Block where
  preTags : Option (List String)
  postTags : Option (List String)
  highlighter : Option String
  fragmentSize : Option UInt64
  fragmentCount : Option UInt64
  options : Dictionary Json
  directives : List Directive
deriving DecidableEq

namespace Block

/-- The block that says nothing. -/
def empty : Block := ⟨none, none, none, none, none, .empty, []⟩

instance : Inhabited Block := ⟨empty⟩

/-- The model named for all fields. -/
def model? (b : Block) : Option Json := b.options.find? modelOption

/-- The highlighter of a directive, its own or that of the block. -/
def highlighterOf (b : Block) (d : Directive) : Option String := d.highlighter.or b.highlighter

/-- Whether a directive is for a model: it or the block names a model, its own
options name the semantic highlighter, or it has or inherits that highlighter. -/
def isSemantic (b : Block) (d : Directive) : Bool :=
  d.options.has modelOption || b.options.has modelOption
    || d.options.find? highlighterOption = some (.string semanticHighlighter)
    || b.highlighterOf d = some semanticHighlighter

/-- Whether any directive is for a model. -/
def hasSemantic (b : Block) : Bool := b.directives.any b.isSemantic

/-- The directives for a model. -/
def semantic (b : Block) : List Directive := b.directives.filter b.isSemantic

/-- The directives for the search engine. -/
def lexical (b : Block) : List Directive := b.directives.filter (!b.isSemantic ·)

/-- The block as an object, with the given members for its directives. -/
def render (b : Block) (members : List (String × Json)) : Json := .ofFields
  [("pre_tags", b.preTags.map .ofStrings),
   ("post_tags", b.postTags.map .ofStrings),
   ("type", b.highlighter.map .string),
   ("fragment_size", b.fragmentSize.map .ofUInt64),
   ("number_of_fragments", b.fragmentCount.map .ofUInt64),
   ("options", b.options.toJson? id),
   ("fields", some (.object members))]

/-- A member for each directive. -/
def members (b : Block) : List (String × Json) := b.directives.map fun d => (d.field, d.toJson)

/-- The block as it is written: a field is repeated as often as it has directives. -/
def document (b : Block) : Json := b.render b.members

/-- The block as a value: of a repeated field, the first place and the last directive. -/
def toJson (b : Block) : Json := b.render (Json.distinct b.members)

/-- The names of the parts of a block. -/
def parts : List String :=
  ["pre_tags", "post_tags", "type", "fragment_size", "number_of_fragments", "options", "fields"]

def decode : Json.Decoder Block := fun j => do
  let r ← Json.record parts [] j
  let preTags ← r.optional "pre_tags" (Json.Decode.list Json.Decode.text)
  let postTags ← r.optional "post_tags" (Json.Decode.list Json.Decode.text)
  let highlighter ← r.optional "type" Json.Decode.text
  let fragmentSize ← r.optional "fragment_size" Json.Decode.uint64
  let fragmentCount ← r.optional "number_of_fragments" Json.Decode.uint64
  let options ← r.defaulted "options" .empty (Dictionary.decode Json.Decode.value)
  let directives ← r.defaulted "fields" [] Directive.decodeAll
  .ok { preTags, postTags, highlighter, fragmentSize, fragmentCount, options, directives }

/-- The block of a text. -/
def ofText (text : String) : Except Json.Fault Block := Json.read text >>= decode

end Block

end SemanticHighlight
