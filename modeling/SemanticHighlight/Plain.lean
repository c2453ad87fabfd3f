import SemanticHighlight.Request

/-!
# Plain requests

The search engine runs the plain request: the request without its semantic
directives. Everything but the highlight block is the same.
-/

namespace SemanticHighlight

namespace Block

/-- The block with its lexical directives alone, if it has any. -/
def lexicalOnly (b : Block) : Option Block :=
  if b.lexical.isEmpty then none else some { b with directives := b.lexical }

end Block

namespace Request

/-- Whether a request has a semantic directive. -/
def hasSemantic (r : Request) : Bool := r.highlight?.any Block.hasSemantic

/-- The request that the search engine runs. -/
def plain (r : Request) : Request :=
  { r with source := r.source.map fun s =>
      { s with highlight := s.highlight.bind Block.lexicalOnly } }

end Request

end SemanticHighlight
