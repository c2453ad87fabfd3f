import SemanticHighlight.CommandLine.Run

/-!
# Plain requests are a projection

Whether a directive is semantic depends on the settings of its block and on the directive
itself, never on the other directives (`Block.isSemantic_setDirectives`). So the lexical
directives of a block are still lexical when they are alone, and a plain request has nothing
left to take out.

A request is its highlight block and everything else: `Request.withHighlight` changes the
first and leaves the second, and `Request.plain` is of this form (`Request.plain_eq`). Main
results: `Request.plain_keeps_lexical` says what a plain request is, `Request.plain_eq_self_iff`
which requests are plain already. These are not all the requests without semantic directives:
a block that lists no directives is taken out too.
-/

namespace SemanticHighlight

namespace Block

variable {b b' : Block} {d : Directive}

theorem isSemantic_setDirectives (b : Block) (ds : List Directive) :
    ({ b with directives := ds } : Block).isSemantic = b.isSemantic := rfl

theorem mem_lexical : d ∈ b.lexical ↔ d ∈ b.directives ∧ b.isSemantic d = false := by
  unfold lexical
  rw [List.mem_filter, Bool.not_eq_true']

theorem hasSemantic_eq_false_iff :
    b.hasSemantic = false ↔ ∀ d ∈ b.directives, b.isSemantic d = false := by
  unfold hasSemantic
  rw [List.any_eq_false]
  simp only [Bool.not_eq_true]

theorem lexical_eq_directives_iff : b.lexical = b.directives ↔ b.hasSemantic = false := by
  unfold lexical
  rw [List.filter_eq_self, hasSemantic_eq_false_iff]
  simp only [Bool.not_eq_true']

theorem semantic_eq_nil_iff : b.semantic = [] ↔ b.hasSemantic = false := by
  unfold semantic
  rw [List.filter_eq_nil_iff, hasSemantic_eq_false_iff]
  simp only [Bool.not_eq_true]

/-- Nothing is left of a block exactly if it has no lexical directive. That a semantic one stands
there is not asked for. -/
theorem lexicalOnly_eq_none_iff : b.lexicalOnly = none ↔ b.lexical = [] := by
  unfold lexicalOnly
  rw [← List.isEmpty_iff]
  split <;> simp_all

/-- What is left of a block is the block with its lexical directives, if it has any. -/
theorem lexicalOnly_eq_some_iff :
    b.lexicalOnly = some b' ↔ b.lexical ≠ [] ∧ b' = { b with directives := b.lexical } := by
  unfold lexicalOnly
  rw [ne_eq, ← List.isEmpty_iff]
  split
  next h => simp [h]
  next h => simp [h, eq_comm]

/-- The lexical directives are lexical also when they are alone. -/
theorem not_hasSemantic_of_lexicalOnly (h : b.lexicalOnly = some b') :
    b'.hasSemantic = false := by
  obtain ⟨-, rfl⟩ := lexicalOnly_eq_some_iff.1 h
  rw [hasSemantic_eq_false_iff, isSemantic_setDirectives]
  intro d hd
  exact (mem_lexical.1 hd).2

/-- The blocks that are left as they are. -/
theorem lexicalOnly_eq_some_self_iff :
    b.lexicalOnly = some b ↔ b.hasSemantic = false ∧ b.directives ≠ [] := by
  rw [lexicalOnly_eq_some_iff]
  constructor
  · rintro ⟨hne, hb⟩
    have hsame : b.lexical = b.directives := (congrArg directives hb).symm
    exact ⟨lexical_eq_directives_iff.1 hsame, hsame ▸ hne⟩
  · rintro ⟨hnone, hne⟩
    have hsame := lexical_eq_directives_iff.2 hnone
    rw [hsame]
    exact ⟨hne, rfl⟩

theorem lexicalOnly_of_lexicalOnly (h : b.lexicalOnly = some b') : b'.lexicalOnly = some b' := by
  refine lexicalOnly_eq_some_self_iff.2 ⟨not_hasSemantic_of_lexicalOnly h, ?_⟩
  obtain ⟨hne, rfl⟩ := lexicalOnly_eq_some_iff.1 h
  exact hne

end Block

namespace Request

variable {r r' : Request} {b b' : Block}

/-! ## A request is its highlight block and everything else -/

/-- The request with another highlight block, or with none. -/
def withHighlight (r : Request) (block? : Option Block) : Request :=
  { r with source := r.source.map fun s => { s with highlight := block? } }

theorem withHighlight_highlight? (r : Request) : r.withHighlight r.highlight? = r := by
  obtain ⟨_, _, _, _, _, source⟩ := r
  cases source <;> rfl

theorem withHighlight_withHighlight (r : Request) (x y : Option Block) :
    (r.withHighlight x).withHighlight y = r.withHighlight y := by
  unfold withHighlight
  rw [Option.map_map]
  rfl

/-- Only a request with a source has a place for a block. -/
theorem highlight?_withHighlight (r : Request) (f : Block → Option Block) :
    (r.withHighlight (r.highlight?.bind f)).highlight? = r.highlight?.bind f := by
  obtain ⟨_, _, _, _, _, source⟩ := r
  cases source <;> rfl

theorem query?_withHighlight (r : Request) (block? : Option Block) :
    (r.withHighlight block?).query? = r.query? := by
  obtain ⟨_, _, _, _, _, source⟩ := r
  cases source <;> rfl

/-! ## Plain requests -/

/-- The plain request has what is left of the block in its place, and in the place of no block none.
-/
theorem plain_eq (r : Request) :
    r.plain = r.withHighlight (r.highlight?.bind Block.lexicalOnly) := by
  obtain ⟨_, _, _, _, _, source⟩ := r
  cases source <;> rfl

theorem highlight?_plain (r : Request) :
    r.plain.highlight? = r.highlight?.bind Block.lexicalOnly := by
  rw [plain_eq, highlight?_withHighlight]

theorem hasSemantic_eq_false_iff :
    r.hasSemantic = false ↔ ∀ b, r.highlight? = some b → b.hasSemantic = false := by
  unfold hasSemantic
  cases r.highlight? <;> simp

/-- The plain request has nothing semantic, whatever stands in the request. -/
theorem not_hasSemantic_plain (r : Request) : r.plain.hasSemantic = false := by
  rw [hasSemantic_eq_false_iff, highlight?_plain]
  intro b' hb'
  obtain ⟨b, -, hlexical⟩ := Option.bind_eq_some_iff.1 hb'
  exact Block.not_hasSemantic_of_lexicalOnly hlexical

/-- The requests that are plain already. -/
theorem plain_eq_self_iff_lexicalOnly :
    r.plain = r ↔ ∀ b, r.highlight? = some b → b.lexicalOnly = some b := by
  constructor
  · intro hself b hb
    have hsame := highlight?_plain r
    rw [hself, hb] at hsame
    exact hsame.symm
  · intro hkept
    have hsame : r.highlight?.bind Block.lexicalOnly = r.highlight? := by
      cases hb : r.highlight? with
      | none => rfl
      | some b => exact hkept b hb
    rw [plain_eq, hsame, withHighlight_highlight?]

/-- Making a request plain a second time changes nothing. -/
theorem plain_plain (r : Request) : r.plain.plain = r.plain := by
  refine plain_eq_self_iff_lexicalOnly.2 fun b' hb' => ?_
  rw [highlight?_plain] at hb'
  obtain ⟨b, -, hlexical⟩ := Option.bind_eq_some_iff.1 hb'
  exact Block.lexicalOnly_of_lexicalOnly hlexical

/-- Nothing resolves for a request without semantic directives, and nothing is warned about. -/
theorem resolve_of_not_hasSemantic (resolver : Resolver) (h : r.hasSemantic = false) :
    resolver.resolve r = (none, []) := by
  unfold Resolver.resolve
  cases hb : r.highlight? with
  | none => rfl
  | some b =>
    have hnone : b.semantic = [] :=
      Block.semantic_eq_nil_iff.2 (hasSemantic_eq_false_iff.1 h b hb)
    simp only [hnone]
    rfl

/-- **What a plain request is.** It has no semantic directive and resolves to nothing. Its
block is that of the request with the lexical directives alone, in their order and as they
were, or it has no block if there are none. All else is as in the request, which comes back
when its block is put back. The plain request of a plain request is itself. A directive that
is left is what it was in the request, lexical. -/
theorem plain_keeps_lexical (r : Request) :
    r.plain.hasSemantic = false ∧
    (∀ resolver : Resolver, resolver.resolve r.plain = (none, [])) ∧
    (∀ b, r.highlight? = some b → b.lexical ≠ [] →
      r.plain.highlight? = some { b with directives := b.lexical }) ∧
    (r.plain.highlight? = none ↔ ∀ b, r.highlight? = some b → b.lexical = []) ∧
    r.plain.withHighlight r.highlight? = r ∧
    r.plain.query? = r.query? ∧
    r.plain.plain = r.plain ∧
    ∀ b b', r.highlight? = some b → r.plain.highlight? = some b' →
      b'.isSemantic = b.isSemantic := by
  refine ⟨not_hasSemantic_plain r,
    fun resolver => resolve_of_not_hasSemantic resolver (not_hasSemantic_plain r),
    fun b hb hne => ?_, ?_, ?_, ?_, plain_plain r, fun b b' hb hb' => ?_⟩
  · rw [highlight?_plain, hb]
    exact Block.lexicalOnly_eq_some_iff.2 ⟨hne, rfl⟩
  · rw [highlight?_plain, Option.bind_eq_none_iff]
    simp only [Block.lexicalOnly_eq_none_iff]
  · -- only the block differs, so putting it back gives the request
    rw [plain_eq, withHighlight_withHighlight, withHighlight_highlight?]
  · rw [plain_eq, query?_withHighlight]
  · rw [highlight?_plain, hb] at hb'
    obtain ⟨-, rfl⟩ := Block.lexicalOnly_eq_some_iff.1 hb'
    exact Block.isSemantic_setDirectives b b.lexical

/-- A request with semantic directives of three kinds between lexical ones. -/
def mixed : Request :=
  let directive (field : String) (highlighter : Option String) (options : Dictionary Json) :
      Directive := { Directive.plain field with highlighter, options }
  { routing := some "r"
    source := some {
      query := some (.term "body" "q" (.one .single))
      highlight := some { Block.empty with
        highlighter := some semanticHighlighter
        directives := [
          directive "title" (some "unified") .empty,
          directive "body" (some "plain") (.ofEntries [(modelOption, .null)]),
          directive "title" none .empty,
          directive "notes" (some "plain") (.ofEntries [(highlighterOption, .string "fast")]),
          directive "notes" (some "plain")
            (.ofEntries [(highlighterOption, .string semanticHighlighter)])] } } }

/-- A request with two lexical directives and a semantic one between them, and a member that is kept
as it is. -/
theorem plain_keeps_lexical_mixed :
    mixed.hasSemantic = true ∧ mixed.plain.hasSemantic = false ∧
      (mixed.plain.highlight?.map fun b => b.directives.map (·.field)) =
        some ["title", "notes"] ∧
      mixed.plain.routing = some "r" := by
  obtain ⟨hnone, -, hblock, -⟩ := plain_keeps_lexical mixed
  refine ⟨by decide, hnone, ?_, rfl⟩
  rw [hblock _ rfl (by decide)]
  decide

/-- What is said to the reader of a request that has no semantic directive. -/
def unchangedNote : String := "No semantic highlight directives; request unchanged."

/-- **Which requests are plain already.** Those without semantic directives, unless they have
a block that lists no directives: that block is taken out, with all its settings. The reader
is told that nothing changed whenever there is no semantic directive, so also then. -/
theorem plain_eq_self_iff (r : Request) :
    (r.plain = r ↔ r.hasSemantic = false ∧ ∀ b, r.highlight? = some b → b.directives ≠ []) ∧
    (∀ b, r.highlight? = some b → b.directives = [] → r.plain = r.withHighlight none) ∧
    ((CommandLine.Command.splitReport r).lines.head? = some unchangedNote ↔
      r.hasSemantic = false) := by
  refine ⟨?_, fun b hb hempty => ?_, ?_⟩
  · rw [plain_eq_self_iff_lexicalOnly, hasSemantic_eq_false_iff]
    simp only [Block.lexicalOnly_eq_some_self_iff]
    constructor
    · intro h
      exact ⟨fun b hb => (h b hb).1, fun b hb => (h b hb).2⟩
    · intro h b hb
      exact ⟨h.1 b hb, h.2 b hb⟩
  · -- without directives there is no lexical one to keep the block for
    have hnone : b.lexicalOnly = none := by
      rw [Block.lexicalOnly_eq_none_iff, List.eq_nil_iff_forall_not_mem]
      intro d hd
      have hmem := (Block.mem_lexical.1 hd).1
      rw [hempty] at hmem
      cases hmem
    rw [plain_eq, hb]
    exact congrArg r.withHighlight hnone
  · show some (if r.hasSemantic then _ else unchangedNote) = some unchangedNote ↔ _
    cases r.hasSemantic with
    | false => simp
    | true => simp [unchangedNote]

/-- A request with tags for every field, but no field. -/
def fieldless : Request :=
  { indices := ["docs"]
    source := some { highlight := some { Block.empty with preTags := some ["<b>"] } } }

/-- A request without semantic directives of which the block is taken out, though the reader
is told that it is unchanged. -/
theorem plain_fieldless_ne :
    fieldless.hasSemantic = false ∧ fieldless.plain ≠ fieldless ∧
      fieldless.plain.highlight? = none ∧
      (CommandLine.Command.splitReport fieldless).lines.head? = some unchangedNote := by
  refine ⟨by decide, fun h => ?_, rfl, rfl⟩
  cases congrArg highlight? h

end Request

end SemanticHighlight
