import Mathlib.Data.List.Forall2
import SemanticHighlight.Proofs.Plain.Projection

/-!
# Resolution walks the semantic directives

`Configured` says what the configuration of a directive is, part by part, and `Skipped` which
warning stands for a directive without one. A semantic directive gets the one or the other,
according to whether the value for its model is usable (`resolveDirective_cases`).

Main statement: `resolve_walk`. The configurations are those of the usable semantic directives,
the warnings of the first two kinds stand for the others, both in the order of the directives,
and what is neither configured nor warned about is what a plain request keeps.

An option that a directive has hides that of the block even if nothing can be made of its value
(`optionFor`); a list of tags hides the next one only if it is not empty (`firstOf`).
-/

namespace SemanticHighlight

namespace Resolution.Warning

/-- Whether a warning stands for a directive that is skipped. -/
def isSkip : Warning → Bool
  | noModel _ | unusableModel _ _ => true
  | noQueryText _ => false

def field : Warning → String
  | noModel field | unusableModel field _ | noQueryText field => field

/-- A warning that stands for a directive names its field. -/
theorem text_of_isSkip {warning : Warning} (h : warning.isSkip = true) :
    ∃ reason, warning.text =
      "[semantic-hl] skipping field '" ++ warning.field ++ "': " ++ reason := by
  -- the two kinds of warnings about skipping share their opening words
  cases warning with
  | noModel field =>
    have hsplit : "': no model_id in field or request options" =
        "': " ++ "no model_id in field or request options" := by decide
    refine ⟨"no model_id in field or request options", ?_⟩
    show "[semantic-hl] skipping field '" ++ field ++ "': no model_id in field or request options" =
      "[semantic-hl] skipping field '" ++ field ++ "': " ++ _
    rw [hsplit, ← String.append_assoc]
  | unusableModel field given =>
    have hsplit : "': model_id must be a non-empty string, got " =
        "': " ++ "model_id must be a non-empty string, got " := by decide
    refine ⟨"model_id must be a non-empty string, got " ++ given.compact, ?_⟩
    show "[semantic-hl] skipping field '" ++ field ++
        "': model_id must be a non-empty string, got " ++ given.compact =
      "[semantic-hl] skipping field '" ++ field ++ "': " ++ _
    rw [hsplit, ← String.append_assoc, ← String.append_assoc]
  | noQueryText field => cases h

end Resolution.Warning

namespace Resolver

open Resolution

variable {r : Resolver} {request : Request} {b : Block} {d : Directive}

/-! ## What is looked up -/

/-- The value of an option for a directive: that of the directive if it has the option, whatever
the value is, and else that of the block. -/
def optionFor (b : Block) (d : Directive) (key : String) : Option Json :=
  if d.options.has key then d.options.find? key else b.options.find? key

/-- The first entry of the first list that is not empty. -/
def firstOf (lists : List (List String)) : Option String :=
  (lists.find? fun tags => !tags.isEmpty).bind List.head?

/-- Whether the value for the model of a directive is a string that is not empty. -/
def isUsable (b : Block) (d : Directive) : Bool :=
  match optionFor b d modelOption with
  | some (.string id) => decide (id ≠ "")
  | _ => false

/-- What the configuration of a directive is. -/
structure Configured (r : Resolver) (request : Request) (b : Block) (d : Directive)
    (c : FieldConfig) : Prop where
  field : c.field = d.field
  model : optionFor b d modelOption = some (.string c.modelId)
  named : c.modelId ≠ ""
  text : (∃ q, request.query? = some q ∧ q.extract r.registry d.field = some c.queryText) ∨
    c.queryText = "" ∧ ∀ q, request.query? = some q → q.extract r.registry d.field = none
  preTag : firstOf [d.preTags.getD [], b.preTags.getD [], [r.defaultPreTag]] = some c.preTag
  postTag : firstOf [d.postTags.getD [], b.postTags.getD [], [r.defaultPostTag]] = some c.postTag
  useBatch : c.useBatch = true ↔ optionFor b d batchOption = some (.bool true)

/-- The warning that stands for a directive without a usable model. -/
inductive Skipped (b : Block) (d : Directive) : Warning → Prop
  | noModel (hv : optionFor b d modelOption = none) : Skipped b d (.noModel d.field)
  | unusable (given : Json) (hv : optionFor b d modelOption = some given)
      (hu : ∀ id, given = .string id → id = "") : Skipped b d (.unusableModel d.field given)

/-- The option of the directive goes before that of the block. -/
theorem optionFor_eq (b : Block) (d : Directive) (key : String) :
    optionFor b d key = (d.options.find? key).or (b.options.find? key) := by
  unfold optionFor Dictionary.has
  cases d.options.find? key <;> rfl

theorem firstOf_nil_cons (lists : List (List String)) : firstOf ([] :: lists) = firstOf lists :=
  rfl

theorem firstOf_cons_cons (tag : String) (tags : List String) (lists : List (List String)) :
    firstOf ((tag :: tags) :: lists) = some tag := rfl

/-- A tag is the first entry of the first list that is not empty. -/
theorem firstOf_tags (own block : Option (List String)) (default : String) :
    firstOf [own.getD [], block.getD [], [default]] = some (tag own block default) := by
  have hlast : firstOf [[], block.getD [], [default]] = some (tag none block default) := by
    rw [firstOf_nil_cons]
    rcases block with - | - | ⟨first, rest⟩
    · rfl
    · rfl
    · exact firstOf_cons_cons first rest _
  rcases own with - | - | ⟨first, rest⟩
  · exact hlast
  · exact hlast
  · exact firstOf_cons_cons first rest _

/-! ## One directive -/

/-- The text of a query is what is extracted from it, and empty if nothing is. -/
theorem queryText_cases (r : Resolver) (request : Request) (field : String) :
    (∃ q, request.query? = some q ∧ q.extract r.registry field = some (r.queryText request field)) ∨
      r.queryText request field = "" ∧
        ∀ q, request.query? = some q → q.extract r.registry field = none := by
  unfold queryText
  cases hquery : request.query? with
  | none => exact .inr ⟨rfl, fun q hq => by cases hq⟩
  | some q =>
    cases htext : q.extract r.registry field with
    | none =>
      refine .inr ⟨by simp [htext], fun q' hq => ?_⟩
      cases hq
      exact htext
    | some text => exact .inl ⟨q, rfl, by simp [htext]⟩

/-- A batch is asked for by the truth value itself, and by nothing that resembles it. -/
theorem useBatch_iff (b : Block) (d : Directive) :
    useBatch b d = true ↔ optionFor b d batchOption = some (.bool true) := by
  unfold useBatch
  rw [optionFor_eq, decide_eq_true_iff]

/-- A model is found where the value for it is usable. -/
theorem model_cases (b : Block) (d : Directive) :
    (isUsable b d = true ∧ ∃ id, model b d = .ok id ∧ id ≠ "" ∧
        optionFor b d modelOption = some (.string id)) ∨
      isUsable b d = false ∧ ∃ warning, model b d = .error warning ∧ Skipped b d warning := by
  have hgiven : d.model?.or b.model? = optionFor b d modelOption :=
    (optionFor_eq b d modelOption).symm
  unfold isUsable model
  rw [hgiven]
  -- no value, a value that is a text, and any other value
  cases hv : optionFor b d modelOption with
  | none => exact .inr ⟨rfl, _, rfl, .noModel hv⟩
  | some given =>
    cases given with
    | string id =>
      by_cases hid : id = ""
      · refine .inr ⟨by simp [hid], _, if_pos hid, .unusable _ hv ?_⟩
        intro id' hsame
        cases hsame
        exact hid
      · exact .inl ⟨by simp [hid], id, if_neg hid, hid, rfl⟩
    | _ => exact .inr ⟨rfl, _, rfl, .unusable _ hv fun id hsame => by cases hsame⟩

/-- A directive gets its configuration, and at most a note that there is no text, or else one
warning that it is skipped. -/
theorem resolveDirective_cases (r : Resolver) (request : Request) (b : Block) (d : Directive) :
    (isUsable b d = true ∧ ∃ c, Configured r request b d c ∧
        r.resolveDirective request b d =
          (some c, if c.queryText = "" then [.noQueryText c.field] else [])) ∨
      isUsable b d = false ∧ ∃ warning, Skipped b d warning ∧
        r.resolveDirective request b d = (none, [warning]) := by
  unfold resolveDirective
  rcases model_cases b d with ⟨husable, id, hmodel, hid, hv⟩ | ⟨hnot, warning, hmodel, hskipped⟩
  · rw [hmodel]
    refine .inl ⟨husable, _, ?_, rfl⟩
    exact {
      field := rfl
      model := hv
      named := hid
      text := queryText_cases r request d.field
      preTag := firstOf_tags d.preTags b.preTags r.defaultPreTag
      postTag := firstOf_tags d.postTags b.postTags r.defaultPostTag
      useBatch := useBatch_iff b d }
  · rw [hmodel]
    exact .inr ⟨hnot, warning, hskipped, rfl⟩

theorem Skipped.isSkip {warning : Warning} (h : Skipped b d warning) : warning.isSkip = true := by
  cases h <;> rfl

theorem Skipped.field {warning : Warning} (h : Skipped b d warning) :
    warning.field = d.field := by
  cases h <;> rfl

/-! ## Lists of directives -/

section Lists

variable (r : Resolver) (request : Request) (b : Block)

/-- The configurations of directives. -/
def configsOf (ds : List Directive) : List FieldConfig :=
  (ds.map (r.resolveDirective request b)).filterMap (·.1)

/-- The warnings about directives. -/
def warningsOf (ds : List Directive) : List Warning :=
  (ds.map (r.resolveDirective request b)).flatMap (·.2)

/-- The configurations of the directives follow each other. -/
theorem configsOf_cons (d : Directive) (ds : List Directive) :
    configsOf r request b (d :: ds) =
      (r.resolveDirective request b d).1.toList ++ configsOf r request b ds := by
  unfold configsOf
  rw [List.map_cons, List.filterMap_cons]
  cases (r.resolveDirective request b d).1 <;> rfl

theorem warningsOf_cons (d : Directive) (ds : List Directive) :
    warningsOf r request b (d :: ds) =
      (r.resolveDirective request b d).2 ++ warningsOf r request b ds := rfl

/-- There is one configuration for each directive with a usable model, in the order of the
directives. -/
theorem configsOf_forall₂ (ds : List Directive) :
    List.Forall₂ (Configured r request b) (ds.filter (isUsable b)) (configsOf r request b ds) := by
  induction ds with
  | nil => exact .nil
  | cons d ds ih =>
    rw [configsOf_cons]
    rcases resolveDirective_cases r request b d with
      ⟨husable, c, hc, heq⟩ | ⟨hnot, warning, -, heq⟩
    · rw [heq, List.filter_cons_of_pos husable]
      exact .cons hc ih
    · rw [heq, List.filter_cons_of_neg (by rw [hnot]; exact Bool.false_ne_true)]
      exact ih

/-- There is one warning about skipping for each of the others, in their order. -/
theorem skips_forall₂ (ds : List Directive) :
    List.Forall₂ (Skipped b) (ds.filter fun d => !isUsable b d)
      ((warningsOf r request b ds).filter Warning.isSkip) := by
  induction ds with
  | nil => exact .nil
  | cons d ds ih =>
    rw [warningsOf_cons, List.filter_append]
    rcases resolveDirective_cases r request b d with
      ⟨husable, c, -, heq⟩ | ⟨hnot, warning, hskipped, heq⟩
    · -- a note about a missing text is not a warning that stands for the directive
      have hnone : (if c.queryText = "" then [Warning.noQueryText c.field] else []).filter
          Warning.isSkip = [] := by
        split <;> rfl
      rw [heq, hnone, List.nil_append, List.filter_cons_of_neg (by rw [husable]; decide)]
      exact ih
    · rw [heq, List.filter_cons_of_pos (by rw [hnot]; rfl),
        List.filter_cons_of_pos hskipped.isSkip]
      exact .cons hskipped ih

/-- The other warnings are about the configurations without a text. -/
theorem notes_eq (ds : List Directive) :
    (warningsOf r request b ds).filter (!·.isSkip) =
      ((configsOf r request b ds).filter (·.queryText = "")).map (.noQueryText ·.field) := by
  induction ds with
  | nil => rfl
  | cons d ds ih =>
    rw [warningsOf_cons, configsOf_cons, List.filter_append, List.filter_append, List.map_append,
      ih]
    congr 1
    rcases resolveDirective_cases r request b d with
      ⟨-, c, -, heq⟩ | ⟨-, warning, hskipped, heq⟩
    · rw [heq]
      by_cases htext : c.queryText = "" <;> simp [htext, Warning.isSkip]
    · rw [heq]
      simp [hskipped.isSkip]

end Lists

/-! ## The request as a whole -/

/-- A block resolves to the configurations and warnings of its semantic directives, and to nothing
if there are no configurations. -/
theorem resolve_of_block (hb : request.highlight? = some b) :
    ((r.resolve request).1 = none ↔ configsOf r request b b.semantic = []) ∧
      (r.resolve request).1.getD [] = configsOf r request b b.semantic ∧
      (r.resolve request).2 = warningsOf r request b b.semantic := by
  have heq : r.resolve request =
      (if (configsOf r request b b.semantic).isEmpty then none
        else some (configsOf r request b b.semantic), warningsOf r request b b.semantic) := by
    unfold resolve
    rw [hb]
    rfl
  rw [heq]
  cases configsOf r request b b.semantic with
  | nil => exact ⟨by simp, rfl, rfl⟩
  | cons c cs => exact ⟨by simp, rfl, rfl⟩

theorem resolve_of_no_block (hb : request.highlight? = none) : r.resolve request = (none, []) := by
  unfold resolve
  rw [hb]

/-- There are no configurations exactly if no directive has a usable model. -/
theorem configsOf_eq_nil_iff (r : Resolver) (request : Request) (b : Block)
    (ds : List Directive) :
    configsOf r request b ds = [] ↔ ∀ d ∈ ds, isUsable b d = false := by
  have hlength := (configsOf_forall₂ r request b ds).length_eq
  rw [← List.length_eq_zero_iff, ← hlength, List.length_eq_zero_iff, List.filter_eq_nil_iff]
  simp only [Bool.not_eq_true]

/-- What a plain request keeps of the directives. -/
theorem directives_plain (hb : request.highlight? = some b) :
    (request.plain.highlight?.map (·.directives)).getD [] =
      b.directives.filter (!b.isSemantic ·) := by
  rw [Request.highlight?_plain, hb]
  show (b.lexicalOnly.map (·.directives)).getD [] = b.lexical
  cases hlexical : b.lexicalOnly with
  | none => exact (Block.lexicalOnly_eq_none_iff.1 hlexical).symm
  | some b' =>
    obtain ⟨-, rfl⟩ := Block.lexicalOnly_eq_some_iff.1 hlexical
    rfl

/-- **Resolution walks the semantic directives.** Nothing resolves exactly if no semantic
directive has a usable model. Otherwise there is a configuration for each that has one, in
their order, with each part as it is looked up. For each of the others there is one warning
that it is skipped, in their order and with its field, so that every semantic directive has
the one or the other; the warnings besides are notes about configurations without a text. A
plain request keeps the directives that are neither, and a request without a block has
none of these. -/
theorem resolve_walk (r : Resolver) (request : Request) :
    ((r.resolve request).1 = none ↔
      ∀ b, request.highlight? = some b → ∀ d ∈ b.directives, b.isSemantic d = true →
        isUsable b d = false) ∧
    (∀ configs, (r.resolve request).1 = some configs → configs ≠ [] ∧
      ∃ b, request.highlight? = some b ∧ List.Forall₂ (Configured r request b)
        (b.directives.filter fun d => b.isSemantic d && isUsable b d) configs) ∧
    (∀ b, request.highlight? = some b →
      let configs := (r.resolve request).1.getD []
      let skips := (r.resolve request).2.filter Warning.isSkip
      List.Forall₂ (Skipped b)
        (b.directives.filter fun d => b.isSemantic d && !isUsable b d) skips ∧
      configs.length + skips.length = (b.directives.filter b.isSemantic).length ∧
      (r.resolve request).2.filter (!·.isSkip) =
        (configs.filter (·.queryText = "")).map (.noQueryText ·.field) ∧
      (request.plain.highlight?.map (·.directives)).getD [] =
        b.directives.filter (!b.isSemantic ·)) ∧
    (request.highlight? = none → r.resolve request = (none, [])) ∧
    ∀ warning : Warning, warning.isSkip = true →
      ∃ reason, warning.text =
        "[semantic-hl] skipping field '" ++ warning.field ++ "': " ++ reason := by
  -- the semantic directives that pass a test are those of the block that do both
  have hfilter : ∀ (b : Block) (p : Directive → Bool),
      b.directives.filter (fun d => b.isSemantic d && p d) = b.semantic.filter p := by
    intro b p
    unfold Block.semantic
    rw [List.filter_filter]
    congr 1
    funext d
    exact Bool.and_comm ..
  refine ⟨?_, fun configs hconfigs => ?_, fun b hb => ?_, resolve_of_no_block,
    fun warning => Warning.text_of_isSkip⟩
  · cases hb : request.highlight? with
    | none =>
      rw [resolve_of_no_block hb]
      constructor
      · intro _ b hb'
        cases hb'
      · intro _
        rfl
    | some b =>
      rw [(resolve_of_block hb).1, configsOf_eq_nil_iff]
      unfold Block.semantic
      constructor
      · intro hnone b' hb' d hd hsemantic
        cases hb'
        exact hnone d (List.mem_filter.2 ⟨hd, hsemantic⟩)
      · intro hnone d hd
        obtain ⟨hd, hsemantic⟩ := List.mem_filter.1 hd
        exact hnone b rfl d hd hsemantic
  · cases hb : request.highlight? with
    | none =>
      rw [resolve_of_no_block hb] at hconfigs
      cases hconfigs
    | some b =>
      obtain ⟨hnone, hgot, -⟩ := resolve_of_block (r := r) hb
      rw [hconfigs] at hnone hgot
      cases hgot
      refine ⟨fun hempty => ?_, b, rfl, ?_⟩
      · cases hnone.2 hempty
      · rw [hfilter b (isUsable b)]
        exact configsOf_forall₂ r request b b.semantic
  · obtain ⟨-, hgot, hwarned⟩ := resolve_of_block (r := r) hb
    have hconfigs := configsOf_forall₂ r request b b.semantic
    have hskips := skips_forall₂ r request b b.semantic
    dsimp only
    rw [hgot, hwarned, hfilter b fun d => !isUsable b d]
    refine ⟨hskips, ?_, notes_eq r request b b.semantic, directives_plain hb⟩
    rw [← hconfigs.length_eq, ← hskips.length_eq]
    exact (List.length_eq_length_filter_add (isUsable b)).symm

/-- A request without a query, whose directives hide what the block says: the first its option
for batches, though not its opening tags, and the second its model, which is usable. -/
def shadowed : Request :=
  { source := some {
      highlight := some { Block.empty with
        preTags := some ["<u>"]
        options := .ofEntries [(modelOption, .string "m"), (batchOption, .bool true)]
        directives := [
          { Directive.plain "a" with
            preTags := some [], postTags := some ["</b>", "</i>"]
            options := .ofEntries [(batchOption, .null)] },
          { Directive.plain "b" with options := .ofEntries [(modelOption, .null)] }] } } }

/-- What comes of it. -/
theorem resolve_walk_shadowed :
    ((Resolver.mk .builtin "<em>" "</em>").resolve shadowed).1 =
        some [⟨"a", "m", "", "<u>", "</b>", false⟩] ∧
      ∃ b, shadowed.highlight? = some b ∧
        List.Forall₂ (Configured (Resolver.mk .builtin "<em>" "</em>") shadowed b)
          (b.directives.filter fun d => b.isSemantic d && isUsable b d)
          [⟨"a", "m", "", "<u>", "</b>", false⟩] := by
  have hresolved : ((Resolver.mk .builtin "<em>" "</em>").resolve shadowed).1 =
      some [⟨"a", "m", "", "<u>", "</b>", false⟩] := by decide
  exact ⟨hresolved, ((resolve_walk _ shadowed).2.1 _ hresolved).2⟩

end Resolver

end SemanticHighlight
