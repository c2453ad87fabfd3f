import SemanticHighlight.Proofs.Plain.Projection
import SemanticHighlight.Proofs.Query.TextKept
import SemanticHighlight.Proofs.Request.RoundTrip

/-!
# Directives in rendered requests

Directives are a list, but a rendered request holds them as the members of a value, and a value
has one member for a key. So when a field has two directives, which the reader admits in both
forms, rendering drops the first, without a word. What remains resolves to the same, since the
query that is read back has the same texts (`Resolver.resolve_reread`).

Main statement (`Request.directives_of_rendered`): which directives are read back, and that they
are all of them exactly if no field has two. `Request.semantic_directive_lost` is a request that is
read back without its one semantic directive.
-/

namespace SemanticHighlight

namespace Request

variable {r : Request}

/-- The request with one directive for each field. -/
def perField (r : Request) : Request := r.withHighlight (r.highlight?.map Block.perField)

theorem highlight?_perField (r : Request) :
    r.perField.highlight? = r.highlight?.map Block.perField := by
  obtain ⟨_, _, _, _, _, source⟩ := r
  cases source <;> rfl

theorem directives_reread (r : Request) :
    r.reread.directives = Directive.perField r.directives := by
  unfold directives
  rw [highlight?_reread]
  cases r.highlight? <;> rfl

theorem perField_eq_self (h : (r.directives.map (·.field)).Nodup) : r.perField = r := by
  unfold perField
  rw [map_perField_highlight? h, withHighlight_highlight?]

theorem expressible_query (h : r.IsRead) : ∀ q, r.query? = some q → q.Expressible := by
  intro q hq
  obtain ⟨s, hs, hq⟩ := Option.bind_eq_some_iff.1 hq
  exact (h s hs).query q hq

end Request

namespace Resolver

variable {resolver : Resolver} {r : Request}

/-- A request is read back with the texts that its query holds. -/
theorem queryText_reread (hbuiltin : resolver.registry = .builtin) (h : r.IsRead) (field : String) :
    resolver.queryText r.reread field = resolver.queryText r field := by
  unfold queryText
  rw [hbuiltin, Request.query?_reread]
  cases hq : r.query? with
  | none => rfl
  | some q =>
    have htext := Query.extract_reread q field
    unfold Query.reread at htext
    rw [(Request.expressible_query h q hq).expressed_eq] at htext
    exact congrArg (Option.getD · "") htext

/-- What is read back resolves as the request with one directive for each field. -/
theorem resolve_reread (hbuiltin : resolver.registry = .builtin) (h : r.IsRead) :
    resolver.resolve r.reread = resolver.resolve r.perField := by
  have hdirective : ∀ b d,
      resolver.resolveDirective r.reread b d = resolver.resolveDirective r.perField b d := by
    intro b d
    -- of the request itself a configuration takes the text of its query only
    have htext : resolver.queryText r.reread d.field = resolver.queryText r.perField d.field := by
      rw [queryText_reread hbuiltin h]
      unfold queryText Request.perField
      rw [Request.query?_withHighlight]
    unfold resolveDirective
    rw [htext]
  unfold resolve
  rw [Request.highlight?_reread, Request.highlight?_perField]
  cases r.highlight?.map Block.perField with
  | none => rfl
  | some b =>
    dsimp only
    rw [List.map_congr_left fun d _ => hdirective b d]

end Resolver

namespace Request

variable {r : Request}

/-- **The directives of a rendered request.** A request that was read and has finite numbers is
rendered as a value that is read as a request. Its fields are those of the request, each in the
place where it stands first, and its directive for a field is the last one for it. So it has the
same directives exactly if no field has two of them; then it has a semantic directive exactly if
the request has one, and it resolves to the same under all settings. -/
theorem directives_of_rendered {v : Json} (hread : ofJson v = .ok r)
    (hfinite : r.hasFiniteNumbers = true) :
    ∃ back, ofJson r.toJson = .ok back ∧
      back.directives.map (·.field) = (r.directives.map (·.field)).eraseDups ∧
      (∀ d, d ∈ back.directives ↔ r.directives.reverse.find? (·.field = d.field) = some d) ∧
      (back.directives = r.directives ↔ (r.directives.map (·.field)).Nodup) ∧
      ((r.directives.map (·.field)).Nodup → back.hasSemantic = r.hasSemantic ∧
        ∀ settings, (Resolver.ofSettings .builtin settings).resolve back =
          (Resolver.ofSettings .builtin settings).resolve r) := by
  -- what is read back is the request with one directive for each field
  have hisRead := isRead_of_ofJson hread
  refine ⟨r.reread, ofJson_toJson hisRead hfinite, ?_, fun d => ?_, ?_, fun hnodup => ⟨?_, ?_⟩⟩
  · rw [directives_reread, Directive.fields_perField]
  · rw [directives_reread, Directive.mem_perField_iff]
  · rw [directives_reread, Directive.perField_eq_self_iff]
  · unfold hasSemantic
    rw [highlight?_reread, ← highlight?_perField, perField_eq_self hnodup]
  · intro settings
    rw [Resolver.resolve_reread rfl hisRead, perField_eq_self hnodup]

/-- A request with the given directives, in an array, and a query whose clauses are regrouped. -/
def listing (fields : List Json) : Json :=
  let object (key : String) (j : Json) : Json := .object [(key, j)]
  object "source" (.object
    [("query", object "bool" (.object
      [("should", object "term" (object "b" (.string "s"))),
       ("must", object "term" (object "b" (.string "m")))])),
     ("highlight", object "fields" (.array fields))])

/-- A directive that names a model, and one that says nothing. -/
def asking (field : String) : Json :=
  .object [(field, .object [("options", .object [("model_id", .string "model")])])]

def silent (field : String) : Json := .object [(field, .object [])]

/-- A block in array form without repetition keeps its directives, in the order in which they were
listed. -/
theorem directives_of_rendered_listing :
    ∃ r back, ofJson (listing [silent "c", asking "b"]) = .ok r ∧ r.hasFiniteNumbers = true ∧
      ofJson r.toJson = .ok back ∧ back.directives = r.directives ∧
      back.hasSemantic = true ∧ ((Resolver.ofSettings .builtin {}).resolve back).1 =
        some [⟨"b", "model", "m", "<em>", "</em>", false⟩] := by
  have h : (ofJson (listing [silent "c", asking "b"])).toOption.map (fun r =>
      (r.hasFiniteNumbers, r.directives.map (·.field), r.hasSemantic,
        ((Resolver.ofSettings .builtin {}).resolve r).1)) =
      some (true, ["c", "b"], true, some [⟨"b", "model", "m", "<em>", "</em>", false⟩]) := by
    decide +kernel
  obtain ⟨r, hread, heq⟩ := toOption_map_eq_some_iff.1 h
  obtain ⟨hfinite, hrest⟩ := Prod.mk.injEq .. ▸ heq
  obtain ⟨hnames, hrest⟩ := Prod.mk.injEq .. ▸ hrest
  obtain ⟨hsemantic, hconfigs⟩ := Prod.mk.injEq .. ▸ hrest
  obtain ⟨back, hback, -, -, hall, hsame⟩ := directives_of_rendered hread hfinite
  -- no field is repeated, so the array form keeps them all
  have hnodup : (r.directives.map (·.field)).Nodup := by
    rw [hnames]
    decide
  obtain ⟨hkept, hresolve⟩ := hsame hnodup
  refine ⟨r, back, hread, hfinite, hback, hall.2 hnodup, hkept.trans hsemantic, ?_⟩
  rw [hresolve, hconfigs]

/-- A field with two directives, of which the first is for a model and the last is not: what is
read back has no semantic directive any more, and nothing resolves for it. -/
theorem semantic_directive_lost :
    ∃ r back, ofJson (listing [asking "b", silent "b"]) = .ok r ∧ r.hasFiniteNumbers = true ∧
      ofJson r.toJson = .ok back ∧ back.directives ≠ r.directives ∧
      r.hasSemantic = true ∧ back.hasSemantic = false ∧
      ((Resolver.ofSettings .builtin {}).resolve r).1 =
        some [⟨"b", "model", "m", "<em>", "</em>", false⟩] ∧
      ((Resolver.ofSettings .builtin {}).resolve back).1 = none := by
  have h : (ofJson (listing [asking "b", silent "b"])).toOption.map (fun r =>
      (r.hasFiniteNumbers, r.directives.map (·.field), r.hasSemantic,
        ((Resolver.ofSettings .builtin {}).resolve r).1)) =
      some (true, ["b", "b"], true, some [⟨"b", "model", "m", "<em>", "</em>", false⟩]) := by
    decide +kernel
  -- the later directive for the field is the one that is printed
  have hagain : (ofJson (listing [asking "b", silent "b"]) >>= fun r =>
      ofJson r.toJson).toOption.map (fun back =>
        (back.directives.map (·.field), back.hasSemantic,
          ((Resolver.ofSettings .builtin {}).resolve back).1)) =
      some (["b"], false, none) := by
    decide +kernel
  obtain ⟨r, hread, heq⟩ := toOption_map_eq_some_iff.1 h
  obtain ⟨hfinite, hrest⟩ := Prod.mk.injEq .. ▸ heq
  obtain ⟨hnames, hrest⟩ := Prod.mk.injEq .. ▸ hrest
  obtain ⟨hsemantic, hconfigs⟩ := Prod.mk.injEq .. ▸ hrest
  rw [hread] at hagain
  obtain ⟨back, hback, heq⟩ := toOption_map_eq_some_iff.1 hagain
  obtain ⟨hfewer, hrest⟩ := Prod.mk.injEq .. ▸ heq
  obtain ⟨hnone, hnothing⟩ := Prod.mk.injEq .. ▸ hrest
  refine ⟨r, back, hread, hfinite, hback, fun hsame => ?_, hsemantic, hnone, hconfigs, hnothing⟩
  rw [hsame, hnames] at hfewer
  exact absurd hfewer (by decide)

end Request

end SemanticHighlight
