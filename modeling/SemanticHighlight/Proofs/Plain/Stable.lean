import SemanticHighlight.Proofs.Plain.Projection
import SemanticHighlight.Proofs.Request.Directives

/-!
# Plain requests that were printed

A plain request that is printed and loaded again need not be the same request: clauses are
regrouped, and of two directives for a field one is lost. It is still plain
(`Request.plain_reread`). Whether a directive is semantic depends on its block but not on the
directives beside it, so losing some makes no other one semantic, and a block that lists
directives lists some after the loss, so it stays.

Main statement (`Request.split_of_printed`): what the split command prints is loaded as a request
without semantic directives, for which it prints the same again.
-/

namespace SemanticHighlight

namespace Block

variable {b b' : Block}

/-- Among the directives that are left none is new, so their block is read, too. -/
theorem IsRead.lexicalOnly (h : b.IsRead) (hlexical : b.lexicalOnly = some b') : b'.IsRead := by
  obtain ⟨-, rfl⟩ := lexicalOnly_eq_some_iff.1 hlexical
  exact ⟨h.options, fun d hd => h.directives d (mem_lexical.1 hd).1⟩

/-- A block that is left as it is has a directive for each field that is, too. -/
theorem lexicalOnly_perField (h : b.lexicalOnly = some b) :
    b.perField.lexicalOnly = some b.perField := by
  obtain ⟨hnone, hne⟩ := lexicalOnly_eq_some_self_iff.1 h
  refine lexicalOnly_eq_some_self_iff.2 ⟨hasSemantic_eq_false_iff.2 fun d hd => ?_, fun hnil => ?_⟩
  · exact hasSemantic_eq_false_iff.1 hnone d (Directive.mem_of_mem_perField hd)
  · exact hne (Directive.perField_eq_nil_iff.1 hnil)

end Block

namespace Request

variable {r : Request}

/-- The plain request of one that was read could have been read itself. -/
theorem IsRead.plain (h : r.IsRead) : r.plain.IsRead := by
  intro s' hs'
  obtain ⟨s, hs, rfl⟩ := Option.map_eq_some_iff.1 hs'
  refine { h s hs with highlight := fun b' hb' => ?_ }
  obtain ⟨b, hb, hlexical⟩ := Option.bind_eq_some_iff.1 hb'
  exact ((h s hs).highlight b hb).lexicalOnly hlexical

/-- A plain request has the numbers of the request. -/
theorem hasFiniteNumbers_plain (r : Request) : r.plain.hasFiniteNumbers = r.hasFiniteNumbers := by
  obtain ⟨_, _, _, _, _, source⟩ := r
  cases source <;> rfl

/-- A plain request is read back as a plain request. -/
theorem plain_reread (h : r.plain = r) : r.reread.plain = r.reread := by
  refine plain_eq_self_iff_lexicalOnly.2 fun b' hb' => ?_
  rw [highlight?_reread] at hb'
  obtain ⟨b, hb, rfl⟩ := Option.map_eq_some_iff.1 hb'
  exact Block.lexicalOnly_perField (plain_eq_self_iff_lexicalOnly.1 h b hb)

/-- **Splitting what was printed.** Of a request that was read and has finite numbers, also one
in which fields have several directives, the split command prints the plain request. That is
loaded as a request without semantic directives, which resolves to nothing, is plain, and for
which the command prints the same again. -/
theorem split_of_printed {v : Json} (hread : ofJson v = .ok r)
    (hfinite : r.hasFiniteNumbers = true) :
    ∃ back, ofJson r.plain.toJson = .ok back ∧ back.hasSemantic = false ∧
      (∀ resolver : Resolver, resolver.resolve back = (none, [])) ∧
      back.plain = back ∧ back.plain.toJson = r.plain.toJson ∧
      CommandLine.Command.splitReport back = .plain false r.plain.toJson := by
  have hback : ofJson r.plain.toJson = .ok r.plain.reread :=
    ofJson_toJson (isRead_of_ofJson hread).plain (hasFiniteNumbers_plain r ▸ hfinite)
  have hplain : r.plain.reread.plain = r.plain.reread := plain_reread (plain_plain r)
  have hnone : r.plain.reread.hasSemantic = false := by
    rw [← hplain]
    exact not_hasSemantic_plain _
  have hsame : r.plain.reread.plain.toJson = r.plain.toJson := by
    rw [hplain, toJson_reread]
  -- read back, the request is another one, but it is plain and is rendered as before
  refine ⟨r.plain.reread, hback, hnone, fun resolver => resolve_of_not_hasSemantic resolver hnone,
    hplain, hsame, ?_⟩
  unfold CommandLine.Command.splitReport
  rw [hnone, hsame]

/-- A request in which a field has a semantic directive between two lexical ones. -/
def interleaved : Json := listing [silent "b", asking "c", asking "b", silent "b", silent "a"]

/-- A block in array form, with a repeated field and a semantic directive between lexical ones. What
is printed once more is the same, although the repetition is gone. -/
theorem split_of_printed_interleaved :
    ∃ r back, ofJson interleaved = .ok r ∧
      r.hasFiniteNumbers = true ∧ r.hasSemantic = true ∧
      r.plain.directives.map (·.field) = ["b", "b", "a"] ∧
      ofJson r.plain.toJson = .ok back ∧ back.directives.map (·.field) = ["b", "a"] ∧
      back.hasSemantic = false ∧ back.plain.toJson = r.plain.toJson := by
  have h : (ofJson interleaved).toOption.map (fun r =>
      (r.hasFiniteNumbers, r.hasSemantic, r.plain.directives.map (·.field))) =
      some (true, true, ["b", "b", "a"]) := by
    decide +kernel
  have hagain : (ofJson interleaved >>= fun r => ofJson r.plain.toJson).toOption.map
      (·.directives.map (·.field)) = some ["b", "a"] := by
    decide +kernel
  obtain ⟨r, hread, heq⟩ := toOption_map_eq_some_iff.1 h
  obtain ⟨hfinite, hrest⟩ := Prod.mk.injEq .. ▸ heq
  obtain ⟨hsemantic, hnames⟩ := Prod.mk.injEq .. ▸ hrest
  rw [hread] at hagain
  obtain ⟨back, hback, hnone, -, -, hsame, -⟩ := split_of_printed hread hfinite
  obtain ⟨back', hback', hfields⟩ := toOption_map_eq_some_iff.1 hagain
  cases hback.symm.trans hback'
  exact ⟨r, back, hread, hfinite, hsemantic, hnames, hback, hfields, hnone, hsame⟩

end Request

end SemanticHighlight
