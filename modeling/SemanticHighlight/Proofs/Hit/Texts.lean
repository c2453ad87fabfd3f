import SemanticHighlight.Hit
import SemanticHighlight.Proofs.Json.Fields

/-!
# The text of a field

A path that is written as keys with dots between them is split into these keys again, whatever
they are as long as none has a dot in it, so `HitData.segments` is the inverse of joining
(`segments_intercalate`). `Below` is descending through objects by itself, and `IsText` says
which values have a text.

Main statement (`sourceText?_path`): the text of a field is that of the value whose key is
spelled like the path, if there is one, and else that of the value below the keys; and there is
no text when the descent comes to a value that has no member of the next key.
-/

namespace SemanticHighlight.HitData

/-! ## What a path leads to -/

/-- The value below another along keys, each of which is one of a member. -/
inductive Below : Json → List String → Json → Prop
  | here (v : Json) : Below v [] v
  | step {j next v : Json} {key : String} {keys : List String} (h : j.get? key = some next)
      (hv : Below next keys v) : Below j (key :: keys) v

/-- The values that have a text, and the text of each: a string, and a list of strings and
nothing else, at least one. -/
inductive IsText : Json → String → Prop
  | string (s : String) : IsText (.string s) s
  | strings (ss : List String) (h : ss ≠ []) :
      IsText (.array (ss.map .string)) (" ".intercalate ss)

variable {j v w : Json} {key : String} {keys front back : List String}

theorem descend_cons (j : Json) (key : String) (keys : List String) :
    descend j (key :: keys) = (j.get? key).bind (descend · keys) := by
  cases j <;> rfl

/-- Going down a path finds what stands below it, member by member. -/
theorem descend_eq_some_iff : descend j keys = some v ↔ Below j keys v := by
  constructor
  · intro h
    -- on the path, from whatever document it starts
    induction keys generalizing j with
    | nil =>
      unfold descend at h
      cases h
      exact .here v
    | cons key keys ih =>
      rw [descend_cons] at h
      obtain ⟨next, hnext, h⟩ := Option.bind_eq_some_iff.1 h
      exact .step hnext (ih h)
  · intro h
    induction h with
    | here v => unfold descend; rfl
    | step hnext _ ih =>
      rw [descend_cons, hnext]
      exact ih

/-- Nothing is below a value along keys of which one is missing. -/
theorem descend_eq_none (hw : Below j front w) (hkey : w.get? key = none) :
    descend j (front ++ key :: back) = none := by
  induction hw with
  | here v =>
    rw [List.nil_append, descend_cons, hkey]
    rfl
  | step hnext _ ih =>
    rw [List.cons_append, descend_cons, hnext]
    exact ih hkey

/-- A descent comes to a value, or to one that has no member of the next key. -/
theorem below_or_lacks (j : Json) (keys : List String) :
    (∃ v, Below j keys v) ∨
      ∃ front key back w, keys = front ++ key :: back ∧ Below j front w ∧ w.get? key = none := by
  induction keys generalizing j with
  | nil => exact .inl ⟨j, .here j⟩
  | cons key keys ih =>
    cases hnext : j.get? key with
    | none => exact .inr ⟨[], key, keys, j, rfl, .here j, hnext⟩
    | some next =>
      rcases ih next with ⟨v, hv⟩ | ⟨front, key', back, w, rfl, hw, hlacks⟩
      · exact .inl ⟨v, .step hnext hv⟩
      · exact .inr ⟨key :: front, key', back, w, rfl, .step hnext hw, hlacks⟩

/-! ## Paths are split where they were joined -/

/-- The segments of a path are what stands between its dots, the empty ones included. -/
theorem segments_eq_splitOn (cs : List Char) : segments cs = cs.splitOn '.' := by
  unfold List.splitOn
  induction cs with
  | nil => rfl
  | cons c cs ih =>
    unfold segments
    rw [List.splitOnP_cons_eq_if_modifyHead, ih]
    by_cases hc : c = '.'
    · rw [if_pos hc, if_pos (beq_iff_eq.2 hc)]
    · rw [if_neg hc, if_neg fun h => hc (beq_iff_eq.1 h)]
      -- a split has a first part, and the character goes in front of it
      cases hparts : cs.splitOnP (· == '.') with
      | nil => exact absurd hparts (List.splitOnP_ne_nil _ _)
      | cons s ss => rfl

/-- Keys without dots, joined by dots and split again. -/
theorem segments_intercalate (hkeys : keys ≠ []) (hdots : ∀ key ∈ keys, '.' ∉ key.toList) :
    (segments (".".intercalate keys).toList).map String.ofList = keys := by
  have hsplit : segments (".".intercalate keys).toList = keys.map String.toList := by
    rw [segments_eq_splitOn, String.toList_intercalate]
    refine List.splitOn_intercalate '.' ?_ ?_
    · intro cs hcs
      obtain ⟨key, hkey, rfl⟩ := List.mem_map.1 hcs
      exact hdots key hkey
    · exact fun h => hkeys (List.map_eq_nil_iff.1 h)
  rw [hsplit, List.map_map]
  refine (List.map_congr_left fun key _ => ?_).trans (List.map_id keys)
  exact String.ofList_toList

/-! ## Texts of values -/

/-- A list of texts is one in which everything is a text. -/
theorem strings?_eq_some_iff {js : List Json} {ss : List String} :
    strings? js = some ss ↔ js = ss.map .string := by
  induction js generalizing ss with
  | nil =>
    unfold strings?
    rw [Option.some.injEq, eq_comm, eq_comm (a := ([] : List Json)), List.map_eq_nil_iff]
  | cons j js ih =>
    constructor
    · intro h
      cases j with
      | string s =>
        obtain ⟨rest, hrest, rfl⟩ := Option.map_eq_some_iff.1 h
        rw [ih.1 hrest, List.map_cons]
      | null | bool | number | array | object | unreadable => cases h
    · intro h
      obtain ⟨s, rest, rfl, rfl, rfl⟩ := List.map_eq_cons_iff.1 h.symm
      exact Option.map_eq_some_iff.2 ⟨rest, ih.2 rfl, rfl⟩

/-- A value has a text exactly if it is one, or a list of texts, which are then joined by blanks. -/
theorem textOf_eq_some_iff {t : String} : textOf v = some t ↔ IsText v t := by
  constructor
  · intro h
    cases v with
    | string =>
      cases h
      exact .string t
    | array js =>
      -- a list without texts has none to join
      cases js with
      | nil => cases h
      | cons j js =>
        obtain ⟨ss, hss, rfl⟩ := Option.map_eq_some_iff.1 h
        have hjs := strings?_eq_some_iff.1 hss
        rw [hjs]
        refine .strings ss ?_
        rintro rfl
        cases hjs
    | null | bool | number | object | unreadable => cases h
  · intro h
    cases h with
    | string s => rfl
    | strings ss hss =>
      cases ss with
      | nil => exact absurd rfl hss
      | cons s ss => exact Option.map_eq_some_iff.2 ⟨s :: ss, strings?_eq_some_iff.2 rfl, rfl⟩

/-! ## Fields -/

section Fields

variable {h : HitData} {members : List (String × Json)}

/-- A field that stands in the source under its whole path is read there, and nowhere else. -/
theorem sourceText?_of_member (hsource : h.source = some members) {path : String}
    (hv : Json.member? members path = some v) : h.sourceText? path = textOf v := by
  unfold sourceText?
  rw [hsource, Option.bind_eq_bind, Option.bind_some, hv]
  rfl

/-- Otherwise the path is gone down, segment by segment. -/
theorem sourceText?_of_not_member (hsource : h.source = some members) (hkeys : keys ≠ [])
    (hdots : ∀ key ∈ keys, '.' ∉ key.toList)
    (hnone : Json.member? members (".".intercalate keys) = none) :
    h.sourceText? (".".intercalate keys) = (descend (.object members) keys).bind textOf := by
  unfold sourceText?
  rw [hsource, Option.bind_eq_bind, Option.bind_some, hnone]
  dsimp only
  rw [segments_intercalate hkeys hdots]
  rfl

/-- **The text of the field that a path leads to.** The path is keys without dots, joined by
dots. A member of the document whose key is spelled like the whole path decides alone. Without
one, the value below the document along the keys decides, and there is either such a value or a
place on the way whose value has no member of the next key; then there is no text. The value
that decides has the text it is, if it is a string, its items joined by blanks, if it is an array
of strings and not empty, and no text otherwise. -/
theorem sourceText?_path (hsource : h.source = some members) (hkeys : keys ≠ [])
    (hdots : ∀ key ∈ keys, '.' ∉ key.toList) :
    (∀ v, Json.member? members (".".intercalate keys) = some v →
      ∀ t, h.sourceText? (".".intercalate keys) = some t ↔ IsText v t) ∧
    (Json.member? members (".".intercalate keys) = none →
      ((∃ v, Below (.object members) keys v) ∨
        ∃ front key back w, keys = front ++ key :: back ∧ Below (.object members) front w ∧
          w.get? key = none) ∧
      (∀ v, Below (.object members) keys v →
        ∀ t, h.sourceText? (".".intercalate keys) = some t ↔ IsText v t) ∧
      ∀ front key back w, keys = front ++ key :: back → Below (.object members) front w →
        w.get? key = none → h.sourceText? (".".intercalate keys) = none) := by
  constructor
  · intro v hv t
    rw [sourceText?_of_member hsource hv]
    exact textOf_eq_some_iff
  · intro hnone
    -- no key is spelled like the path, so it is gone down
    have htext := sourceText?_of_not_member hsource hkeys hdots hnone
    refine ⟨below_or_lacks _ keys, ?_, ?_⟩
    · intro v hv t
      rw [htext, descend_eq_some_iff.2 hv]
      exact textOf_eq_some_iff
    · rintro front key back w rfl hw hlacks
      rw [htext, descend_eq_none hw hlacks]
      rfl

/-- A document with a text some objects down, the second under the empty key, and with two
candidates for one path: a key that is spelled like it, and a nested one. -/
def layered : List (String × Json) :=
  [("meta", .object
    [("", .object [("notes", .array [.string "first", .string "second"])]),
     ("title", .string "nested")]),
   ("meta.title", .string "literal")]

/-- A list of texts below an empty segment, a key that is spelled like the path and goes before the
nested one, and a path that comes to its end at a text too early. -/
theorem sourceText?_path_layered :
    ({ source := some layered } : HitData).sourceText? "meta..notes" = some "first second" ∧
      ({ source := some layered } : HitData).sourceText? "meta.title" = some "literal" ∧
      ({ source := some layered } : HitData).sourceText? "meta.title.x" = none := by
  have hnested := (@sourceText?_path ["meta", "", "notes"] { source := some layered } _ rfl
    (by decide) (by decide)).2 (by decide)
  have hliteral := (@sourceText?_path ["meta", "title"] { source := some layered } _ rfl
    (by decide) (by decide)).1 _ rfl
  have hlacking := (@sourceText?_path ["meta", "title", "x"] { source := some layered } _ rfl
    (by decide) (by decide)).2 (by decide)
  refine ⟨?_, ?_, ?_⟩
  · have hbelow : Below (.object layered) ["meta", "", "notes"] _ :=
      .step rfl (.step rfl (.step rfl (.here _)))
    exact (hnested.2.1 _ hbelow _).2 (.strings ["first", "second"] (by decide))
  · exact (hliteral _).2 (.string "literal")
  · have hbelow : Below (.object layered) ["meta", "title"] _ := .step rfl (.step rfl (.here _))
    exact hlacking.2.2 ["meta", "title"] "x" [] _ rfl hbelow rfl

end Fields

end SemanticHighlight.HitData
