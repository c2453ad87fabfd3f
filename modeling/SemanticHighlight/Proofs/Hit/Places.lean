import SemanticHighlight.Proofs.Hit.RoundTrip

/-!
# Hits in their documents

A hit inside a hit is found by the name of its page and its position there, and so on inside that
(`Hit.at?`); in a document the same steps lead to the document of the hit (`Hit.document?`). Where
a hit was read from a value, at every place there is either nothing in both, or a hit and the
value that it was read from (`Hit.rel_document?`). So what the document says of a hit under an
unknown key is what the hit holds under it, at every depth (`Hit.get?_of_reads`).
-/

namespace SemanticHighlight

/-! ## Options and lists that are related -/

section Rel

variable {α β γ δ : Type} {R : α → β → Prop} {S : γ → δ → Prop}

/-- Going on from two places that correspond leads to places that correspond. -/
theorem rel_bind {x : Option α} {y : Option β} {f : α → Option γ} {g : β → Option δ}
    (h : Option.Rel R x y) (hfg : ∀ a b, R a b → Option.Rel S (f a) (g b)) :
    Option.Rel S (x.bind f) (y.bind g) := by
  cases h with
  | none => exact .none
  | some hab => exact hfg _ _ hab

theorem isSome_of_rel {x : Option α} {y : Option β} (h : Option.Rel R x y) :
    x.isSome = y.isSome := by
  cases h <;> rfl

/-- At each position of lists that correspond stand things that do. -/
theorem rel_getElem? {as : List α} {bs : List β} (h : List.Forall₂ R as bs) (i : Nat) :
    Option.Rel R as[i]? bs[i]? := by
  induction h generalizing i with
  | nil => exact .none
  | cons hab _ ih =>
    cases i with
    | zero => exact .some hab
    | succ i => exact ih i

/-- Under each key of members that correspond stand values that do. -/
theorem rel_member? {as : List (String × α)} {bs : List (String × β)}
    (h : List.Forall₂ (fun a b => a.1 = b.1 ∧ R a.2 b.2) as bs) (key : String) :
    Option.Rel R (Json.member? as key) (Json.member? bs key) := by
  induction h with
  | nil => exact .none
  | @cons a b _ _ hab _ ih =>
    rw [Json.member?_cons, Json.member?_cons, ← hab.1]
    by_cases hkey : a.1 = key
    · rw [if_pos hkey, if_pos hkey]
      exact .some hab.2
    · rw [if_neg hkey, if_neg hkey]
      exact ih

end Rel

namespace Json

variable {names : List String} {name : String} {j v : Json} {r : Record}

/-- What a document gives for a field of a record, as an object or as an array. -/
def given? (names : List String) (name : String) (j : Json) : Option Json :=
  (record names [] j).toOption.bind (member? · name)

theorem given?_of_record (h : record names [] j = .ok r) :
    given? names name j = member? r name := by
  unfold given?
  rw [h]
  rfl

/-- The fields of a value are values. -/
theorem isValue_of_record (hj : j.IsValue) (h : record names [] j = .ok r)
    (hv : member? r name = some v) : v.IsValue := by
  have hmem := mem_of_member? hv
  cases j with
  | object ms =>
    rw [eq_filter_of_declared h] at hmem
    exact (isValue_object_iff.1 hj).2 _ (List.mem_filter.1 hmem).1
  | array js =>
    unfold record at h
    dsimp only at h
    split at h
    · cases h
      exact isValue_array_iff.1 hj v (List.of_mem_zip hmem).2
    · cases h
  | null | bool | number | string | unreadable => cases h

end Json

/-- The documents of the hits of a page. -/
def Page.documents (j : Json) : List Json :=
  match Json.given? Page.parts "hits" j with
  | some (.array js) => js
  | _ => []

namespace Hit

variable {hit : Hit} {page : Page Hit} {j : Json} {key : String}

/-- The document at a place inside the document of a hit. A place is, for each depth, the name of
a page and a position there. -/
def document? : Json → List (String × Nat) → Option Json
  | j, [] => some j
  | j, (name, i) :: path =>
    (((j.get? "inner_hits").bind (Json.get? name)).bind fun page =>
      (Page.documents page)[i]?).bind (document? · path)

/-- The hit at a place inside a hit. -/
def at? : Hit → List (String × Nat) → Option Hit
  | h, [] => some h
  | h, (name, i) :: path =>
    ((Json.member? h.innerHits name).bind fun page => page.hits[i]?).bind (at? · path)

/-- Whether a hit was read from a value. -/
def Reads (j : Json) (h : Hit) : Prop := j.IsValue ∧ decode j = .ok h

/-- The hits of a page are read from the documents that the value of the page lists. -/
theorem forall₂_documents (hj : j.IsValue) (h : decodePage j = .ok page) :
    List.Forall₂ Reads (Page.documents j) page.hits := by
  obtain ⟨r, hr, -, -, hhits⟩ := decodePage_eq_ok_iff.1 h
  have hgiven : Json.given? Page.parts "hits" j = Json.member? r "hits" :=
    Json.given?_of_record hr
  unfold Page.documents
  rw [hgiven]
  unfold Json.Record.defaulted at hhits
  -- a page without hits has none in its document either
  cases hv : Json.member? r "hits" with
  | none =>
    rw [hv] at hhits
    rw [← Except.ok.inj hhits]
    exact .nil
  | some v =>
    rw [hv] at hhits
    have hvalue := Json.isValue_of_record hj hr hv
    cases v with
    | array js =>
      exact (List.forall₂_and_left _ _).2
        ⟨Json.isValue_array_iff.1 hvalue, Json.each_eq_ok_iff.1 hhits⟩
    | null | bool | number | string | object | unreadable => cases hhits

/-- The pages inside a hit are read from the documents under their names. -/
theorem rel_pages (h : Reads j hit) (name : String) :
    Option.Rel (fun j page => j.IsValue ∧ decodePage j = .ok page)
      ((j.get? "inner_hits").bind (Json.get? name)) (Json.member? hit.innerHits name) := by
  obtain ⟨hj, h⟩ := h
  cases j with
  | object ms =>
    obtain ⟨-, pages, hinner, hpages⟩ := decode_object_eq_ok_iff.1 h
    rw [hpages]
    show Option.Rel _ ((Json.member? ms "inner_hits").bind (Json.get? name)) _
    unfold Json.Record.defaulted at hinner
    -- without inner hits there are no pages on either side
    cases hv : Json.member? ms "inner_hits" with
    | none =>
      rw [hv] at hinner
      rw [← Except.ok.inj hinner]
      exact .none
    | some v =>
      rw [hv] at hinner
      have hvalue := (Json.isValue_object_iff.1 hj).2 _ (Json.mem_of_member? hv)
      obtain ⟨entries, hentries, heq⟩ := map_eq_ok_iff.1 hinner
      cases v with
      | object pages =>
        obtain ⟨hnodup, hvalues⟩ := Json.isValue_object_iff.1 hvalue
        have hkeys : (Json.keys entries).Nodup := Json.keys_of_eachMember hentries ▸ hnodup
        rw [← heq]
        show Option.Rel _ (Json.member? pages name) ((Dictionary.ofEntries entries).find? name)
        rw [Dictionary.find?_ofEntries hkeys]
        have hpages := (List.forall₂_and_left _ _).2 ⟨hvalues, Json.eachMember_eq_ok_iff.1 hentries⟩
        exact rel_member? (hpages.imp fun m entry ⟨hvalue, hkey, hpage⟩ =>
          ⟨hkey, hvalue, hpage⟩) name
      | null | bool | number | string | array | unreadable => cases hentries
  | null | bool | number | string | array | unreadable => cases h

/-- At every place there is a hit and the value that it was read from, or nothing. -/
theorem rel_document? (h : Reads j hit) (path : List (String × Nat)) :
    Option.Rel Reads (document? j path) (hit.at? path) := by
  induction path generalizing j hit with
  | nil => exact .some h
  | cons step path ih =>
    obtain ⟨name, i⟩ := step
    refine rel_bind (rel_bind (rel_pages h name) fun j page hpage => ?_) fun j hit h => ih h
    exact rel_getElem? (forall₂_documents hpage.1 hpage.2) i

/-- Under an unknown key a hit holds what the value that it was read from says. -/
theorem get?_of_reads (h : Reads j hit) (hkey : key ∉ HitData.known) :
    j.get? key = hit.data.others.find? key := by
  obtain ⟨hj, h⟩ := h
  cases j with
  | object ms =>
    obtain ⟨hdata, -⟩ := decode_object_eq_ok_iff.1 h
    obtain ⟨-, entries, hentries, hothers⟩ := HitData.of_decode hdata
    obtain ⟨hnodup, hvalues⟩ := Json.isValue_object_iff.1 hj
    -- the members of a value are read as they are
    have hsame : entries = ms.filter (·.1 ∉ HitData.known) := by
      have hread := Json.eachMember_values fun m (hm : m ∈ ms.filter (·.1 ∉ HitData.known)) =>
        hvalues m (List.mem_filter.1 hm).1
      exact Except.ok.inj (hentries.symm.trans hread)
    have hkeys : (Json.keys (ms.filter (·.1 ∉ HitData.known))).Nodup :=
      hnodup.sublist (List.filter_sublist.map _)
    rw [hothers, hsame, Dictionary.find?_ofEntries hkeys]
    exact (Json.member?_filter (p := fun key => key ∉ HitData.known) (decide_eq_true hkey)).symm
  | null | bool | number | string | array | unreadable => cases h

end Hit

end SemanticHighlight
