import SemanticHighlight.Proofs.Hit.Shape

/-!
# Hits are read back

A hit is written as an object in which its unknown members stand between known ones. No unknown
member has a known key (`HitData.IsRead.unknown`), so among the members the known ones are the
fields that were written (`HitData.filter_known`) and the others the unknown members
(`HitData.filter_unknown`): neither is mistaken for the other. From this, by induction over the
pages inside, a hit that was read and has finite scores is read back (`Hit.decode_toJson`).
-/

namespace SemanticHighlight

open Numeric

namespace HitData

variable {h : HitData} {ms : List (String × Json)} {number : Single → Json}
  {innerHits : List (String × Json)}

/-! ## Known and unknown members -/

/-- The known members of a hit. -/
def fields (number : Single → Json) (h : HitData) (innerHits : List (String × Json)) :
    List (String × Option Json) :=
  h.leading number ++ h.trailing innerHits

theorem nodup_known : known.Nodup := by decide

/-- The members of a hit as they are written. -/
def members (number : Single → Json) (h : HitData) (innerHits : List (String × Json)) :
    List (String × Json) :=
  Json.present (h.leading number) ++ h.others.entries ++ Json.present (h.trailing innerHits)

/-- What holds of the data of a hit that was read. -/
structure IsRead (h : HitData) : Prop where
  docId : h.docId = 0
  source : ∀ ms, h.source = some ms → (Json.object ms).IsValue
  documentFields : ∀ entry ∈ h.documentFields.entries, ∀ v ∈ entry.2, v.IsValue
  others : h.others.HoldsValues
  unknown : ∀ key ∈ Json.keys h.others.entries, key ∉ known
  explanation : Json.IsOptionalValue h.explanation
  sort : ∀ v ∈ h.sort, v.IsValue

/-- What is read from the members of a hit, and where its unknown members come from. -/
theorem of_decode (hread : decode ms = .ok h) : h.IsRead ∧ ∃ entries,
    Json.Decode.eachMember Json.Decode.value (ms.filter (·.1 ∉ known)) = .ok entries ∧
      h.others = Dictionary.ofEntries entries := by
  unfold decode at hread
  obtain ⟨r, -, hread⟩ := bind_eq_ok_iff.1 hread
  obtain ⟨index, -, hread⟩ := bind_eq_ok_iff.1 hread
  obtain ⟨id, -, hread⟩ := bind_eq_ok_iff.1 hread
  obtain ⟨score, -, hread⟩ := bind_eq_ok_iff.1 hread
  obtain ⟨version, -, hread⟩ := bind_eq_ok_iff.1 hread
  obtain ⟨seqNo, -, hread⟩ := bind_eq_ok_iff.1 hread
  obtain ⟨primaryTerm, -, hread⟩ := bind_eq_ok_iff.1 hread
  obtain ⟨source, hsource, hread⟩ := bind_eq_ok_iff.1 hread
  obtain ⟨documentFields, hfields, hread⟩ := bind_eq_ok_iff.1 hread
  obtain ⟨others, hothers, hread⟩ := bind_eq_ok_iff.1 hread
  obtain ⟨highlight, -, hread⟩ := bind_eq_ok_iff.1 hread
  obtain ⟨matchedQueries, -, hread⟩ := bind_eq_ok_iff.1 hread
  obtain ⟨explanation, hexplanation, hread⟩ := bind_eq_ok_iff.1 hread
  obtain ⟨shard, -, hread⟩ := bind_eq_ok_iff.1 hread
  obtain ⟨sort, hsort, hread⟩ := bind_eq_ok_iff.1 hread
  cases hread
  -- the unknown members are the ones whose keys the filter let through
  have hentry : ∀ entry ∈ (Dictionary.ofEntries others).entries,
      entry.2.IsValue ∧ entry.1 ∉ known := by
    intro entry hentry
    obtain ⟨m, hm, hkey, hvalue⟩ := Json.exists_of_forall₂ (Json.eachMember_eq_ok_iff.1 hothers)
      entry (Dictionary.mem_of_mem_ofEntries hentry)
    refine ⟨Json.isValue_of_value hvalue, ?_⟩
    rw [← hkey]
    exact of_decide_eq_true (List.mem_filter.1 hm).2
  refine ⟨?_, others, hothers, rfl⟩
  exact {
    docId := rfl
    source := fun ms hms => by
      obtain ⟨j, -, hj⟩ := Json.Record.of_optional hsource ms hms
      exact Json.isValue_of_value (Json.object_eq_ok_iff.1 hj)
    documentFields := fun entry hentry => by
      obtain ⟨j, hj⟩ := Dictionary.exists_of_defaulted hfields entry hentry
      exact Json.isValue_of_list hj
    others := fun entry h => (hentry entry h).1
    unknown := fun key hkey => by
      obtain ⟨entry, hmem, rfl⟩ := List.mem_map.1 hkey
      exact (hentry entry hmem).2
    explanation := Json.Record.isOptionalValue_of_optional hexplanation
    sort := Json.Record.isValue_of_defaulted hsort }

theorem mem_known_of_mem_leading {m : String × Json} (hm : m ∈ Json.present (h.leading number)) :
    m.1 ∈ known := by
  have hkey := (Json.keys_present_sublist (h.leading number)).subset (Json.mem_keys_of_mem hm)
  exact List.mem_append_left _ hkey

theorem mem_known_of_mem_trailing {m : String × Json}
    (hm : m ∈ Json.present (h.trailing innerHits)) : m.1 ∈ known := by
  have hkey := (Json.keys_present_sublist (h.trailing innerHits)).subset (Json.mem_keys_of_mem hm)
  exact List.mem_append_right (Json.keys (h.leading .ofSingle)) hkey

/-- No unknown member is taken for a known one. -/
theorem filter_known (hread : h.IsRead) :
    (h.members number innerHits).filter (·.1 ∈ known) =
      Json.present (h.fields number innerHits) := by
  have hothers : h.others.entries.filter (·.1 ∈ known) = [] := by
    refine List.filter_eq_nil_iff.2 fun m hm => ?_
    simpa using hread.unknown m.1 (Json.mem_keys_of_mem hm)
  unfold members fields
  rw [List.filter_append, List.filter_append, hothers, List.append_nil, Json.present_append]
  rw [List.filter_eq_self.2 fun m hm => decide_eq_true (mem_known_of_mem_leading hm),
    List.filter_eq_self.2 fun m hm => decide_eq_true (mem_known_of_mem_trailing hm)]

/-- No known member is taken for an unknown one. -/
theorem filter_unknown (hread : h.IsRead) :
    (h.members number innerHits).filter (·.1 ∉ known) = h.others.entries := by
  have hleading : (Json.present (h.leading number)).filter (·.1 ∉ known) = [] := by
    refine List.filter_eq_nil_iff.2 fun m hm => ?_
    simpa using mem_known_of_mem_leading hm
  have htrailing : (Json.present (h.trailing innerHits)).filter (·.1 ∉ known) = [] := by
    refine List.filter_eq_nil_iff.2 fun m hm => ?_
    simpa using mem_known_of_mem_trailing hm
  unfold members
  rw [List.filter_append, List.filter_append, hleading, htrailing, List.nil_append,
    List.append_nil]
  exact List.filter_eq_self.2 fun m hm =>
    decide_eq_true (hread.unknown m.1 (Json.mem_keys_of_mem hm))

/-- Among the members that are written, each known one is found under its name. -/
theorem holds_members (hread : h.IsRead) :
    Json.Record.Holds (h.members number innerHits) (h.fields number innerHits) := by
  intro field hfield
  have hname : field.1 ∈ known := Json.mem_keys_of_mem hfield
  have hnodup : (Json.keys (h.fields number innerHits)).Nodup := nodup_known
  have hfound : Json.member? ((h.members number innerHits).filter (·.1 ∈ known)) field.1 =
      Json.member? (h.members number innerHits) field.1 :=
    Json.member?_filter (p := fun key => key ∈ known) (decide_eq_true hname)
  rw [← hfound, filter_known hread]
  exact Json.holds_present hnodup field hfield

/-! ## Reading what was written -/

/-- What a hit says of itself is read back from its members. -/
theorem decode_members (hread : h.IsRead) (hscore : ∀ x, h.score = some x → x.isFinite = true) :
    decode (h.members .ofSingle innerHits) = .ok h := by
  have hnodup : (Json.keys (h.fields .ofSingle innerHits)).Nodup := nodup_known
  have hr := Json.holds_present hnodup
  have hdeclared : Json.Record.declared known [] (h.members .ofSingle innerHits) =
      .ok (Json.present (h.fields .ofSingle innerHits)) := by
    rw [← filter_known hread]
    refine Json.declared_eq_filter (fun _ _ => rfl) ?_
    rw [filter_known hread]
    exact hnodup.sublist (Json.keys_present_sublist _)
  have hothers : Json.Decode.eachMember Json.Decode.value
      ((h.members .ofSingle innerHits).filter (·.1 ∉ known)) = .ok h.others.entries := by
    rw [filter_unknown hread]
    exact Json.eachMember_values hread.others
  unfold decode
  refine bind_eq_ok_iff.2 ⟨_, hdeclared, ?_⟩
  refine bind_eq_ok_iff.2 ⟨_, hr.given_at 0 rfl (Json.readsBack_text _).read, ?_⟩
  refine bind_eq_ok_iff.2 ⟨_, hr.given_at 1 rfl (Json.readsBack_text _).read, ?_⟩
  refine bind_eq_ok_iff.2 ⟨_, hr.single_at 2 rfl hscore, ?_⟩
  refine bind_eq_ok_iff.2 ⟨_, hr.optional_at 3 rfl fun n _ => Json.readsBack_int64 n, ?_⟩
  refine bind_eq_ok_iff.2 ⟨_, hr.optional_at 4 rfl fun n _ => Json.readsBack_int64 n, ?_⟩
  refine bind_eq_ok_iff.2 ⟨_, hr.optional_at 5 rfl fun n _ => Json.readsBack_int64 n, ?_⟩
  refine bind_eq_ok_iff.2 ⟨_, hr.optional_at 6 rfl fun ms hms =>
    Json.readsBack_object (hread.source ms hms), ?_⟩
  refine bind_eq_ok_iff.2 ⟨_, Dictionary.defaulted_at hr 7 rfl
    fun entry hentry => Json.list_values (hread.documentFields entry hentry), ?_⟩
  refine bind_eq_ok_iff.2 ⟨_, hothers, ?_⟩
  refine bind_eq_ok_iff.2 ⟨_, Dictionary.defaulted_at hr 8 rfl
    fun entry _ => (Json.readsBack_strings entry.2).read, ?_⟩
  refine bind_eq_ok_iff.2 ⟨_, hr.list_at 9 rfl (Json.readsBack_strings _).read, ?_⟩
  refine bind_eq_ok_iff.2 ⟨_, hr.value_at 10 rfl hread.explanation, ?_⟩
  refine bind_eq_ok_iff.2 ⟨_, hr.optional_at 11 rfl fun s _ => Json.readsBack_text s, ?_⟩
  -- the inner hits, in between, are no part of the data
  refine bind_eq_ok_iff.2 ⟨_, hr.list_at 13 rfl (Json.list_values hread.sort), ?_⟩
  show Except.ok { h with docId := 0, others := Dictionary.ofEntries h.others.entries } = _
  rw [h.others.ofEntries_entries, ← hread.docId]

/-- The members in front are values, for a hit that was read. -/
theorem holdsValue_leading (hread : h.IsRead) :
    ∀ field ∈ h.leading .ofSingle, Json.HoldsValue field.2 := by
  unfold leading
  simp only [List.forall_mem_cons]
  exact ⟨Json.holdsValue_some (Json.isValue_string _),
    Json.holdsValue_some (Json.isValue_string _), Json.holdsValue_single h.score,
    Json.holdsValue_map fun _ _ => Json.isValue_number _,
    Json.holdsValue_map fun _ _ => Json.isValue_number _,
    Json.holdsValue_map fun _ _ => Json.isValue_number _, Json.holdsValue_map hread.source,
    Dictionary.holdsValue_toJson? fun entry hentry =>
      Json.isValue_array_iff.2 (hread.documentFields entry hentry),
    fun _ hf => absurd hf List.not_mem_nil⟩

/-- The members behind are values, if the inner hits are. -/
theorem holdsValue_trailing (hread : h.IsRead) (hinner : (Json.object innerHits).IsValue) :
    ∀ field ∈ h.trailing innerHits, Json.HoldsValue field.2 := by
  unfold trailing
  simp only [List.forall_mem_cons]
  exact ⟨Dictionary.holdsValue_toJson? fun entry _ => Json.isValue_ofStrings entry.2,
    Json.holdsValue_nonempty (Json.isValue_ofStrings _), hread.explanation.holdsValue,
    Json.holdsValue_map fun s _ => Json.isValue_string s, Json.holdsValue_nonempty hinner,
    Json.holdsValue_nonempty (Json.isValue_array_iff.2 hread.sort),
    fun _ hf => absurd hf List.not_mem_nil⟩

/-- All members of a hit together make a value: their keys are distinct, because the unknown ones
are none of the known. -/
theorem isValue_members (hread : h.IsRead) (hinner : (Json.object innerHits).IsValue) :
    (Json.object (h.members .ofSingle innerHits)).IsValue := by
  have hknown : (Json.object (Json.present (h.fields .ofSingle innerHits))).IsValue :=
    Json.isValue_ofFields nodup_known (List.forall_mem_append.2
      ⟨holdsValue_leading hread, holdsValue_trailing hread hinner⟩)
  -- where the unknown members stand does not matter for what a value is
  have hperm : (h.members .ofSingle innerHits).Perm
      (Json.present (h.fields .ofSingle innerHits) ++ h.others.entries) := by
    unfold members fields
    rw [Json.present_append, List.append_assoc, List.append_assoc]
    exact List.perm_append_comm.append_left _
  obtain ⟨hkeys, hvalues⟩ := Json.isValue_object_iff.1 hknown
  refine Json.isValue_object_iff.2 ⟨?_, fun m hm => ?_⟩
  · refine (hperm.map Prod.fst).nodup_iff.2 ?_
    rw [List.map_append]
    refine List.nodup_append.2 ⟨hkeys, h.others.nodup_keys, ?_⟩
    rintro key hkey _ hother rfl
    exact hread.unknown key hother ((Json.keys_present_sublist _).subset hkey)
  · rcases List.mem_append.1 (hperm.subset hm) with hm | hm
    · exact hvalues m hm
    · exact hread.others m hm

end HitData

/-! ## Pages of hits -/

namespace Total

theorem choice_name (relation : Relation) :
    Json.Decode.choice Relation.choices (.string relation.name) = .ok relation :=
  Json.choice_name (by cases relation <;> decide)

/-- A total reads back, in its exact form and in its plain one. -/
theorem readsBack (t : Total) : Json.ReadsBack decode toJson t := by
  obtain ⟨r, hrecord, hr⟩ : ∃ r, Json.record ["value", "relation"] [] t.toJson = .ok r ∧
      r.Holds _ := Json.exists_record rfl (by decide) fun _ _ => rfl
  refine ⟨by simp [toJson, Json.ofFields], ?_⟩
  unfold decode
  refine bind_eq_ok_iff.2 ⟨r, hrecord, ?_⟩
  refine bind_eq_ok_iff.2 ⟨_, hr.required_at 0 rfl (Json.readsBack_uint64 _).read, ?_⟩
  refine bind_eq_ok_iff.2 ⟨_, hr.required_at 1 rfl (choice_name _), ?_⟩
  rfl

theorem isValue_toJson (t : Total) : t.toJson.IsValue := by
  refine Json.isValue_ofFields (show ["value", "relation"].Nodup by decide) ?_
  simp only [List.forall_mem_cons]
  exact ⟨Json.holdsValue_some (Json.isValue_number _),
    Json.holdsValue_some (Json.isValue_string _), fun _ hf => absurd hf List.not_mem_nil⟩

end Total

namespace Hit

variable {hit : Hit} {page : Page Hit} {j : Json}

/-- What holds of a hit that was read, with those inside it. -/
inductive IsRead : Hit → Prop
  | mk {data : HitData} {pages : Dictionary (Page Hit)} (hdata : data.IsRead)
      (hinner : ∀ entry ∈ pages.entries, ∀ h ∈ entry.2.hits, IsRead h) :
      IsRead ⟨data, pages.entries⟩

mutual

/-- Whether the scores of a hit and inside it are finite. -/
def hasFiniteScores : Hit → Bool
  | ⟨data, innerHits⟩ => data.score.all Binary.isFinite && innerHaveFiniteScores innerHits

def innerHaveFiniteScores : List (String × Page Hit) → Bool
  | [] => true
  | (_, page) :: rest => pageHasFiniteScores page && innerHaveFiniteScores rest

def pageHasFiniteScores : Page Hit → Bool
  | ⟨_, maxScore, hits⟩ => maxScore.all Binary.isFinite && haveFiniteScores hits

def haveFiniteScores : List Hit → Bool
  | [] => true
  | h :: hits => h.hasFiniteScores && haveFiniteScores hits

end

/-- Inner hits have finite scores if each page of them does. -/
theorem innerHaveFiniteScores_iff {innerHits : List (String × Page Hit)} :
    innerHaveFiniteScores innerHits = true ↔
      ∀ entry ∈ innerHits, pageHasFiniteScores entry.2 = true := by
  induction innerHits with
  | nil => exact ⟨fun _ _ h => absurd h List.not_mem_nil, fun _ => rfl⟩
  | cons entry rest ih =>
    show (pageHasFiniteScores entry.2 && innerHaveFiniteScores rest) = true ↔ _
    rw [Bool.and_eq_true, ih, List.forall_mem_cons]

/-- A list of hits has finite scores if each hit does. -/
theorem haveFiniteScores_iff {hits : List Hit} :
    haveFiniteScores hits = true ↔ ∀ h ∈ hits, h.hasFiniteScores = true := by
  induction hits with
  | nil => exact ⟨fun _ _ h => absurd h List.not_mem_nil, fun _ => rfl⟩
  | cons h hits ih =>
    show (h.hasFiniteScores && haveFiniteScores hits) = true ↔ _
    rw [Bool.and_eq_true, ih, List.forall_mem_cons]

/-- A page has finite scores if its greatest is finite and each of its hits has. -/
theorem pageHasFiniteScores_iff : pageHasFiniteScores page = true ↔
    (∀ x, page.maxScore = some x → x.isFinite = true) ∧
      ∀ h ∈ page.hits, h.hasFiniteScores = true := by
  obtain ⟨total, maxScore, hits⟩ := page
  show (maxScore.all Binary.isFinite && haveFiniteScores hits) = true ↔ _
  rw [Bool.and_eq_true, all_isFinite_iff, haveFiniteScores_iff]

/-- A hit has finite scores if its own is finite and each inner page has. -/
theorem hasFiniteScores_iff : hit.hasFiniteScores = true ↔
    (∀ x, hit.data.score = some x → x.isFinite = true) ∧
      ∀ entry ∈ hit.innerHits, pageHasFiniteScores entry.2 = true := by
  obtain ⟨data, innerHits⟩ := hit
  show (data.score.all Binary.isFinite && innerHaveFiniteScores innerHits) = true ↔ _
  rw [Bool.and_eq_true, all_isFinite_iff, innerHaveFiniteScores_iff]

/-- The hits of a page that was read were read. -/
theorem exists_of_decodePage (h : decodePage j = .ok page) :
    ∀ hit ∈ page.hits, ∃ j, decode j = .ok hit := by
  obtain ⟨r, -, -, -, hhits⟩ := decodePage_eq_ok_iff.1 h
  rcases Json.Record.of_defaulted hhits with hnil | ⟨j, -, hj⟩
  · rw [hnil]
    exact fun _ hmem => absurd hmem List.not_mem_nil
  · exact Json.exists_of_list hj

/-- A hit that was read could be held in memory, at every depth. The induction is on the hit. -/
theorem isRead_of_decode (h : decode j = .ok hit) : hit.IsRead := by
  induction hit generalizing j with
  | mk data innerHits ih =>
    cases j with
    | object ms =>
      obtain ⟨hdata, pages, hpages, rfl⟩ := decode_object_eq_ok_iff.1 h
      refine .mk (HitData.of_decode hdata).1 fun entry hentry inner hmem => ?_
      obtain ⟨j, hpage⟩ := Dictionary.exists_of_defaulted hpages entry hentry
      obtain ⟨j, hj⟩ := exists_of_decodePage hpage inner hmem
      exact ih entry hentry inner hmem hj
    | null | bool | number | string | array | unreadable => cases h

theorem pageJson_eq_render (number : Single → Json) (page : Page Hit) :
    pageJson number page = page.render number (page.hits.map (toJson number)) := by
  obtain ⟨total, maxScore, hits⟩ := page
  show Page.render number _ (hitsJson number hits) = _
  rw [hitsJson_eq_map]

/-- A page is read back if its hits are. -/
theorem decodePage_pageJson (hmaxScore : ∀ x, page.maxScore = some x → x.isFinite = true)
    (hhits : ∀ h ∈ page.hits, decode (h.toJson .ofSingle) = .ok h) :
    decodePage (pageJson .ofSingle page) = .ok page := by
  rw [pageJson_eq_render]
  obtain ⟨r, hrecord, hr⟩ : ∃ r, Json.record Page.parts []
      (page.render .ofSingle (page.hits.map (toJson .ofSingle))) = .ok r ∧ r.Holds _ :=
    Json.exists_record rfl (by decide) fun _ _ => rfl
  exact decodePage_eq_ok_iff.2 ⟨r, hrecord, hr.optional_at 0 rfl fun t _ => t.readsBack,
    hr.single_at 1 rfl hmaxScore, hr.given_at 2 rfl (Json.list_map hhits)⟩

/-- A page prints as a value if each of its hits does. -/
theorem isValue_pageJson (hhits : ∀ h ∈ page.hits, (h.toJson .ofSingle).IsValue) :
    (pageJson .ofSingle page).IsValue := by
  rw [pageJson_eq_render]
  refine Json.isValue_ofFields (by decide : Page.parts.Nodup) ?_
  simp only [List.forall_mem_cons]
  refine ⟨Json.holdsValue_map fun t _ => t.isValue_toJson, Json.holdsValue_single page.maxScore,
    Json.holdsValue_some (Json.isValue_array_iff.2 fun j hj => ?_),
    fun _ hf => absurd hf List.not_mem_nil⟩
  obtain ⟨h, hh, rfl⟩ := List.mem_map.1 hj
  exact hhits h hh

/-- Inner hits are written as an object of pages, and left out if there are none. -/
theorem nonempty_innerJson (number : Single → Json) (pages : Dictionary (Page Hit)) :
    Json.nonempty .object (innerJson number pages.entries) =
      pages.toJson? (pageJson number) := by
  rw [innerJson_eq_map]
  rfl

/-- A hit that was read and has finite scores is read back from what it is written as. -/
theorem decode_toJson (hread : hit.IsRead) (hfinite : hit.hasFiniteScores = true) :
    decode (hit.toJson .ofSingle) = .ok hit := by
  induction hread with
  | @mk data pages hdata _ ih =>
    obtain ⟨hscore, hpages⟩ := hasFiniteScores_iff.1 hfinite
    have hr : Json.Record.Holds (data.members .ofSingle (innerJson .ofSingle pages.entries))
        (data.fields .ofSingle (innerJson .ofSingle pages.entries)) := HitData.holds_members hdata
    have hfield := congrArg (fun j? => some ("inner_hits", j?))
      (nonempty_innerJson .ofSingle pages)
    refine decode_object_eq_ok_iff.2 ⟨HitData.decode_members hdata hscore, pages, ?_, rfl⟩
    refine Dictionary.defaulted_at hr 12 hfield fun entry hentry => ?_
    obtain ⟨hmaxScore, hscores⟩ := pageHasFiniteScores_iff.1 (hpages entry hentry)
    exact decodePage_pageJson hmaxScore fun h hh => ih entry hentry h hh (hscores h hh)

/-- A hit that was read prints as a value, by induction on the hit. -/
theorem isValue_toJson (hread : hit.IsRead) : (hit.toJson .ofSingle).IsValue := by
  induction hread with
  | mk hdata _ ih =>
    refine HitData.isValue_members hdata ?_
    rw [innerJson_eq_map]
    exact Dictionary.isValue_object fun entry hentry => isValue_pageJson (ih entry hentry)

end Hit

end SemanticHighlight
