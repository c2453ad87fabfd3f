import SemanticHighlight.Hit
import SemanticHighlight.Proofs.Dictionary.Entries

/-!
# The shape of hits

`Hit.induct` is induction over hits: what holds of a hit whenever it holds of the hits inside it
holds of every hit. A hit and a page are read member by member, in recursions of their own;
`Hit.decode_object_eq_ok_iff` and `Hit.decodePage_eq_ok_iff` say that they are records like
others, of which one field holds an object of pages or a list of hits.
-/

namespace SemanticHighlight

namespace Hit

/-- Induction over hits. -/
@[elab_as_elim, induction_eliminator]
theorem induct {motive : Hit → Prop}
    (mk : ∀ data innerHits, (∀ entry ∈ innerHits, ∀ h ∈ entry.2.hits, motive h) →
      motive ⟨data, innerHits⟩) (h : Hit) : motive h :=
  @Hit.rec motive (fun innerHits => ∀ entry ∈ innerHits, ∀ h ∈ entry.2.hits, motive h)
    (fun entry => ∀ h ∈ entry.2.hits, motive h) (fun page => ∀ h ∈ page.hits, motive h)
    (fun hits => ∀ h ∈ hits, motive h)
    mk
    (fun _ hentry => absurd hentry List.not_mem_nil)
    (fun _ _ hentry hrest => List.forall_mem_cons.2 ⟨hentry, hrest⟩)
    (fun _ _ hpage => hpage)
    (fun _ _ _ hhits => hhits)
    (fun _ hh => absurd hh List.not_mem_nil)
    (fun _ _ hh hhs => List.forall_mem_cons.2 ⟨hh, hhs⟩) h

/-! ## Rendering -/

/-- A list of hits prints hit by hit. -/
theorem hitsJson_eq_map (number : Numeric.Single → Json) (hits : List Hit) :
    hitsJson number hits = hits.map (toJson number) := by
  induction hits with
  | nil => rfl
  | cons h hits ih =>
    show h.toJson number :: hitsJson number hits = _
    rw [ih, List.map_cons]

/-- Inner hits print page by page, under their names. -/
theorem innerJson_eq_map (number : Numeric.Single → Json) (innerHits : List (String × Page Hit)) :
    innerJson number innerHits = innerHits.map fun entry => (entry.1, pageJson number entry.2) := by
  induction innerHits with
  | nil => rfl
  | cons entry rest ih =>
    show (entry.1, pageJson number entry.2) :: innerJson number rest = _
    rw [ih, List.map_cons]

/-! ## Reading -/

variable {j : Json} {ms : List (String × Json)} {hit : Hit} {page : Page Hit}

/-- A list of hits is read hit by hit. -/
theorem decodeHits_eq_each (js : List Json) : decodeHits js = Json.Decode.each decode js := by
  induction js with
  | nil => rfl
  | cons j js ih =>
    unfold decodeHits Json.Decode.each
    rw [ih]

/-- Inner hits are read page by page, under their names. -/
theorem pagesOf_eq_eachMember (ms : List (String × Json)) :
    pagesOf ms = Json.Decode.eachMember decodePage ms := by
  induction ms with
  | nil => rfl
  | cons m ms ih =>
    unfold pagesOf Json.Decode.eachMember
    rw [ih]

/-- Inner hits are a field that may be missing, a dictionary of pages. -/
theorem innerAmong_eq (ms : List (String × Json)) :
    innerAmong ms =
      Json.Record.defaulted ms "inner_hits" .empty (Dictionary.decode decodePage) := by
  unfold Json.Record.defaulted
  induction ms with
  | nil => rfl
  | cons m ms ih =>
    obtain ⟨key, j⟩ := m
    rw [Json.member?_cons]
    -- the first member of that name is the one that is looked up
    by_cases hkey : key = "inner_hits"
    · rw [if_pos hkey]
      cases j with
      | object members =>
        show (if key = "inner_hits" then _ else _) = _
        rw [if_pos hkey, pagesOf_eq_eachMember]
        rfl
      | null | bool | number | string | array | unreadable => exact if_pos hkey
    · rw [if_neg hkey, ← ih]
      cases j with
      | null | bool | number | string | array | object | unreadable => exact if_neg hkey

/-- The hits of a page are a field that may be missing, a list. -/
theorem hitsAmong_eq (ms : List (String × Json)) :
    hitsAmong ms = Json.Record.defaulted ms "hits" [] (Json.Decode.list decode) := by
  unfold Json.Record.defaulted
  induction ms with
  | nil => rfl
  | cons m ms ih =>
    obtain ⟨key, j⟩ := m
    rw [Json.member?_cons]
    -- the first member of that name is the one that is looked up
    by_cases hkey : key = "hits"
    · rw [if_pos hkey]
      cases j with
      | array js =>
        show (if key = "hits" then _ else _) = _
        rw [if_pos hkey, decodeHits_eq_each]
        rfl
      | null | bool | number | string | object | unreadable => exact if_pos hkey
    · rw [if_neg hkey, ← ih]
      cases j with
      | null | bool | number | string | array | object | unreadable => exact if_neg hkey

/-- A hit is read as its data and a dictionary of pages. -/
theorem decode_object_eq_ok_iff : decode (.object ms) = .ok hit ↔
    HitData.decode ms = .ok hit.data ∧ ∃ pages : Dictionary (Page Hit),
      Json.Record.defaulted ms "inner_hits" .empty (Dictionary.decode decodePage) = .ok pages ∧
        hit.innerHits = pages.entries := by
  rw [← innerAmong_eq]
  obtain ⟨_, _⟩ := hit
  constructor
  · intro h
    obtain ⟨data, hdata, h⟩ := bind_eq_ok_iff.1 h
    obtain ⟨pages, hpages, h⟩ := bind_eq_ok_iff.1 h
    cases h
    exact ⟨hdata, pages, hpages, rfl⟩
  · rintro ⟨hdata, pages, hinner, rfl⟩
    exact bind_eq_ok_iff.2 ⟨_, hdata, bind_eq_ok_iff.2 ⟨_, hinner, rfl⟩⟩

end Hit

namespace Page

variable {α : Type} {j : Json} {page : Page α}

/-- The names of the parts of a page. -/
def parts : List String := ["total", "max_score", "hits"]

/-- The frame of a page is its total and its greatest score. Its hits are read apart from it. -/
theorem decodeFrame_eq_ok_iff : decodeFrame α j = .ok page ↔
    ∃ r, Json.record parts [] j = .ok r ∧ r.optional "total" Total.decode = .ok page.total ∧
      r.optional "max_score" Json.Decode.single = .ok page.maxScore ∧ page.hits = [] := by
  unfold decodeFrame
  constructor
  · intro h
    obtain ⟨r, hr, h⟩ := bind_eq_ok_iff.1 h
    obtain ⟨total, htotal, h⟩ := bind_eq_ok_iff.1 h
    obtain ⟨maxScore, hmaxScore, h⟩ := bind_eq_ok_iff.1 h
    cases h
    exact ⟨r, hr, htotal, hmaxScore, rfl⟩
  · rintro ⟨r, hr, htotal, hmaxScore, hhits⟩
    refine bind_eq_ok_iff.2 ⟨r, hr, ?_⟩
    refine bind_eq_ok_iff.2 ⟨_, htotal, ?_⟩
    refine bind_eq_ok_iff.2 ⟨_, hmaxScore, ?_⟩
    rw [← hhits]

end Page

namespace Hit

variable {j : Json} {page : Page Hit}

/-- What is read as a page without hits, by a record that does not give any. -/
theorem decodeFrame_eq_ok_iff_of_none
    (h : ∀ r, Json.record Page.parts [] j = .ok r → Json.member? r "hits" = none) :
    Page.decodeFrame Hit j = .ok page ↔ ∃ r, Json.record Page.parts [] j = .ok r ∧
      r.optional "total" Total.decode = .ok page.total ∧
      r.optional "max_score" Json.Decode.single = .ok page.maxScore ∧
      r.defaulted "hits" [] (Json.Decode.list decode) = .ok page.hits := by
  rw [Page.decodeFrame_eq_ok_iff]
  refine exists_congr fun r => and_congr_right fun hr =>
    and_congr_right fun _ => and_congr_right fun _ => ?_
  unfold Json.Record.defaulted
  rw [h r hr]
  exact ⟨fun hnil => congrArg Except.ok hnil.symm, fun hok => (Except.ok.inj hok).symm⟩

/-- An array of all three fields of a page. -/
theorem decodePage_array_eq_ok_iff (total maxScore hits : Json) :
    decodePage (.array [total, maxScore, hits]) = .ok page ↔
      ∃ r, Json.record Page.parts [] (.array [total, maxScore, hits]) = .ok r ∧
        r.optional "total" Total.decode = .ok page.total ∧
        r.optional "max_score" Json.Decode.single = .ok page.maxScore ∧
        r.defaulted "hits" [] (Json.Decode.list decode) = .ok page.hits := by
  -- in array form the hits come last, behind the frame
  cases hits with
  | array js =>
    show (Page.decodeFrame Hit (.array [total, maxScore]) >>= fun frame =>
      decodeHits js >>= fun hits => Except.ok { frame with hits }) = _ ↔ _
    rw [decodeHits_eq_each]
    constructor
    · intro h
      obtain ⟨frame, hframe, h⟩ := bind_eq_ok_iff.1 h
      obtain ⟨hits, hhits, h⟩ := bind_eq_ok_iff.1 h
      obtain ⟨r, hr, htotal, hmaxScore, -⟩ := Page.decodeFrame_eq_ok_iff.1 hframe
      cases h
      cases hr
      exact ⟨_, rfl, htotal, hmaxScore, hhits⟩
    · rintro ⟨r, hr, htotal, hmaxScore, hhits⟩
      cases hr
      have hframe : Page.decodeFrame Hit (.array [total, maxScore]) =
          .ok { page with hits := [] } :=
        Page.decodeFrame_eq_ok_iff.2 ⟨_, rfl, htotal, hmaxScore, rfl⟩
      exact bind_eq_ok_iff.2 ⟨_, hframe, bind_eq_ok_iff.2 ⟨_, hhits, rfl⟩⟩
  | null | bool | number | string | object | unreadable =>
    refine ⟨fun h => (by cases h), fun ⟨r, hr, _, _, hhits⟩ => ?_⟩
    cases hr
    cases hhits

/-- A page is read as a record, of an object or an array, the last field of which are the hits. -/
theorem decodePage_eq_ok_iff : decodePage j = .ok page ↔
    ∃ r, Json.record Page.parts [] j = .ok r ∧
      r.optional "total" Total.decode = .ok page.total ∧
      r.optional "max_score" Json.Decode.single = .ok page.maxScore ∧
      r.defaulted "hits" [] (Json.Decode.list decode) = .ok page.hits := by
  cases j with
  | object ms =>
    show (Page.decodeFrame Hit (.object ms) >>= fun frame =>
      hitsAmong ms >>= fun hits => Except.ok { frame with hits }) = _ ↔ _
    have hsame : ∀ r, Json.record Page.parts [] (.object ms) = .ok r →
        r.defaulted "hits" [] (Json.Decode.list decode) = hitsAmong ms := by
      intro r hr
      rw [hitsAmong_eq]
      unfold Json.Record.defaulted
      rw [Json.member?_declared hr (by decide)]
    constructor
    · intro h
      obtain ⟨frame, hframe, h⟩ := bind_eq_ok_iff.1 h
      obtain ⟨hits, hhits, h⟩ := bind_eq_ok_iff.1 h
      obtain ⟨r, hr, htotal, hmaxScore, -⟩ := Page.decodeFrame_eq_ok_iff.1 hframe
      cases h
      exact ⟨r, hr, htotal, hmaxScore, (hsame r hr).trans hhits⟩
    · rintro ⟨r, hr, htotal, hmaxScore, hhits⟩
      have hframe : Page.decodeFrame Hit (.object ms) = .ok { page with hits := [] } :=
        Page.decodeFrame_eq_ok_iff.2 ⟨r, hr, htotal, hmaxScore, rfl⟩
      refine bind_eq_ok_iff.2 ⟨_, hframe, bind_eq_ok_iff.2 ⟨_, (hsame r hr).symm.trans hhits, ?_⟩⟩
      rfl
  | array js =>
    -- up to two items leave the hits out, the third is the hits, and four are too many
    rcases js with _ | ⟨total, _ | ⟨maxScore, _ | ⟨hits, _ | ⟨x, xs⟩⟩⟩⟩
    · exact decodeFrame_eq_ok_iff_of_none fun r hr => Except.ok.inj hr ▸ rfl
    · exact decodeFrame_eq_ok_iff_of_none fun r hr => Except.ok.inj hr ▸ rfl
    · exact decodeFrame_eq_ok_iff_of_none fun r hr => Except.ok.inj hr ▸ rfl
    · exact decodePage_array_eq_ok_iff total maxScore hits
    · have hpage : decodePage (.array (total :: maxScore :: hits :: x :: xs)) =
          Page.decodeFrame Hit (.array (total :: maxScore :: hits :: x :: xs)) := by
        cases hits <;> rfl
      rw [hpage]
      refine decodeFrame_eq_ok_iff_of_none fun r hr => ?_
      have hlong : ¬(total :: maxScore :: hits :: x :: xs).length ≤ Page.parts.length := by
        simp [Page.parts]
      unfold Json.record at hr
      dsimp only at hr
      rw [if_neg hlong] at hr
      cases hr
  | null | bool | number | string | unreadable =>
    exact decodeFrame_eq_ok_iff_of_none fun r hr => by cases hr

end Hit

end SemanticHighlight
