import SemanticHighlight.Proofs.Text.Boundaries
import SemanticHighlight.Proofs.Batch.OneByOne

/-!
# Labels for sentences

The model answers with a list of labels, of which nothing is known. `WellLabelled` says which
lists are of use, and `marked` what one label does to its sentence; `tagged_eq` and
`tagged_malformed` say that putting tags around the sentences does this to each of them or, if
any label is no label, nothing at all: both are by induction on the sentences with their labels.

Main statement (`tagSentences_answers`): what comes out for every list of labels, and what that
makes of the result of the pair.
-/

namespace SemanticHighlight.Inference

open Text (sentences)

/-- What a label does to its sentence. -/
def marked (preTag postTag s : String) (label : Int) : String :=
  if label = 1 then preTag ++ s ++ postTag else s

/-- Whether labels are of use for the sentences: there are sentences, and for each of them a
label, which is 0 or 1. -/
structure WellLabelled (ss : List String) (labels : List Int) : Prop where
  nonempty : ss ≠ []
  length_eq : labels.length = ss.length
  binary : ∀ l ∈ labels, l = 0 ∨ l = 1

/-- The sentences, marked and joined by blanks. -/
def joined (preTag postTag : String) (ss : List String) (labels : List Int) : String :=
  " ".intercalate (List.zipWith (marked preTag postTag) ss labels)

/-! ## Tags -/

/-- With a label for each, every sentence gets what its own label asks for. -/
theorem tagged_eq (preTag postTag : String) {ss : List String} {labels : List Int}
    (hlength : labels.length = ss.length) (hbinary : ∀ l ∈ labels, l = 0 ∨ l = 1) :
    tagged preTag postTag ss labels = .ok (List.zipWith (marked preTag postTag) ss labels) := by
  induction ss generalizing labels with
  | nil => rfl
  | cons s ss ih =>
    cases labels with
    | nil => cases hlength
    | cons label labels =>
      obtain ⟨hlabel, hlabels⟩ := List.forall_mem_cons.1 hbinary
      have htail := ih (Nat.succ.inj hlength) hlabels
      unfold tagged
      rw [htail]
      obtain rfl | rfl := hlabel
      · rfl
      · rfl

/-- One label that is neither 0 nor 1 spoils them all, wherever it stands. -/
theorem tagged_malformed (preTag postTag : String) {ss : List String} {labels : List Int}
    (hlength : labels.length = ss.length) {l : Int} (hmem : l ∈ labels)
    (hl : ¬ (l = 0 ∨ l = 1)) : ∃ fault, tagged preTag postTag ss labels = .error fault := by
  induction ss generalizing labels with
  | nil =>
    rw [List.length_eq_zero_iff.1 hlength] at hmem
    cases hmem
  | cons s ss ih =>
    cases labels with
    | nil => cases hmem
    | cons label labels =>
      -- past a label that is right, the fault is the one of the labels behind it
      have htail (hne : l ≠ label) : ∃ fault, tagged preTag postTag ss labels = .error fault :=
        ih (Nat.succ.inj hlength) ((List.mem_cons.1 hmem).resolve_left hne)
      unfold tagged
      split
      · next h0 =>
        obtain ⟨fault, hfault⟩ := htail fun h => hl (.inl (h.trans h0))
        exact ⟨fault, by rw [hfault]; rfl⟩
      · split
        · next h1 =>
          obtain ⟨fault, hfault⟩ := htail fun h => hl (.inr (h.trans h1))
          exact ⟨fault, by rw [hfault]; rfl⟩
        · exact ⟨_, rfl⟩

/-! ## What is put together -/

/-- No sentence is empty. -/
theorem ne_empty_of_mem_sentences {t s : String} (h : s ∈ sentences t) : s ≠ "" := by
  cases hblank : Text.allBlank t with
  | true =>
    rw [Text.sentences_eq_nil_iff.2 hblank] at h
    cases h
  | false =>
    obtain ⟨ws, hsplits⟩ := Text.exists_splits hblank
    rintro rfl
    exact (hsplits.isSentence_of_mem (List.mem_map_of_mem h)).nonempty rfl

/-- A sentence that is not empty is not empty once it is marked, whatever the tags are. -/
theorem marked_ne_empty {s : String} (hs : s ≠ "") (preTag postTag : String) (label : Int) :
    marked preTag postTag s label ≠ "" := by
  unfold marked
  split
  · intro h
    exact hs (String.append_eq_empty_iff.1 (String.append_eq_empty_iff.1 h).1).2
  · exact hs

/-- A text that starts with one that is not empty is not empty. -/
theorem intercalate_ne_empty {p : String} (hp : p ≠ "") (parts : List String) :
    " ".intercalate (p :: parts) ≠ "" := by
  intro h
  have htoList := congrArg String.toList h
  rw [String.toList_intercalate, List.map_cons] at htoList
  cases parts with
  | nil => exact hp (String.toList_inj.1 (by simpa using htoList))
  | cons q parts => simp [List.intercalate_cons_cons] at htoList

/-- Sentences that are joined make a text that is not empty, since there is a sentence to begin
with. -/
theorem joined_ne_empty {ss : List String} {labels : List Int} (hne : ∀ s ∈ ss, s ≠ "")
    (h : WellLabelled ss labels) (preTag postTag : String) :
    joined preTag postTag ss labels ≠ "" := by
  obtain ⟨hss, hlength, -⟩ := h
  cases ss with
  | nil => exact absurd rfl hss
  | cons s ss =>
    cases labels with
    | nil => cases hlength
    | cons label labels =>
      exact intercalate_ne_empty
        (marked_ne_empty (hne s List.mem_cons_self) preTag postTag label) _

/-- Empty tags mark nothing. -/
theorem zipWith_marked_empty {ss : List String} {labels : List Int}
    (hlength : labels.length = ss.length) : List.zipWith (marked "" "") ss labels = ss := by
  have hmarked : ∀ s label, marked "" "" s label = s := by
    intro s label
    unfold marked
    rw [String.empty_append, String.append_empty, ite_self]
  refine List.ext_getElem (by rw [List.length_zipWith, hlength, Nat.min_self]) fun i _ _ => ?_
  rw [List.getElem_zipWith, hmarked]

/-! ## The answer -/

variable {label : List String → Except Fault (List Int)} {r : InferenceRequest}
  {labels : List Int}

/-- Labels that are of no use are a fault. -/
theorem tagSentences_malformed (hlabels : label (sentences r.context) = .ok labels)
    (h : ¬ WellLabelled (sentences r.context) labels) :
    ∃ fault, tagSentences label r = .error fault := by
  unfold tagSentences
  dsimp only
  rw [hlabels]
  cases hss : sentences r.context with
  | nil => exact ⟨_, rfl⟩
  | cons s ss =>
    rw [hss] at h
    dsimp only
    -- either the number of labels is wrong, or one of them is
    by_cases hlength : labels.length = (s :: ss).length
    · have hbad : ∃ l ∈ labels, ¬ (l = 0 ∨ l = 1) := by
        refine Classical.byContradiction fun hnone => h ⟨List.cons_ne_nil s ss, hlength, ?_⟩
        intro l hmem
        exact Classical.byContradiction fun hl => hnone ⟨l, hmem, hl⟩
      obtain ⟨l, hmem, hl⟩ := hbad
      obtain ⟨fault, hfault⟩ := tagged_malformed r.preTag r.postTag hlength hmem hl
      rw [if_neg (not_not_intro hlength), hfault]
      exact ⟨fault, rfl⟩
    · rw [if_pos hlength]
      exact ⟨_, rfl⟩

/-- Labels that are of use lead to the marked sentences, unless they are all 0. -/
theorem tagSentences_ok (hlabels : label (sentences r.context) = .ok labels)
    (h : WellLabelled (sentences r.context) labels) :
    tagSentences label r = .ok
      (if 1 ∈ labels then joined r.preTag r.postTag (sentences r.context) labels else "") := by
  unfold tagSentences
  dsimp only
  rw [if_neg (by simpa using h.nonempty), hlabels]
  dsimp only
  rw [if_neg (not_not_intro h.length_eq), tagged_eq r.preTag r.postTag h.length_eq h.binary]
  simp [joined, bind, Except.bind]

/-- Nothing is marked exactly if there are sentences and each of them is labelled 0. -/
theorem tagSentences_eq_empty_iff (hlabels : label (sentences r.context) = .ok labels) :
    tagSentences label r = .ok "" ↔
      sentences r.context ≠ [] ∧ labels = List.replicate (sentences r.context).length 0 := by
  by_cases h : WellLabelled (sentences r.context) labels
  · have hne : joined r.preTag r.postTag (sentences r.context) labels ≠ "" :=
      joined_ne_empty (fun _ => ne_empty_of_mem_sentences) h r.preTag r.postTag
    -- all labels are zero exactly if none is one
    have hzeros : labels = List.replicate (sentences r.context).length 0 ↔ 1 ∉ labels := by
      rw [← h.length_eq]
      constructor
      · intro heq hmem
        rw [heq] at hmem
        cases List.eq_of_mem_replicate hmem
      · intro hnone
        refine List.eq_replicate_of_mem fun l hl => ?_
        refine (h.binary l hl).resolve_right ?_
        rintro rfl
        exact hnone hl
    rw [tagSentences_ok hlabels h, hzeros, and_iff_right h.nonempty, Except.ok.injEq]
    split
    · next h1 => exact iff_of_false hne (not_not_intro h1)
    · next h1 => exact iff_of_true rfl h1
  · obtain ⟨fault, hfault⟩ := tagSentences_malformed hlabels h
    rw [hfault]
    refine iff_of_false (fun heq => by cases heq) ?_
    rintro ⟨hss, rfl⟩
    refine h ⟨hss, List.length_replicate, fun l hl => ?_⟩
    exact .inl (List.eq_of_mem_replicate hl)

/-- The pair succeeds exactly if the labels are of use and mark a sentence. -/
theorem success_result_iff (hlabels : label (sentences r.context) = .ok labels) (p : Pair)
    (durationMs : UInt64) :
    (p.result (.ofAnswer (tagSentences label r)) durationMs).success = true ↔
      WellLabelled (sentences r.context) labels ∧ 1 ∈ labels := by
  by_cases h : WellLabelled (sentences r.context) labels
  · rw [and_iff_right h, tagSentences_ok hlabels h]
    split
    · next h1 =>
      refine iff_of_true ?_ h1
      show (if _ = "" then _ else _ : FieldResult).success = true
      rw [if_neg (joined_ne_empty (fun _ => ne_empty_of_mem_sentences) h r.preTag r.postTag)]
      rfl
    · next h1 => exact iff_of_false (fun hfalse => by cases hfalse) h1
  · obtain ⟨fault, hfault⟩ := tagSentences_malformed hlabels h
    rw [hfault]
    exact iff_of_false (fun hfalse => by cases hfalse) fun hand => h hand.1

/-- What a batch that nothing disturbs makes of the labels for one of its pairs. -/
theorem success_entry_iff (hlabels : label (sentences r.context) = .ok labels)
    {hits : List HitData} {configs : List FieldConfig} {replies : Batch.Replies}
    {events : List Batch.Event} {b : Batch} {results : List FieldResult}
    (h : Batch.Undisturbed hits configs replies events b results) {i j : Nat}
    (hi : i < hits.length) (hj : j < configs.length)
    (hasked : Batch.requestAlone? hits[i] configs[j] = some r)
    (hreply : replies (i * configs.length + j) r = .ofAnswer (tagSentences label r)) :
    ∃ result, results[i * configs.length + j]? = some result ∧
      (result.success = true ↔ WellLabelled (sentences r.context) labels ∧ 1 ∈ labels) := by
  obtain ⟨result, hresult, htimeless⟩ := h.entry (Pair.getElem?_all hi hj)
  refine ⟨result, hresult, ?_⟩
  rw [Batch.request?_ofHit, hasked] at htimeless
  have hsuccess := success_result_iff hlabels (Pair.ofHit i hits[i] configs[j]) 0
  rw [← hreply] at hsuccess
  rwa [← congrArg FieldResult.success htimeless] at hsuccess

/-- **From labels to a result.** Without sentences there is no answer, and neither is there with
labels that are of no use. The answer is empty exactly if every sentence is labelled 0. With
labels that are of use and mark a sentence it is the sentences, each treated as its own label
says, joined by blanks; it is not empty, and without tags it has the same sentences. The result
of the pair, by itself and in a batch that nothing disturbs, is a success exactly in that
case. -/
theorem tagSentences_answers (label : List String → Except Fault (List Int))
    (r : InferenceRequest) :
    (sentences r.context = [] → ∃ fault, tagSentences label r = .error fault) ∧
      ∀ labels, label (sentences r.context) = .ok labels →
        (¬ WellLabelled (sentences r.context) labels →
          ∃ fault, tagSentences label r = .error fault) ∧
        (tagSentences label r = .ok "" ↔
          sentences r.context ≠ [] ∧
            labels = List.replicate (sentences r.context).length 0) ∧
        (WellLabelled (sentences r.context) labels → 1 ∈ labels →
          tagSentences label r =
              .ok (joined r.preTag r.postTag (sentences r.context) labels) ∧
            joined r.preTag r.postTag (sentences r.context) labels ≠ "" ∧
            (r.preTag = "" → r.postTag = "" →
              sentences (joined r.preTag r.postTag (sentences r.context) labels) =
                sentences r.context)) ∧
        (∀ (p : Pair) (durationMs : UInt64),
          (p.result (.ofAnswer (tagSentences label r)) durationMs).success = true ↔
            WellLabelled (sentences r.context) labels ∧ 1 ∈ labels) ∧
        ∀ (hits : List HitData) (configs : List FieldConfig) (replies : Batch.Replies)
          (events : List Batch.Event) (b : Batch) (results : List FieldResult),
          Batch.Undisturbed hits configs replies events b results →
          ∀ (i j : Nat) (hi : i < hits.length) (hj : j < configs.length),
            Batch.requestAlone? hits[i] configs[j] = some r →
            replies (i * configs.length + j) r = .ofAnswer (tagSentences label r) →
            ∃ result, results[i * configs.length + j]? = some result ∧
              (result.success = true ↔
                WellLabelled (sentences r.context) labels ∧ 1 ∈ labels) := by
  refine ⟨?_, fun labels hlabels => ⟨tagSentences_malformed hlabels,
    tagSentences_eq_empty_iff hlabels, ?_, success_result_iff hlabels, ?_⟩⟩
  · intro hnil
    unfold tagSentences
    rw [hnil]
    exact ⟨_, rfl⟩
  · intro h h1
    refine ⟨?_, joined_ne_empty (fun _ => ne_empty_of_mem_sentences) h _ _, ?_⟩
    · rw [tagSentences_ok hlabels h, if_pos h1]
    · intro hpre hpost
      -- without tags the marked sentences are the sentences, joined by blanks as they were
      rw [hpre, hpost]
      unfold joined
      rw [zipWith_marked_empty h.length_eq]
      exact Text.sentences_intercalate r.context
  · intro hits configs replies events b results h i j hi hj hasked hreply
    exact success_entry_iff hlabels h hi hj hasked hreply

/-- A hit whose text is three sentences. -/
def threefold : HitData :=
  { source := some [("t", .string " Was? Das v1.2!  ... ")] }

def emphasis : FieldConfig := ⟨"t", "labels", "v1", "<em>", "</em>", true⟩

/-- A model that marks the sentence in the middle, if there are three. -/
def middle (ss : List String) : Except Fault (List Int) :=
  if ss.length = 3 then .ok [0, 1, 0] else .error (.plain "not three sentences")

/-- One pair, from its visit to its result. -/
def onePair : List Batch.Event :=
  [.visit, .submit (.ok ()), .visit, .look, .start 0 0,
   .reply 0 (.text "Was? <em>Das v1.2!</em> ...") 7, .report 0, .receive, .look, .settle,
   .conclude 8 8000000]

/-- The model that marks the sentence in the middle, in a batch over one pair. -/
theorem tagSentences_answers_middle :
    ∃ b results,
      Batch.Undisturbed [threefold] [emphasis] (fun _ q => .ofAnswer (tagSentences middle q))
        onePair b results ∧
        tagSentences middle ⟨"labels", "v1", " Was? Das v1.2!  ... ", "", ""⟩ =
          .ok "Was? Das v1.2! ..." ∧
        sentences "Was? Das v1.2! ..." = ["Was?", "Das v1.2!", "..."] ∧
        ∃ result, results[0]? = some result ∧ result.success = true := by
  have hsentences : sentences " Was? Das v1.2!  ... " = ["Was?", "Das v1.2!", "..."] := by
    decide
  have hlabels : middle (sentences " Was? Das v1.2!  ... ") = .ok [0, 1, 0] := by
    rw [hsentences]
    rfl
  -- three sentences, of which the one in the middle is labelled
  have hwell : WellLabelled (sentences " Was? Das v1.2!  ... ") [0, 1, 0] := by
    rw [hsentences]
    exact ⟨by decide, rfl, by decide⟩
  have hrun : ((Batch.begin [threefold] [emphasis] false).run? onePair).map
      (fun b => (b.stage, b.expired, b.cancelled)) =
        some (.returned (.completed
          [.succeeded 0 "t" "Was? <em>Das v1.2!</em> ..." 7] 8000000), false, false) := by
    decide
  obtain ⟨b, hb, heq⟩ := Option.map_eq_some_iff.1 hrun
  obtain ⟨hstage, hexpired, hcancelled⟩ : b.stage = _ ∧ b.expired = _ ∧ b.cancelled = _ := by
    simpa only [Prod.mk.injEq] using heq
  have hund : Batch.Undisturbed [threefold] [emphasis]
      (fun _ q => .ofAnswer (tagSentences middle q)) onePair b _ :=
    ⟨hb, by decide, ⟨_, hstage, rfl⟩, hexpired, hcancelled⟩
  obtain ⟨-, hplain⟩ :=
    tagSentences_answers middle ⟨"labels", "v1", " Was? Das v1.2!  ... ", "", ""⟩
  obtain ⟨-, -, hmarks, -, -⟩ := hplain [0, 1, 0] hlabels
  obtain ⟨hanswer, -, hsame⟩ := hmarks hwell (by decide)
  have hjoined : joined "" "" (sentences " Was? Das v1.2!  ... ") [0, 1, 0] =
      "Was? Das v1.2! ..." := by
    rw [hsentences]
    decide
  dsimp only at hanswer hsame
  rw [hjoined] at hanswer hsame
  obtain ⟨-, htagged⟩ :=
    tagSentences_answers middle ⟨"labels", "v1", " Was? Das v1.2!  ... ", "<em>", "</em>"⟩
  obtain ⟨-, -, -, -, hbatch⟩ := htagged [0, 1, 0] hlabels
  obtain ⟨result, hresult, hiff⟩ := hbatch _ _ _ _ _ _ hund 0 0 (by decide) (by decide)
    (by decide) rfl
  exact ⟨b, _, hund, hanswer, (hsame rfl rfl).trans hsentences, result, hresult,
    hiff.2 ⟨hwell, by decide⟩⟩

end SemanticHighlight.Inference
