import SemanticHighlight.Batch.Pair
import SemanticHighlight.Proofs.Text.Sentences

/-!
# Sentences between the boundaries of a text

A finder that reports the matches of a text, leftmost first and each as long as it can be
(`Finds`), says where the sentences are: between the boundaries it reports. `Finds.splits` is the
induction on the boundaries: the text behind what is cut off already is split, and each slice
that is taken lies in the text and between two characters. `finds_boundaries` says that there is
such a finder.

Main statement (`sentences_split`): whatever finder is used, cutting at its boundaries gives the
sentences of the text and never a slice that is not there; a text has no sentences exactly if it
is blank; and otherwise its sentences are the only way to split it, also when they are joined
by single blanks and split again.
-/

namespace SemanticHighlight.Text

/-! ## Offsets -/

@[simp] theorem byteLength_nil : byteLength [] = 0 := rfl

@[simp] theorem byteLength_cons (c : Char) (cs : List Char) :
    byteLength (c :: cs) = c.utf8Size + byteLength cs := rfl

/-- Lengths in bytes add up. -/
@[simp] theorem byteLength_append (cs ds : List Char) :
    byteLength (cs ++ ds) = byteLength cs + byteLength ds := by
  induction cs with
  | nil => exact (Nat.zero_add _).symm
  | cons c cs ih =>
    rw [List.cons_append, byteLength_cons, byteLength_cons, ih]
    exact (Nat.add_assoc _ _ _).symm

/-- A text that is not empty has bytes. -/
theorem byteLength_pos {cs : List Char} (h : cs ≠ []) : 0 < byteLength cs := by
  cases cs with
  | nil => exact absurd rfl h
  | cons c cs =>
    rw [byteLength_cons]
    exact Nat.add_pos_left c.utf8Size_pos _

theorem dropBytes?_zero (cs : List Char) : dropBytes? 0 cs = some cs := by
  cases cs <;> rfl

theorem takeBytes?_zero (cs : List Char) : takeBytes? 0 cs = some [] := by
  cases cs <;> rfl

/-- Dropping as many bytes as the front has leaves the back, at a boundary of characters. -/
theorem dropBytes?_append (front back : List Char) :
    dropBytes? (byteLength front) (front ++ back) = some back := by
  induction front with
  | nil => exact dropBytes?_zero back
  | cons c front ih =>
    have hpos := c.utf8Size_pos
    rw [List.cons_append, byteLength_cons]
    unfold dropBytes?
    rw [if_neg (by omega), if_pos (by omega), Nat.add_sub_cancel_left, ih]

/-- Taking as many bytes as the front has gives the front. -/
theorem takeBytes?_append (front back : List Char) :
    takeBytes? (byteLength front) (front ++ back) = some front := by
  induction front with
  | nil => exact takeBytes?_zero back
  | cons c front ih =>
    have hpos := c.utf8Size_pos
    rw [List.cons_append, byteLength_cons]
    unfold takeBytes?
    rw [if_neg (by omega), if_pos (by omega), Nat.add_sub_cancel_left, ih]
    rfl

/-- A slice between the offsets of two places in the text. -/
theorem slice?_append (front s back : List Char) :
    slice? (byteLength front) (byteLength front + byteLength s) (front ++ (s ++ back)) =
      some s := by
  unfold slice?
  rw [if_pos (Nat.le_add_right _ _), dropBytes?_append, Option.bind_some, Nat.add_sub_cancel_left,
    takeBytes?_append]

/-! ## Matches -/

/-- The marks of a match are those at the front of the text, all of them. -/
theorem Matches.marks_eq {cs marks blanks : List Char} (h : Matches cs marks blanks) :
    cs.takeWhile isStop = marks ∧
      ∃ rest, cs.dropWhile isStop = blanks ++ rest := by
  obtain ⟨rest, rfl⟩ := h.front
  obtain ⟨b, blanks, rfl⟩ := List.exists_cons_of_ne_nil h.hasBlank
  have hb : isStop b = false := isStop_of_isBlank (h.blanks b List.mem_cons_self)
  rw [List.append_assoc, List.takeWhile_append_of_pos h.marks, List.dropWhile_append_of_pos h.marks]
  rw [List.cons_append, List.takeWhile_cons_of_neg (by simp [hb]), List.append_nil,
    List.dropWhile_cons_of_neg (by simp [hb])]
  exact ⟨rfl, rest, rfl⟩

/-- A mark that a blank follows is a match. -/
theorem matches_pair {c d : Char} (rest : List Char) (hc : isStop c = true)
    (hd : isBlank d = true) : Matches (c :: d :: rest) [c] [d] where
  front := ⟨rest, rfl⟩
  hasMark := List.cons_ne_nil _ _
  marks := by simpa using hc
  hasBlank := List.cons_ne_nil _ _
  blanks := by simpa using hd

/-! ## Cutting at what a finder reports -/

section Finds

variable {n : Nat} {cs front marks blanks back : List Char} {bs : List Boundary}

/-- Text in which no match starts is unbroken, also with marks behind it. -/
theorem unbroken_of_first
    (first : ∀ front' back' marks' blanks', front ++ (marks ++ back) = front' ++ back' →
      front'.length < front.length → ¬ Matches back' marks' blanks')
    (hmarks : ∀ c ∈ marks, isStop c = true) (front' : List Char) (c d : Char) (rest : List Char)
    (heq : front ++ marks = front' ++ c :: d :: rest) (hc : isStop c = true) :
    isBlank d = false := by
  cases hd : isBlank d with
  | false => rfl
  | true =>
    -- there is no blank among the marks, so the place lies in front of them
    have hlt : front'.length < front.length := by
      refine Nat.lt_of_not_le fun hle => ?_
      have hdrop := congrArg (List.drop front.length) heq
      rw [List.drop_left, List.drop_append_of_le_length hle] at hdrop
      have hstop := hmarks d (by rw [hdrop]; simp)
      rw [isStop_of_isBlank hd] at hstop
      cases hstop
    refine absurd (matches_pair (rest ++ back) hc hd) (first front' _ _ _ ?_ hlt)
    rw [← List.append_assoc, heq]
    simp

/-- The text in front of the first match, with the marks of the match, is a sentence. -/
theorem isSentence_of_first (hmatch : Matches (marks ++ blanks ++ back) marks blanks)
    (first : ∀ front' back' marks' blanks',
      front ++ (marks ++ blanks ++ back) = front' ++ back' → front'.length < front.length →
        ¬ Matches back' marks' blanks')
    (hstarts : ∀ c, (front ++ (marks ++ blanks ++ back)).head? = some c → isBlank c = false) :
    IsSentence (front ++ marks) ∧ EndsInStop (front ++ marks) := by
  obtain ⟨c, hc⟩ : ∃ c, marks.getLast? = some c :=
    ⟨_, List.getLast?_eq_some_getLast hmatch.hasMark⟩
  have hstop : isStop c = true := hmatch.marks c (List.mem_of_getLast? hc)
  have hlast : (front ++ marks).getLast? = some c := by
    rw [List.getLast?_append_of_ne_nil _ hmatch.hasMark, hc]
  have hne : front ++ marks ≠ [] := List.append_ne_nil_of_right_ne_nil _ hmatch.hasMark
  refine ⟨⟨hne, ?_, ?_, ?_⟩, c, hlast, hstop⟩
  · intro d hd
    refine hstarts d ?_
    rw [← hd, ← @List.head?_append_of_ne_nil _ _ (blanks ++ back) hne]
    simp
  · intro d hd
    rw [hlast] at hd
    cases hd
    exact isBlank_of_isStop hstop
  · -- an earlier mark before a blank would have been an earlier match
    rw [List.append_assoc] at first
    exact unbroken_of_first first hmatch.marks

/-- What is behind the blanks of a match has no blanks at its ends either. -/
theorem isTrim_behind (hmatch : Matches (marks ++ blanks ++ back) marks blanks)
    (most : ∀ marks' blanks', Matches (marks ++ blanks ++ back) marks' blanks' →
      marks'.length < marks.length ∨
        marks'.length = marks.length ∧ blanks'.length ≤ blanks.length)
    (ends : ∀ c, (front ++ (marks ++ blanks ++ back)).getLast? = some c → isBlank c = false) :
    IsTrim back := by
  -- the text does not end in a blank, so something stands behind the match
  have hne : back ≠ [] := by
    rintro rfl
    obtain ⟨c, hc⟩ : ∃ c, blanks.getLast? = some c :=
      ⟨_, List.getLast?_eq_some_getLast hmatch.hasBlank⟩
    have hblank := hmatch.blanks c (List.mem_of_getLast? hc)
    have hlast : (front ++ (marks ++ blanks ++ [])).getLast? = some c := by
      rw [List.append_nil, ← List.append_assoc,
        List.getLast?_append_of_ne_nil _ hmatch.hasBlank, hc]
    rw [ends c hlast] at hblank
    cases hblank
  refine ⟨hne, ?_, ?_⟩
  · -- a blank at the front would have belonged to the match
    intro c hc
    cases hblank : isBlank c with
    | false => rfl
    | true =>
      obtain ⟨back, rfl⟩ : ∃ tail, back = c :: tail := List.head?_eq_some_iff.1 hc
      have hlonger : Matches (marks ++ blanks ++ c :: back) marks (blanks ++ [c]) :=
        ⟨⟨back, by simp⟩, hmatch.hasMark, hmatch.marks, by simp, by
          intro d hd
          rcases List.mem_append.1 hd with hd | hd
          · exact hmatch.blanks d hd
          · rw [List.mem_singleton.1 hd]
            exact hblank⟩
      have hlength := most _ _ hlonger
      rw [List.length_append, List.length_singleton] at hlength
      omega
  · intro c hc
    refine ends c ?_
    rw [← List.append_assoc, List.getLast?_append_of_ne_nil _ hne, hc]

/-- Without a boundary left the rest is one slice. -/
theorem cutAt?_nil {before : List Char} (hcs : cs ≠ []) :
    cutAt? (before ++ cs) (byteLength before) [] = some [cs] := by
  have hslice := slice?_append before cs []
  rw [List.append_nil] at hslice
  unfold cutAt?
  rw [byteLength_append, if_pos (Nat.lt_add_of_pos_right (byteLength_pos hcs)), hslice]
  rfl

/-- **Cutting at what a finder reports.** The text behind what is cut off already is split, and
every slice that is taken of the whole text is there. -/
theorem Finds.splits (h : Finds n cs bs) (hcs : IsTrim cs) :
    ∃ ss ws, Splits cs ss ws ∧
      ∀ before, byteLength before = n → cutAt? (before ++ cs) n bs = some ss := by
  induction h with
  -- without a match nothing breaks the text, which is one sentence
  | @none n cs hnone =>
    have hsentence : IsSentence cs := by
      refine ⟨hcs.nonempty, hcs.starts, hcs.ends, ?_⟩
      have hunbroken := @unbroken_of_first cs [] []
        (fun front' back' marks' blanks' heq _ =>
          hnone front' back' marks' blanks' (by simpa using heq))
        (fun _ hc => absurd hc List.not_mem_nil)
      rwa [List.append_nil] at hunbroken
    refine ⟨[cs], [], .last hsentence, ?_⟩
    rintro before rfl
    exact cutAt?_nil hcs.nonempty
  -- up to the first match goes a sentence, and the rest is split by induction
  | @next n front marks blanks back bs hmatch first most _ ih =>
    obtain ⟨hsentence, hstop⟩ := isSentence_of_first hmatch first hcs.starts
    obtain ⟨ss, ws, hsplits, hcut⟩ := ih (isTrim_behind hmatch most hcs.ends)
    have htext : front ++ (marks ++ blanks ++ back) = front ++ marks ++ (blanks ++ back) := by simp
    refine ⟨(front ++ marks) :: ss, blanks :: ws, ?_, ?_⟩
    · rw [htext]
      exact .more hsentence hstop ⟨hmatch.hasBlank, hmatch.blanks⟩ hsplits
    · rintro before rfl
      have hbehind := hcut (before ++ (front ++ marks ++ blanks)) (byteLength_append _ _)
      rw [show before ++ (front ++ marks ++ blanks) ++ back =
        before ++ (front ++ marks ++ (blanks ++ back)) by simp] at hbehind
      unfold cutAt?
      rw [htext, slice?_append before (front ++ marks) (blanks ++ back), hbehind]
      rfl

/-! ## A finder -/

/-- A character at which no match starts is passed over. -/
theorem Finds.cons {c : Char} (hnot : ∀ marks blanks, ¬ Matches (c :: cs) marks blanks)
    (h : Finds (n + c.utf8Size) cs bs) : Finds n (c :: cs) bs := by
  -- a character at which nothing matches moves to the front of the first match
  cases h with
  | none hnone =>
    refine .none fun front back marks blanks heq => ?_
    cases front with
    | nil =>
      obtain rfl : c :: cs = back := heq
      exact hnot marks blanks
    | cons d front => exact hnone front back marks blanks (List.cons.inj heq).2
  | @next _ front marks blanks back bs hmatch first most hrest =>
    have hnext := @Finds.next n (c :: front) marks blanks back bs hmatch ?_ most ?_
    · simpa [Nat.add_assoc] using hnext
    · intro front' back' marks' blanks' heq hlt
      cases front' with
      | nil =>
        obtain rfl : c :: (front ++ (marks ++ blanks ++ back)) = back' := heq
        exact hnot marks' blanks'
      | cons d front' =>
        exact first front' back' marks' blanks' (List.cons.inj heq).2 (Nat.lt_of_succ_lt_succ hlt)
    · simpa [Nat.add_assoc] using hrest

/-- A match at the front has all the marks there, and no more than the blanks behind them. -/
theorem Matches.length_le (h : Matches cs marks blanks) :
    cs.takeWhile isStop = marks ∧
      blanks.length ≤ ((cs.dropWhile isStop).takeWhile isBlank).length := by
  obtain ⟨hmarks, rest, hbehind⟩ := h.marks_eq
  refine ⟨hmarks, ?_⟩
  rw [hbehind, List.takeWhile_append_of_pos h.blanks, List.length_append]
  exact Nat.le_add_right _ _

/-- The boundaries that are collected in one pass from left to right are the matches of the pattern,
as a leftmost search finds them. The induction is on the text, with what has been passed so far
generalised. -/
theorem finds_boundaries (n : Nat) (cs : List Char) : Finds n cs (boundaries n cs) := by
  fun_induction boundaries n cs with
  | case1 =>
    refine .none fun front back marks blanks heq hmatch => ?_
    obtain ⟨rest, hback⟩ := hmatch.front
    have hmarks := hmatch.hasMark
    rw [hback] at heq
    simp_all
  -- marks and blanks are found right here, and both runs are taken whole
  | case2 n c rest marks blanks hfound ih =>
    obtain ⟨hmarks, hblanks⟩ := hfound
    have hc : isStop c = true := by
      cases hc : isStop c with
      | true => rfl
      | false => exact absurd (List.takeWhile_cons_of_neg (by simp [hc])) hmarks
    have hbehind : (c :: rest).dropWhile isStop = rest.dropWhile isStop :=
      List.dropWhile_cons_of_pos hc
    have htext : c :: rest =
        [] ++ (marks ++ blanks ++ (rest.dropWhile isStop).dropWhile isBlank) := by
      rw [List.nil_append, List.append_assoc, ← hbehind, List.takeWhile_append_dropWhile,
        List.takeWhile_append_dropWhile]
    have hmatch : Matches (marks ++ blanks ++ (rest.dropWhile isStop).dropWhile isBlank)
        marks blanks :=
      ⟨⟨_, rfl⟩, hmarks, List.all_eq_true.1 List.all_takeWhile, hblanks,
        List.all_eq_true.1 List.all_takeWhile⟩
    have hnext := @Finds.next n [] marks blanks _ _ hmatch
      (fun _ _ _ _ _ hlt => absurd hlt (Nat.not_lt_zero _)) ?_ ih
    · rw [htext]
      exact hnext
    · intro marks' blanks' hmatch'
      rw [← List.nil_append (marks ++ blanks ++ _), ← htext] at hmatch'
      obtain ⟨rfl, hle⟩ := hmatch'.length_le
      exact .inr ⟨rfl, hle⟩
  -- nothing matches here, so the search goes on behind this character
  | case3 n c rest marks blanks hnot ih =>
    refine ih.cons fun marks' blanks' hmatch => hnot ?_
    obtain ⟨hmarks, hle⟩ := hmatch.length_le
    refine ⟨fun h => hmatch.hasMark (hmarks ▸ h), fun h => hmatch.hasBlank ?_⟩
    rw [show (((c :: rest).dropWhile isStop).takeWhile isBlank) = [] from h] at hle
    exact List.length_eq_zero_iff.1 (Nat.le_zero.1 hle)

end Finds

/-! ## Sentences -/

/-- The sentences of a text that is split. -/
theorem Splits.sentences_eq {t : String} {ss ws : List (List Char)}
    (h : Splits (trim t.toList) ss ws) : sentences t = ss.map String.ofList := by
  unfold sentences
  rw [h.cut_eq]

theorem map_toList_ofList (ss : List (List Char)) :
    (ss.map String.ofList).map String.toList = ss := by
  rw [List.map_map]
  exact (List.map_congr_left fun s _ => String.toList_ofList).trans (List.map_id ss)

/-- Every text that is not blank can be split. -/
theorem exists_splits {t : String} (h : allBlank t = false) :
    ∃ ws, Splits (trim t.toList) ((sentences t).map String.toList) ws := by
  have hne : trim t.toList ≠ [] := fun hnil => by
    rw [show allBlank t = true from trim_eq_nil_iff.1 hnil] at h
    cases h
  obtain ⟨ss, ws, hsplits, -⟩ := (finds_boundaries 0 _).splits (isTrim_trim hne)
  rw [hsplits.sentences_eq, map_toList_ofList]
  exact ⟨ws, hsplits⟩

/-- A text has no sentences exactly if it is blank. -/
theorem sentences_eq_nil_iff {t : String} : sentences t = [] ↔ allBlank t = true := by
  constructor
  · intro h
    cases hblank : allBlank t with
    | true => rfl
    | false =>
      obtain ⟨ws, hsplits⟩ := exists_splits hblank
      exact absurd (List.map_eq_nil_iff.2 h) hsplits.ne_nil
  · intro h
    unfold sentences
    rw [trim_eq_nil_iff.2 h]
    rfl

/-- Cutting at the boundaries that a finder reports gives the sentences. -/
theorem sentencesAt?_eq {find : List Char → List Boundary} (hfind : ∀ cs, Finds 0 cs (find cs))
    (t : String) : sentencesAt? find t = some (sentences t) := by
  unfold sentencesAt?
  dsimp only
  by_cases hnil : trim t.toList = []
  · rw [hnil, sentences_eq_nil_iff.2 (trim_eq_nil_iff.1 hnil)]
    rfl
  · obtain ⟨ss, ws, hsplits, hcut⟩ := (hfind _).splits (isTrim_trim hnil)
    have hcut := hcut [] rfl
    rw [List.nil_append] at hcut
    rw [if_neg (by simpa using hnil), hcut, hsplits.sentences_eq]
    rfl

/-- The sentences of a text, joined by single blanks, are the sentences of that. -/
theorem sentences_intercalate (t : String) :
    sentences (" ".intercalate (sentences t)) = sentences t := by
  cases hblank : allBlank t with
  | true =>
    rw [sentences_eq_nil_iff.2 hblank]
    rfl
  | false =>
    obtain ⟨ws, hsplits⟩ := exists_splits hblank
    have hjoined := hsplits.joined
    have htrim : trim (" ".intercalate (sentences t)).toList =
        [' '].intercalate ((sentences t).map String.toList) := by
      rw [String.toList_intercalate]
      exact hjoined.isTrim.trim_eq
    rw [Splits.sentences_eq (htrim ▸ hjoined), List.map_map]
    exact (List.map_congr_left fun s _ => String.ofList_toList).trans (List.map_id _)

/-- **The sentences of a text.** Cutting at the boundaries that the finder reports takes no slice
that is out of range or inside a character, and gives the sentences. There are none exactly if
the text is blank, which is what decides whether a field is worked on at all. Otherwise the text
without the blanks at its ends is the sentences with the gaps between them, and there is no other
way to split it. Joined by single blanks, the sentences are split as they were. -/
theorem sentences_split {find : List Char → List Boundary} (hfind : ∀ cs, Finds 0 cs (find cs))
    (t : String) :
    sentencesAt? find t = some (sentences t) ∧
      (sentences t = [] ↔ allBlank t = true) ∧
      (∀ (i : Nat) (hit : HitData) (config : FieldConfig),
        (Pair.ofHit i hit config).context = some t → sentences t ≠ []) ∧
      (allBlank t = false →
        ∃ ws, Splits (trim t.toList) ((sentences t).map String.toList) ws ∧
          ∀ ss ws', Splits (trim t.toList) ss ws' →
            ss = (sentences t).map String.toList ∧ ws' = ws) ∧
      sentences (" ".intercalate (sentences t)) = sentences t := by
  refine ⟨sentencesAt?_eq hfind t, sentences_eq_nil_iff, ?_, ?_, sentences_intercalate t⟩
  · -- a pair keeps no blank text for its context
    intro i hit config hcontext hnil
    have hkept := (Option.filter_eq_some_iff.1 hcontext).2
    rw [sentences_eq_nil_iff.1 hnil] at hkept
    cases hkept
  · intro hblank
    obtain ⟨ws, hsplits⟩ := exists_splits hblank
    exact ⟨ws, hsplits, fun ss ws' h => hsplits.unique h⟩

/-- Marks inside a word, in a run, alone, and at the end; blanks of several kinds, and characters
of more than one byte. -/
def mixed : String := "\u2003Wie groß ist v1.2?! … \u00a0. Sehr!\tgroß.\n"

/-- A text with blanks at both ends, marks one behind another, a mark inside a word, and characters
of more than one byte. -/
theorem sentences_split_mixed :
    sentencesAt? (boundaries 0) mixed =
        some ["Wie groß ist v1.2?!", "… \u00a0.", "Sehr!", "groß."] ∧
      ∃ ws, Splits (trim mixed.toList)
          (["Wie groß ist v1.2?!", "… \u00a0.", "Sehr!", "groß."].map String.toList) ws ∧
        sentences "Wie groß ist v1.2?! … \u00a0. Sehr! groß." =
          ["Wie groß ist v1.2?!", "… \u00a0.", "Sehr!", "groß."] := by
  have hvalue : sentences mixed =
      ["Wie groß ist v1.2?!", "… \u00a0.", "Sehr!", "groß."] := by decide
  obtain ⟨hcut, -, -, hsplits, hagain⟩ := sentences_split (finds_boundaries 0) mixed
  obtain ⟨ws, hws, -⟩ := hsplits (by decide)
  rw [hvalue] at hcut hws hagain
  exact ⟨hcut, ws, hws, hagain⟩

end SemanticHighlight.Text
