import SemanticHighlight.Text.Sentence

/-!
# Sentences between boundaries

The same sentences, cut out by offsets. A finder reports the boundaries of a text, runs of
marks with blanks behind them, and a sentence lies between the end of one boundary and the end
of the marks of the next. Offsets count bytes of UTF-8, and a slice is there only if its ends
are in order, inside the text, and between two characters.
-/

namespace SemanticHighlight.Text

/-- A boundary: the offsets where its marks and where its blanks end. -/
structure Boundary where
  marksEnd : Nat
  blanksEnd : Nat
deriving DecidableEq, Repr

/-- How many bytes a text has. -/
def byteLength : List Char → Nat
  | [] => 0
  | c :: cs => c.utf8Size + byteLength cs

/-! ## Slices -/

/-- The text behind an offset, if the offset is one between characters. -/
def dropBytes? (n : Nat) : List Char → Option (List Char)
  | [] => if n = 0 then some [] else none
  | c :: cs =>
    if n = 0 then some (c :: cs)
    else if c.utf8Size ≤ n then dropBytes? (n - c.utf8Size) cs
    else none

/-- The text in front of an offset, if the offset is one between characters. -/
def takeBytes? (n : Nat) : List Char → Option (List Char)
  | [] => if n = 0 then some [] else none
  | c :: cs =>
    if n = 0 then some []
    else if c.utf8Size ≤ n then (takeBytes? (n - c.utf8Size) cs).map (c :: ·)
    else none

/-- The text between two offsets. -/
def slice? (start stop : Nat) (cs : List Char) : Option (List Char) :=
  if start ≤ stop then (dropBytes? start cs).bind (takeBytes? (stop - start)) else none

/-! ## Cutting -/

/-- The sentences of a text from an offset on, cut at boundaries; nothing if a slice is not
there. -/
def cutAt? (cs : List Char) (start : Nat) : List Boundary → Option (List (List Char))
  | [] =>
    if start < byteLength cs then (slice? start (byteLength cs) cs).map ([·]) else some []
  | b :: bs => do
    let s ← slice? start b.marksEnd cs
    let ss ← cutAt? cs b.blanksEnd bs
    some (s :: ss)

/-- The sentences of a text, cut at the boundaries that a finder reports. -/
def sentencesAt? (find : List Char → List Boundary) (s : String) : Option (List String) :=
  let cs := trim s.toList
  if cs.isEmpty then some [] else (cutAt? cs 0 (find cs)).map (·.map String.ofList)

/-! ## Boundaries -/

/-- Whether a text starts with marks and blanks behind them, at least one of each. -/
structure Matches (cs marks blanks : List Char) : Prop where
  front : ∃ rest, cs = marks ++ blanks ++ rest
  hasMark : marks ≠ []
  marks : ∀ c ∈ marks, isStop c = true
  hasBlank : blanks ≠ []
  blanks : ∀ c ∈ blanks, isBlank c = true

/-- What a finder is to report of a text that stands behind `n` bytes: the match that starts
first, of those that start there the one with most marks and then with most blanks, and so on
behind it; and nothing when there is no match. -/
inductive Finds : Nat → List Char → List Boundary → Prop
  | none {n : Nat} {cs : List Char}
      (h : ∀ front back marks blanks, cs = front ++ back → ¬ Matches back marks blanks) :
      Finds n cs []
  | next {n : Nat} {front marks blanks rest : List Char} {bs : List Boundary}
      (hmatch : Matches (marks ++ blanks ++ rest) marks blanks)
      (first : ∀ front' back marks' blanks', front ++ (marks ++ blanks ++ rest) = front' ++ back →
        front'.length < front.length → ¬ Matches back marks' blanks')
      (most : ∀ marks' blanks', Matches (marks ++ blanks ++ rest) marks' blanks' →
        marks'.length < marks.length ∨
          marks'.length = marks.length ∧ blanks'.length ≤ blanks.length)
      (hrest : Finds (n + byteLength (front ++ marks ++ blanks)) rest bs) :
      Finds n (front ++ (marks ++ blanks ++ rest))
        (⟨n + byteLength (front ++ marks), n + byteLength (front ++ marks ++ blanks)⟩ :: bs)

/-- The boundaries of a text that stands behind `n` bytes, found character by character. -/
def boundaries (n : Nat) (cs : List Char) : List Boundary :=
  let marks := cs.takeWhile isStop
  let blanks := (cs.dropWhile isStop).takeWhile isBlank
  match cs with
  | [] => []
  | c :: rest =>
    if marks ≠ [] ∧ blanks ≠ [] then
      ⟨n + byteLength marks, n + byteLength (marks ++ blanks)⟩ ::
        boundaries (n + byteLength (marks ++ blanks))
          ((rest.dropWhile isStop).dropWhile isBlank)
    else boundaries (n + c.utf8Size) rest
  termination_by cs.length
  decreasing_by
    · have hstops := (List.dropWhile_sublist isStop (l := rest)).length_le
      have hblanks := (List.dropWhile_sublist isBlank (l := rest.dropWhile isStop)).length_le
      simp only [List.length_cons]
      omega
    · simp

end SemanticHighlight.Text
