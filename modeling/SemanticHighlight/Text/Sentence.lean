import SemanticHighlight.Text.Blank

/-!
# Sentences

A text is cut at each run of blanks that follows a full stop, an exclamation mark or
a question mark. The mark stays with its sentence and the blanks are dropped.
-/

namespace SemanticHighlight.Text

/-- The marks that end a sentence. -/
def isStop (c : Char) : Bool := c = '.' || c = '!' || c = '?'

/-- Whether a text starts with a blank. -/
def startsBlank : List Char → Bool
  | [] => false
  | c :: _ => isBlank c

/-- The sentences with a character in front of the first. -/
def extendFirst (c : Char) : List (List Char) → List (List Char)
  | [] => [[c]]
  | s :: ss => (c :: s) :: ss

/-- The sentences of a text that starts with a sentence, or in the blanks before one
when `between` is set. -/
def cut (between : Bool) : List Char → List (List Char)
  | [] => []
  | c :: cs =>
    if between && isBlank c then cut true cs
    else if isStop c && startsBlank cs then [c] :: cut true cs
    else extendFirst c (cut false cs)

def sentences (s : String) : List String := (cut false (trim s.toList)).map String.ofList

end SemanticHighlight.Text
