import SemanticHighlight.Json.Basic

/-!
# Reading JSON text

The reader is strict: it takes the whole text, and refuses raw control characters
in strings, leading zeros, and anything else outside the grammar. Places that are
well formed but stand for nothing are read as `Json.unreadable`, so that a reader
of records may pass over them where it ignores a member.

Every function answers with what it read and the characters after it.
-/

namespace SemanticHighlight.Json

namespace Reader

/-- The blanks between the tokens. -/
def isSpace (c : Char) : Bool := c == ' ' || c == '\n' || c == '\t' || c == '\r'

/-- The text without blanks at its front. -/
def skip (cs : List Char) : List Char := cs.dropWhile isSpace

/-! ## Strings -/

/-- The value of a hexadecimal digit. -/
def hexValue? (c : Char) : Option Nat :=
  if '0' ≤ c ∧ c ≤ '9' then some (c.toNat - '0'.toNat)
  else if 'a' ≤ c ∧ c ≤ 'f' then some (c.toNat - 'a'.toNat + 10)
  else if 'A' ≤ c ∧ c ≤ 'F' then some (c.toNat - 'A'.toNat + 10)
  else none

/-- The character after a backslash, other than `u`. -/
def unescape? : Char → Option Char
  | '"' => some '"'
  | '\\' => some '\\'
  | '/' => some '/'
  | 'b' => some '\x08'
  | 'f' => some '\x0c'
  | 'n' => some '\n'
  | 'r' => some '\r'
  | 't' => some '\t'
  | _ => none

/-- The code units of a string after its opening quote. A character counts as its
code point, and an escape may be half of a surrogate pair. -/
def units : List Char → Option (List Nat × List Char)
  | '"' :: rest => some ([], rest)
  | '\\' :: 'u' :: a :: b :: c :: d :: rest => do
    let a ← hexValue? a
    let b ← hexValue? b
    let c ← hexValue? c
    let d ← hexValue? d
    let (us, rest) ← units rest
    some ((((a * 16 + b) * 16 + c) * 16 + d) :: us, rest)
  | '\\' :: c :: rest => do
    let c ← unescape? c
    let (us, rest) ← units rest
    some (c.toNat :: us, rest)
  | c :: rest =>
    if c.toNat < 0x20 then none
    else do
      let (us, rest) ← units rest
      some (c.toNat :: us, rest)
  | [] => none

/-- The first half of a surrogate pair. -/
def isHigh (u : Nat) : Bool := 0xD800 ≤ u && u < 0xDC00

/-- The second half of a surrogate pair. -/
def isLow (u : Nat) : Bool := 0xDC00 ≤ u && u < 0xE000

/-- The characters that code units stand for, unless half a pair stands alone. -/
def join : List Nat → Option (List Char)
  | [] => some []
  | [u] => if isHigh u || isLow u then none else some [Char.ofNat u]
  | u :: v :: us =>
    if isHigh u then
      if isLow v then
        (join us).map (Char.ofNat (0x10000 + (u - 0xD800) * 0x400 + (v - 0xDC00)) :: ·)
      else none
    else if isLow u then none
    else (join (v :: us)).map (Char.ofNat u :: ·)

/-- A string after its opening quote; `none` in place of the string when half a
surrogate pair stands alone in it. -/
def text (cs : List Char) : Option (Option String × List Char) := do
  let (us, rest) ← units cs
  some ((join us).map String.ofList, rest)

/-! ## Numbers -/

/-- The value of a decimal digit. -/
def digit? (c : Char) : Option Nat :=
  if '0' ≤ c ∧ c ≤ '9' then some (c.toNat - '0'.toNat) else none

/-- The digits at the front. -/
def digits : List Char → List Nat × List Char
  | [] => ([], [])
  | c :: rest =>
    match digit? c with
    | none => ([], c :: rest)
    | some d => let (ds, rest) := digits rest; (d :: ds, rest)

/-- The digits at the front, at least one. -/
def someDigits (cs : List Char) : Option (List Nat × List Char) :=
  match digits cs with
  | ([], _) => none
  | found => some found

/-- The digits before the point: a zero, or digits that do not start with one. -/
def whole : List Char → Option (List Nat × List Char)
  | '0' :: rest => some ([0], rest)
  | cs => someDigits cs

/-- The digits after the point, if there is one. -/
def fraction : List Char → Option (List Nat × List Char)
  | '.' :: rest => someDigits rest
  | cs => some ([], cs)

/-- The number with the given decimal digits. -/
def ofDigits (ds : List Nat) : Nat := ds.foldl (fun n d => n * 10 + d) 0

/-- The exponent after its letter. -/
def signedExponent : List Char → Option (Int × List Char)
  | '-' :: rest => (someDigits rest).map fun (ds, rest) => (-(ofDigits ds : Int), rest)
  | '+' :: rest => (someDigits rest).map fun (ds, rest) => ((ofDigits ds : Int), rest)
  | cs => (someDigits cs).map fun (ds, rest) => ((ofDigits ds : Int), rest)

/-- The exponent, if there is one. -/
def exponent : List Char → Option (Option Int × List Char)
  | 'e' :: rest | 'E' :: rest => (signedExponent rest).map fun (e, rest) => (some e, rest)
  | cs => some (none, cs)

/-- A number without its sign. -/
def unsigned (negative : Bool) (cs : List Char) : Option (Json × List Char) := do
  let (ws, cs) ← whole cs
  let (fs, cs) ← fraction cs
  let (e, cs) ← exponent cs
  some (((Number.ofLiteral? negative ws fs e).map Json.number).getD .unreadable, cs)

/-! ## Documents -/

mutual

/-- A document, with no blanks in front. Each step into or along an array or object
takes one unit of fuel, and each takes a character, so the length of the text is
fuel enough. -/
def document : Nat → List Char → Option (Json × List Char)
  | 0, _ => none
  | _ + 1, 'n' :: 'u' :: 'l' :: 'l' :: rest => some (.null, rest)
  | _ + 1, 't' :: 'r' :: 'u' :: 'e' :: rest => some (.bool true, rest)
  | _ + 1, 'f' :: 'a' :: 'l' :: 's' :: 'e' :: rest => some (.bool false, rest)
  | _ + 1, '"' :: rest => do
    let (s, rest) ← text rest
    some ((s.map Json.string).getD .unreadable, rest)
  | fuel + 1, '[' :: rest =>
    match skip rest with
    | ']' :: rest => some (.array [], rest)
    | cs => do
      let (js, rest) ← items fuel cs
      some (.array js, rest)
  | fuel + 1, '{' :: rest =>
    match skip rest with
    | '}' :: rest => some (.object [], rest)
    | cs => do
      let (ms, rest) ← members fuel cs
      some ((ms.map Json.object).getD .unreadable, rest)
  | _ + 1, '-' :: rest => unsigned true rest
  | _ + 1, cs => unsigned false cs

/-- The items of an array, at least one, and its end. -/
def items : Nat → List Char → Option (List Json × List Char)
  | 0, _ => none
  | fuel + 1, cs => do
    let (j, cs) ← document fuel cs
    match skip cs with
    | ']' :: rest => some ([j], rest)
    | ',' :: rest =>
      let (js, rest) ← items fuel (skip rest)
      some (j :: js, rest)
    | _ => none

/-- The members of an object, at least one, and its end; `none` in place of the
members when one of the keys has no reading. -/
def members : Nat → List Char → Option (Option (List (String × Json)) × List Char)
  | 0, _ => none
  | fuel + 1, cs =>
    match cs with
    | '"' :: rest => do
      let (key, rest) ← text rest
      match skip rest with
      | ':' :: rest =>
        let (j, rest) ← document fuel (skip rest)
        let pair? := key.map (·, j)
        match skip rest with
        | '}' :: rest => some (pair?.map ([·]), rest)
        | ',' :: rest =>
          let (ms?, rest) ← members fuel (skip rest)
          some (do some ((← pair?) :: (← ms?)), rest)
        | _ => none
      | _ => none
    | _ => none

end

end Reader

/-- The document that a whole text is. -/
def parse? (s : String) : Option Json :=
  let cs := s.toList
  match Reader.document (2 * cs.length + 2) (Reader.skip cs) with
  | some (j, rest) => if Reader.skip rest = [] then some j else none
  | none => none

/-- How many arrays and objects may be nested in a text. -/
def nestingLimit : Nat := 127

end SemanticHighlight.Json
