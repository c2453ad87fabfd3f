import SemanticHighlight.Json.Basic

/-!
# Printing JSON

`Json.compact` prints a document without blanks, `Json.pretty` on indented lines.
Both are built from functions that put the characters of a part in front of the
characters that follow it, so that reading back can be stated of any following text.
-/

namespace SemanticHighlight.Json

/-! ## Strings -/

/-- A hexadecimal digit, in lower case. -/
def hexDigit (n : Nat) : Char :=
  if n < 10 then Char.ofNat ('0'.toNat + n) else Char.ofNat ('a'.toNat + (n - 10))

/-- A character inside a quoted string: quotes, backslashes and control characters
below the blank are escaped, and nothing else is. -/
def escaped (c : Char) : List Char :=
  match c with
  | '"' => ['\\', '"']
  | '\\' => ['\\', '\\']
  | '\n' => ['\\', 'n']
  | '\r' => ['\\', 'r']
  | '\t' => ['\\', 't']
  | '\x08' => ['\\', 'b']
  | '\x0c' => ['\\', 'f']
  | c =>
    if c.toNat < 0x20 then
      ['\\', 'u', '0', '0', hexDigit (c.toNat / 16), hexDigit (c.toNat % 16)]
    else [c]

/-- A quoted string in front of `rest`. -/
def quote (s : String) (rest : List Char) : List Char :=
  '"' :: s.toList.foldr (fun c tail => escaped c ++ tail) ('"' :: rest)

/-! ## Compact text -/

mutual

/-- A document without blanks, in front of `rest`. -/
def print : Json → List Char → List Char
  | .null, rest => 'n' :: 'u' :: 'l' :: 'l' :: rest
  | .bool true, rest => 't' :: 'r' :: 'u' :: 'e' :: rest
  | .bool false, rest => 'f' :: 'a' :: 'l' :: 's' :: 'e' :: rest
  | .number n, rest => n.chars ++ rest
  | .string s, rest => quote s rest
  | .array [], rest => '[' :: ']' :: rest
  | .array (j :: js), rest => '[' :: print j (printItems js rest)
  | .object [], rest => '{' :: '}' :: rest
  | .object ((k, j) :: ms), rest => '{' :: quote k (':' :: print j (printMembers ms rest))
  | .unreadable, rest => 'n' :: 'u' :: 'l' :: 'l' :: rest

/-- The items after the first, and the end of the array. -/
def printItems : List Json → List Char → List Char
  | [], rest => ']' :: rest
  | j :: js, rest => ',' :: print j (printItems js rest)

/-- The members after the first, and the end of the object. -/
def printMembers : List (String × Json) → List Char → List Char
  | [], rest => '}' :: rest
  | (k, j) :: ms, rest => ',' :: quote k (':' :: print j (printMembers ms rest))

end

/-- The text of a document, without blanks. -/
def compact (j : Json) : String := String.ofList (j.print [])

/-! ## Indented text -/

/-- A new line indented by `level` steps of two blanks, in front of `rest`. -/
def newline (level : Nat) (rest : List Char) : List Char :=
  '\n' :: (List.replicate (2 * level) ' ' ++ rest)

mutual

/-- A document on lines indented by `level` and more, in front of `rest`. -/
def printLines (level : Nat) : Json → List Char → List Char
  | .array [], rest => '[' :: ']' :: rest
  | .array (j :: js), rest =>
    '[' :: newline (level + 1) (printLines (level + 1) j (printItemLines level js rest))
  | .object [], rest => '{' :: '}' :: rest
  | .object ((k, j) :: ms), rest =>
    '{' :: newline (level + 1)
      (quote k (':' :: ' ' :: printLines (level + 1) j (printMemberLines level ms rest)))
  | j, rest => print j rest

/-- The items after the first, and the end of the array. -/
def printItemLines (level : Nat) : List Json → List Char → List Char
  | [], rest => newline level (']' :: rest)
  | j :: js, rest =>
    ',' :: newline (level + 1) (printLines (level + 1) j (printItemLines level js rest))

/-- The members after the first, and the end of the object. -/
def printMemberLines (level : Nat) : List (String × Json) → List Char → List Char
  | [], rest => newline level ('}' :: rest)
  | (k, j) :: ms, rest =>
    ',' :: newline (level + 1)
      (quote k (':' :: ' ' :: printLines (level + 1) j (printMemberLines level ms rest)))

end

/-- The text of a document on indented lines. -/
def pretty (j : Json) : String := String.ofList (j.printLines 0 [])

end SemanticHighlight.Json
