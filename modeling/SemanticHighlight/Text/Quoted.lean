import SemanticHighlight.Text.Visible

/-!
# Quoted text

A text between quotation marks. A mark, a backslash and the usual controls have short
escapes, and any other character that does not show by itself is written as its number.
-/

namespace SemanticHighlight.Text

/-- A character as its number in base sixteen, between braces. -/
def numbered (c : Char) : List Char :=
  '\\' :: 'u' :: '\x7b' :: (Nat.toDigits 16 c.toNat ++ ['\x7d'])

/-- A character between quotation marks. -/
def quotedChar (c : Char) : List Char :=
  match c with
  | '\x00' => ['\\', '0']
  | '\t' => ['\\', 't']
  | '\n' => ['\\', 'n']
  | '\r' => ['\\', 'r']
  | '"' => ['\\', '"']
  | '\\' => ['\\', '\\']
  | c => if isVisible c then [c] else numbered c

/-- A text between quotation marks. -/
def quoted (s : String) : String :=
  String.ofList ('"' :: (s.toList.flatMap quotedChar ++ ['"']))

end SemanticHighlight.Text
