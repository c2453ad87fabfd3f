import SemanticHighlight.Json.Reader
import SemanticHighlight.Json.Text

/-!
# Strings are read from their text

A string is written character by character, and each character is read as the one code unit it
counts for, whether or not it is escaped (`units_escaped`). No character is half of a surrogate
pair, so the units are joined to the characters they came from (`join_toNat`). Main statement
(`text_quote`): a quoted string is read as the string, whatever follows.
-/

namespace SemanticHighlight.Json.Reader

/-! ## Characters -/

theorem hexValue?_hexDigit {n : Nat} (h : n < 16) : hexValue? (hexDigit n) = some n := by
  have hall : ∀ n < 16, hexValue? (hexDigit n) = some n := by decide
  exact hall n h

/-- A character that is not escaped counts for itself. -/
theorem units_cons {c : Char} (hquote : c ≠ '"') (hbackslash : c ≠ '\\') (hraw : ¬ c.toNat < 0x20)
    (rest : List Char) :
    units (c :: rest) = (units rest).map fun (us, rest) => (c.toNat :: us, rest) := by
  rw [units]
  · rw [if_neg hraw]
    cases units rest <;> rfl
  · exact hquote
  · exact fun _ _ _ _ _ heq _ => hbackslash heq
  · exact fun _ _ heq _ => hbackslash heq

/-- A control character that has no letter counts for the number it is escaped with. -/
theorem units_control {n : Nat} (h : n < 0x20) (rest : List Char) :
    units ('\\' :: 'u' :: '0' :: '0' :: hexDigit (n / 16) :: hexDigit (n % 16) :: rest) =
      (units rest).map fun (us, rest) => (n :: us, rest) := by
  have hzero : hexValue? '0' = some 0 := rfl
  rw [units, hzero, hexValue?_hexDigit (by omega), hexValue?_hexDigit (by omega)]
  dsimp only [Option.bind_eq_bind, Option.bind_some]
  rw [show ((0 * 16 + 0) * 16 + n / 16) * 16 + n % 16 = n from by omega]
  cases units rest <;> rfl

/-- Each character, as it is written, is read as the unit it counts for. -/
theorem units_escaped (c : Char) (rest : List Char) :
    units (escaped c ++ rest) = (units rest).map fun (us, rest) => (c.toNat :: us, rest) := by
  unfold escaped
  split
  case h_8 hquote hbackslash _ _ _ _ _ =>
    split
    · next hcontrol => exact units_control hcontrol rest
    · next hraw => exact units_cons hquote hbackslash hraw rest
  all_goals
    rw [List.cons_append, List.cons_append, List.nil_append, units]
    · cases units rest <;> rfl
    · simp

/-! ## Strings -/

/-- No character is the first half of a surrogate pair. -/
theorem isHigh_toNat (c : Char) : isHigh c.toNat = false := by
  unfold isHigh
  have := c.valid
  simp only [Bool.and_eq_false_iff, decide_eq_false_iff_not]
  unfold UInt32.isValidChar Nat.isValidChar at this
  show ¬ 0xD800 ≤ c.val.toNat ∨ ¬ c.val.toNat < 0xDC00
  omega

/-- Nor the second half. -/
theorem isLow_toNat (c : Char) : isLow c.toNat = false := by
  unfold isLow
  have := c.valid
  simp only [Bool.and_eq_false_iff, decide_eq_false_iff_not]
  unfold UInt32.isValidChar Nat.isValidChar at this
  show ¬ 0xDC00 ≤ c.val.toNat ∨ ¬ c.val.toNat < 0xE000
  omega

/-- The units of characters are joined to these characters. -/
theorem join_toNat (cs : List Char) : join (cs.map Char.toNat) = some cs := by
  induction cs with
  | nil => rfl
  | cons c cs ih =>
    cases cs with
    | nil =>
      show (if _ then _ else _) = _
      rw [isHigh_toNat, isLow_toNat, Bool.or_self, if_neg Bool.false_ne_true, Char.ofNat_toNat]
    | cons d cs =>
      rw [List.map_cons, List.map_cons]
      unfold join
      rw [isHigh_toNat, if_neg Bool.false_ne_true, isLow_toNat, if_neg Bool.false_ne_true]
      rw [List.map_cons] at ih
      rw [ih, Option.map_some, Char.ofNat_toNat]

/-- The text of a string in quotes is read as the code points of its characters, however they were
escaped. -/
theorem units_string (cs rest : List Char) :
    units (cs.foldr (fun c tail => escaped c ++ tail) ('"' :: rest)) =
      some (cs.map Char.toNat, rest) := by
  induction cs with
  | nil => simp [units]
  | cons c cs ih =>
    rw [List.foldr_cons, units_escaped, ih]
    rfl

/-- A string is read from its text. -/
theorem text_string (s : String) (rest : List Char) :
    text (s.toList.foldr (fun c tail => escaped c ++ tail) ('"' :: rest)) =
      some (some s, rest) := by
  unfold text
  rw [units_string]
  dsimp only [Option.bind_eq_bind, Option.bind_some]
  rw [join_toNat, Option.map_some, String.ofList_toList]

/-- A quoted string takes at least its quotes. -/
theorem length_quote (s : String) (rest : List Char) : rest.length + 2 ≤ (quote s rest).length := by
  have hbody (cs : List Char) : rest.length + 1 ≤
      (cs.foldr (fun c tail => escaped c ++ tail) ('"' :: rest)).length := by
    induction cs with
    | nil => exact Nat.le_refl _
    | cons c cs ih =>
      rw [List.foldr_cons, List.length_append]
      omega
  unfold quote
  rw [List.length_cons]
  have := hbody s.toList
  omega

end SemanticHighlight.Json.Reader
