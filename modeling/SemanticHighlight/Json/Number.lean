import SemanticHighlight.Numeric.Layout

/-!
# JSON numbers

A number keeps the kind its literal had. A literal of digits alone is an integer
when it fits 64 bits, and every other literal is a double: `Number.ofLiteral?`.
-/

namespace SemanticHighlight.Json

open Numeric

/-- A JSON number. -/
inductive Number where
  /-- A whole number written as such. -/
  | integer (n : Int)
  | double (x : Finite .double)
  /-- A number of single precision, in a document made to be printed. -/
  | single (x : Finite .single)
deriving DecidableEq

namespace Number

/-- The digits of `ds` appended to the significand `s` while it stays below
`2 ^ 64`, and the digits left over. -/
def gather : List Nat → Nat → Nat × List Nat
  | [], s => (s, [])
  | d :: ds, s => if s * 10 + d < 2 ^ (64 : Nat) then gather ds (s * 10 + d) else (s, d :: ds)

def finite? {f : Format} : Binary f → Option (Finite f)
  | .finite x => some x
  | _ => none

/-- The greatest power of ten that a double reaches. -/
def greatestPower : Nat := 308

/-- The quotient of `x` by the double `10 ^ k`. -/
def shrink (x : Finite .double) (k : Nat) : Option (Finite .double) := do
  finite? (x.div (← finite? (Binary.ofInt .double (10 ^ k))))

/-- The significand `s` as a double, times the double `10 ^ e`. A power beyond the
doubles is divided out in two steps; beyond both the result is zero. `none` when
the product is beyond the doubles. -/
def scale (s : Nat) (e : Int) : Option (Finite .double) := do
  let x ← finite? (Binary.ofInt .double s)
  if 0 ≤ e then
    if e ≤ greatestPower then
      finite? (x.mul (← finite? (Binary.ofInt .double (10 ^ e.toNat))))
    else if s = 0 then some x
    else none
  else
    let k := (-e).toNat
    if k ≤ greatestPower then shrink x k
    else if k ≤ 2 * greatestPower then
      shrink (← shrink x greatestPower) (k - greatestPower)
    else finite? (Binary.ofInt .double 0)

/-- The number written as an optional minus sign, the digits before and after the
point, and an exponent. Digits beyond a 64-bit significand only move the point
when they stand before it, and are dropped when they stand after it. `none` when
the number is beyond the doubles. -/
def ofLiteral? (negative : Bool) (whole fraction : List Nat) (exponent : Option Int) :
    Option Number :=
  let (head, skipped) := gather whole 0
  if fraction.isEmpty && exponent.isNone && skipped.isEmpty
      && (!negative || (0 < head && head ≤ 2 ^ (63 : Nat))) then
    some (.integer (if negative then -(head : Int) else head))
  else
    let (significand, dropped) := gather fraction head
    let shift : Int := (skipped.length : Int) + dropped.length - fraction.length
    (scale significand (exponent.getD 0 + shift)).map fun x => .double { x with negative }

/-- The double nearest to the number. -/
def toDouble : Number → Double
  | .integer n => Binary.ofInt .double n
  | .double x => .finite x
  | .single x => x.convert .double

/-- The single nearest to the number. -/
def toSingle : Number → Single
  | .integer n => Binary.ofInt .single n
  | .double x => x.convert .single
  | .single x => .finite x

/-- Doubles are plain while the first digit has a power of ten from -5 to 15; a tie goes to
the even digit. -/
def doubleLayout : Layout := ⟨some (-5), some 15, true, .toEven⟩

/-- Singles are plain while the first digit has a power of ten from -6 to 12; a tie goes to
the even digit. -/
def singleLayout : Layout := ⟨some (-6), some 12, true, .toEven⟩

/-- The decimal digits of an integer, after its sign. -/
def integerChars (n : Int) : List Char :=
  (if n < 0 then ['-'] else []) ++ Nat.toDigits 10 n.natAbs

/-- The text of a number. -/
def chars : Number → List Char
  | .integer n => integerChars n
  | .double x => doubleLayout.write x
  | .single x => singleLayout.write x

/-- The natural number below `bound` that the number is, if it was written as an integer. -/
def natural? (bound : Nat) : Number → Option Nat
  | .integer n => if 0 ≤ n && n < bound then some n.toNat else none
  | _ => none

end Number

end SemanticHighlight.Json
