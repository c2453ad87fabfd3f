import SemanticHighlight.Numeric.Binary

/-!
# The shortest decimal of a binary number

A decimal *names* a magnitude when it lies in the interval of sizes that round
to that magnitude; the ends belong to the interval when the magnitude is even.
`Format.shortest` is the decimal of fewest digits that names a magnitude, and of
those the nearest to it. Where two are equally near, a `Tie` decides.

It tries 1, 2, 3, … digits. On the grid of decimals with a given number of
digits only the two neighbours of the size need a test: if any point of the
grid lies in the interval, so does one of these.
-/

namespace SemanticHighlight.Numeric

/-- The number `significand · 10 ^ exponent`. -/
structure Decimal where
  significand : Nat
  exponent : Int
deriving DecidableEq, Repr

namespace Decimal

def digits (d : Decimal) : List Char := Nat.toDigits 10 d.significand

/-- The power of ten of the first digit. -/
def leading (d : Decimal) : Int := d.exponent + (d.digits.length - 1 : Nat)

/-- The decimal as a fraction `num / den`, in units of a format. -/
def inUnits (d : Decimal) (f : Format) : Nat × Nat :=
  (d.significand * 10 ^ d.exponent.toNat * 2 ^ f.unitBits, 10 ^ (-d.exponent).toNat)

/-- The same number without zeros at the end of its significand; the first
argument bounds the zeros removed. -/
def strip : Nat → Decimal → Decimal
  | 0, d => d
  | fuel + 1, d =>
    if d.significand ≠ 0 ∧ d.significand % 10 = 0 then
      strip fuel ⟨d.significand / 10, d.exponent + 1⟩
    else d

end Decimal

/-- The power of ten of the first digit of `num / den`, a positive fraction. -/
def leadingExponent (num den : Nat) : Int :=
  if den ≤ num then ((Nat.toDigits 10 (num / den)).length - 1 : Nat)
  else -((Nat.toDigits 10 ((den - 1) / num)).length : Int)

/-- Which of two neighbouring decimals stands for a size half way between them. -/
inductive Tie where
  /-- The one whose last digit is even. -/
  | toEven
  /-- The one farther from zero. -/
  | awayFromZero
deriving DecidableEq, Repr

/-- Whether `num / den` goes down to its whole part rather than up to the next number. -/
def Tie.goesDown (t : Tie) (num den : Nat) : Bool :=
  let rest := 2 * (num % den)
  match t with
  | toEven => rest < den || (rest = den && num / den % 2 = 0)
  | awayFromZero => rest < den

namespace Format

/-- Whether a decimal lies in the interval of sizes that round to the positive
magnitude numbered `n`. -/
def names (f : Format) (n : Nat) (d : Decimal) : Bool :=
  let (num, den) := d.inUnits f
  let low := (f.units (n - 1) + f.units n) * den
  let high := (f.units n + f.units (n + 1)) * den
  if n % 2 = 0 then low ≤ 2 * num && 2 * num ≤ high
  else low < 2 * num && 2 * num < high

/-- The neighbours of the size of magnitude `n` on the grid of multiples of
`10 ^ k`, the nearer one first. -/
def neighbours (f : Format) (tie : Tie) (n : Nat) (k : Int) : List Decimal :=
  let num := f.units n * 10 ^ (-k).toNat
  let den := 2 ^ f.unitBits * 10 ^ k.toNat
  let below : Decimal := ⟨num / den, k⟩
  let above : Decimal := ⟨num / den + 1, k⟩
  if tie.goesDown num den then [below, above] else [above, below]

/-- The first decimal that names magnitude `n` on the grids of multiples of
`10 ^ k`, `10 ^ (k - 1)`, …; at the end of the fuel the nearest decimal of the
last grid. -/
def shortestFrom (f : Format) (tie : Tie) (n : Nat) : Nat → Int → Decimal
  | 0, k => (f.neighbours tie n k).headD ⟨0, 0⟩
  | fuel + 1, k =>
    match (f.neighbours tie n k).find? (f.names n) with
    | some d => d
    | none => f.shortestFrom tie n fuel (k - 1)

/-- So many digits suffice to name any magnitude of a format. -/
def digitBound (f : Format) : Nat := (f.fractionBits + 1) * 30103 / 100000 + 2

/-- The decimal of fewest digits that names magnitude `n`, nearest to it among
those. -/
def shortest (f : Format) (tie : Tie) (n : Nat) : Decimal :=
  if n = 0 then ⟨0, 0⟩
  else
    (f.shortestFrom tie n f.digitBound (leadingExponent (f.units n) (2 ^ f.unitBits))).strip
      f.digitBound

end Format

end SemanticHighlight.Numeric
