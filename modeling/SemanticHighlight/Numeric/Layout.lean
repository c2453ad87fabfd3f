import SemanticHighlight.Numeric.Shortest

/-!
# Writing numbers in decimal

`Layout.write` writes the shortest decimal of a finite number, plainly or with
an exponent as the layout says. `fixed` writes a number with a given count of
decimal places.
-/

namespace SemanticHighlight.Numeric

/-- How a finite number is written. -/
structure Layout where
  /-- The least power of ten of the first digit that is still written plainly. -/
  lowest : Option Int
  /-- The greatest power of ten of the first digit that is still written plainly. -/
  highest : Option Int
  /-- Whether a whole number written plainly ends in `.0`. -/
  pointZero : Bool
  /-- Which of two decimals that are equally short and equally near is written. -/
  tie : Tie
deriving DecidableEq, Repr

namespace Layout

/-- Whether a number whose first digit has the power of ten `e` is written plainly. -/
def isPlain (l : Layout) (e : Int) : Bool :=
  l.lowest.all (· ≤ e) && l.highest.all (e ≤ ·)

/-- The digits `ds`, the first of which has the power of ten `e`, without an exponent. -/
def plain (l : Layout) (ds : List Char) (e : Int) : List Char :=
  if e < 0 then
    '0' :: '.' :: (List.replicate ((-e).toNat - 1) '0' ++ ds)
  else
    let whole := e.toNat + 1
    if ds.length ≤ whole then
      ds ++ List.replicate (whole - ds.length) '0' ++ (if l.pointZero then ['.', '0'] else [])
    else ds.take whole ++ '.' :: ds.drop whole

/-- The digits `ds`, the first of which has the power of ten `e`, with a signed exponent. -/
def scientific (ds : List Char) (e : Int) : List Char :=
  ds.take 1 ++ (if ds.length ≤ 1 then [] else '.' :: ds.drop 1)
    ++ 'e' :: (if e < 0 then '-' else '+') :: Nat.toDigits 10 e.natAbs

/-- A nonnegative decimal. -/
def decimal (l : Layout) (d : Decimal) : List Char :=
  if l.isPlain d.leading then l.plain d.digits d.leading
  else scientific d.digits d.leading

/-- A finite number: the shortest decimal that names it, after its sign. -/
def write {f : Format} (l : Layout) (x : Finite f) : List Char :=
  (if x.negative then ['-'] else []) ++ l.decimal (f.shortest l.tie x.magnitude)

end Layout

/-- A finite number with exactly `places` decimal places; a tie goes to the even digit. -/
def fixed {f : Format} (places : Nat) (x : Finite f) : List Char :=
  let n := roundHalfEven (x.units * 10 ^ places) (2 ^ f.unitBits)
  let ds := Nat.toDigits 10 n
  let ds := List.replicate (places + 1 - ds.length) '0' ++ ds
  let whole := ds.length - places
  (if x.negative then ['-'] else []) ++ ds.take whole
    ++ (if places = 0 then [] else '.' :: ds.drop whole)

end SemanticHighlight.Numeric
