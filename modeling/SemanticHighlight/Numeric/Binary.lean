/-!
# Binary floating-point numbers

A finite number of a binary format is a sign and a whole number of *units*, the
unit being the least positive number of the format. The magnitudes of a format
are numbered upwards from zero, so that the number of a magnitude is also the
pattern of its exponent and fraction bits, and neighbouring magnitudes have
neighbouring numbers. Both the size of a magnitude (`Format.units`) and rounding
to the nearest one (`Format.nearest`) are arithmetic on natural numbers.
-/

namespace SemanticHighlight.Numeric

-- powers are those of the core library, also where another library has its own
attribute [instance (high)] instPowNat

/-- The widths of a binary format: explicit fraction bits and exponent bits. -/
structure Format where
  fractionBits : Nat
  exponentBits : Nat
deriving DecidableEq, Repr

namespace Format

/-- The 64-bit format. -/
def double : Format := ⟨52, 11⟩

/-- The 32-bit format. -/
def single : Format := ⟨23, 8⟩

/-- How many finite magnitudes a format has. -/
def magnitudes (f : Format) : Nat := (2 ^ f.exponentBits - 1) * 2 ^ f.fractionBits

/-- The unit of a format is two to the power of minus this number. -/
def unitBits (f : Format) : Nat := 2 ^ (f.exponentBits - 1) - 2 + f.fractionBits

/-- The size, in units, of the magnitude numbered `n`. -/
def units (f : Format) (n : Nat) : Nat :=
  if n / 2 ^ f.fractionBits = 0 then n
  else (2 ^ f.fractionBits + n % 2 ^ f.fractionBits) * 2 ^ (n / 2 ^ f.fractionBits - 1)

end Format

/-- The whole number nearest to `num / den`; a tie goes to the even neighbour. -/
def roundHalfEven (num den : Nat) : Nat :=
  let q := num / den
  let r := num % den
  if 2 * r < den then q
  else if den < 2 * r then q + 1
  else q + q % 2

namespace Format

/-- By how many binary places a size of `num / den` units is too fine for the
fraction of the format. -/
def excess (f : Format) (num den : Nat) : Nat :=
  if num / den < 2 ^ (f.fractionBits + 1) then 0
  else Nat.log2 (num / den) - f.fractionBits

/-- The number of the magnitude nearest to `num / den` units, ties going to the
even number. The result reaches `magnitudes` when the size is beyond the format. -/
def nearest (f : Format) (num den : Nat) : Nat :=
  let shift := f.excess num den
  shift * 2 ^ f.fractionBits + roundHalfEven num (den * 2 ^ shift)

end Format

/-- A finite number of a format: a sign and the number of its magnitude. -/
structure Finite (f : Format) where
  negative : Bool
  magnitude : Fin f.magnitudes
deriving DecidableEq

/-- A number of a format. -/
inductive Binary (f : Format) where
  | finite (x : Finite f)
  | infinite (negative : Bool)
  | nan
deriving DecidableEq

/-- A 64-bit number. -/
abbrev Double := Binary .double

/-- A 32-bit number. -/
abbrev Single := Binary .single

namespace Finite

/-- The size of a finite number in units of its format. -/
def units {f : Format} (x : Finite f) : Nat := f.units x.magnitude

end Finite

namespace Binary

/-- The number of `f` nearest to `num / den` units; a size beyond the format is infinite. -/
def ofUnits (f : Format) (negative : Bool) (num den : Nat) : Binary f :=
  if h : f.nearest num den < f.magnitudes then .finite ⟨negative, ⟨f.nearest num den, h⟩⟩
  else .infinite negative

/-- The number of `f` nearest to an integer. -/
def ofInt (f : Format) (n : Int) : Binary f :=
  ofUnits f (n < 0) (n.natAbs * 2 ^ f.unitBits) 1

def one (f : Format) : Binary f := ofInt f 1

/-- Whether the number is finite. -/
def isFinite {f : Format} : Binary f → Bool
  | .finite _ => true
  | _ => false

end Binary

namespace Finite

/-- The number of `g` nearest to a finite number of `f`. -/
def convert {f : Format} (g : Format) (x : Finite f) : Binary g :=
  Binary.ofUnits g x.negative (x.units * 2 ^ (g.unitBits - f.unitBits))
    (2 ^ (f.unitBits - g.unitBits))

/-- The product of two finite numbers, rounded. -/
def mul {f : Format} (x y : Finite f) : Binary f :=
  Binary.ofUnits f (x.negative != y.negative) (x.units * y.units) (2 ^ f.unitBits)

/-- The quotient of two finite numbers, rounded; the divisor is not zero. -/
def div {f : Format} (x y : Finite f) : Binary f :=
  Binary.ofUnits f (x.negative != y.negative) (x.units * 2 ^ f.unitBits) y.units

/-- Whether `x` is less than `y`; zero of either sign is one number. -/
def lt {f : Format} (x y : Finite f) : Bool :=
  match x.negative, y.negative with
  | false, false => x.magnitude < y.magnitude
  | true, true => y.magnitude < x.magnitude
  | true, false => x.magnitude.val ≠ 0 || y.magnitude.val ≠ 0
  | false, true => false

end Finite

namespace Binary

/-- The number of `g` nearest to a number of `f`. -/
def convert {f : Format} (g : Format) : Binary f → Binary g
  | .finite x => x.convert g
  | .infinite negative => .infinite negative
  | .nan => .nan

/-- Whether `x` is less than `y`. Nothing is less or greater than a NaN. -/
def lt {f : Format} : Binary f → Binary f → Bool
  | .nan, _ | _, .nan => false
  | .finite x, .finite y => x.lt y
  | .infinite a, .infinite b => a && !b
  | .infinite a, .finite _ => a
  | .finite _, .infinite b => !b

/-- The greater of two numbers. A NaN yields to a number, and of two equal
numbers the first is taken. -/
def max {f : Format} (x y : Binary f) : Binary f :=
  match x, y with
  | .nan, y => y
  | x, .nan => x
  | x, y => if x.lt y then y else x

end Binary

end SemanticHighlight.Numeric
