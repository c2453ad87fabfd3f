import SemanticHighlight.Json.Number
import SemanticHighlight.Proofs.Numeric.Rounding

/-!
# Literals that stand for a number

The value of a literal is computed in steps, each of which rounds: the significand becomes a
double, and is multiplied or divided by powers of ten that are doubles. `exists_scale` says that
none of them leaves the doubles while the exponent is at most 64, however far below zero: every
step is bounded by a power of two (`exists_ofInt`, `exists_shrink`). `exists_ofLiteral` is the
same of whole literals.
-/

namespace SemanticHighlight.Json.Number

open Numeric

/-! ## Significands -/

/-- The significand that is gathered fits 64 bits, since no digit is taken that would not fit. -/
theorem gather_lt {s : Nat} (hs : s < 2 ^ (64 : Nat)) (ds : List Nat) :
    (gather ds s).1 < 2 ^ (64 : Nat) := by
  induction ds generalizing s with
  | nil => exact hs
  | cons d ds ih =>
    unfold gather
    split
    · next h => exact ih h
    · exact hs

/-- No more digits are left over than there were. -/
theorem length_gather_le (ds : List Nat) (s : Nat) : (gather ds s).2.length ≤ ds.length := by
  induction ds generalizing s with
  | nil => exact Nat.le_refl _
  | cons d ds ih =>
    unfold gather
    split
    · exact Nat.le_succ_of_le (ih _)
    · exact Nat.le_refl _

theorem le_foldl_digits (ds : List Nat) (s : Nat) :
    s ≤ ds.foldl (fun n d => n * 10 + d) s := by
  induction ds generalizing s with
  | nil => exact Nat.le_refl s
  | cons d ds ih => exact Nat.le_trans (show s ≤ s * 10 + d from by omega) (ih _)

/-- All digits of a number that fits are gathered. -/
theorem gather_eq {ds : List Nat} {s : Nat}
    (h : ds.foldl (fun n d => n * 10 + d) s < 2 ^ (64 : Nat)) :
    gather ds s = (ds.foldl (fun n d => n * 10 + d) s, []) := by
  induction ds generalizing s with
  | nil => rfl
  | cons d ds ih =>
    unfold gather
    rw [if_pos (Nat.lt_of_le_of_lt (le_foldl_digits ds _) h)]
    exact ih h

/-! ## Powers of ten -/

theorem finite?_finite {f : Format} (x : Finite f) : finite? (.finite x) = some x := rfl

theorem shrink_eq {x y : Finite .double} {k : Nat}
    (hy : Binary.ofInt .double (10 ^ k) = .finite y) : shrink x k = finite? (x.div y) := by
  unfold shrink
  rw [hy, finite?_finite, Option.bind_eq_bind, Option.bind_some]

theorem ofInt_natCast (f : Format) (n : Nat) :
    Binary.ofInt f n = Binary.ofUnits f false (n * 2 ^ f.unitBits) 1 := by
  unfold Binary.ofInt
  rw [Int.natAbs_natCast, decide_eq_false (by omega)]

theorem unitBits_double : Format.double.unitBits = 1074 := rfl

/-- Doubles reach the powers of two of less than 1024. -/
theorem lt_reach_double {k : Nat} (hk : k < 1024) : k + Format.double.unitBits <
    Format.double.fractionBits + (2 ^ Format.double.exponentBits - 2) := by
  show k + 1074 < 2098
  omega

/-- A natural number up to a power of two that doubles reach. -/
theorem exists_ofInt {n k : Nat} (hn : n ≤ 2 ^ k) (hk : k < 1024) : ∃ x : Finite .double,
    Binary.ofInt .double n = .finite x ∧ x.units ≤ 2 ^ (k + Format.double.unitBits) := by
  rw [ofInt_natCast]
  refine Binary.exists_ofUnits (by decide) (lt_reach_double hk) Nat.one_pos ?_ _
  rw [Nat.mul_one, Nat.pow_add]
  exact Nat.mul_le_mul_right _ hn

/-- The greatest power of ten that is used is still a double. It is the one fact here that is
computed. -/
theorem isFinite_greatestPower :
    (Binary.ofInt .double ((10 ^ greatestPower : Nat) : Int)).isFinite = true := by
  decide +kernel

/-- The powers of ten up to the greatest are doubles, and are not rounded to less than one. -/
theorem exists_tenth {k : Nat} (hk : k ≤ greatestPower) : ∃ y : Finite .double,
    Binary.ofInt .double (10 ^ k) = .finite y ∧ 2 ^ Format.double.unitBits ≤ y.units := by
  have hgreatest := isFinite_greatestPower
  rw [ofInt_natCast] at hgreatest
  rw [show (10 : Int) ^ k = ((10 ^ k : Nat) : Int) from (Int.natCast_pow 10 k).symm, ofInt_natCast]
  generalize hmax : Binary.ofUnits .double false _ _ = max at hgreatest
  cases max with
  | finite y' =>
    have hle : 10 ^ k * 2 ^ Format.double.unitBits ≤
        10 ^ greatestPower * 2 ^ Format.double.unitBits :=
      Nat.mul_le_mul_right _ (Nat.pow_le_pow_right (by omega) hk)
    obtain ⟨y, hy, -⟩ := Binary.exists_ofUnits_le Nat.one_pos hmax hle false
    have hreach := lt_reach_double (show 0 < 1024 from by omega)
    rw [Nat.zero_add] at hreach
    refine ⟨y, hy, Binary.two_pow_le_units (by decide) hreach Nat.one_pos ?_ hy⟩
    rw [Nat.mul_one]
    exact Nat.le_mul_of_pos_left _ (Nat.pow_pos (by omega))
  | infinite | nan => cases hgreatest

/-- Dividing by a power of ten does not lead above a power of two. -/
theorem exists_shrink {x : Finite .double} {j k : Nat}
    (hx : x.units ≤ 2 ^ (j + Format.double.unitBits)) (hj : j < 1024)
    (hk : k ≤ greatestPower) :
    ∃ z, shrink x k = some z ∧ z.units ≤ 2 ^ (j + Format.double.unitBits) := by
  obtain ⟨y, hy, hone⟩ := exists_tenth hk
  have hpos : 0 < y.units := Nat.lt_of_lt_of_le (Nat.two_pow_pos _) hone
  obtain ⟨z, hz, hle⟩ := Binary.exists_ofUnits (by decide) (lt_reach_double hj) hpos
    (Nat.mul_le_mul hx hone) (x.negative != y.negative)
  refine ⟨z, ?_, hle⟩
  rw [shrink_eq hy]
  unfold Finite.div
  rw [hz, finite?_finite]

/-! ## Scaling -/

/-- The product of numbers below two powers of two, if doubles reach the product of these. -/
theorem exists_mul {x y : Finite .double} {j k : Nat}
    (hx : x.units ≤ 2 ^ (j + Format.double.unitBits))
    (hy : y.units ≤ 2 ^ (k + Format.double.unitBits)) (hjk : j + k < 1024) :
    ∃ z, x.mul y = .finite z := by
  have hle : x.units * y.units ≤
      2 ^ (j + k + Format.double.unitBits) * 2 ^ Format.double.unitBits := by
    refine Nat.le_trans (Nat.mul_le_mul hx hy) (Nat.le_of_eq ?_)
    rw [← Nat.pow_add, ← Nat.pow_add]
    exact congrArg (2 ^ ·) (by omega)
  obtain ⟨z, hz, -⟩ := Binary.exists_ofUnits (by decide) (lt_reach_double hjk)
    (Nat.two_pow_pos _) hle (x.negative != y.negative)
  unfold Finite.mul
  exact ⟨z, hz⟩

/-- A 64-bit significand with a moderate exponent stays within the doubles. -/
theorem exists_scale {s : Nat} (hs : s < 2 ^ (64 : Nat)) {e : Int} (he : e ≤ 64) :
    ∃ z, scale s e = some z := by
  obtain ⟨x, hx, hxle⟩ := exists_ofInt (Nat.le_of_lt hs) (by omega)
  have hgreatest : greatestPower = 308 := rfl
  unfold scale
  rw [hx, finite?_finite, Option.bind_eq_bind, Option.bind_some]
  by_cases hnonneg : 0 ≤ e
  · have hten : 10 ^ e.toNat ≤ 2 ^ 256 := calc
      10 ^ e.toNat ≤ 10 ^ 64 := Nat.pow_le_pow_right (by omega) (by omega)
      _ ≤ 2 ^ 256 := by decide
    obtain ⟨y, hy, hyle⟩ := exists_ofInt hten (by omega)
    rw [Int.natCast_pow, Int.cast_ofNat_Int] at hy
    obtain ⟨z, hz⟩ := exists_mul hxle hyle (by omega)
    refine ⟨z, ?_⟩
    rw [if_pos hnonneg, if_pos (by omega), hy, finite?_finite,
      Option.bind_some, hz, finite?_finite]
  · rw [if_neg hnonneg]
    dsimp only
    split
    · next hk =>
      obtain ⟨z, hz, -⟩ := exists_shrink hxle (by omega) hk
      exact ⟨z, hz⟩
    · split
      · next hk =>
        -- beyond the greatest power, it is divided by that first
        obtain ⟨y, hy, hyle⟩ := exists_shrink hxle (by omega) (Nat.le_refl greatestPower)
        obtain ⟨z, hz, -⟩ := exists_shrink hyle (by omega)
          (show (-e).toNat - greatestPower ≤ greatestPower from by omega)
        refine ⟨z, ?_⟩
        rw [hy, Option.bind_some, hz]
      · obtain ⟨z, hz, -⟩ := exists_ofInt (Nat.zero_le (2 ^ 0)) (by omega)
        refine ⟨z, ?_⟩
        rw [← Int.natCast_zero, hz, finite?_finite]

/-- A literal of digits alone that fits stands for an integer. -/
theorem ofLiteral?_integer {negative : Bool} {whole : List Nat} {n : Nat}
    (hgather : gather whole 0 = (n, []))
    (hfits : (!negative || (0 < n && n ≤ 2 ^ (63 : Nat))) = true) :
    ofLiteral? negative whole [] none = some (.integer (if negative then -(n : Int) else n)) := by
  unfold ofLiteral?
  rw [hgather]
  simp only [List.isEmpty_nil, Option.isNone_none, hfits, Bool.and_self, if_true]

/-- A literal whose exponent, added to its places before the point, is moderate stands for a
number, and for a double unless it is of digits alone. -/
theorem exists_ofLiteral (negative : Bool) {whole fraction : List Nat} {exponent : Option Int}
    (hkind : fraction ≠ [] ∨ exponent ≠ none)
    (hsize : exponent.getD 0 + whole.length ≤ 64) :
    ∃ x, ofLiteral? negative whole fraction exponent = some (.double x) := by
  unfold ofLiteral?
  dsimp only
  have hinteger : (fraction.isEmpty && exponent.isNone) = false := by
    rw [Bool.and_eq_false_iff]
    exact hkind.imp (by simp) (by simp [Option.ne_none_iff_isSome])
  rw [hinteger, Bool.false_and, Bool.false_and, if_neg Bool.false_ne_true]
  have hskipped := length_gather_le whole 0
  have hdropped := length_gather_le fraction (gather whole 0).1
  obtain ⟨z, hz⟩ := exists_scale (gather_lt (gather_lt (Nat.two_pow_pos 64) whole) fraction)
    (show exponent.getD 0 + (((gather whole 0).2.length : Int) +
      (gather fraction (gather whole 0).1).2.length - fraction.length) ≤ 64 from by omega)
  rw [hz]
  exact ⟨_, rfl⟩

end SemanticHighlight.Json.Number
