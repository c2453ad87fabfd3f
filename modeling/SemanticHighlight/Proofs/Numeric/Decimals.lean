import SemanticHighlight.Numeric.Layout

/-!
# How large a shortest decimal is

The shortest decimal of a magnitude is looked for on finer and finer grids, from one that is not
coarser than the size itself (`reaches_leadingExponent`). So every decimal that is tried is
positive and, if the size is below a power of ten, not beyond that power
(`within_of_mem_neighbours`, by induction on the grids `shortestFrom_within`). Zeros taken off
the end of the significand change nothing of this (`Decimal.Within.strip`).

Main statement (`Format.shortest_within`), and with it `Decimal.Within.leading_le`: the first
digit of the shortest decimal is not beyond that power either.
-/

namespace SemanticHighlight.Numeric

/-- Whether a decimal is positive and at most a power of ten, its exponent too. -/
structure Decimal.Within (d : Decimal) (bound : Nat) : Prop where
  positive : 0 < d.significand
  exponent_le : d.exponent ≤ bound
  significand_le : d.significand ≤ 10 ^ (bound - d.exponent).toNat

namespace Decimal

/-- The first digit of a decimal stands no farther in front than its bound. -/
theorem Within.leading_le {d : Decimal} {bound : Nat} (h : d.Within bound) :
    d.leading ≤ bound := by
  have hexponent := h.exponent_le
  have hlength : d.digits.length ≤ (bound - d.exponent).toNat + 1 := by
    refine (Nat.length_toDigits_le_iff (by omega) (Nat.succ_pos _)).2 ?_
    rw [Nat.pow_succ]
    have := h.significand_le
    have := Nat.pow_pos (n := (bound - d.exponent).toNat) (show 0 < 10 from by omega)
    omega
  unfold leading
  omega

/-- Taking zeroes off the end keeps a decimal within its bound: the significand loses a digit where
the exponent gains one. -/
theorem Within.strip {bound : Nat} (fuel : Nat) {d : Decimal} (h : d.Within bound) :
    (d.strip fuel).Within bound := by
  induction fuel generalizing d with
  | zero => exact h
  | succ fuel ih =>
    unfold Decimal.strip
    split
    · next hzero =>
      obtain ⟨hpos, hexponent, hle⟩ := h
      -- a significand with a zero at its end leaves room for one more place
      have hroom : (bound - d.exponent).toNat ≠ 0 := by
        intro h0
        rw [h0, Nat.pow_zero] at hle
        omega
      have hsplit : (bound - d.exponent).toNat = (bound - (d.exponent + 1)).toNat + 1 := by omega
      refine ih ⟨?_, ?_, ?_⟩
      · show 0 < d.significand / 10
        omega
      · show d.exponent + 1 ≤ bound
        omega
      · show d.significand / 10 ≤ 10 ^ (bound - (d.exponent + 1)).toNat
        rw [hsplit, Nat.pow_succ] at hle
        omega
    · exact h

end Decimal

/-! ## The first grid -/

/-- A positive fraction is at least the power of ten of its first digit. -/
theorem leadingExponent_spec {num den : Nat} (hnum : 0 < num) (hden : 0 < den) :
    den * 10 ^ (leadingExponent num den).toNat ≤ num * 10 ^ (-leadingExponent num den).toNat := by
  unfold leadingExponent
  split
  · next hle =>
    have hquotient : 0 < num / den := Nat.div_pos hle hden
    have hpow : 10 ^ ((Nat.toDigits 10 (num / den)).length - 1) ≤ num / den := by
      have hpos := @Nat.length_toDigits_pos 10 (num / den)
      rcases Nat.eq_zero_or_pos ((Nat.toDigits 10 (num / den)).length - 1) with h0 | hlong
      · rw [h0, Nat.pow_zero]
        exact hquotient
      · refine Nat.le_of_not_lt fun hlt => ?_
        have := (Nat.length_toDigits_le_iff (by omega) hlong).2 hlt
        omega
    rw [Int.toNat_natCast, show (-(((Nat.toDigits 10 (num / den)).length - 1 : Nat) : Int)).toNat =
      0 from by omega, Nat.pow_zero, Nat.mul_one]
    calc den * 10 ^ ((Nat.toDigits 10 (num / den)).length - 1)
        ≤ den * (num / den) := Nat.mul_le_mul_left den hpow
      _ ≤ num := Nat.mul_div_le num den
  · have hlt := (Nat.length_toDigits_le_iff (n := (den - 1) / num) (show 1 < 10 from by omega)
      Nat.length_toDigits_pos).1 (Nat.le_refl _)
    rw [Int.neg_neg, Int.toNat_natCast, show (-((Nat.toDigits 10 ((den - 1) / num)).length :
      Int)).toNat = 0 from by omega, Nat.pow_zero, Nat.mul_one, Nat.mul_comm num]
    have := (Nat.div_lt_iff_lt_mul hnum).1 hlt
    omega

/-- A quotient below a power of ten has its first digit below that power. -/
theorem leadingExponent_le {num den bound : Nat} (hlt : num < 10 ^ bound * den) :
    leadingExponent num den ≤ bound := by
  unfold leadingExponent
  split
  · next hle =>
    have hbound : 0 < bound := by
      rcases Nat.eq_zero_or_pos bound with rfl | hpos
      · rw [Nat.pow_zero, Nat.one_mul] at hlt
        omega
      · exact hpos
    have hden : 0 < den := by
      rcases Nat.eq_zero_or_pos den with rfl | hpos
      · exact absurd hlt (Nat.not_lt_zero _)
      · exact hpos
    have hquotient : num / den < 10 ^ bound := (Nat.div_lt_iff_lt_mul hden).2 hlt
    have := (Nat.length_toDigits_le_iff (show 1 < 10 from by omega) hbound).2 hquotient
    omega
  · omega

namespace Format

variable {f : Format} {tie : Tie} {n bound : Nat}

/-- Whether the size of a magnitude is at least a power of ten. -/
def Reaches (f : Format) (n : Nat) (k : Int) : Prop :=
  2 ^ f.unitBits * 10 ^ k.toNat ≤ f.units n * 10 ^ (-k).toNat

/-- A number that reaches a digit reaches the one behind it. -/
theorem Reaches.pred {k : Int} (h : f.Reaches n k) : f.Reaches n (k - 1) := by
  unfold Reaches at h ⊢
  rcases Int.lt_or_le 0 k with hpos | hneg
  · rw [show (-(k - 1)).toNat = (-k).toNat from by omega]
    refine Nat.le_trans (Nat.mul_le_mul_left _ ?_) h
    exact Nat.pow_le_pow_right (by omega) (by omega)
  · rw [show (k - 1).toNat = k.toNat from by omega]
    refine Nat.le_trans h (Nat.mul_le_mul_left _ ?_)
    exact Nat.pow_le_pow_right (by omega) (by omega)

/-! ## The decimals that are tried -/

/-- The neighbours of a size on a grid that is not coarser than the size. -/
theorem within_of_mem_neighbours {k : Int} (hk : k ≤ bound) (hreaches : f.Reaches n k)
    (hsize : f.units n < 10 ^ bound * 2 ^ f.unitBits) {d : Decimal}
    (hd : d ∈ f.neighbours tie n k) : d.Within bound := by
  have hden : 0 < 2 ^ f.unitBits * 10 ^ k.toNat :=
    Nat.mul_pos (Nat.two_pow_pos _) (Nat.pow_pos (by omega))
  have hlow : 0 < f.units n * 10 ^ (-k).toNat / (2 ^ f.unitBits * 10 ^ k.toNat) :=
    Nat.div_pos hreaches hden
  have hhigh : f.units n * 10 ^ (-k).toNat / (2 ^ f.unitBits * 10 ^ k.toNat) <
      10 ^ (bound - k).toNat := by
    refine (Nat.div_lt_iff_lt_mul hden).2 ?_
    calc f.units n * 10 ^ (-k).toNat
        < 10 ^ bound * 2 ^ f.unitBits * 10 ^ (-k).toNat :=
          Nat.mul_lt_mul_of_pos_right hsize (Nat.pow_pos (by omega))
      _ = 2 ^ f.unitBits * 10 ^ (bound + (-k).toNat) := by
          rw [Nat.pow_add, ← Nat.mul_assoc, Nat.mul_comm (10 ^ bound)]
      _ = 2 ^ f.unitBits * 10 ^ ((bound - k).toNat + k.toNat) := by
          rw [show bound + (-k).toNat = (bound - k).toNat + k.toNat from by omega]
      _ = 10 ^ (bound - k).toNat * (2 ^ f.unitBits * 10 ^ k.toNat) := by
          rw [Nat.pow_add, Nat.mul_left_comm]
  have hcases : d = ⟨f.units n * 10 ^ (-k).toNat / (2 ^ f.unitBits * 10 ^ k.toNat), k⟩ ∨
      d = ⟨f.units n * 10 ^ (-k).toNat / (2 ^ f.unitBits * 10 ^ k.toNat) + 1, k⟩ := by
    unfold neighbours at hd
    dsimp only at hd
    split at hd
    · simpa using hd
    · simpa [or_comm] using hd
  obtain rfl | rfl := hcases
  · exact ⟨hlow, hk, Nat.le_of_lt hhigh⟩
  · exact ⟨Nat.succ_pos _, hk, hhigh⟩

theorem neighbours_ne_nil (f : Format) (tie : Tie) (n : Nat) (k : Int) :
    f.neighbours tie n k ≠ [] := by
  unfold neighbours
  dsimp only
  split <;> exact List.cons_ne_nil _ _

/-- Wherever the search for the shortest decimal stops, what it found keeps within the bound. The
induction is on the number of digits that may still be added. -/
theorem shortestFrom_within (fuel : Nat) {k : Int} (hk : k ≤ bound) (hreaches : f.Reaches n k)
    (hsize : f.units n < 10 ^ bound * 2 ^ f.unitBits) :
    (f.shortestFrom tie n fuel k).Within bound := by
  induction fuel generalizing k with
  | zero =>
    unfold shortestFrom
    cases hneighbours : f.neighbours tie n k with
    | nil => exact absurd hneighbours (f.neighbours_ne_nil tie n k)
    | cons d ds =>
      exact @within_of_mem_neighbours f tie n bound k hk hreaches hsize d
        (by rw [hneighbours]; exact List.mem_cons_self)
  | succ fuel ih =>
    unfold shortestFrom
    split
    · next d hd => exact within_of_mem_neighbours hk hreaches hsize (List.mem_of_find?_eq_some hd)
    · exact ih (by omega) hreaches.pred

theorem units_pos (hn : n ≠ 0) : 0 < f.units n := by
  unfold units
  split
  · exact Nat.pos_of_ne_zero hn
  · exact Nat.mul_pos (Nat.add_pos_left (Nat.two_pow_pos _) _) (Nat.two_pow_pos _)

/-- The shortest decimal of a positive magnitude below a power of ten. -/
theorem shortest_within (hn : n ≠ 0)
    (hsize : f.units n < 10 ^ bound * 2 ^ f.unitBits) : (f.shortest tie n).Within bound := by
  unfold shortest
  rw [if_neg hn]
  exact (shortestFrom_within _ (leadingExponent_le hsize)
    (leadingExponent_spec (units_pos hn) (Nat.two_pow_pos _)) hsize).strip _

end Format

end SemanticHighlight.Numeric
