import SemanticHighlight.Proofs.Numeric.Conversion

/-!
# Rounding keeps the order

Of two sizes the greater one is not rounded to the lesser magnitude (`Format.nearest_mono`).
Within the same excess this is the order of what is rounded to a whole number
(`roundHalfEven_mono`); where the excess differs, a power of two lies between the two.

Together with `Format.nearest_units` it bounds what is rounded by what needs no rounding:
a size between two powers of two is rounded to a finite number between the same two
(`Binary.exists_ofUnits`, `Binary.two_pow_le_units`), if the format reaches them.
-/

namespace SemanticHighlight.Numeric

/-! ## Whole numbers -/

/-- Rounding does not go below the quotient. -/
theorem div_le_roundHalfEven (num den : Nat) : num / den ≤ roundHalfEven num den := by
  unfold roundHalfEven
  dsimp only
  split
  · exact Nat.le_refl _
  · split <;> omega

/-- Nor above the next number. -/
theorem roundHalfEven_le (num den : Nat) : roundHalfEven num den ≤ num / den + 1 := by
  unfold roundHalfEven
  dsimp only
  split
  · omega
  · split <;> omega

/-- Rounding is monotone. If the quotients are the same the remainders decide, and otherwise there
is room between them. -/
theorem roundHalfEven_mono {num num' : Nat} (h : num ≤ num') (den : Nat) :
    roundHalfEven num den ≤ roundHalfEven num' den := by
  rcases Nat.lt_or_eq_of_le (Nat.div_le_div_right (c := den) h) with hlt | heq
  · calc roundHalfEven num den ≤ num / den + 1 := roundHalfEven_le num den
      _ ≤ num' / den := hlt
      _ ≤ roundHalfEven num' den := div_le_roundHalfEven num' den
  · -- with the same whole part, the order is that of the remainders
    have hrest : num % den ≤ num' % den := by
      have hnum := Nat.div_add_mod num den
      have hnum' := Nat.div_add_mod num' den
      rw [heq] at hnum
      omega
    unfold roundHalfEven
    dsimp only
    rw [heq]
    split
    · split
      · exact Nat.le_refl _
      · split <;> omega
    · split
      · refine Nat.le_of_eq ?_
        rw [if_neg (by omega), if_pos (by omega)]
      · split
        · omega
        · split <;> omega

namespace Format

variable {f : Format}

/-! ## Magnitudes -/

/-- A size is less than a significand that is one bit too long, shifted by the excess. -/
theorem lt_two_pow_excess (f : Format) (num den : Nat) :
    num / den < 2 ^ (f.fractionBits + 1 + f.excess num den) := by
  unfold excess
  split
  · next h => exact h
  · next h =>
    have hle : 2 ^ (f.fractionBits + 1) ≤ num / den := Nat.le_of_not_lt h
    have hne : num / den ≠ 0 :=
      Nat.ne_of_gt (Nat.lt_of_lt_of_le (Nat.two_pow_pos _) hle)
    have hlog : f.fractionBits + 1 ≤ Nat.log2 (num / den) := (Nat.le_log2 hne).2 hle
    rw [show f.fractionBits + 1 + (Nat.log2 (num / den) - f.fractionBits) =
      Nat.log2 (num / den) + 1 from by omega]
    exact Nat.lt_log2_self

/-- A size with an excess has all the bits of a significand above it. -/
theorem two_pow_excess_le {num den : Nat} (h : 0 < f.excess num den) :
    2 ^ (f.fractionBits + f.excess num den) ≤ num / den := by
  unfold excess at h ⊢
  split at h
  · exact absurd h (Nat.lt_irrefl 0)
  · next hlarge =>
    have hle : 2 ^ (f.fractionBits + 1) ≤ num / den := Nat.le_of_not_lt hlarge
    have hne : num / den ≠ 0 :=
      Nat.ne_of_gt (Nat.lt_of_lt_of_le (Nat.two_pow_pos _) hle)
    rw [if_neg hlarge, show f.fractionBits + (Nat.log2 (num / den) - f.fractionBits) =
      Nat.log2 (num / den) from by omega]
    exact Nat.log2_self_le hne

/-- The number of bits to be dropped grows with the number. -/
theorem excess_mono {num num' : Nat} (h : num ≤ num') (den : Nat) :
    f.excess num den ≤ f.excess num' den := by
  refine Nat.le_of_not_lt fun hlt => ?_
  have hbits : 2 ^ (f.fractionBits + f.excess num den) <
      2 ^ (f.fractionBits + 1 + f.excess num' den) :=
    calc 2 ^ (f.fractionBits + f.excess num den)
        ≤ num / den := two_pow_excess_le (Nat.lt_of_le_of_lt (Nat.zero_le _) hlt)
      _ ≤ num' / den := Nat.div_le_div_right h
      _ < 2 ^ (f.fractionBits + 1 + f.excess num' den) := f.lt_two_pow_excess num' den
  have := (Nat.pow_lt_pow_iff_right (by omega)).1 hbits
  omega

/-- Of two sizes the greater one is not rounded to the lesser magnitude. -/
theorem nearest_mono {num num' den : Nat} (h : num ≤ num') (hden : 0 < den) :
    f.nearest num den ≤ f.nearest num' den := by
  rcases Nat.lt_or_eq_of_le (f.excess_mono h den) with hlt | heq
  · -- the bound of the lesser size is where the greater excess starts
    have hlow : roundHalfEven num (den * 2 ^ f.excess num den) ≤ 2 ^ (f.fractionBits + 1) := by
      have hpos : 0 < den * 2 ^ f.excess num den := Nat.mul_pos hden (Nat.two_pow_pos _)
      rw [← roundHalfEven_mul (2 ^ (f.fractionBits + 1)) hpos]
      refine roundHalfEven_mono (Nat.le_of_lt ?_) _
      have hquotient := (Nat.div_lt_iff_lt_mul hden).1 (f.lt_two_pow_excess num den)
      rwa [Nat.pow_add, Nat.mul_assoc, Nat.mul_comm _ den] at hquotient
    have hhigh : 2 ^ f.fractionBits ≤ roundHalfEven num' (den * 2 ^ f.excess num' den) := by
      have hpos : 0 < den * 2 ^ f.excess num' den := Nat.mul_pos hden (Nat.two_pow_pos _)
      rw [← roundHalfEven_mul (2 ^ f.fractionBits) hpos]
      refine roundHalfEven_mono ?_ _
      have hquotient := (Nat.le_div_iff_mul_le hden).1
        (two_pow_excess_le (Nat.lt_of_le_of_lt (Nat.zero_le _) hlt))
      rwa [Nat.pow_add, Nat.mul_assoc, Nat.mul_comm _ den] at hquotient
    unfold nearest
    dsimp only
    calc f.excess num den * 2 ^ f.fractionBits + roundHalfEven num (den * 2 ^ f.excess num den)
        ≤ f.excess num den * 2 ^ f.fractionBits + 2 ^ (f.fractionBits + 1) :=
          Nat.add_le_add_left hlow _
      _ = (f.excess num den + 1) * 2 ^ f.fractionBits + 2 ^ f.fractionBits := by
          rw [Nat.pow_succ, Nat.add_one_mul]
          omega
      _ ≤ f.excess num' den * 2 ^ f.fractionBits + 2 ^ f.fractionBits :=
          Nat.add_le_add_right (Nat.mul_le_mul_right _ hlt) _
      _ ≤ f.excess num' den * 2 ^ f.fractionBits +
            roundHalfEven num' (den * 2 ^ f.excess num' den) := Nat.add_le_add_left hhigh _
  · unfold nearest
    dsimp only
    rw [heq]
    exact Nat.add_le_add_left (roundHalfEven_mono h _) _

/-- What is at most a number of the format is rounded to no more than it. -/
theorem nearest_le {n num den : Nat} (hden : 0 < den) (h : num ≤ f.units n * den) :
    f.nearest num den ≤ n := by
  rw [← f.nearest_units n hden]
  exact nearest_mono h hden

/-- What is at least a number of the format is rounded to no less than it. -/
theorem le_nearest {n num den : Nat} (hden : 0 < den) (h : f.units n * den ≤ num) :
    n ≤ f.nearest num den := by
  rw [← f.nearest_units n hden]
  exact nearest_mono h hden

/-- Magnitudes with greater numbers are not smaller. -/
theorem units_mono {m n : Nat} (h : m ≤ n) : f.units m ≤ f.units n := by
  refine Nat.le_of_not_lt fun hlt => ?_
  have hnm : n ≤ m := by
    rw [← f.nearest_units n Nat.one_pos, ← f.nearest_units m Nat.one_pos]
    exact nearest_mono (Nat.mul_le_mul_right 1 (Nat.le_of_lt hlt)) Nat.one_pos
  rw [Nat.le_antisymm h hnm] at hlt
  exact absurd hlt (Nat.lt_irrefl _)

/-- The powers of two that a format reaches are sizes of it. -/
theorem exists_units_two_pow (hexp : 0 < f.exponentBits) {k : Nat}
    (hk : k < f.fractionBits + (2 ^ f.exponentBits - 2)) :
    ∃ n < f.magnitudes, f.units n = 2 ^ k := by
  have hone : 1 < 2 ^ (f.fractionBits + 1) := Nat.one_lt_two_pow (Nat.succ_ne_zero _)
  have hlt : 1 * 2 ^ k < 2 ^ (f.fractionBits + (2 ^ f.exponentBits - 2)) := by
    rw [Nat.one_mul]
    exact (Nat.pow_lt_pow_iff_right (by omega)).2 hk
  obtain ⟨n, hn, hunits⟩ := exists_units hexp hone hlt
  exact ⟨n, hn, by rw [hunits, Nat.one_mul]⟩

end Format

/-! ## Numbers -/

namespace Binary

variable {f : Format}

/-- What is no greater than a size that is rounded to a finite number is so too. -/
theorem exists_ofUnits_le {num num' den : Nat} {negative : Bool} {y : Finite f}
    (hden : 0 < den) (hy : ofUnits f negative num' den = .finite y) (h : num ≤ num')
    (sign : Bool) :
    ∃ x, ofUnits f sign num den = .finite x ∧ x.magnitude.val ≤ y.magnitude.val := by
  unfold ofUnits at hy
  split at hy
  · next hlt =>
    cases hy
    have hle := Format.nearest_mono (f := f) h hden
    refine ⟨⟨sign, ⟨f.nearest num den, Nat.lt_of_le_of_lt hle hlt⟩⟩, ?_, hle⟩
    unfold ofUnits
    rw [dif_pos (Nat.lt_of_le_of_lt hle hlt)]
  · cases hy

/-- A size up to a power of two that the format reaches is rounded to a finite number up to it. -/
theorem exists_ofUnits (hexp : 0 < f.exponentBits) {k num den : Nat}
    (hk : k < f.fractionBits + (2 ^ f.exponentBits - 2)) (hden : 0 < den)
    (h : num ≤ 2 ^ k * den) (negative : Bool) :
    ∃ x : Finite f, ofUnits f negative num den = .finite x ∧ x.units ≤ 2 ^ k := by
  obtain ⟨n, hn, hunits⟩ := Format.exists_units_two_pow hexp hk
  have hle : f.nearest num den ≤ n := Format.nearest_le hden (hunits ▸ h)
  refine ⟨⟨negative, ⟨f.nearest num den, Nat.lt_of_le_of_lt hle hn⟩⟩, ?_, ?_⟩
  · unfold ofUnits
    rw [dif_pos (Nat.lt_of_le_of_lt hle hn)]
  · rw [← hunits]
    exact Format.units_mono hle

/-- A size from a power of two on, which the format reaches, is not rounded to a lesser number. -/
theorem two_pow_le_units (hexp : 0 < f.exponentBits) {k num den : Nat}
    (hk : k < f.fractionBits + (2 ^ f.exponentBits - 2)) (hden : 0 < den)
    (h : 2 ^ k * den ≤ num) {negative : Bool} {x : Finite f}
    (hx : ofUnits f negative num den = .finite x) : 2 ^ k ≤ x.units := by
  obtain ⟨n, -, hunits⟩ := Format.exists_units_two_pow hexp hk
  unfold ofUnits at hx
  split at hx
  · cases hx
    rw [← hunits]
    exact Format.units_mono (Format.le_nearest hden (hunits ▸ h))
  · cases hx

end Binary

end SemanticHighlight.Numeric
