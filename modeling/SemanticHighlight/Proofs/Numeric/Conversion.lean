import SemanticHighlight.Numeric.Binary

/-!
# Widening a number and narrowing it back

A magnitude of a format is a significand, of one bit more than the format's fraction, shifted
by some places. Rounding to the nearest magnitude gives back what is a magnitude already
(`nearest_units`), and each size of a narrower format is one of a wider format
(`exists_units`). Main statement (`convert_convert`): a finite number that is widened stays
finite, and narrowing gives it back. `widen_narrow` is the case of singles and doubles.
-/

namespace SemanticHighlight.Numeric

/-- Rounding leaves a whole number alone. -/
theorem roundHalfEven_mul (k : Nat) {den : Nat} (hden : 0 < den) :
    roundHalfEven (k * den) den = k := by
  unfold roundHalfEven
  rw [Nat.mul_div_cancel k hden, Nat.mul_mod_left]
  show (if 2 * 0 < den then k else _) = k
  rw [if_pos (by omega)]

namespace Format

variable {f g : Format}

/-! ## Sizes -/

/-- The first magnitudes are as large as their numbers. -/
theorem units_of_lt {n : Nat} (h : n < 2 ^ f.fractionBits) : f.units n = n := by
  unfold units
  rw [if_pos (Nat.div_eq_of_lt h)]

/-- The others are a significand with its leading bit, shifted. -/
theorem units_add (e : Nat) {r : Nat} (hr : r < 2 ^ f.fractionBits) :
    f.units ((e + 1) * 2 ^ f.fractionBits + r) = (2 ^ f.fractionBits + r) * 2 ^ e := by
  have hdiv : ((e + 1) * 2 ^ f.fractionBits + r) / 2 ^ f.fractionBits = e + 1 := by
    rw [Nat.add_comm, Nat.add_mul_div_right _ _ (Nat.two_pow_pos _), Nat.div_eq_of_lt hr,
      Nat.zero_add]
  have hmod : ((e + 1) * 2 ^ f.fractionBits + r) % 2 ^ f.fractionBits = r := by
    rw [Nat.add_comm, Nat.add_mul_mod_self_right, Nat.mod_eq_of_lt hr]
  unfold units
  rw [hdiv, hmod, if_neg (Nat.succ_ne_zero e), Nat.add_sub_cancel]

/-- A magnitude is one of the first, or has a leading bit. -/
theorem magnitude_cases (f : Format) (n : Nat) :
    n < 2 ^ f.fractionBits ∨
      ∃ e r, r < 2 ^ f.fractionBits ∧ n = (e + 1) * 2 ^ f.fractionBits + r := by
  rcases Nat.lt_or_ge n (2 ^ f.fractionBits) with h | h
  · exact .inl h
  · have hpos : 0 < n / 2 ^ f.fractionBits := Nat.div_pos h (Nat.two_pow_pos _)
    refine .inr ⟨n / 2 ^ f.fractionBits - 1, n % 2 ^ f.fractionBits,
      Nat.mod_lt _ (Nat.two_pow_pos _), ?_⟩
    rw [Nat.sub_add_cancel hpos, Nat.mul_comm, Nat.div_add_mod]

/-! ## Rounding a size that is there -/

/-- A significand with its leading bit is too fine by as much as it is shifted. -/
theorem excess_shifted {r : Nat} (hr : r < 2 ^ f.fractionBits) (e : Nat) {den : Nat}
    (hden : 0 < den) : f.excess ((2 ^ f.fractionBits + r) * 2 ^ e * den) den = e := by
  unfold excess
  rw [Nat.mul_div_cancel _ hden]
  cases e with
  | zero =>
    rw [if_pos (by rw [Nat.pow_succ]; omega)]
  | succ e =>
    have hlow : 2 ^ (f.fractionBits + (e + 1)) ≤ (2 ^ f.fractionBits + r) * 2 ^ (e + 1) := by
      rw [Nat.pow_add]
      exact Nat.mul_le_mul_right _ (Nat.le_add_right _ _)
    have hhigh : (2 ^ f.fractionBits + r) * 2 ^ (e + 1) < 2 ^ (f.fractionBits + (e + 1) + 1) := by
      rw [Nat.add_right_comm, Nat.pow_add 2 (f.fractionBits + 1)]
      exact Nat.mul_lt_mul_of_pos_right (by rw [Nat.pow_succ]; omega) (Nat.two_pow_pos _)
    have hne : (2 ^ f.fractionBits + r) * 2 ^ (e + 1) ≠ 0 :=
      Nat.ne_of_gt (Nat.lt_of_lt_of_le (Nat.two_pow_pos _) hlow)
    have hlog : Nat.log2 ((2 ^ f.fractionBits + r) * 2 ^ (e + 1)) = f.fractionBits + (e + 1) :=
      (Nat.log2_eq_iff hne).2 ⟨hlow, hhigh⟩
    have hfine : 2 ^ (f.fractionBits + 1) ≤ (2 ^ f.fractionBits + r) * 2 ^ (e + 1) :=
      Nat.le_trans (Nat.pow_le_pow_right (by omega) (by omega)) hlow
    rw [if_neg (Nat.not_lt.2 hfine), hlog, Nat.add_sub_cancel_left]

/-- What is a magnitude already is rounded to itself. -/
theorem nearest_units (f : Format) (n : Nat) {den : Nat} (hden : 0 < den) :
    f.nearest (f.units n * den) den = n := by
  rcases f.magnitude_cases n with h | ⟨e, r, hr, rfl⟩
  · have hexcess : f.excess (n * den) den = 0 := by
      unfold excess
      rw [Nat.mul_div_cancel n hden, if_pos (by rw [Nat.pow_succ]; omega)]
    unfold nearest
    dsimp only
    rw [units_of_lt h, hexcess, Nat.pow_zero, Nat.mul_one, roundHalfEven_mul n hden]
    omega
  · unfold nearest
    dsimp only
    rw [units_add e hr, excess_shifted hr e hden, Nat.mul_assoc, Nat.mul_comm (2 ^ e) den,
      roundHalfEven_mul _ (Nat.mul_pos hden (Nat.two_pow_pos e)), Nat.add_one_mul]
    omega

/-! ## Sizes of other formats -/

/-- A size is a significand of one bit more than the fraction, shifted. -/
theorem exists_significand (f : Format) (n : Nat) :
    ∃ c j : Nat, c < 2 ^ (f.fractionBits + 1) ∧ f.units n = c * 2 ^ j := by
  rcases f.magnitude_cases n with h | ⟨e, r, hr, rfl⟩
  · exact ⟨n, 0, by rw [Nat.pow_succ]; omega, by rw [units_of_lt h, Nat.pow_zero, Nat.mul_one]⟩
  · exact ⟨2 ^ f.fractionBits + r, e, by rw [Nat.pow_succ]; omega, units_add e hr⟩

/-- How large the magnitudes of a format are. -/
theorem units_lt {n : Nat} (h : n < f.magnitudes) :
    f.units n < 2 ^ (f.fractionBits + (2 ^ f.exponentBits - 2)) := by
  rcases f.magnitude_cases n with hn | ⟨e, r, hr, rfl⟩
  · rw [units_of_lt hn]
    exact Nat.lt_of_lt_of_le hn (Nat.pow_le_pow_right (by omega) (Nat.le_add_right _ _))
  · have he : e + 1 < 2 ^ f.exponentBits - 1 := by
      unfold magnitudes at h
      exact Nat.lt_of_mul_lt_mul_right (Nat.lt_of_le_of_lt (Nat.le_add_right _ r) h)
    rw [units_add e hr]
    calc (2 ^ f.fractionBits + r) * 2 ^ e
        < 2 ^ (f.fractionBits + 1) * 2 ^ e :=
          Nat.mul_lt_mul_of_pos_right (by rw [Nat.pow_succ]; omega) (Nat.two_pow_pos e)
      _ = 2 ^ (f.fractionBits + (e + 1)) := by rw [← Nat.pow_add, Nat.add_assoc, Nat.add_comm 1 e]
      _ ≤ 2 ^ (f.fractionBits + (2 ^ f.exponentBits - 2)) :=
          Nat.pow_le_pow_right (by omega) (by omega)

/-- A shifted significand that is large enough is one with its leading bit, shifted. -/
theorem exists_shifted {p c j : Nat} (hc : c < 2 ^ (p + 1)) (hlarge : 2 ^ p ≤ c * 2 ^ j) :
    ∃ r t : Nat, r < 2 ^ p ∧ c * 2 ^ j = (2 ^ p + r) * 2 ^ t := by
  have hne : c * 2 ^ j ≠ 0 := Nat.ne_of_gt (Nat.lt_of_lt_of_le (Nat.two_pow_pos _) hlarge)
  -- the place of the leading bit says which significand it is
  obtain ⟨t, ht⟩ : ∃ t, Nat.log2 (c * 2 ^ j) = p + t :=
    Nat.exists_eq_add_of_le ((Nat.le_log2 hne).2 hlarge)
  have hlow : 2 ^ (p + t) ≤ c * 2 ^ j := ht ▸ Nat.log2_self_le hne
  have hhigh : c * 2 ^ j < 2 ^ (p + t + 1) := ht ▸ Nat.lt_log2_self
  have htj : t ≤ j := by
    refine Nat.le_of_not_lt fun hjt => ?_
    have hless : c * 2 ^ j < 2 ^ (p + t) := by
      calc c * 2 ^ j < 2 ^ (p + 1) * 2 ^ j :=
            Nat.mul_lt_mul_of_pos_right hc (Nat.two_pow_pos j)
        _ = 2 ^ (p + 1 + j) := (Nat.pow_add _ _ _).symm
        _ ≤ 2 ^ (p + t) := Nat.pow_le_pow_right (by omega) (by omega)
    exact absurd hless (Nat.not_lt.2 hlow)
  have hsplit : c * 2 ^ j = c * 2 ^ (j - t) * 2 ^ t := by
    rw [Nat.mul_assoc, ← Nat.pow_add, Nat.sub_add_cancel htj]
  rw [hsplit, Nat.pow_add] at hlow
  have hw : 2 ^ p ≤ c * 2 ^ (j - t) := Nat.le_of_mul_le_mul_right hlow (Nat.two_pow_pos t)
  rw [hsplit, Nat.add_right_comm, Nat.pow_add] at hhigh
  have hw' : c * 2 ^ (j - t) < 2 ^ (p + 1) := Nat.lt_of_mul_lt_mul_right hhigh
  obtain ⟨r, hr⟩ := Nat.exists_eq_add_of_le hw
  refine ⟨r, t, ?_, by rw [hsplit, hr]⟩
  rw [hr, Nat.pow_succ] at hw'
  omega

/-- A shifted significand is a size of each format that it is not too long and not too large
for. -/
theorem exists_units (hexp : 0 < f.exponentBits) {c j : Nat}
    (hc : c < 2 ^ (f.fractionBits + 1))
    (hlt : c * 2 ^ j < 2 ^ (f.fractionBits + (2 ^ f.exponentBits - 2))) :
    ∃ n < f.magnitudes, f.units n = c * 2 ^ j := by
  have htwo : 2 ^ 1 ≤ 2 ^ f.exponentBits := Nat.pow_le_pow_right (by omega) hexp
  rcases Nat.lt_or_ge (c * 2 ^ j) (2 ^ f.fractionBits) with hsmall | hlarge
  · refine ⟨c * 2 ^ j, Nat.lt_of_lt_of_le hsmall ?_, units_of_lt hsmall⟩
    exact Nat.le_mul_of_pos_left _ (by omega)
  · obtain ⟨r, t, hr, heq⟩ := exists_shifted hc hlarge
    have hlow : 2 ^ (f.fractionBits + t) ≤ c * 2 ^ j := by
      rw [heq, Nat.pow_add]
      exact Nat.mul_le_mul_right _ (Nat.le_add_right _ _)
    have hle : f.fractionBits + t < f.fractionBits + (2 ^ f.exponentBits - 2) :=
      (Nat.pow_lt_pow_iff_right (by omega)).1 (Nat.lt_of_le_of_lt hlow hlt)
    have htop : t + 1 + 1 ≤ 2 ^ f.exponentBits - 1 := by omega
    refine ⟨(t + 1) * 2 ^ f.fractionBits + r, ?_, ?_⟩
    · unfold magnitudes
      calc (t + 1) * 2 ^ f.fractionBits + r
          < (t + 1) * 2 ^ f.fractionBits + 2 ^ f.fractionBits := Nat.add_lt_add_left hr _
        _ = (t + 1 + 1) * 2 ^ f.fractionBits := (Nat.add_one_mul _ _).symm
        _ ≤ (2 ^ f.exponentBits - 1) * 2 ^ f.fractionBits := Nat.mul_le_mul_right _ htop
    · rw [units_add t hr, ← heq]

/-- Whether a format has all numbers of another. -/
structure Wider (f g : Format) : Prop where
  exponent : 0 < g.exponentBits
  fraction : f.fractionBits ≤ g.fractionBits
  unit : f.unitBits ≤ g.unitBits
  range : f.fractionBits + (2 ^ f.exponentBits - 2) + (g.unitBits - f.unitBits) ≤
    g.fractionBits + (2 ^ g.exponentBits - 2)

/-- A magnitude of a format is one of each wider format. -/
theorem Wider.exists_units (h : f.Wider g) {n : Nat} (hn : n < f.magnitudes) :
    ∃ m < g.magnitudes, g.units m = f.units n * 2 ^ (g.unitBits - f.unitBits) := by
  obtain ⟨c, j, hc, hunits⟩ := f.exists_significand n
  have hlt := units_lt hn
  rw [hunits, Nat.mul_assoc, ← Nat.pow_add]
  refine Format.exists_units h.exponent ?_ ?_
  · exact Nat.lt_of_lt_of_le hc (Nat.pow_le_pow_right (by omega) (by have := h.fraction; omega))
  · rw [Nat.pow_add, ← Nat.mul_assoc, ← hunits]
    calc f.units n * 2 ^ (g.unitBits - f.unitBits)
        < 2 ^ (f.fractionBits + (2 ^ f.exponentBits - 2)) * 2 ^ (g.unitBits - f.unitBits) :=
          Nat.mul_lt_mul_of_pos_right hlt (Nat.two_pow_pos _)
      _ = 2 ^ (f.fractionBits + (2 ^ f.exponentBits - 2) + (g.unitBits - f.unitBits)) :=
          (Nat.pow_add _ _ _).symm
      _ ≤ 2 ^ (g.fractionBits + (2 ^ g.exponentBits - 2)) :=
          Nat.pow_le_pow_right (by omega) h.range

theorem single_wider_double : single.Wider double := by
  refine ⟨?_, ?_, ?_, ?_⟩ <;> decide

end Format

/-! ## Conversions -/

/-- The nearest number to a size that a format has. -/
theorem Binary.ofUnits_units {f : Format} (negative : Bool) (n : Fin f.magnitudes) {den : Nat}
    (hden : 0 < den) : Binary.ofUnits f negative (f.units n * den) den = .finite ⟨negative, n⟩ := by
  unfold Binary.ofUnits
  simp only [f.nearest_units n hden, n.isLt, dif_pos]

/-- A finite number that is widened stays finite, and narrowing gives it back. -/
theorem Finite.convert_convert {f g : Format} (h : f.Wider g) (x : Finite f) :
    ∃ y : Finite g, x.convert g = .finite y ∧ y.convert f = .finite x := by
  obtain ⟨m, hm, hunits⟩ := h.exists_units x.magnitude.isLt
  have hzero : f.unitBits - g.unitBits = 0 := Nat.sub_eq_zero_of_le h.unit
  refine ⟨⟨x.negative, ⟨m, hm⟩⟩, ?_, ?_⟩
  · unfold Finite.convert Finite.units
    rw [hzero, Nat.pow_zero, ← hunits]
    have hsame := Binary.ofUnits_units x.negative ⟨m, hm⟩ Nat.one_pos
    rw [Nat.mul_one] at hsame
    exact hsame
  · unfold Finite.convert Finite.units
    dsimp only
    rw [hzero, Nat.pow_zero, Nat.mul_one, hunits]
    exact Binary.ofUnits_units x.negative x.magnitude (Nat.two_pow_pos _)

/-- A single that is widened to a double and narrowed is the same. -/
theorem widen_narrow (x : Finite .single) :
    ∃ y : Finite .double, x.convert .double = .finite y ∧ y.convert .single = .finite x :=
  x.convert_convert Format.single_wider_double

theorem all_isFinite_iff {f : Format} {x : Option (Binary f)} :
    x.all Binary.isFinite = true ↔ ∀ y, x = some y → y.isFinite = true := by
  cases x with
  | none => exact ⟨fun _ _ h => (by cases h), fun _ => rfl⟩
  | some x => exact ⟨fun h y hy => Option.some.inj hy ▸ h, fun h => h x rfl⟩

end SemanticHighlight.Numeric
