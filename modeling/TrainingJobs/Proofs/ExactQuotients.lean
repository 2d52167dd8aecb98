import TrainingJobs.Proofs.ExactSums

/-!
# Floats are divided exactly

A float that is not below zero is divided by a positive one without rounding when the quotient is a float (`exactValue?_div`), which the
quotient of a whole number below `2 ^ 53` by a power of two is (`isFloat_div_two_pow`).
-/

namespace TrainingJobs

open Float.Model (UnpackedFloat Format totalExponent)
open Float.Model.UnpackedFloat
open ExactAux ExactSumsAux

namespace ExactQuotientsAux

variable {a b v : BinaryValue} {x y : Float} {p q : ℚ}

/-- A positive magnitude lies between the powers of two on both sides of its first digit. -/
theorem magnitude_bounds (hv : 0 < v.significand) :
    2 ^ (totalExponent v.significand v.exponent - 1) ≤ v.magnitude ∧ v.magnitude < 2 ^ totalExponent v.significand v.exponent := by
  obtain ⟨hle, hlt⟩ := (Nat.log2_eq_iff hv.ne').1 rfl
  have hpow : (0 : ℚ) < 2 ^ v.exponent := by positivity
  rw [totalExponent, add_sub_right_comm, add_sub_cancel_right, zpow_add₀ two_ne_zero, zpow_add₀ two_ne_zero, BinaryValue.magnitude]
  exact ⟨mul_le_mul_of_nonneg_right (by exact_mod_cast hle) hpow.le, mul_lt_mul_of_pos_right (by exact_mod_cast hlt) hpow⟩

/-- The first digit of a quotient stands at most where the places of the first digits differ, and no lower than one below that. -/
theorem totalExponent_sub_le (ha : 0 < a.significand) (hb : 0 < b.significand) (hv : 0 < v.significand)
    (heq : v.magnitude * b.magnitude = a.magnitude) :
    totalExponent a.significand a.exponent - totalExponent b.significand b.exponent ≤ totalExponent v.significand v.exponent := by
  obtain ⟨hle, -⟩ := magnitude_bounds ha
  obtain ⟨-, hltb⟩ := magnitude_bounds hb
  obtain ⟨-, hltv⟩ := magnitude_bounds hv
  have hlt : (2 : ℚ) ^ (totalExponent a.significand a.exponent - 1) <
      2 ^ (totalExponent v.significand v.exponent + totalExponent b.significand b.exponent) := by
    rw [zpow_add₀ two_ne_zero]
    refine hle.trans_lt (heq ▸ mul_lt_mul'' hltv hltb ?_ ?_)
    · exact magnitude_nonneg v
    · exact magnitude_nonneg b
  have := (zpow_lt_zpow_iff_right₀ one_lt_two).1 hlt
  omega

/-- A quotient in normal form is worked out with nothing left, in a form with further places. -/
theorem divCore_eq (h : IsNormal v) (ha : 0 < a.significand) (hb : 0 < b.significand) (hv : 0 < v.significand)
    (heq : v.magnitude * b.magnitude = a.magnitude) :
    ∃ k : ℕ, divCore .binary64 a.significand a.exponent b.significand b.exponent =
      (v.significand * 2 ^ k, v.exponent - k, .exact) := by
  have htarget : Format.binary64.targetExponent
      (totalExponent a.significand a.exponent - totalExponent b.significand b.exponent) ≤ v.exponent := by
    rw [← targetExponent_eq h hv, Format.targetExponent, Format.targetExponent]
    have := totalExponent_sub_le ha hb hv heq
    omega
  have htargets := min_le_right (a.exponent - b.exponent) (Format.binary64.targetExponent
    (totalExponent a.significand a.exponent - totalExponent b.significand b.exponent))
  have hkept := min_le_left (a.exponent - b.exponent) (Format.binary64.targetExponent
    (totalExponent a.significand a.exponent - totalExponent b.significand b.exponent))
  generalize ht : min (a.exponent - b.exponent) (Format.binary64.targetExponent
    (totalExponent a.significand a.exponent - totalExponent b.significand b.exponent)) = t at htargets hkept
  obtain ⟨k, hk⟩ := Int.le.dest (htargets.trans htarget)
  obtain ⟨j, hj⟩ := Int.le.dest hkept
  have hproduct : a.significand * 2 ^ j = b.significand * (v.significand * 2 ^ k) := by
    have hcancel : ((a.significand * 2 ^ j : ℕ) : ℚ) * 2 ^ (b.exponent + t) =
        ((b.significand * (v.significand * 2 ^ k) : ℕ) : ℚ) * 2 ^ (b.exponent + t) := by
      calc ((a.significand * 2 ^ j : ℕ) : ℚ) * 2 ^ (b.exponent + t) = a.magnitude := by
            rw [BinaryValue.magnitude, show a.exponent = j + (b.exponent + t) by omega, zpow_add₀ two_ne_zero (j : ℤ), zpow_natCast]
            push_cast
            ring
        _ = v.magnitude * b.magnitude := heq.symm
        _ = ((b.significand * (v.significand * 2 ^ k) : ℕ) : ℚ) * 2 ^ (b.exponent + t) := by
            rw [BinaryValue.magnitude, BinaryValue.magnitude, ← hk, zpow_add₀ two_ne_zero, zpow_add₀ two_ne_zero, zpow_natCast]
            push_cast
            ring
    exact_mod_cast mul_right_cancel₀ (zpow_ne_zero _ two_ne_zero) hcancel
  refine ⟨k, ?_⟩
  have hshift : (a.exponent - b.exponent - t).toNat = j := by omega
  have hexponent : t = v.exponent - k := by omega
  rw [divCore, ht, hshift, Nat.shiftLeft_eq, hproduct]
  rw [Nat.mul_div_cancel_left _ hb, Nat.mul_mod_right, hexponent]
  rfl

/-- Positive numbers in normal form are divided without rounding when their quotient has a normal form. -/
theorem div_finite (h : IsNormal v) (ha : 0 < a.significand) (hb : 0 < b.significand) (hv : 0 < v.significand)
    (heq : v.magnitude * b.magnitude = a.magnitude) :
    UnpackedFloat.div .binary64 (.finite .positive a.significand a.exponent ha) (.finite .positive b.significand b.exponent hb) =
      .finite .positive v.significand v.exponent hv := by
  obtain ⟨k, hk⟩ := divCore_eq h ha hb hv heq
  simp only [UnpackedFloat.div, hk]
  exact roundWithAccuracy_eq h hv k .positive

theorem unpack_div (x y : Float) : (x / y).toModel.unpack =
    UnpackedFloat.unpack .binary64 (UnpackedFloat.pack .binary64 (UnpackedFloat.div .binary64 x.toModel.unpack y.toModel.unpack)) := rfl

theorem unpack_abs (x : Float) : x.abs.toModel.unpack =
    UnpackedFloat.unpack .binary64 (UnpackedFloat.pack .binary64 (UnpackedFloat.abs x.toModel.unpack)) := rfl

end ExactQuotientsAux

open ExactQuotientsAux

variable {x y : Float} {p q : ℚ}

/-- A float that is not below zero is divided by a positive one without rounding when the quotient is the number of a float. -/
theorem exactValue?_div (hx : exactValue? x = some p) (hy : exactValue? y = some q) (hp : 0 ≤ p) (hq : 0 < q) (h : IsFloat (p / q)) :
    exactValue? (x / y) = some (p / q) := by
  obtain ⟨t, -, rfl⟩ | ⟨b, hb, hnb, hmb, rfl, huy⟩ := unpack_of_exact hy hq.le
  · exact absurd hq (lt_irrefl 0)
  obtain ⟨s, hux, rfl⟩ | ⟨a, ha, hna, hma, rfl, hux⟩ := unpack_of_exact hx hp
  · rw [zero_div]
    refine exactValue?_of_zero (s := s / .positive) ?_
    rw [unpack_div, hux, huy]
    exact pack_zero _
  · obtain ⟨v, hn, hm, hvalue⟩ := h
    have hv : 0 < v.significand := by
      rw [significand_pos_iff, hvalue]
      exact div_pos (significand_pos_iff.1 ha) hq
    rw [← hvalue]
    refine exactValue?_of_finite hv ?_
    rw [unpack_div, hux, huy, div_finite hn ha hb hv (by rw [hvalue, div_mul_cancel₀ _ hq.ne'])]
    exact unpack_pack_finite hn hv hm .positive

/-- A float that is not below zero is its own magnitude. -/
theorem exactValue?_abs (hx : exactValue? x = some p) (hp : 0 ≤ p) : exactValue? x.abs = some p := by
  obtain ⟨s, hux, rfl⟩ | ⟨v, hv, hn, hm, rfl, hux⟩ := unpack_of_exact hx hp
  · refine exactValue?_of_zero (s := .positive) ?_
    rw [unpack_abs, hux]
    exact pack_zero .positive
  · refine exactValue?_of_finite hv ?_
    rw [unpack_abs, hux]
    exact unpack_pack_finite hn hv hm .positive

/-- A whole number with at most 53 binary digits is still the number of a float when it is divided by a power of two. -/
theorem isFloat_div_two_pow {n k : ℕ} (h : n < 2 ^ 53) (hk : k ≤ 1000) : IsFloat (n / 2 ^ k) := by
  rcases Nat.eq_zero_or_pos n with rfl | hpos
  · rw [Nat.cast_zero, zero_div]
    exact_mod_cast isFloat_natCast h
  obtain ⟨v, hn, hm, hvalue⟩ := isFloat_natCast h
  have hone : (2 : ℚ) ^ (0 : ℤ) < 2 ^ (53 + v.exponent) := by
    calc (2 : ℚ) ^ (0 : ℤ) = 1 := zpow_zero _
      _ ≤ n := by exact_mod_cast hpos
      _ = v.significand * 2 ^ v.exponent := hvalue.symm
      _ < 2 ^ 53 * 2 ^ v.exponent := mul_lt_mul_of_pos_right (by exact_mod_cast hn.lt) (zpow_pos two_pos _)
      _ = 2 ^ (53 + v.exponent) := by rw [zpow_add₀ two_ne_zero]; rfl
  have hexponent := (zpow_lt_zpow_iff_right₀ one_lt_two).1 hone
  have hfull : 2 ^ 52 ≤ v.significand := hn.full.resolve_right (by omega)
  refine ⟨⟨false, v.significand, v.exponent - k⟩, ⟨hn.lt, by simp only; omega, .inl hfull⟩, by simp only; omega, ?_⟩
  rw [← hvalue, BinaryValue.magnitude, BinaryValue.magnitude, zpow_sub₀ two_ne_zero, zpow_natCast, mul_div_assoc]

end TrainingJobs
