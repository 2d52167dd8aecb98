import TrainingJobs.Proofs.ExactFloats

/-!
# Whole floats are added exactly

Two floats that are not below zero are added without rounding when their sum is a float (`exactValue?_add`), which every whole number
below `2 ^ 53` is (`isFloat_natCast`). So a list of whole floats adds up to the sum of their numbers (`exactValue?_foldl_add`).
-/

namespace TrainingJobs

open Float.Model (UnpackedFloat Format totalExponent)
open Float.Model.UnpackedFloat
open ExactAux

/-- A number that is not below zero is one that floats stand for. -/
def IsFloat (q : ℚ) : Prop := ∃ v : BinaryValue, IsNormal v ∧ v.exponent ≤ 971 ∧ v.magnitude = q

namespace ExactSumsAux

variable {m n k : ℕ} {e : ℤ} {v : BinaryValue} {p q : ℚ} {x y : Float}

/-! ## Rounding what needs no rounding -/

theorem log2_mul_two_pow (hm : 0 < m) (k : ℕ) : (m * 2 ^ k).log2 = m.log2 + k := by
  obtain ⟨hle, hlt⟩ := (Nat.log2_eq_iff hm.ne').1 rfl
  refine (Nat.log2_eq_iff (by positivity)).2 ⟨?_, ?_⟩
  · rw [Nat.pow_add]
    exact Nat.mul_le_mul_right _ hle
  · rw [Nat.add_right_comm, Nat.pow_add]
    exact Nat.mul_lt_mul_of_pos_right hlt (Nat.two_pow_pos k)

/-- The place of the first digit is the same in a form with further places. -/
theorem totalExponent_mul_two_pow (hm : 0 < m) (e : ℤ) (k : ℕ) : totalExponent (m * 2 ^ k) (e - k) = totalExponent m e := by
  rw [totalExponent, totalExponent, log2_mul_two_pow hm]
  push_cast
  omega

/-- A number in normal form has its exponent as target. -/
theorem targetExponent_eq (h : IsNormal v) (hv : 0 < v.significand) :
    Format.binary64.targetExponent (totalExponent v.significand v.exponent) = v.exponent := by
  have hbits : ((Format.binary64.mantissaBits : ℕ) : ℤ) = 53 := by decide
  have hleast : Format.binary64.minExponent = -1074 := by decide
  have hlow := h.least
  have hlt : v.significand.log2 < 53 := (Nat.log2_lt hv.ne').2 h.lt
  rw [Format.targetExponent, totalExponent, hbits, hleast]
  rcases h.full with hfull | hexponent
  · have hle : 52 ≤ v.significand.log2 := (Nat.le_log2 hv.ne').2 hfull
    omega
  · omega

/-- Places that are all zero are shifted out without a trace. -/
theorem shiftRight_exact (m k : ℕ) :
    ExtendedMantissa.ofMantissaAndAccuracy (m * 2 ^ k) .exact >>> k = .ofMantissaAndAccuracy m .exact := by
  change k.repeat ExtendedMantissa.shiftRightOne ⟨m * 2 ^ k, false, false⟩ = ⟨m, false, false⟩
  induction k generalizing m with
  | zero => rw [Nat.pow_zero, Nat.mul_one]; rfl
  | succ k ih =>
    rw [Nat.repeat, Nat.pow_succ', ← Nat.mul_assoc, ih, ExtendedMantissa.shiftRightOne]
    simp

theorem shiftToTargetExponent_eq (h : IsNormal v) (hv : 0 < v.significand) (k : ℕ) :
    shiftToTargetExponent .binary64 (v.significand * 2 ^ k) (v.exponent - k) .exact =
      (.ofMantissaAndAccuracy v.significand .exact, v.exponent) := by
  rw [shiftToTargetExponent, totalExponent_mul_two_pow hv, targetExponent_eq h hv, shiftToExponent, sub_sub_cancel, Int.toNat_natCast]
  rw [shiftRight_exact, sub_add_cancel]

/-- A number in a form with further places is rounded to its normal form. -/
theorem roundWithAccuracy_eq (h : IsNormal v) (hv : 0 < v.significand) (k : ℕ) (s : Sign) :
    roundWithAccuracy .binary64 s (v.significand * 2 ^ k) (v.exponent - k) .exact = .finite s v.significand v.exponent hv := by
  have hrounded : (ExtendedMantissa.ofMantissaAndAccuracy v.significand .exact).roundedMantissa = v.significand := rfl
  have hagain := shiftToTargetExponent_eq h hv 0
  rw [Nat.pow_zero, Nat.mul_one, Int.natCast_zero, sub_zero] at hagain
  simp only [roundWithAccuracy, shiftToTargetExponent_eq h hv, hrounded, hagain]
  exact dif_neg hv.ne'

/-- A form with the smaller exponent has the further places. -/
theorem eq_mul_two_pow (h : (m : ℚ) * 2 ^ (e - k) = n * 2 ^ e) : m = n * 2 ^ k := by
  have hpow : (2 : ℚ) ^ e = 2 ^ k * 2 ^ (e - k) := by
    rw [← zpow_natCast, ← zpow_add₀ two_ne_zero, add_sub_cancel]
  rw [hpow, ← mul_assoc] at h
  exact_mod_cast mul_right_cancel₀ (zpow_ne_zero _ two_ne_zero) h

/-- So is a number in any form. -/
theorem round_eq (h : IsNormal v) (hv : 0 < v.significand) (heq : (m : ℚ) * 2 ^ e = v.magnitude) (s : Sign) :
    UnpackedFloat.round .binary64 s m e = .finite s v.significand v.exponent hv := by
  rw [BinaryValue.magnitude] at heq
  rcases le_total e v.exponent with hle | hle
  · obtain ⟨k, hk⟩ := Int.le.dest hle
    obtain rfl : e = v.exponent - k := by omega
    obtain rfl := eq_mul_two_pow heq
    have hkept : decreaseExponent (v.significand * 2 ^ k) (v.exponent - k) v.exponent = (v.significand * 2 ^ k, v.exponent - k) := by
      rw [decreaseExponent, sub_sub_cancel_left, Int.toNat_neg_natCast]
      simp
    rw [UnpackedFloat.round, totalExponent_mul_two_pow hv, targetExponent_eq h hv, hkept]
    exact roundWithAccuracy_eq h hv k s
  · obtain ⟨k, hk⟩ := Int.le.dest hle
    have hexponent : v.exponent = e - k := by omega
    have hsignificand : v.significand = m * 2 ^ k := eq_mul_two_pow (by rw [heq, hexponent])
    have hm : 0 < m := Nat.pos_of_mul_pos_right (hsignificand ▸ hv)
    have htotal : totalExponent m e = totalExponent v.significand v.exponent := by
      rw [hsignificand, hexponent, totalExponent_mul_two_pow hm]
    have hlowered : decreaseExponent m e v.exponent = (v.significand, v.exponent) := by
      rw [decreaseExponent, hsignificand, hexponent, sub_sub_cancel, Int.toNat_natCast, Nat.shiftLeft_eq]
    rw [UnpackedFloat.round, htotal, targetExponent_eq h hv, hlowered]
    simpa using roundWithAccuracy_eq h hv 0 s

/-! ## Packing -/

theorem unpackSign_packComponents {spec : Format} (s : Sign) (exponent : BitVec spec.exponentBits)
    (mantissa : BitVec spec.mantissaBitsWithoutImplicit) : unpackSign (packComponents spec s exponent mantissa) = s.toBitVec := by
  ext i hi
  obtain rfl : i = 0 := by omega
  simp [unpackSign, packComponents, BitVec.getLsbD_append, BitVec.getElem_append]

theorem ofBitVec_toBitVec (s : Sign) : Sign.ofBitVec s.toBitVec = s := by cases s <;> rfl

theorem finite_congr {s : Sign} {m n : ℕ} {e e' : ℤ} (hm : 0 < m) (hn : 0 < n) (h : m = n) (he : e = e') :
    UnpackedFloat.finite s m e hm = .finite s n e' hn := by
  subst h he
  rfl

/-- A number with a hidden bit is read as it was packed. -/
theorem unpack_full {field : ℕ} (hfull : 2 ^ 52 ≤ m) (hlt : m < 2 ^ 53) (hfield : 0 < field) (hmost : field < 2047) (s : Sign)
    (hm : 0 < m) : UnpackedFloat.unpack .binary64 (packComponents .binary64 s (BitVec.ofNat 11 field) (BitVec.ofNat 52 m)) =
      .finite s m (field - 1075) hm := by
  have htoNat : (BitVec.ofNat 11 field).toNat = field := by
    rw [BitVec.toNat_ofNat]
    omega
  have hne : ∀ k < 2048, k ≠ field → BitVec.ofNat 11 field ≠ BitVec.ofNat 11 k := by
    intro k hk hkfield heq
    have hnat := congrArg BitVec.toNat heq
    rw [htoNat, BitVec.toNat_ofNat] at hnat
    omega
  have hones : BitVec.ofNat 11 field ≠ -1#11 := hne 2047 (by decide) (by omega)
  have hzero : BitVec.ofNat 11 field ≠ 0#11 := hne 0 (by decide) (by omega)
  have hhidden : (1#1 ++ BitVec.ofNat 52 m).toNat = m := by
    rw [BitVec.toNat_append, ← Nat.shiftLeft_add_eq_or_of_lt (BitVec.isLt _)]
    simp only [BitVec.toNat_ofNat, Nat.shiftLeft_eq]
    omega
  simp only [UnpackedFloat.unpack, unpackMantissa_packComponents, unpackExponent_packComponents, unpackSign_packComponents,
    ofBitVec_toBitVec, if_neg hones, if_neg hzero]
  exact finite_congr _ _ hhidden (by rw [htoNat]; rfl)

/-- So is one without it. -/
theorem unpack_small (hlt : m < 2 ^ 52) (s : Sign) (hm : 0 < m) :
    UnpackedFloat.unpack .binary64 (packComponents .binary64 s 0#11 (BitVec.ofNat 52 m)) = .finite s m (-1074) hm := by
  have htoNat : (BitVec.ofNat 52 m).toNat = m := by rw [BitVec.toNat_ofNat, Nat.mod_eq_of_lt hlt]
  have hnonzero : BitVec.ofNat 52 m ≠ 0#52 := by
    intro heq
    rw [heq] at htoNat
    exact hm.ne htoNat
  simp only [UnpackedFloat.unpack, unpackMantissa_packComponents, unpackExponent_packComponents, unpackSign_packComponents,
    ofBitVec_toBitVec, if_neg (show 0#11 ≠ -1#11 by decide), dif_neg hnonzero, ↓reduceIte]
  exact finite_congr _ _ htoNat rfl

/-- A number in normal form is packed without loss. -/
theorem unpack_pack_finite (h : IsNormal v) (hv : 0 < v.significand) (hmost : v.exponent ≤ 971) (s : Sign) :
    UnpackedFloat.unpack .binary64 (UnpackedFloat.pack .binary64 (.finite s v.significand v.exponent hv)) =
      .finite s v.significand v.exponent hv := by
  have hlow := h.least
  have hbias : Format.binary64.exponentBias = 1023 := by decide
  have hbits : Format.binary64.mantissaBits = 53 := by decide
  obtain ⟨field, hfield⟩ := Int.le.dest (show (-1075 : ℤ) ≤ v.exponent by omega)
  have hbiased : (v.exponent + (1023 : ℕ) + (52 : ℕ)).toNat = field := by omega
  have hfits : ¬ 2 ^ 11 ≤ field + 1 := by omega
  simp only [UnpackedFloat.pack, hbias, hbits, hbiased, if_neg hfits]
  by_cases hfull : 2 ^ 52 ≤ v.significand
  · have hlog : v.significand.log2 + 1 = 53 := by rw [(Nat.log2_eq_iff hv.ne').2 ⟨hfull, h.lt⟩]
    rw [if_pos hlog, unpack_full hfull h.lt (by omega) (by omega) s hv]
    exact finite_congr _ _ rfl (by omega)
  · have hleast : v.exponent = -1074 := h.full.resolve_left hfull
    have hlog : v.significand.log2 + 1 ≠ 53 := by
      have := (Nat.log2_lt hv.ne').2 (Nat.lt_of_not_le hfull)
      omega
    rw [if_neg hlog, unpack_small (Nat.lt_of_not_le hfull) s hv]
    exact finite_congr _ _ rfl hleast.symm

/-! ## Adding floats -/

theorem exponent_le_of_classify (h : classify x = .finite v) : v.exponent ≤ 971 := by
  unfold classify at h
  dsimp only at h
  split at h
  · split at h <;> cases h
  · split at h
    · cases h
      exact (by decide : (-1074 : ℤ) ≤ 971)
    · cases h
      have := Nat.mod_lt (x.toBits.toNat / Nat.pow 2 52) (show 0 < 2048 by decide)
      simp only
      omega

theorem exactValue?_of_zero {s : Sign} (h : x.toModel.unpack = .zero s) : exactValue? x = some 0 := by
  rw [exactValue?, classify_eq_ofUnpacked, h]
  exact congrArg some (toRat_zero _ _)

theorem exactValue?_of_finite (hv : 0 < v.significand) (h : x.toModel.unpack = .finite .positive v.significand v.exponent hv) :
    exactValue? x = some v.magnitude := by
  rw [exactValue?, classify_eq_ofUnpacked, h]
  rfl

/-- A float that stands for a number not below zero is a zero, or a positive number in normal form. -/
theorem unpack_of_exact (hx : exactValue? x = some q) (hq : 0 ≤ q) :
    (∃ s, x.toModel.unpack = .zero s ∧ q = 0) ∨
      ∃ (v : BinaryValue) (hv : 0 < v.significand), IsNormal v ∧ v.exponent ≤ 971 ∧ v.magnitude = q ∧
        x.toModel.unpack = .finite .positive v.significand v.exponent hv := by
  obtain ⟨v, hv, hvalue⟩ := exactValue?_eq_some_iff.1 hx
  have hnormal := isNormal_of_classify hv
  have hmost := exponent_le_of_classify hv
  rw [classify_eq_ofUnpacked] at hv
  cases hu : x.toModel.unpack with
  | infinity s =>
    rw [hu] at hv
    cases hv
  | notANumber =>
    rw [hu] at hv
    cases hv
  | zero s =>
    rw [hu] at hv
    cases hv
    exact .inl ⟨s, rfl, by rw [← hvalue, toRat_zero]⟩
  | finite s m e hm =>
    rw [hu] at hv
    cases hv
    cases s with
    | positive => exact .inr ⟨_, hm, hnormal, hmost, hvalue, rfl⟩
    | negative =>
      have := magnitude_pos hm e
      rw [toRat_negative] at hvalue
      linarith

theorem significand_pos_iff : 0 < v.significand ↔ 0 < v.magnitude := by
  constructor
  · intro hv
    exact magnitude_pos hv v.exponent
  · intro h
    refine Nat.pos_of_ne_zero fun hzero => h.ne ?_
    rw [BinaryValue.magnitude, hzero, Nat.cast_zero, zero_mul]

theorem pack_zero (s : Sign) : UnpackedFloat.unpack .binary64 (UnpackedFloat.pack .binary64 (.zero s)) = .zero s := by
  cases s <;> rfl

theorem decreaseExponent_value {target : ℤ} (h : target ≤ e) : ((decreaseExponent m e target).1 : ℚ) * 2 ^ target = m * 2 ^ e := by
  obtain ⟨k, rfl⟩ := Int.le.dest h
  rw [decreaseExponent, add_sub_cancel_left, Int.toNat_natCast, Nat.shiftLeft_eq, zpow_add₀ two_ne_zero, zpow_natCast]
  push_cast
  ring

theorem normalize_natCast (h : IsNormal v) (hv : 0 < v.significand) (heq : (m : ℚ) * 2 ^ e = v.magnitude) (s : Sign) :
    UnpackedFloat.normalize .binary64 m e s = .finite .positive v.significand v.exponent hv := by
  have hm : 0 < m := by
    refine Nat.pos_of_ne_zero fun hzero => ?_
    rw [hzero, Nat.cast_zero, zero_mul] at heq
    exact (significand_pos_iff.1 hv).ne heq
  have hcompare : compare (m : ℤ) 0 = .gt := compare_gt_iff_gt.2 (by exact_mod_cast hm)
  rw [UnpackedFloat.normalize, hcompare]
  exact round_eq h hv heq .positive

/-- Positive numbers in normal form are added without rounding when their sum has a normal form. -/
theorem add_finite {a b : BinaryValue} (ha : 0 < a.significand) (hb : 0 < b.significand) (h : IsNormal v) (hv : 0 < v.significand)
    (heq : a.magnitude + b.magnitude = v.magnitude) :
    UnpackedFloat.add .binary64 (.finite .positive a.significand a.exponent ha) (.finite .positive b.significand b.exponent hb) =
      .finite .positive v.significand v.exponent hv := by
  have hvalue : (((decreaseExponent a.significand a.exponent (min a.exponent b.exponent)).1 +
      (decreaseExponent b.significand b.exponent (min a.exponent b.exponent)).1 : ℕ) : ℚ) * 2 ^ min a.exponent b.exponent =
        v.magnitude := by
    rw [Nat.cast_add, add_mul, decreaseExponent_value (min_le_left _ _), decreaseExponent_value (min_le_right _ _)]
    exact heq
  exact normalize_natCast h hv hvalue .positive

theorem unpack_add (x y : Float) : (x + y).toModel.unpack =
    UnpackedFloat.unpack .binary64 (UnpackedFloat.pack .binary64 (UnpackedFloat.add .binary64 x.toModel.unpack y.toModel.unpack)) := rfl

end ExactSumsAux

open ExactSumsAux

/-- Floats of numbers not below zero are added without rounding when the sum is the number of a float. -/
theorem exactValue?_add {x y : Float} {p q : ℚ} (hx : exactValue? x = some p) (hy : exactValue? y = some q) (hp : 0 ≤ p)
    (hq : 0 ≤ q) (h : IsFloat (p + q)) : exactValue? (x + y) = some (p + q) := by
  obtain ⟨s, hux, rfl⟩ | ⟨a, ha, hna, hma, rfl, hux⟩ := unpack_of_exact hx hp
  · obtain ⟨t, huy, rfl⟩ | ⟨b, hb, hnb, hmb, rfl, huy⟩ := unpack_of_exact hy hq
    · obtain ⟨r, hr⟩ : ∃ r, UnpackedFloat.add .binary64 (.zero s) (.zero t) = .zero r := by
        cases s <;> cases t <;> exact ⟨_, rfl⟩
      rw [add_zero]
      exact exactValue?_of_zero (by rw [unpack_add, hux, huy, hr, pack_zero])
    · rw [zero_add]
      refine exactValue?_of_finite hb ?_
      rw [unpack_add, hux, huy]
      exact unpack_pack_finite hnb hb hmb .positive
  · obtain ⟨t, huy, rfl⟩ | ⟨b, hb, hnb, hmb, rfl, huy⟩ := unpack_of_exact hy hq
    · rw [add_zero]
      refine exactValue?_of_finite ha ?_
      rw [unpack_add, hux, huy]
      exact unpack_pack_finite hna ha hma .positive
    · obtain ⟨v, hn, hm, hvalue⟩ := h
      have hv : 0 < v.significand := by
        rw [significand_pos_iff, hvalue]
        exact add_pos (significand_pos_iff.1 ha) (significand_pos_iff.1 hb)
      rw [← hvalue]
      refine exactValue?_of_finite hv ?_
      rw [unpack_add, hux, huy, add_finite ha hb hn hv hvalue.symm]
      exact unpack_pack_finite hn hv hm .positive

/-! ## Whole numbers -/

variable {x : Float} {n : ℕ}

/-- A whole number with at most 53 binary digits is the number of a float. -/
theorem isFloat_natCast (h : n < 2 ^ 53) : IsFloat n := by
  rcases Nat.eq_zero_or_pos n with rfl | hpos
  · exact ⟨⟨false, 0, -1074⟩, ⟨by decide, le_rfl, .inr rfl⟩, by decide, by simp [BinaryValue.magnitude]⟩
  · obtain ⟨hle, hlt⟩ := (Nat.log2_eq_iff hpos.ne').1 rfl
    obtain ⟨k, hk⟩ := Nat.le.dest (Nat.le_of_lt_succ ((Nat.log2_lt hpos.ne').2 h))
    have hfull : 2 ^ 52 ≤ n * 2 ^ k := by
      rw [← hk, Nat.pow_add]
      exact Nat.mul_le_mul_right _ hle
    have hfits : n * 2 ^ k < 2 ^ 53 := by
      rw [show 53 = n.log2 + 1 + k by omega, Nat.pow_add _ _ k]
      exact Nat.mul_lt_mul_of_pos_right hlt (Nat.two_pow_pos k)
    refine ⟨⟨false, n * 2 ^ k, -k⟩, ⟨hfits, by simp only; omega, .inl hfull⟩, by simp only; omega, ?_⟩
    rw [BinaryValue.magnitude, Nat.cast_mul, Nat.cast_pow, zpow_neg, zpow_natCast, Nat.cast_ofNat]
    field_simp

namespace ExactSumsAux

/-- The float that a whole number is multiplied with when it is turned into a float. -/
def one : Float := Float.ofBits 0x3FF0000000000000

theorem unpack_one : one.toModel.unpack = .finite .positive (2 ^ 52) (-52) (by decide) := by
  rfl

/-- A product with one needs no rounding. -/
theorem exactValue?_mul_one (hx : exactValue? x = some q) (hq : 0 ≤ q) : exactValue? (x * one) = some q := by
  have hmul : (x * one).toModel.unpack = UnpackedFloat.unpack .binary64
      (UnpackedFloat.pack .binary64 (UnpackedFloat.mul .binary64 x.toModel.unpack one.toModel.unpack)) := rfl
  obtain ⟨s, hux, rfl⟩ | ⟨v, hv, hnormal, hmost, rfl, hux⟩ := unpack_of_exact hx hq
  · refine exactValue?_of_zero (s := s * .positive) ?_
    rw [hmul, hux, unpack_one]
    exact pack_zero _
  · refine exactValue?_of_finite hv ?_
    have hround := roundWithAccuracy_eq hnormal hv 52 .positive
    rw [hmul, hux, unpack_one]
    exact (congrArg (fun u => UnpackedFloat.unpack .binary64 (UnpackedFloat.pack .binary64 u)) hround).trans
      (unpack_pack_finite hnormal hv hmost .positive)

/-- Whole words are turned into floats without rounding. -/
theorem exactValue?_toFloat (h : n < 2 ^ 53) : exactValue? n.toUInt64.toFloat = some (n : ℚ) := by
  have hword : n.toUInt64.toNat = n := UInt64.toNat_ofNat_of_lt' (h.trans (by decide))
  have hunpack : n.toUInt64.toFloat.toModel.unpack = UnpackedFloat.unpack .binary64
      (UnpackedFloat.pack .binary64 (UnpackedFloat.normalize .binary64 (n.toUInt64.toNat : ℤ) 0 .positive)) := rfl
  rw [hword] at hunpack
  rcases Nat.eq_zero_or_pos n with rfl | hpos
  · rw [Nat.cast_zero]
    exact exactValue?_of_zero (hunpack.trans (pack_zero .positive))
  · obtain ⟨v, hnormal, hmost, hvalue⟩ := isFloat_natCast h
    have hv : 0 < v.significand := by
      rw [significand_pos_iff, hvalue]
      exact_mod_cast hpos
    rw [← hvalue]
    refine exactValue?_of_finite hv ?_
    rw [hunpack, normalize_natCast hnormal hv (by rw [hvalue, zpow_zero, mul_one])]
    exact unpack_pack_finite hnormal hv hmost .positive

end ExactSumsAux

theorem exactValue?_ofNat (h : n < 2 ^ 53) : exactValue? (Float.ofNat n) = some (n : ℚ) := by
  have hfast : Float.ofNat n = n.toUInt64.toFloat * one := dif_pos ⟨h, by decide⟩
  rw [hfast]
  exact exactValue?_mul_one (exactValue?_toFloat h) n.cast_nonneg

/-- A float of a whole number has no fraction to lose. -/
theorem exactValue?_truncated (hx : exactValue? x = some (n : ℚ)) (h : n < 2 ^ 53) : exactValue? (truncated x) = some (n : ℚ) := by
  obtain ⟨v, hv, hvalue⟩ := exactValue?_eq_some_iff.1 hx
  have hmagnitude : v.magnitude = n := by rw [← toRat_of_nonneg (hvalue ▸ n.cast_nonneg), hvalue]
  rw [truncated, hv]
  dsimp only
  split
  · exact hx
  · rw [(magnitude_eq_natCast_iff.1 hmagnitude).2]
    split
    · -- Below zero is only the zero with a sign.
      rename_i hnegative
      rw [BinaryValue.toRat, if_pos hnegative, hmagnitude] at hvalue
      have hzero : (n : ℚ) = 0 := by linarith
      obtain rfl : n = 0 := Nat.cast_eq_zero.1 hzero
      rw [Nat.cast_zero, exactValue?_eq_some_iff]
      exact ⟨⟨true, 0, -1074⟩, by decide +kernel, toRat_zero _ _⟩
    · exact exactValue?_ofNat h

/-- A list of whole floats adds up to the sum of their numbers, as long as that is a float. -/
theorem exactValue?_foldl_add {α : Type} {f : α → Float} {g : α → ℕ} {items : List α} {a : Float} {m : ℕ}
    (ha : exactValue? a = some (m : ℚ)) (h : ∀ item ∈ items, exactValue? (f item) = some (g item : ℚ))
    (hsum : m + (items.map g).sum < 2 ^ 53) :
    exactValue? ((items.map f).foldl (· + ·) a) = some ((m + (items.map g).sum : ℕ) : ℚ) := by
  induction items generalizing a m with
  | nil => exact ha
  | cons item rest ih =>
    rw [List.map_cons, List.sum_cons, ← Nat.add_assoc] at hsum
    have hitem := h item List.mem_cons_self
    have hnext : exactValue? (a + f item) = some ((m + g item : ℕ) : ℚ) := by
      rw [Nat.cast_add]
      refine exactValue?_add ha hitem m.cast_nonneg (g item).cast_nonneg ?_
      exact_mod_cast isFloat_natCast (show m + g item < 2 ^ 53 by omega)
    rw [List.map_cons, List.map_cons, List.foldl_cons, List.sum_cons, ← Nat.add_assoc]
    exact ih hnext (fun other hother => h other (List.mem_cons_of_mem _ hother)) hsum

end TrainingJobs
