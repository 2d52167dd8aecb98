import Mathlib
import TrainingJobs.Number.Binary

/-!
# The numbers that floats stand for

A float that is neither infinite nor no number stands for a rational number (`exactValue?`). Floats are compared as these numbers are
(`beq_iff_of_exact`, `lt_iff_of_exact`, `le_iff_of_exact`), and the class that is read off the bits of a float says which number it is,
whether it is whole and to which word it is cut.
-/

namespace TrainingJobs

open Float.Model (UnpackedFloat)
open Float.Model.UnpackedFloat (Sign unpackSign unpackExponent unpackMantissa)

/-- The magnitude of a finite float. -/
def BinaryValue.magnitude (v : BinaryValue) : ℚ := v.significand * 2 ^ v.exponent

/-- The number that a finite float stands for. -/
def BinaryValue.toRat (v : BinaryValue) : ℚ := if v.negative then -v.magnitude else v.magnitude

/-- The number that a float stands for, unless it is infinite or no number. -/
def exactValue? (x : Float) : Option ℚ :=
  match classify x with
  | .finite v => some v.toRat
  | _ => none

namespace ExactAux

/-! ## Reading a float off its bits -/

/-- The class of an unpacked float. -/
def ofUnpacked : UnpackedFloat → FloatClass
  | .infinity s => .infinite (s == .negative)
  | .notANumber => .nan
  | .zero s => .finite ⟨s == .negative, 0, -1074⟩
  | .finite s m e _ => .finite ⟨s == .negative, m, e⟩

/-- The sign bit, as a number. -/
theorem toNat_unpackSign (b : BitVec 64) : (@unpackSign .binary64 b).toNat = b.toNat / 2 ^ 63 := by
  have h : (@unpackSign .binary64 b).toNat = b.toNat >>> 63 % 2 ^ 1 := by
    simp [unpackSign, BitVec.extractLsb_toNat]
  rw [h, Nat.shiftRight_eq_div_pow]
  have := b.isLt
  omega

theorem toNat_unpackExponent (b : BitVec 64) :
    (@unpackExponent .binary64 b).toNat = b.toNat / 2 ^ 52 % 2048 := by
  have h : (@unpackExponent .binary64 b).toNat = b.toNat >>> 52 % 2 ^ 11 := by
    simp [unpackExponent, BitVec.extractLsb_toNat]
  rw [h, Nat.shiftRight_eq_div_pow]
  rfl

theorem toNat_unpackMantissa (b : BitVec 64) : (@unpackMantissa .binary64 b).toNat = b.toNat % 2 ^ 52 := by
  simp [unpackMantissa, BitVec.extractLsb_toNat]

/-- The exponent of an infinity, or of no number. -/
theorem unpackExponent_eq_ones_iff (b : BitVec 64) : @unpackExponent .binary64 b = -1#11 ↔ b.toNat / 2 ^ 52 % 2048 = 2047 := by
  rw [← toNat_unpackExponent, ← BitVec.toNat_inj]
  rfl

/-- The exponent of a number without a hidden bit. -/
theorem unpackExponent_eq_zero_iff (b : BitVec 64) : @unpackExponent .binary64 b = 0#11 ↔ b.toNat / 2 ^ 52 % 2048 = 0 := by
  rw [← toNat_unpackExponent, ← BitVec.toNat_inj]
  rfl

theorem unpackMantissa_eq_zero_iff (b : BitVec 64) : @unpackMantissa .binary64 b = 0#52 ↔ b.toNat % 2 ^ 52 = 0 := by
  rw [← toNat_unpackMantissa, ← BitVec.toNat_inj]
  rfl

/-- The mantissa of a normal number has a hidden bit in front of it. -/
theorem toNat_hidden_append (b : BitVec 64) : (1#1 ++ @unpackMantissa .binary64 b).toNat = b.toNat % 2 ^ 52 + 2 ^ 52 := by
  have hmod := Nat.mod_lt b.toNat (Nat.two_pow_pos 52)
  rw [BitVec.toNat_append, toNat_unpackMantissa, ← Nat.shiftLeft_add_eq_or_of_lt hmod, Nat.add_comm]
  rfl

theorem ofBitVec_beq (b : BitVec 1) : (Sign.ofBitVec b == .negative) = (b.toNat == 1) := by
  revert b
  decide

/-- A float is classified as its unpacked form says. -/
theorem classify_eq_ofUnpacked (x : Float) : classify x = ofUnpacked x.toModel.unpack := by
  have hbits : x.toBits.toNat = x.toModel.toBits.toBitVec.toNat := rfl
  unfold classify
  rw [hbits]
  change _ = ofUnpacked (UnpackedFloat.unpack .binary64 x.toModel.toBits.toBitVec)
  generalize x.toModel.toBits.toBitVec = b
  have hsign := ofBitVec_beq (@unpackSign .binary64 b)
  rw [toNat_unpackSign] at hsign
  have hpow : Nat.pow 2 63 = 2 ^ 63 ∧ Nat.pow 2 52 = 2 ^ 52 := ⟨rfl, rfl⟩
  simp only [hpow.1, hpow.2, ← hsign, UnpackedFloat.unpack]
  -- Both read the exponent first: all ones, all zeros or a normal number.
  by_cases hspecial : b.toNat / 2 ^ 52 % 2048 = 2047
  · rw [if_pos hspecial, if_pos ((unpackExponent_eq_ones_iff b).2 hspecial)]
    by_cases hzero : b.toNat % 2 ^ 52 = 0
    · rw [if_pos hzero, if_pos ((unpackMantissa_eq_zero_iff b).2 hzero), ofUnpacked]
    · rw [if_neg hzero, if_neg (mt (unpackMantissa_eq_zero_iff b).1 hzero), ofUnpacked]
  rw [if_neg hspecial, if_neg (mt (unpackExponent_eq_ones_iff b).1 hspecial)]
  by_cases hsmall : b.toNat / 2 ^ 52 % 2048 = 0
  · rw [if_pos hsmall, if_pos ((unpackExponent_eq_zero_iff b).2 hsmall)]
    by_cases hzero : b.toNat % 2 ^ 52 = 0
    · rw [dif_pos ((unpackMantissa_eq_zero_iff b).2 hzero), hzero, ofUnpacked]
    · rw [dif_neg (mt (unpackMantissa_eq_zero_iff b).1 hzero), ofUnpacked, toNat_unpackMantissa, toNat_unpackExponent, hsmall]
      rfl
  · rw [if_neg hsmall, if_neg (mt (unpackExponent_eq_zero_iff b).1 hsmall), ofUnpacked, toNat_unpackExponent, toNat_hidden_append]
    rfl

/-- The form in which the value of a float is read off its bits: the significand has 53 digits, or fewer below the least exponent. -/
structure IsNormal (v : BinaryValue) : Prop where
  lt : v.significand < 2 ^ 53
  least : -1074 ≤ v.exponent
  full : 2 ^ 52 ≤ v.significand ∨ v.exponent = -1074

/-- Every finite float is of that form. -/
theorem isNormal_of_classify {x : Float} {v : BinaryValue} (h : classify x = .finite v) : IsNormal v := by
  have hfraction : x.toBits.toNat % Nat.pow 2 52 < 2 ^ 52 := Nat.mod_lt _ (Nat.two_pow_pos 52)
  have hpow : Nat.pow 2 52 = 2 ^ 52 := rfl
  unfold classify at h
  dsimp only at h
  split at h
  · split at h <;> cases h
  · split at h
    · cases h
      exact ⟨by simp only; omega, le_rfl, .inr rfl⟩
    · cases h
      exact ⟨by simp only; omega, by simp only; omega, .inl (by simp only; omega)⟩

variable {v w : BinaryValue}

/-- Of two floats the one with the greater exponent has the greater magnitude. -/
theorem magnitude_lt_of_exponent_lt (hv : IsNormal v) (hw : IsNormal w) (h : v.exponent < w.exponent) :
    v.magnitude < w.magnitude := by
  have hfull : 2 ^ 52 ≤ w.significand := hw.full.resolve_right (by have := hv.least; omega)
  have hpow : (0 : ℚ) < 2 ^ v.exponent := by positivity
  calc v.magnitude < 2 ^ 53 * 2 ^ v.exponent := by
        exact mul_lt_mul_of_pos_right (by exact_mod_cast hv.lt) hpow
    _ = 2 ^ 52 * 2 ^ (v.exponent + 1) := by rw [zpow_add₀ (by norm_num)]; ring
    _ ≤ w.significand * 2 ^ w.exponent := by
        refine mul_le_mul (by exact_mod_cast hfull) ?_ (by positivity) (by positivity)
        exact zpow_le_zpow_right₀ (by norm_num) (by omega)

/-- Magnitudes are compared by the exponents first, and then by the significands. -/
theorem compare_magnitude (hv : IsNormal v) (hw : IsNormal w) :
    compare v.magnitude w.magnitude = (compare v.exponent w.exponent).then (compare v.significand w.significand) := by
  rcases lt_trichotomy v.exponent w.exponent with h | h | h
  · rw [compare_lt_iff_lt.2 h, compare_lt_iff_lt.2 (magnitude_lt_of_exponent_lt hv hw h)]
    rfl
  · have hpow : (0 : ℚ) < 2 ^ w.exponent := by positivity
    rw [compare_eq_iff_eq.2 h, Ordering.then, BinaryValue.magnitude, BinaryValue.magnitude, h]
    rcases lt_trichotomy v.significand w.significand with hm | hm | hm
    · rw [compare_lt_iff_lt.2 hm, compare_lt_iff_lt]
      exact mul_lt_mul_of_pos_right (by exact_mod_cast hm) hpow
    · rw [compare_eq_iff_eq.2 hm, compare_eq_iff_eq, hm]
    · rw [compare_gt_iff_gt.2 hm, compare_gt_iff_gt]
      exact mul_lt_mul_of_pos_right (by exact_mod_cast hm) hpow
  · rw [compare_gt_iff_gt.2 h, compare_gt_iff_gt.2 (magnitude_lt_of_exponent_lt hw hv h)]
    rfl

theorem toRat_zero (b : Bool) (e : Int) : BinaryValue.toRat ⟨b, 0, e⟩ = 0 := by simp [BinaryValue.toRat, BinaryValue.magnitude]

theorem toRat_positive (m : Nat) (e : Int) :
    BinaryValue.toRat ⟨Sign.positive == .negative, m, e⟩ = BinaryValue.magnitude ⟨false, m, e⟩ := rfl

theorem toRat_negative (m : Nat) (e : Int) :
    BinaryValue.toRat ⟨Sign.negative == .negative, m, e⟩ = -BinaryValue.magnitude ⟨false, m, e⟩ := rfl

theorem magnitude_pos {m : Nat} (hm : 0 < m) (e : Int) : 0 < BinaryValue.magnitude ⟨false, m, e⟩ := by
  have : (0 : ℚ) < m := by exact_mod_cast hm
  unfold BinaryValue.magnitude
  positivity

theorem compare_neg (q r : ℚ) : compare (-q) (-r) = (compare q r).swap := by
  rcases lt_trichotomy q r with h | h | h
  · rw [compare_lt_iff_lt.2 h, compare_gt_iff_gt.2 (neg_lt_neg h)]
    rfl
  · rw [h, compare_eq_iff_eq.2 rfl, compare_eq_iff_eq.2 rfl]
    rfl
  · rw [compare_gt_iff_gt.2 h, compare_lt_iff_lt.2 (neg_lt_neg h)]
    rfl

/-- Unpacked floats are compared by their signs, exponents and significands, which is how the numbers compare. -/
theorem compare_ofUnpacked {a b : UnpackedFloat} (ha : ofUnpacked a = .finite v) (hb : ofUnpacked b = .finite w)
    (hv : IsNormal v) (hw : IsNormal w) : a.compare b = some (compare v.toRat w.toRat) := by
  cases a with
  | infinity s => cases ha
  | notANumber => cases ha
  | zero s =>
    cases ha
    cases b with
    | infinity t => cases hb
    | notANumber => cases hb
    | zero t =>
      cases hb
      rw [toRat_zero, toRat_zero, compare_eq_iff_eq.2 rfl]
      rfl
    | finite t m e hm =>
      cases hb
      have hpos := magnitude_pos hm e
      rw [toRat_zero]
      cases t with
      | positive => rw [toRat_positive, compare_lt_iff_lt.2 hpos]; rfl
      | negative => rw [toRat_negative, compare_gt_iff_gt.2 (neg_neg_of_pos hpos)]; rfl
  | finite s m e hm =>
    cases ha
    have hpos := magnitude_pos hm e
    cases b with
    | infinity t => cases hb
    | notANumber => cases hb
    | zero t =>
      cases hb
      rw [toRat_zero]
      cases s with
      | positive => rw [toRat_positive, compare_gt_iff_gt.2 hpos]; rfl
      | negative => rw [toRat_negative, compare_lt_iff_lt.2 (neg_neg_of_pos hpos)]; rfl
    | finite t n k hn =>
      cases hb
      have hpos' := magnitude_pos hn k
      have hmagnitude : compare (BinaryValue.magnitude ⟨false, m, e⟩) (BinaryValue.magnitude ⟨false, n, k⟩) =
          (compare e k).then (compare m n) :=
        compare_magnitude ⟨hv.lt, hv.least, hv.full⟩ ⟨hw.lt, hw.least, hw.full⟩
      cases s with
      | positive =>
        rw [toRat_positive]
        cases t with
        | positive => rw [toRat_positive, hmagnitude]; rfl
        | negative => rw [toRat_negative, compare_gt_iff_gt.2 ((neg_neg_of_pos hpos').trans hpos)]; rfl
      | negative =>
        rw [toRat_negative]
        cases t with
        | positive => rw [toRat_positive, compare_lt_iff_lt.2 ((neg_neg_of_pos hpos).trans hpos')]; rfl
        | negative =>
          rw [toRat_negative, compare_neg, hmagnitude]
          rfl

/-- Finite floats are compared as the numbers that they stand for. -/
theorem compare_unpack {x y : Float} (hx : classify x = .finite v) (hy : classify y = .finite w) :
    x.toModel.unpack.compare y.toModel.unpack = some (compare v.toRat w.toRat) := by
  refine compare_ofUnpacked ?_ ?_ (isNormal_of_classify hx) (isNormal_of_classify hy)
  · rw [← classify_eq_ofUnpacked, hx]
  · rw [← classify_eq_ofUnpacked, hy]

theorem exactValue?_eq_some_iff {x : Float} {q : ℚ} : exactValue? x = some q ↔ ∃ v, classify x = .finite v ∧ v.toRat = q := by
  cases h : classify x <;> simp [exactValue?, h]

/-! ## Comparing floats -/

variable {x y z : Float} {p q : ℚ}

theorem beq_eq_compare (x y : Float) : (x == y) = (x.toModel.unpack.compare y.toModel.unpack == some .eq) := rfl

theorem lt_iff_compare : x < y ↔ x.toModel.unpack.compare y.toModel.unpack = some .lt := by
  change decide ((x.toModel.unpack.compare y.toModel.unpack == some .lt) = true) = true ↔ _
  rw [decide_eq_true_eq, beq_iff_eq]

theorem le_iff_compare : x ≤ y ↔ (x.toModel.unpack.compare y.toModel.unpack).any (·.isLE) = true := by
  change decide ((x.toModel.unpack.compare y.toModel.unpack).any (·.isLE) = true) = true ↔ _
  rw [decide_eq_true_eq]

/-- A float that stands for no number is none, or infinite. -/
theorem unpack_of_inexact (hx : exactValue? x = none) :
    x.toModel.unpack = .notANumber ∨ ∃ s, x.toModel.unpack = .infinity s := by
  rw [exactValue?, classify_eq_ofUnpacked] at hx
  cases hu : x.toModel.unpack with
  | infinity s => exact .inr ⟨s, rfl⟩
  | notANumber => exact .inl rfl
  | zero s =>
    rw [hu] at hx
    cases hx
  | finite s m e hm =>
    rw [hu] at hx
    cases hx

/-- Nothing is above infinity, and nothing below it. -/
theorem compare_infinity (a : UnpackedFloat) :
    (UnpackedFloat.infinity .positive).compare a ≠ some .lt ∧ a.compare (.infinity .negative) ≠ some .lt := by
  cases a with
  | infinity s => cases s <;> exact ⟨by decide, by decide⟩
  | notANumber => exact ⟨nofun, nofun⟩
  | zero s => exact ⟨nofun, nofun⟩
  | finite s m e hm => cases s <;> exact ⟨nofun, nofun⟩

end ExactAux

open ExactAux

variable {x y z : Float} {p q : ℚ}

theorem beq_iff_of_exact (hx : exactValue? x = some p) (hy : exactValue? y = some q) : (x == y) = true ↔ p = q := by
  obtain ⟨v, hv, rfl⟩ := exactValue?_eq_some_iff.1 hx
  obtain ⟨w, hw, rfl⟩ := exactValue?_eq_some_iff.1 hy
  rw [beq_eq_compare, compare_unpack hv hw, beq_iff_eq, Option.some_inj, compare_eq_iff_eq]

theorem lt_iff_of_exact (hx : exactValue? x = some p) (hy : exactValue? y = some q) : x < y ↔ p < q := by
  obtain ⟨v, hv, rfl⟩ := exactValue?_eq_some_iff.1 hx
  obtain ⟨w, hw, rfl⟩ := exactValue?_eq_some_iff.1 hy
  rw [lt_iff_compare, compare_unpack hv hw, Option.some_inj, compare_lt_iff_lt]

theorem le_iff_of_exact (hx : exactValue? x = some p) (hy : exactValue? y = some q) : x ≤ y ↔ p ≤ q := by
  obtain ⟨v, hv, rfl⟩ := exactValue?_eq_some_iff.1 hx
  obtain ⟨w, hw, rfl⟩ := exactValue?_eq_some_iff.1 hy
  rw [le_iff_compare, compare_unpack hv hw, Option.any_some, Ordering.isLE_iff_ne_gt, ← not_lt]
  exact not_congr compare_gt_iff_gt

/-- A float that stands for no number equals none that does. -/
theorem not_beq_of_inexact (hx : exactValue? x = none) (hy : exactValue? y = some q) : ¬ (x == y) = true := by
  obtain ⟨w, hw, -⟩ := exactValue?_eq_some_iff.1 hy
  rw [classify_eq_ofUnpacked] at hw
  rw [beq_eq_compare]
  rcases unpack_of_inexact hx with h | ⟨s, h⟩
  · rw [h]
    nofun
  · rw [h]
    cases hu : y.toModel.unpack with
    | infinity t =>
      rw [hu] at hw
      cases hw
    | notANumber =>
      rw [hu] at hw
      cases hw
    | zero t => cases s <;> nofun
    | finite t m e hm => cases s <;> nofun

/-- A float that stands for no number lies between no others. -/
theorem not_between_of_inexact (hx : exactValue? x = none) (hlow : y < x) : ¬ x < z := by
  intro hhigh
  rw [lt_iff_compare] at hlow hhigh
  rcases unpack_of_inexact hx with h | ⟨s, h⟩
  · rw [h] at hhigh
    cases hhigh
  · rw [h] at hlow hhigh
    cases s with
    | positive => exact (compare_infinity _).1 hhigh
    | negative => exact (compare_infinity _).2 hlow

theorem exactValue?_zero : exactValue? 0 = some 0 := by
  rw [exactValue?_eq_some_iff]
  refine ⟨⟨false, 0, -1074⟩, by decide +kernel, ?_⟩
  exact toRat_zero _ _

theorem exactValue?_one : exactValue? 1 = some 1 := by
  rw [exactValue?_eq_some_iff]
  refine ⟨⟨false, 2 ^ 52, -52⟩, by decide +kernel, ?_⟩
  norm_num [BinaryValue.toRat, BinaryValue.magnitude]

/-! ## Whole numbers -/

namespace ExactAux

variable {v : BinaryValue}

/-- The magnitude of a finite float as a quotient. -/
theorem magnitude_eq_div (v : BinaryValue) : v.magnitude = v.numerator / v.denominator := by
  have hpow : ∀ k : Nat, ((Nat.pow 2 k : Nat) : ℚ) = 2 ^ k := fun k => Nat.cast_pow 2 k
  rw [BinaryValue.numerator, BinaryValue.denominator, Nat.cast_mul, hpow, hpow, BinaryValue.magnitude]
  rcases le_total 0 v.exponent with h | h
  · obtain ⟨k, hk⟩ := Int.eq_ofNat_of_zero_le h
    rw [hk]
    simp
  · obtain ⟨k, hk⟩ := Int.eq_ofNat_of_zero_le (Int.neg_nonneg_of_nonpos h)
    rw [show v.exponent = -(k : Int) by omega, zpow_neg]
    simp [div_eq_mul_inv]

/-- A magnitude is a whole number when nothing is left of the division. -/
theorem magnitude_eq_natCast_iff {n : ℕ} : v.magnitude = n ↔ v.isWhole = true ∧ v.wholePart = n := by
  have hpos : (0 : ℚ) < v.denominator := by exact_mod_cast v.denominator_pos
  rw [magnitude_eq_div, div_eq_iff hpos.ne', BinaryValue.isWhole, BinaryValue.wholePart, beq_iff_eq]
  constructor
  · intro h
    have h : v.numerator = n * v.denominator := by exact_mod_cast h
    rw [h]
    exact ⟨Nat.mul_mod_left _ _, Nat.mul_div_cancel _ v.denominator_pos⟩
  · rintro ⟨hmod, rfl⟩
    exact_mod_cast (Nat.div_mul_cancel (Nat.dvd_of_mod_eq_zero hmod)).symm

theorem magnitude_nonneg (v : BinaryValue) : 0 ≤ v.magnitude := by
  unfold BinaryValue.magnitude
  positivity

/-- The number of a float that is not below zero is its magnitude. -/
theorem toRat_of_nonneg (h : 0 ≤ v.toRat) : v.toRat = v.magnitude := by
  rw [BinaryValue.toRat] at h ⊢
  split at h
  · rename_i hnegative
    have := magnitude_nonneg v
    rw [if_pos hnegative]
    linarith
  · rename_i hnegative
    rw [if_neg hnegative]

end ExactAux

theorem isWholeFloat_of_inexact (hx : exactValue? x = none) : isWholeFloat x = false := by
  unfold exactValue? at hx
  unfold isWholeFloat
  cases h : classify x with
  | finite v =>
    rw [h] at hx
    cases hx
  | infinite negative => rfl
  | nan => rfl

/-- A float of a number that is not below zero is whole just when that number is. -/
theorem isWholeFloat_iff_of_exact (hx : exactValue? x = some q) (hq : 0 ≤ q) : isWholeFloat x = true ↔ ∃ n : ℕ, q = n := by
  obtain ⟨v, hv, rfl⟩ := exactValue?_eq_some_iff.1 hx
  rw [isWholeFloat, hv, toRat_of_nonneg hq]
  constructor
  · intro h
    exact ⟨v.wholePart, magnitude_eq_natCast_iff.2 ⟨h, rfl⟩⟩
  · rintro ⟨n, hn⟩
    exact (magnitude_eq_natCast_iff.1 hn).1

/-- A whole number is cut to a word by staying as it is, or by becoming the greatest word. -/
theorem wordOfFloat_of_exact {n : ℕ} (hx : exactValue? x = some (n : ℚ)) : wordOfFloat x = min n maxWord := by
  obtain ⟨v, hv, hn⟩ := exactValue?_eq_some_iff.1 hx
  have hmagnitude : v.magnitude = n := by rw [← toRat_of_nonneg (hn ▸ n.cast_nonneg), hn]
  rw [wordOfFloat, hv]
  dsimp only
  rw [(magnitude_eq_natCast_iff.1 hmagnitude).2, clampWord]
  split
  · -- Below zero is only the zero with a sign.
    rename_i hnegative
    rw [BinaryValue.toRat, if_pos hnegative, hmagnitude] at hn
    have hzero : (n : ℚ) = 0 := by linarith
    rw [Nat.cast_eq_zero.1 hzero, Nat.zero_min]
  · rfl

end TrainingJobs
