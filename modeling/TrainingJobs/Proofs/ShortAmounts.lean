import TrainingJobs.Number.Places
import TrainingJobs.Number.Reading
import TrainingJobs.Proofs.ExactSums

/-!
# Amounts with at most two places

An amount is written as the hundredths that are nearest to its value (`hundredths_close`), and the zeros that are left out at its end do
not change what number is written (`writes_shortHundredths`). So an amount writes a number that is at most half a hundredth away from it
(`writes_shortAmount`).
-/

namespace TrainingJobs

open ExactAux

/-! ## Rounding -/

section Rounding

variable {num den m : ℕ} {tie : Tie}

/-- A quotient is rounded to the whole number below it, or to the next one, and between both as the tie says. -/
theorem roundQuotient_cases (num den : ℕ) (tie : Tie) :
    roundQuotient num den tie = num / den ∧ 2 * (num % den) ≤ den ∧ (2 * (num % den) = den → num / den % 2 = 0) ∨
      roundQuotient num den tie = num / den + 1 ∧ den ≤ 2 * (num % den) ∧
        (2 * (num % den) = den → tie = .toEven → num / den % 2 = 1) := by
  unfold roundQuotient
  dsimp only
  split
  · exact .inl ⟨rfl, by omega, by omega⟩
  split
  · exact .inr ⟨rfl, by omega, by omega⟩
  cases tie with
  | away => exact .inr ⟨rfl, by omega, nofun⟩
  | toEven =>
    dsimp only
    split
    · exact .inl ⟨rfl, by omega, by omega⟩
    · exact .inr ⟨rfl, by omega, by omega⟩

/-- A quotient is rounded to a whole number that is at most a half away. -/
theorem roundQuotient_bounds (hden : 0 < den) (num : ℕ) (tie : Tie) :
    2 * num ≤ 2 * (roundQuotient num den tie * den) + den ∧ 2 * (roundQuotient num den tie * den) ≤ 2 * num + den := by
  have hdivision := Nat.div_add_mod' num den
  have hmod := Nat.mod_lt num hden
  rcases roundQuotient_cases num den tie with ⟨hr, hle, -⟩ | ⟨hr, hle, -⟩
  · rw [hr]
    omega
  · rw [hr, Nat.succ_mul (num / den) den]
    omega

/-- A quotient half way below an even number, or above that, is not rounded below the number. -/
theorem le_roundQuotient_of_even (heven : m % 2 = 0) (hden : 0 < den) (h : 2 * (m * den) ≤ 2 * num + den) :
    m ≤ roundQuotient num den .toEven := by
  have hdivision := Nat.div_add_mod' num den
  have hmod := Nat.mod_lt num hden
  by_contra hlt
  -- The number below the quotient is at most the one before `m`, which is odd.
  have hbelow : roundQuotient num den .toEven * den + den ≤ m * den := by
    rw [← Nat.succ_mul]
    exact Nat.mul_le_mul_right den (by omega)
  rcases roundQuotient_cases num den .toEven with ⟨hr, hle, htie⟩ | ⟨hr, hle, -⟩
  · rw [hr] at hbelow hlt
    have hhalf := htie (by omega)
    have hsucc : (num / den + 1) * den = m * den := by
      rw [Nat.succ_mul]
      omega
    have := Nat.eq_of_mul_eq_mul_right hden hsucc
    omega
  · rw [hr, Nat.succ_mul (num / den) den] at hbelow
    omega

end Rounding

namespace BinaryValue

/-- The hundredths that are nearest to a magnitude. -/
def hundredths (v : BinaryValue) : ℕ := roundQuotient (100 * v.numerator) v.denominator .toEven

variable {v : BinaryValue} {m : ℕ}

theorem magnitude_mul_denominator (v : BinaryValue) : v.magnitude * v.denominator = v.numerator := by
  have hpos : (0 : ℚ) < v.denominator := by exact_mod_cast v.denominator_pos
  rw [magnitude_eq_div, div_mul_cancel₀ _ hpos.ne']

/-- They are at most half a hundredth away from it. -/
theorem hundredths_close (v : BinaryValue) : |(v.hundredths : ℚ) / 100 - v.magnitude| ≤ 1 / 200 := by
  have hpos : (0 : ℚ) < v.denominator := by exact_mod_cast v.denominator_pos
  obtain ⟨hup, hdown⟩ := roundQuotient_bounds v.denominator_pos (100 * v.numerator) .toEven
  have hup' : (2 * (100 * v.numerator) : ℚ) ≤ 2 * (v.hundredths * v.denominator) + v.denominator := by exact_mod_cast hup
  have hdown' : (2 * (v.hundredths * v.denominator) : ℚ) ≤ 2 * (100 * v.numerator) + v.denominator := by exact_mod_cast hdown
  have hmagnitude := v.magnitude_mul_denominator
  rw [abs_le]
  constructor
  · nlinarith
  · nlinarith

/-- Half a hundredth below an even number of them a magnitude is rounded up to it. -/
theorem le_hundredths (heven : m % 2 = 0) (h : (m : ℚ) / 100 - 1 / 200 ≤ v.magnitude) : m ≤ v.hundredths := by
  have hpos : (0 : ℚ) < v.denominator := by exact_mod_cast v.denominator_pos
  have hmagnitude := v.magnitude_mul_denominator
  refine le_roundQuotient_of_even heven v.denominator_pos ?_
  have hle : (2 * (m * v.denominator) : ℚ) ≤ 2 * (100 * v.numerator) + v.denominator := by nlinarith
  exact_mod_cast hle

end BinaryValue

/-! ## Numbers in writing -/

/-- Digits, and perhaps a point with digits behind it, write a number. -/
inductive WritesMagnitude : List Char → ℚ → Prop
  | whole {digits : List Char} (hne : digits ≠ []) (h : ∀ c ∈ digits, c.isDigit = true) :
    WritesMagnitude digits (naturalOfDigits digits)
  | pointed {digits fraction : List Char} (hne : digits ≠ []) (h : ∀ c ∈ digits, c.isDigit = true) (hfraction : fraction ≠ [])
    (h' : ∀ c ∈ fraction, c.isDigit = true) :
    WritesMagnitude (digits ++ '.' :: fraction) (naturalOfDigits digits + naturalOfDigits fraction / 10 ^ fraction.length)

/-- A number in writing, with a minus in front when it is negative. -/
inductive Writes : List Char → ℚ → Prop
  | plain {text : List Char} {q : ℚ} (h : WritesMagnitude text q) : Writes text q
  | minus {text : List Char} {q : ℚ} (h : WritesMagnitude text q) : Writes ('-' :: text) (-q)

/-! ## Leaving out zeros -/

section Ends

variable {c d : Char} {text : List Char}

theorem dropEnd_concat_self (c : Char) (text : List Char) : dropEnd c (text ++ [c]) = dropEnd c text := by
  simp [dropEnd]

theorem dropEnd_concat_of_ne (h : d ≠ c) (text : List Char) : dropEnd c (text ++ [d]) = text ++ [d] := by
  simp [dropEnd, h]

theorem dropEnd_cons_of_ne (h : d ≠ c) (text : List Char) : dropEnd c (d :: text) = d :: dropEnd c text := by
  rw [dropEnd, List.reverse_cons, List.dropWhile_append]
  split
  · rename_i hempty
    rw [dropEnd, List.isEmpty_iff.1 hempty, List.dropWhile_cons_of_neg (by simpa using h)]
    rfl
  · rw [List.reverse_append, dropEnd]
    rfl

/-- A text without the character is left as it is. -/
theorem dropEnd_of_not_mem (h : c ∉ text) : dropEnd c text = text := by
  rcases List.eq_nil_or_concat text with rfl | ⟨front, d, rfl⟩
  · rfl
  · rw [List.concat_eq_append] at h ⊢
    refine dropEnd_concat_of_ne (fun hd => h ?_) front
    rw [hd]
    exact List.mem_append_right _ List.mem_cons_self

end Ends

/-- The text of hundredths without the zeros at its end. -/
def shortHundredths (hundredths : ℕ) : List Char := dropEnd '.' (dropEnd '0' (hundredthsText hundredths).toList)

/-- Behind the point hundredths have two digits. -/
theorem toList_hundredthsText (h : ℕ) : (hundredthsText h).toList =
    Nat.toDigits 10 (h / 100) ++ ['.', Nat.digitChar (h % 100 / 10), Nat.digitChar (h % 100 % 10)] := by
  have htwo : ∀ f < 100, (if f < 10 then "0" else "").toList ++ (toString f).toList =
      [Nat.digitChar (f / 10), Nat.digitChar (f % 10)] := by decide
  have hwhole : (toString (h / 100)).toList = Nat.toDigits 10 (h / 100) := String.toList_ofList
  rw [hundredthsText, String.toList_append, String.toList_append, String.toList_append, List.append_assoc, List.append_assoc, hwhole,
    htwo _ (Nat.mod_lt h (by decide))]
  rfl

/-- The digits below ten are told by their characters. -/
theorem digitChar_spec : ∀ a < 10, (Nat.digitChar a).isDigit = true ∧ digitValue (Nat.digitChar a) = a ∧
    Nat.digitChar a ≠ '.' ∧ (Nat.digitChar a = '0' → a = 0) := by decide

theorem isDigit_toDigits (n : ℕ) : ∀ c ∈ Nat.toDigits 10 n, c.isDigit = true := fun _ hc =>
  Nat.isDigit_of_mem_toDigits (by decide) (by decide) hc

theorem writes_toDigits (n : ℕ) : WritesMagnitude (Nat.toDigits 10 n) n := by
  have hwrites := WritesMagnitude.whole Nat.toDigits_ne_nil (isDigit_toDigits n)
  rwa [naturalOfDigits_toDigits] at hwrites

theorem point_not_mem_toDigits (n : ℕ) : '.' ∉ Nat.toDigits 10 n := fun hmem =>
  absurd (isDigit_toDigits n '.' hmem) (by decide)

/-- Behind a whole number and a point digits write their part of it. -/
theorem writes_pointed (n : ℕ) {fraction : List Char} (hne : fraction ≠ []) (h : ∀ c ∈ fraction, c.isDigit = true) :
    WritesMagnitude (Nat.toDigits 10 n ++ '.' :: fraction) (n + naturalOfDigits fraction / 10 ^ fraction.length) := by
  have hwrites := WritesMagnitude.pointed Nat.toDigits_ne_nil (isDigit_toDigits n) hne h
  rwa [naturalOfDigits_toDigits] at hwrites

/-- Without the zeros at its end the text of hundredths still writes their number. -/
theorem writes_shortHundredths (h : ℕ) : WritesMagnitude (shortHundredths h) (h / 100) := by
  obtain ⟨htens, hvalue, hpoint, hzero⟩ := digitChar_spec (h % 100 / 10) (by omega)
  obtain ⟨hones, hvalue', hpoint', hzero'⟩ := digitChar_spec (h % 100 % 10) (by omega)
  have hparts : (h : ℚ) = 100 * (h / 100 : ℕ) + 10 * (h % 100 / 10 : ℕ) + (h % 100 % 10 : ℕ) := by
    exact_mod_cast show h = 100 * (h / 100) + 10 * (h % 100 / 10) + h % 100 % 10 by omega
  have hend : ∀ (whole : List Char) (tens ones : Char), whole ++ ['.', tens, ones] = whole ++ ['.', tens] ++ [ones] := by simp
  have hfront : ∀ (whole : List Char) (tens : Char), whole ++ ['.', tens] = whole ++ ['.'] ++ [tens] := by simp
  rw [shortHundredths, toList_hundredthsText, hend, hparts]
  by_cases hlast : Nat.digitChar (h % 100 % 10) = '0'
  · rw [hlast, dropEnd_concat_self, hzero' hlast, hfront]
    by_cases hfirst : Nat.digitChar (h % 100 / 10) = '0'
    · -- No digit is left behind the point, so it goes as well.
      rw [hfirst, dropEnd_concat_self, dropEnd_concat_of_ne (by decide), dropEnd_concat_self,
        dropEnd_of_not_mem (point_not_mem_toDigits _), hzero hfirst]
      convert writes_toDigits (h / 100) using 1
      push_cast
      ring
    · rw [dropEnd_concat_of_ne hfirst, dropEnd_concat_of_ne hpoint, ← hfront]
      convert writes_pointed (h / 100) (List.cons_ne_nil _ _) (List.forall_mem_singleton.2 htens) using 1
      simp only [naturalOfDigits, List.foldl_cons, List.foldl_nil, hvalue, List.length_singleton]
      push_cast
      ring
  · rw [dropEnd_concat_of_ne hlast, dropEnd_concat_of_ne hpoint', ← hend]
    convert writes_pointed (h / 100) (List.cons_ne_nil _ _)
      (List.forall_mem_cons.2 ⟨htens, List.forall_mem_singleton.2 hones⟩) using 1
    simp only [naturalOfDigits, List.foldl_cons, List.foldl_nil, hvalue, hvalue', List.length_cons, List.length_nil]
    push_cast
    ring

/-- The amount of a float that stands for a number not below zero writes the hundredths nearest to it, and from an even number of them on
those half a hundredth below it. Only a zero can have a minus in front. -/
theorem writes_shortAmount {x : Float} {q : ℚ} (hx : exactValue? x = some q) (hq : 0 ≤ q) :
    ∃ h : ℕ, |(h : ℚ) / 100 - q| ≤ 1 / 200 ∧ (∀ m : ℕ, m % 2 = 0 → (m : ℚ) / 100 - 1 / 200 ≤ q → m ≤ h) ∧
      Writes (shortAmount x).toList (h / 100) ∧ (0 < q → (shortAmount x).toList = shortHundredths h) := by
  obtain ⟨v, hv, hvalue⟩ := exactValue?_eq_some_iff.1 hx
  obtain rfl : v.magnitude = q := by rw [← hvalue, toRat_of_nonneg (hvalue ▸ hq)]
  refine ⟨v.hundredths, v.hundredths_close, fun m heven => BinaryValue.le_hundredths heven, ?_⟩
  have hwrites := writes_shortHundredths v.hundredths
  rw [shortAmount, String.toList_ofList, twoPlaces, hv]
  dsimp only
  rw [← BinaryValue.hundredths]
  split
  · rename_i hnegative
    rw [BinaryValue.toRat, if_pos hnegative] at hvalue
    have hzero : v.magnitude = 0 := by linarith
    have hnone : (v.hundredths : ℚ) = 0 := by
      have hclose := v.hundredths_close
      rw [hzero, sub_zero, abs_le] at hclose
      have hlt : (v.hundredths : ℚ) < 1 := by linarith
      exact_mod_cast Nat.lt_one_iff.1 (by exact_mod_cast hlt)
    have hminus := Writes.minus hwrites
    rw [hnone, zero_div, neg_zero] at hminus
    have hlist : ("-" ++ hundredthsText v.hundredths).toList = '-' :: (hundredthsText v.hundredths).toList := String.toList_append
    rw [hlist, dropEnd_cons_of_ne (by decide), dropEnd_cons_of_ne (by decide), ← shortHundredths, hnone, zero_div, hzero]
    exact ⟨hminus, fun h => absurd h (lt_irrefl 0)⟩
  · exact ⟨.plain hwrites, fun _ => rfl⟩

end TrainingJobs
