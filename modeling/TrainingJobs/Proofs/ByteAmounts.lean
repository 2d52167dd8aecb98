import TrainingJobs.Proofs.ExactQuotients
import TrainingJobs.Proofs.ShortAmounts
import TrainingJobs.Text.Digits
import TrainingJobs.Text.Front

/-!
# Amounts of bytes

An amount of bytes is divided by 1024, without rounding, until it is below 1024 of a unit (`scaleBytes_eq`), and only then rounded to
hundredths. So it is told in the right unit, unless it is rounded up to 1024 of that unit (`bytes_in_right_unit_iff`): then it is written
as 1024 of it instead of 1 of the next one (`bytes_below_next_unit_false`).
-/

namespace TrainingJobs

/-- The units of amounts of bytes, from single bytes on. The unit at the place `k` has `1024 ^ k` bytes. -/
def allByteUnits : List String := "" :: byteUnits

/-- So many bytes are less than 1024 of the unit at a place, and rounded to hundredths they are 1024 of it. -/
def RoundsUp (n k : ℕ) : Prop := 1024 - 1 / 200 ≤ (n : ℚ) / 1024 ^ k ∧ n < 1024 ^ (k + 1)

/-- A text tells a number of bytes in the right unit: it is a number below 1024 and a unit, the number is at least one unless the unit is
that of single bytes, and it is at most 0.005 away from the bytes in that unit. Bytes that are rounded up to 1024 of a unit are 1 of the
next one. -/
structure InRightUnit (text : String) (n : ℕ) : Prop where
  told : ∃ (number : List Char) (r : ℚ) (k : ℕ) (unit : String), text.toList = number ++ unit.toList ∧ Writes number r ∧
    allByteUnits[k]? = some unit ∧ r < 1024 ∧ (unit = "" ∨ 1 ≤ r) ∧ |r - n / 1024 ^ k| ≤ 1 / 200
  next : ∀ k, RoundsUp n k → ∃ unit, allByteUnits[k + 1]? = some unit ∧ text = "1" ++ unit

namespace ByteAmountsAux

variable {x : Float} {n i k : ℕ} {r : ℚ} {unit : String} {number digits : List Char}

/-! ## Dividing by 1024 -/

/-- The place of the greatest unit that is no more than so many bytes, or of single bytes. -/
structure IsPlace (n k : ℕ) : Prop where
  le : k = 0 ∨ 1024 ^ k ≤ n
  lt : n < 1024 ^ (k + 1)

theorem IsPlace.unique (hi : IsPlace n i) (hk : IsPlace n k) : i = k := by
  have hle : ∀ {i k : ℕ}, IsPlace n i → IsPlace n k → k ≤ i := by
    intro i k hi hk
    rcases hk.le with rfl | hpow
    · exact Nat.zero_le i
    · exact Nat.lt_succ_iff.1 ((Nat.pow_lt_pow_iff_right (by decide)).1 (hpow.trans_lt hi.lt))
  exact Nat.le_antisymm (hle hk hi) (hle hi hk)

theorem le_div_pow_iff : 1024 ≤ (n : ℚ) / 1024 ^ k ↔ 1024 ^ (k + 1) ≤ n := by
  rw [le_div_iff₀ (by positivity), mul_comm, ← pow_succ]
  exact_mod_cast Iff.rfl

theorem exactValue?_1024 : exactValue? 1024 = some 1024 := by
  exact_mod_cast exactValue?_ofNat (n := 1024) (by decide)

/-- One step divides a number of bytes from 1024 on, without rounding. -/
theorem exactValue?_div_1024 (hn : n < 2 ^ 53) (hi : i < 100) (hx : exactValue? x = some ((n : ℚ) / 1024 ^ i)) :
    exactValue? (x / 1024) = some ((n : ℚ) / 1024 ^ (i + 1)) := by
  have hquotient : (n : ℚ) / 1024 ^ i / 1024 = n / 1024 ^ (i + 1) := by rw [div_div, ← pow_succ]
  have hpow : (1024 : ℚ) ^ (i + 1) = 2 ^ (10 * (i + 1)) := by rw [pow_mul]; norm_num
  have hfloat : IsFloat ((n : ℚ) / 1024 ^ (i + 1)) := hpow ▸ isFloat_div_two_pow hn (by omega)
  rw [← hquotient] at hfloat ⊢
  exact exactValue?_div hx exactValue?_1024 (by positivity) (by norm_num) hfloat

/-- All steps together reach the place of the bytes and its unit. -/
theorem scaleBytes_eq {u : String} {units : List String} (hn : n < 2 ^ 53) (hi : i + units.length ≤ 100)
    (hx : exactValue? x = some ((n : ℚ) / 1024 ^ i)) (hle : i = 0 ∨ 1024 ^ i ≤ n) (hlt : n < 1024 ^ (i + units.length + 1)) :
    ∃ j y found, scaleBytes x u units = (y, found) ∧ (u :: units)[j]? = some found ∧
      exactValue? y = some ((n : ℚ) / 1024 ^ (i + j)) ∧ IsPlace n (i + j) := by
  induction units generalizing x u i with
  | nil => exact ⟨0, x, u, rfl, rfl, hx, hle, hlt⟩
  | cons next greater ih =>
    have hreaches : x.abs ≥ 1024 ↔ 1024 ^ (i + 1) ≤ n := by
      rw [ge_iff_le, le_iff_of_exact exactValue?_1024 (exactValue?_abs hx (by positivity)), le_div_pow_iff]
    rw [List.length_cons] at hi hlt
    rw [scaleBytes]
    by_cases hmore : 1024 ^ (i + 1) ≤ n
    · obtain ⟨j, y, found, heq, hfound, hy, hplace⟩ := ih (u := next) (by omega) (exactValue?_div_1024 hn (by omega) hx)
        (.inr hmore) (by rwa [Nat.add_right_comm i 1])
      rw [if_pos (hreaches.2 hmore), heq]
      rw [Nat.add_right_comm, Nat.add_assoc] at hy hplace
      exact ⟨j + 1, y, found, rfl, hfound, hy, hplace⟩
    · rw [if_neg (mt hreaches.1 hmore)]
      exact ⟨0, x, u, rfl, rfl, hx, hle, Nat.lt_of_not_le hmore⟩

/-- A number of bytes is told as the amount of its place, with the unit of the place. -/
theorem byteAmount_eq (hx : exactValue? x = some (n : ℚ)) (hn : n < 2 ^ 50) :
    ∃ k y unit, byteAmount x = shortAmount y ++ unit ∧ allByteUnits[k]? = some unit ∧ exactValue? y = some ((n : ℚ) / 1024 ^ k) ∧
      IsPlace n k := by
  have hlt : n < 1024 ^ (0 + byteUnits.length + 1) := hn.trans (by decide)
  have hstart : exactValue? x = some ((n : ℚ) / 1024 ^ 0) := by rwa [pow_zero, div_one]
  obtain ⟨j, y, unit, heq, hunit, hy, hplace⟩ := scaleBytes_eq (u := "") (hn.trans (by decide)) (by decide) hstart (.inl rfl) hlt
  rw [Nat.zero_add] at hy hplace
  refine ⟨j, y, unit, ?_, hunit, hy, hplace⟩
  rw [byteAmount, heq]

/-! ## Reading amounts -/

/-- Digits alone write the number that they spell. -/
theorem eq_of_writes (h : Writes digits r) (hdigits : ∀ c ∈ digits, c.isDigit = true) : r = naturalOfDigits digits := by
  cases h with
  | plain h =>
    cases h with
    | whole _ _ => rfl
    | pointed _ _ _ _ => exact absurd (hdigits '.' (by simp)) (by decide)
  | minus h => exact absurd (hdigits '-' (by simp)) (by decide)

theorem not_isAlpha_of_isDigit {c : Char} (h : c.isDigit = true) : c.isAlpha = false := DigitClass.isAlpha_eq_false (d := .ascii) h

/-- A number in writing has no letters. -/
theorem not_isAlpha_of_writes (h : Writes number r) : ∀ c ∈ number, c.isAlpha = false := by
  have hmagnitude : ∀ {text : List Char} {q : ℚ}, WritesMagnitude text q → ∀ c ∈ text, c.isAlpha = false := by
    intro text q h c hc
    cases h with
    | whole _ h => exact not_isAlpha_of_isDigit (h c hc)
    | pointed _ h _ h' =>
      rcases List.mem_append.1 hc with hc | hc
      · exact not_isAlpha_of_isDigit (h c hc)
      · rcases List.mem_cons.1 hc with rfl | hc
        · rfl
        · exact not_isAlpha_of_isDigit (h' c hc)
  cases h with
  | plain h => exact hmagnitude h
  | minus h => exact List.forall_mem_cons.2 ⟨rfl, hmagnitude h⟩

/-- So it ends where the unit begins. -/
theorem number_eq (h : Writes number r) (h' : ∀ c ∈ digits, c.isDigit = true) {unit' : String} (hunit : unit ∈ allByteUnits)
    (hunit' : unit' ∈ allByteUnits) (heq : digits ++ unit'.toList = number ++ unit.toList) : number = digits := by
  have hstart : ∀ u ∈ allByteUnits, ∀ c ∈ u.toList.head?, c.isAlpha = true := by simp [allByteUnits, byteUnits]
  have hfront : ∀ {front : List Char} {u : String}, (∀ c ∈ front, c.isAlpha = false) → u ∈ allByteUnits →
      (front ++ u.toList).takeWhile (!·.isAlpha) = front := by
    intro front u hplain hu
    exact Text.takeWhile_append_eq (fun c hc => by simp [hplain c hc]) fun c hc => by simp [hstart u hu c hc]
  rw [← hfront (not_isAlpha_of_writes h) hunit, ← heq, hfront (fun c hc => not_isAlpha_of_isDigit (h' c hc)) hunit']

/-! ## Rounding up -/

theorem shortHundredths_1024 : shortHundredths 102400 = "1024".toList := by decide

theorem isPlace_of_roundsUp (h : RoundsUp n k) : IsPlace n k := by
  refine ⟨.inr ?_, h.2⟩
  have hpos : (0 : ℚ) < 1024 ^ k := by positivity
  have hle : (1024 : ℚ) ^ k ≤ n := by
    have := (le_div_iff₀ hpos).1 h.1
    nlinarith
  exact_mod_cast hle

/-- An amount of 1024 is not in the right unit. -/
theorem not_inRightUnit_1024 (hunit : unit ∈ allByteUnits) : ¬ InRightUnit ("1024" ++ unit) n := by
  rintro ⟨⟨number, r, i, unit', heq, hnumber, hunit', hlt, -, -⟩, -⟩
  rw [String.toList_append] at heq
  have hdigits : ∀ c ∈ "1024".toList, c.isDigit = true := by simp
  obtain rfl := number_eq hnumber hdigits (List.mem_of_getElem? hunit') hunit heq
  rw [eq_of_writes hnumber hdigits] at hlt
  exact absurd hlt (by decide)

end ByteAmountsAux

open ByteAmountsAux

variable {x : Float} {n : ℕ}

/-- Below `2 ^ 50` a number of bytes is told in the right unit just when it is not rounded up to 1024 of a unit. What is rounded up is told
as 1024 of that unit. -/
theorem bytes_in_right_unit_iff (hx : exactValue? x = some (n : ℚ)) (hn : n < 2 ^ 50) :
    (InRightUnit (byteAmount x) n ↔ ∀ k, ¬ RoundsUp n k) ∧
      ∀ k, RoundsUp n k → ∃ unit, allByteUnits[k]? = some unit ∧ byteAmount x = "1024" ++ unit := by
  obtain ⟨k, y, unit, htext, hunit, hy, hplace⟩ := byteAmount_eq hx hn
  obtain ⟨h, hclose, heven, hwrites, hshort⟩ := writes_shortAmount hy (by positivity)
  have hbelow : (n : ℚ) / 1024 ^ k < 1024 := lt_of_not_ge (mt le_div_pow_iff.1 (Nat.not_le.2 hplace.lt))
  have hup : ∀ j, RoundsUp n j → j = k ∧ byteAmount x = "1024" ++ unit := by
    intro j hj
    obtain rfl := (isPlace_of_roundsUp hj).unique hplace
    have hleast : 102400 ≤ h := heven 102400 (by decide) (by linarith [hj.1])
    have hmost : (h : ℚ) < 102401 := by linarith [(abs_le.1 hclose).2]
    obtain rfl : h = 102400 := Nat.le_antisymm (Nat.lt_succ_iff.1 (by exact_mod_cast hmost)) hleast
    refine ⟨rfl, ?_⟩
    rw [htext, String.toList_inj.1 ((hshort (by linarith [hj.1])).trans shortHundredths_1024)]
  refine ⟨⟨fun hright j hj => ?_, fun hnone => ⟨?_, fun j hj => absurd hj (hnone j)⟩⟩, fun j hj => ?_⟩
  · obtain ⟨rfl, h1024⟩ := hup j hj
    exact not_inRightUnit_1024 (List.mem_of_getElem? hunit) (h1024 ▸ hright)
  · have hnear : (n : ℚ) / 1024 ^ k < 1024 - 1 / 200 := lt_of_not_ge fun hle => hnone k ⟨hle, hplace.lt⟩
    refine ⟨_, _, k, unit, by rw [htext, String.toList_append], hwrites, hunit, by linarith [(abs_le.1 hclose).2], ?_, hclose⟩
    rcases hplace.le with rfl | hpow
    · exact .inl (Option.some.inj hunit).symm
    · have hone : (1 : ℚ) ≤ n / 1024 ^ k := (one_le_div₀ (by positivity)).2 (by exact_mod_cast hpow)
      have hleast : 100 ≤ h := heven 100 (by decide) (by linarith)
      have hleast' : (100 : ℚ) ≤ h := by exact_mod_cast hleast
      exact .inr (by linarith)
  · obtain ⟨rfl, h1024⟩ := hup j hj
    exact ⟨unit, hunit, h1024⟩

/-- An amount six bytes below a mebibyte is told in kibibytes, as 1023.99 of them. -/
theorem bytes_in_right_unit_below : exactValue? (Float.ofNat 1048570) = some (1048570 : ℕ) ∧ 1048570 < 2 ^ 50 ∧
    InRightUnit (byteAmount (Float.ofNat 1048570)) 1048570 := by
  have hexact : exactValue? (Float.ofNat 1048570) = some (1048570 : ℕ) := exactValue?_ofNat (by decide)
  have hlt : 1048570 < 2 ^ 50 := by decide
  refine ⟨hexact, hlt, (bytes_in_right_unit_iff hexact hlt).1.2 fun k hk => ?_⟩
  obtain rfl : k = 1 := (isPlace_of_roundsUp hk).unique ⟨.inr (by decide), by decide⟩
  exact absurd hk.1 (by norm_num)

/-- One byte below a mebibyte is told as 1024 kibibytes. -/
theorem bytes_below_next_unit_false : byteAmount (Float.ofNat 1048575) = "1024Ki" ∧ RoundsUp 1048575 1 ∧
    ¬ InRightUnit (byteAmount (Float.ofNat 1048575)) 1048575 := by
  have htext : byteAmount (Float.ofNat 1048575) = "1024" ++ "Ki" := by decide +kernel
  refine ⟨htext, ⟨by norm_num, by decide⟩, ?_⟩
  rw [htext]
  exact not_inRightUnit_1024 (by decide)

end TrainingJobs
