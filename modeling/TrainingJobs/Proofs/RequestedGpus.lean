import TrainingJobs.Proofs.AcceptedRequests
import TrainingJobs.Proofs.ExactFloats

/-!
# GPUs that are requested

An amount of GPUs is judged by the number that it stands for: zero asks for none, a number between zero and one for a fraction, a whole
number for devices, and all else is refused. The devices are counted in a word, so what a request gets is what it asks for just up to the
greatest word (`gpus_as_asked_iff`).
-/

namespace TrainingJobs

variable {x : Float} {q : ℚ}

namespace GpuShare

/-! ## Amounts -/

theorem ofAmount_of_zero (hx : exactValue? x = some 0) : ofAmount (some x) = .ok .none := by
  rw [ofAmount, if_pos ((beq_iff_of_exact hx exactValue?_zero).2 rfl)]

theorem ofAmount_of_fraction (hx : exactValue? x = some q) (hpos : 0 < q) (hlt : q < 1) :
    ofAmount (some x) = .ok (.fraction x) := by
  have hzero : ¬ (x == 0) = true := fun h => hpos.ne' ((beq_iff_of_exact hx exactValue?_zero).1 h)
  have hbelow : 0 < x ∧ x < 1 := ⟨(lt_iff_of_exact exactValue?_zero hx).2 hpos, (lt_iff_of_exact hx exactValue?_one).2 hlt⟩
  rw [ofAmount, if_neg hzero, if_pos (by simpa using hbelow)]

/-- An amount that stands for one or more does not stand for less. -/
theorem ofAmount_of_one_le (hx : exactValue? x = some q) (hone : 1 ≤ q) :
    ofAmount (some x) = if isWholeFloat x then .ok (.whole (wordOfFloat x)) else .error (.invalidGpu x) := by
  have hzero : ¬ (x == 0) = true := fun h => by
    have := (beq_iff_of_exact hx exactValue?_zero).1 h
    linarith
  have hbelow : ¬ x < 1 := fun h => by
    have := (lt_iff_of_exact hx exactValue?_one).1 h
    linarith
  have habove : 1 ≤ x := (le_iff_of_exact exactValue?_one hx).2 hone
  rw [ofAmount, if_neg hzero, if_neg (by simp [hbelow])]
  simp [habove]

theorem ofAmount_of_whole {n : ℕ} (hx : exactValue? x = some (n : ℚ)) (hone : 1 ≤ n) :
    ofAmount (some x) = .ok (.whole (min n maxWord)) := by
  have hwhole : isWholeFloat x = true := (isWholeFloat_iff_of_exact hx n.cast_nonneg).2 ⟨n, rfl⟩
  rw [ofAmount_of_one_le hx (by exact_mod_cast hone), if_pos hwhole, wordOfFloat_of_exact hx]

/-- What is below zero, or above one and not whole, or no number at all is refused. -/
theorem ofAmount_of_other (h : ∀ q, exactValue? x = some q → q < 0 ∨ 1 < q ∧ ∀ n : ℕ, q ≠ n) :
    ofAmount (some x) = .error (.invalidGpu x) := by
  cases hx : exactValue? x with
  | none =>
    rw [ofAmount, if_neg (not_beq_of_inexact hx exactValue?_zero), if_neg, if_neg]
    · simp [isWholeFloat_of_inexact hx]
    · rw [Bool.and_eq_true, decide_eq_true_eq, decide_eq_true_eq]
      rintro ⟨hpos, hlt⟩
      exact not_between_of_inexact hx hpos hlt
  | some q =>
    rcases h q hx with hneg | ⟨hone, hfraction⟩
    · have hzero : ¬ (x == 0) = true := fun h => hneg.ne ((beq_iff_of_exact hx exactValue?_zero).1 h)
      have hpos : ¬ 0 < x := fun h => hneg.asymm ((lt_iff_of_exact exactValue?_zero hx).1 h)
      have hone : ¬ 1 ≤ x := fun h => by
        have := (le_iff_of_exact exactValue?_one hx).1 h
        linarith
      rw [ofAmount, if_neg hzero, if_neg (by simp [hpos]), if_neg (by simp [hone])]
    · have hwhole : ¬ isWholeFloat x = true := fun h => by
        obtain ⟨n, hn⟩ := (isWholeFloat_iff_of_exact hx (by linarith)).1 h
        exact hfraction n hn
      rw [ofAmount_of_one_le hx hone.le, if_neg hwhole]

end GpuShare

/-! ## What a request gets -/

/-- A request that would be accepted without GPUs is accepted just when its GPUs can be had, and then nothing else is changed. -/
theorem SubmitRequest.values_of_gpu {r : SubmitRequest} {base : ChartValues} (h : { r with gpu := none }.values = .ok base) :
    r.values = (GpuShare.ofAmount r.gpu).map fun share => { base with gpu := share.count?, gpuFraction := share.part? } := by
  obtain ⟨hread, share, environment, set, -, henvironment, hset, rfl⟩ := values_eq_ok_iff.1 h
  cases hamount : GpuShare.ofAmount r.gpu with
  | error e => exact values_of_gpu_error hamount
  | ok share => exact values_eq_ok_iff.2 ⟨hread, share, environment, set, hamount, henvironment, hset, rfl⟩

/-- A request is accepted, with a number of devices and a fraction of one. -/
def Grants (result : Except RequestError ChartValues) (count : Option Nat) (part : Option Float) : Prop :=
  ∃ v, result = .ok v ∧ v.gpu = count ∧ v.gpuFraction = part

/-- A request gets the GPUs that it asks for, or is refused for them. -/
structure GpusAsAsked (gpu : Option Float) (result : Except RequestError ChartValues) : Prop where
  /-- Without an amount, or with zero, there are none. -/
  none : (∀ x ∈ gpu, exactValue? x = some 0) → Grants result .none .none
  /-- Between zero and one it is a fraction. -/
  fraction : ∀ x ∈ gpu, ∀ q, exactValue? x = some q → 0 < q → q < 1 → Grants result .none (some x)
  /-- A whole number is had exactly, or not at all. -/
  whole : ∀ x ∈ gpu, ∀ n : ℕ, 1 ≤ n → exactValue? x = some (n : ℚ) →
    result = .error (.invalidGpu x) ∨ Grants result (some n) .none
  /-- All else is refused: what is infinite, no number, below zero, or above one and not whole. -/
  refused : ∀ x ∈ gpu, (∀ q, exactValue? x = some q → q < 0 ∨ 1 < q ∧ ∀ n : ℕ, q ≠ n) → result = .error (.invalidGpu x)

variable {r : SubmitRequest} {base : ChartValues}

theorem Grants.ne_error {result : Except RequestError ChartValues} {count : Option Nat} {part : Option Float} {e : RequestError}
    (h : Grants result count part) : result ≠ .error e := by
  obtain ⟨v, rfl, -⟩ := h
  nofun

theorem Grants.count_unique {result : Except RequestError ChartValues} {count count' : Option Nat} {part part' : Option Float}
    (h : Grants result count part) (h' : Grants result count' part') : count = count' := by
  obtain ⟨v, rfl, hcount, -⟩ := h
  obtain ⟨v', hv, hcount', -⟩ := h'
  cases hv
  rw [← hcount, ← hcount']

/-- A whole number of devices is cut to the greatest word. -/
theorem grants_of_whole (h : { r with gpu := none }.values = .ok base) (hgpu : r.gpu = some x) {n : ℕ}
    (hx : exactValue? x = some (n : ℚ)) (hone : 1 ≤ n) : Grants r.values (some (min n maxWord)) none := by
  rw [SubmitRequest.values_of_gpu h, hgpu, GpuShare.ofAmount_of_whole hx hone]
  exact ⟨_, rfl, rfl, rfl⟩

/-- Who asks for more devices than the greatest word gets as many as that. -/
theorem grants_of_greater (h : { r with gpu := none }.values = .ok base) (hgpu : r.gpu = some x) {n : ℕ}
    (hx : exactValue? x = some (n : ℚ)) (hn : maxWord < n) :
    Grants r.values (some maxWord) none ∧ ¬ GpusAsAsked r.gpu r.values := by
  have hgrants := grants_of_whole h hgpu hx (by omega)
  rw [Nat.min_eq_right hn.le] at hgrants
  refine ⟨hgrants, fun hasked => ?_⟩
  rcases hasked.whole x hgpu n (by omega) hx with hrefused | hexact
  · exact hgrants.ne_error hrefused
  · have hcount := hgrants.count_unique hexact
    rw [Option.some_inj] at hcount
    omega

/-- A request whose other fields are in order gets the GPUs that it asks for just when it does not ask for more devices than the greatest
word. If it does, it is accepted and gets as many as the greatest word. -/
theorem gpus_as_asked_iff (h : { r with gpu := none }.values = .ok base) :
    (GpusAsAsked r.gpu r.values ↔ ∀ x ∈ r.gpu, ∀ n : ℕ, exactValue? x = some (n : ℚ) → n ≤ maxWord) ∧
      ∀ x ∈ r.gpu, ∀ n : ℕ, exactValue? x = some (n : ℚ) → maxWord < n → Grants r.values (some maxWord) none := by
  refine ⟨⟨fun hasked x hgpu n hx => ?_, fun hword => ?_⟩, fun x hgpu n hx hn => (grants_of_greater h hgpu hx hn).1⟩
  · by_contra hn
    exact (grants_of_greater h hgpu hx (by omega)).2 hasked
  · refine ⟨fun hzero => ?_, fun x hgpu q hx hpos hlt => ?_, fun x hgpu n hone hx => .inr ?_, fun x hgpu hother => ?_⟩
    · rw [SubmitRequest.values_of_gpu h]
      cases hgpu : r.gpu with
      | none => exact ⟨_, rfl, rfl, rfl⟩
      | some x =>
        rw [GpuShare.ofAmount_of_zero (hzero x hgpu)]
        exact ⟨_, rfl, rfl, rfl⟩
    · rw [SubmitRequest.values_of_gpu h, hgpu, GpuShare.ofAmount_of_fraction hx hpos hlt]
      exact ⟨_, rfl, rfl, rfl⟩
    · have hgrants := grants_of_whole h hgpu hx hone
      rwa [Nat.min_eq_left (hword x hgpu n hx)] at hgrants
    · rw [SubmitRequest.values_of_gpu h, hgpu, GpuShare.ofAmount_of_other hother]
      rfl

/-- The amount of 2 ^ 32 - 1 GPUs. -/
def greatestCount : Float := .ofBits 0x41EFFFFFFFE00000

theorem exactValue?_greatestCount : exactValue? greatestCount = some (maxWord : ℚ) := by
  rw [ExactAux.exactValue?_eq_some_iff]
  refine ⟨⟨false, 0x1FFFFFFFE00000, -21⟩, by decide +kernel, ?_⟩
  norm_num [BinaryValue.toRat, BinaryValue.magnitude, maxWord]

/-- A request for as many GPUs as the greatest word gets them. -/
theorem gpus_as_asked_of_greatest_word :
    { Lifecycle.plainRequest with gpu := none }.values = .ok Lifecycle.plainValues ∧
      GpusAsAsked (some greatestCount) { Lifecycle.plainRequest with gpu := some greatestCount }.values := by
  refine ⟨Lifecycle.values_plainRequest, ?_⟩
  have hiff := gpus_as_asked_iff (r := { Lifecycle.plainRequest with gpu := some greatestCount }) Lifecycle.values_plainRequest
  refine hiff.1.2 fun x hx n hn => ?_
  cases hx
  rw [exactValue?_greatestCount, Option.some_inj] at hn
  exact_mod_cast hn.ge

/-- The amount of 2 ^ 32 GPUs. -/
def greaterCount : Float := .ofBits 0x41F0000000000000

theorem exactValue?_greaterCount : exactValue? greaterCount = some ((4294967296 : ℕ) : ℚ) := by
  rw [ExactAux.exactValue?_eq_some_iff]
  refine ⟨⟨false, 2 ^ 52, -20⟩, by decide +kernel, ?_⟩
  norm_num [BinaryValue.toRat, BinaryValue.magnitude]

/-- A request for one more is accepted too, and gets one less than it asks for. -/
theorem gpus_of_greater_count_false :
    exactValue? greaterCount = some ((4294967296 : ℕ) : ℚ) ∧
      Grants { Lifecycle.plainRequest with gpu := some greaterCount }.values (some 4294967295) none ∧
      ¬ GpusAsAsked (some greaterCount) { Lifecycle.plainRequest with gpu := some greaterCount }.values := by
  have hgreater : maxWord < 4294967296 := by decide
  exact ⟨exactValue?_greaterCount, grants_of_greater Lifecycle.values_plainRequest rfl exactValue?_greaterCount hgreater⟩

end TrainingJobs
