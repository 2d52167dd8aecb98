import Mathlib.Data.Finset.Max
import Mathlib.Data.Fintype.Defs
import Mathlib.Tactic.Linarith
import TrainingJobs.Number.Reading
import TrainingJobs.Time.Duration

/-!
# Ages

An age says how often the coarsest unit that a duration fills fits into it (`age_of_isCoarsest`); below a second it is `0s`, or none.
All of it follows from the whole seconds of the duration, which are cut toward zero (`seconds_of_nonneg`, `seconds_of_nonpos`). A longer
duration has no finer coarsest unit, and so no shorter age (`ages_floored`).
-/

namespace TrainingJobs

/-- The units of ages. -/
inductive AgeUnit
  | second
  | minute
  | hour
  | day
  | year
deriving DecidableEq, Repr

namespace AgeUnit

instance : Fintype AgeUnit where
  elems := {second, minute, hour, day, year}
  complete u := by cases u <;> decide

/-- How many seconds a unit has. A day has 24 hours, a year 365 days. -/
def seconds : AgeUnit → Int
  | second => 1
  | minute => 60
  | hour => 3600
  | day => 24 * 3600
  | year => 365 * 24 * 3600

/-- How many nanoseconds a unit has. -/
def nanos (u : AgeUnit) : Int := u.seconds * Duration.secondNanos

/-- What a unit is written as. -/
def letter : AgeUnit → String
  | second => "s"
  | minute => "m"
  | hour => "h"
  | day => "d"
  | year => "y"

/-- A unit is the largest one that is no longer than a duration. -/
structure IsCoarsest (u : AgeUnit) (d : Duration) : Prop where
  fits : u.nanos ≤ d.nanos
  largest : ∀ v : AgeUnit, v.nanos ≤ d.nanos → v.nanos ≤ u.nanos

/-- A duration is so many times its coarsest unit, and less than once more. -/
structure IsAge (n : ℕ) (u : AgeUnit) (d : Duration) : Prop where
  coarsest : u.IsCoarsest d
  le : n * u.nanos ≤ d.nanos
  lt : d.nanos < (n + 1) * u.nanos

variable {u v : AgeUnit} {d e : Duration} {n k : ℕ}

theorem seconds_pos (u : AgeUnit) : 0 < u.seconds := by cases u <;> decide

theorem nanos_pos (u : AgeUnit) : 0 < u.nanos := Int.mul_pos u.seconds_pos (by decide)

/-- What is longer than the coarsest unit does not fit. -/
theorem IsCoarsest.lt_of_lt (h : u.IsCoarsest d) (hlt : u.nanos < v.nanos) : d.nanos < v.nanos := by
  by_contra hle
  have := h.largest v (Int.not_lt.1 hle)
  omega

/-- From a second on a duration has a coarsest unit. -/
theorem exists_isCoarsest (h : Duration.secondNanos ≤ d.nanos) : ∃ u : AgeUnit, u.IsCoarsest d := by
  have hsome : ((Finset.univ : Finset AgeUnit).filter (nanos · ≤ d.nanos)).Nonempty :=
    ⟨second, Finset.mem_filter.2 ⟨Finset.mem_univ _, h⟩⟩
  obtain ⟨u, hu, hlargest⟩ := Finset.exists_max_image _ nanos hsome
  exact ⟨u, (Finset.mem_filter.1 hu).2, fun v hv => hlargest v (Finset.mem_filter.2 ⟨Finset.mem_univ _, hv⟩)⟩

/-- The number of times is the only whole number with its place between two multiples of the unit. -/
theorem floor_iff (d : Duration) (u : AgeUnit) (k : Int) :
    k * u.nanos ≤ d.nanos ∧ d.nanos < (k + 1) * u.nanos ↔ k = d.nanos / u.nanos := by
  rw [← Int.le_ediv_iff_mul_le u.nanos_pos, ← Int.ediv_lt_iff_lt_mul u.nanos_pos]
  omega

/-- A longer duration is at least as long in its coarsest unit. -/
theorem IsAge.mul_le_mul (hd : IsAge n u d) (he : IsAge k v e) (h : d.nanos ≤ e.nanos) : n * u.nanos ≤ k * v.nanos := by
  have hcoarser : u.nanos ≤ v.nanos := he.coarsest.largest u (hd.coarsest.fits.trans h)
  have hone : (1 : Int) < k + 1 := by
    refine lt_of_mul_lt_mul_right ?_ v.nanos_pos.le
    rw [one_mul]
    exact he.coarsest.fits.trans_lt he.lt
  rcases hcoarser.lt_or_eq with hlt | heq
  · -- In the coarser unit the longer duration is at least one, and the shorter one less.
    calc n * u.nanos ≤ d.nanos := hd.le
      _ ≤ 1 * v.nanos := by rw [one_mul]; exact (hd.coarsest.lt_of_lt hlt).le
      _ ≤ k * v.nanos := mul_le_mul_of_nonneg_right (by omega) v.nanos_pos.le
  · have hnext := he.lt
    rw [← heq] at hnext ⊢
    have hlt : (n : Int) < k + 1 := lt_of_mul_lt_mul_right ((hd.le.trans h).trans_lt hnext) u.nanos_pos.le
    exact mul_le_mul_of_nonneg_right (by omega) u.nanos_pos.le

/-- The text of an age tells its number and its unit. -/
theorem text_inj (h : toString n ++ u.letter = toString k ++ v.letter) : n = k ∧ u = v := by
  have hone : ∀ w : AgeUnit, w.letter.toList.length = 1 := by decide
  have hinj : ∀ w w' : AgeUnit, w.letter.toList = w'.letter.toList → w = w' := by decide
  have hlists := congrArg String.toList h
  rw [String.toList_append, String.toList_append] at hlists
  obtain ⟨hnumber, hletter⟩ := List.append_inj' hlists ((hone u).trans (hone v).symm)
  exact ⟨toString_inj (String.toList_inj.1 hnumber), hinj u v hletter⟩

end AgeUnit

namespace Duration

variable {d : Duration} {u : AgeUnit}

theorem seconds_of_nonneg (h : 0 ≤ d.nanos) : d.seconds = d.nanos / secondNanos := Int.tdiv_eq_ediv_of_nonneg h

theorem seconds_of_nonpos (h : d.nanos ≤ 0) : d.seconds = -(-d.nanos / secondNanos) := by
  rw [← Int.tdiv_eq_ediv_of_nonneg (Int.neg_nonneg_of_nonpos h), Int.neg_tdiv, Int.neg_neg, seconds]

/-- What lies two seconds or more in the future has no age. -/
theorem age_of_le (h : d.nanos ≤ -2 * secondNanos) : d.age = "<invalid>" := by
  have hseconds := seconds_of_nonpos (d := d) (by rw [secondNanos] at h; omega)
  rw [age, if_pos]
  rw [hseconds]
  rw [secondNanos] at h ⊢
  omega

/-- What lies less than two seconds in the future and less than one in the past has the age zero. -/
theorem age_of_lt (hlow : -2 * secondNanos < d.nanos) (hhigh : d.nanos < secondNanos) : d.age = "0s" := by
  rcases Int.le_total 0 d.nanos with h | h
  · have hzero : d.seconds = 0 := by
      rw [seconds_of_nonneg h]
      exact Int.ediv_eq_zero_of_lt h hhigh
    rw [age, hzero]
    rfl
  · have hseconds := seconds_of_nonpos h
    have hcases : d.seconds = 0 ∨ d.seconds = -1 := by
      rw [hseconds]
      rw [secondNanos] at hlow ⊢
      omega
    rcases hcases with hzero | hone
    · rw [age, hzero]
      rfl
    · rw [age, hone]
      rfl

/-- From a second on the whole seconds lead to the branch of the coarsest unit. -/
theorem age_of_seconds {s : Int} (hs : d.seconds = s) (hfits : u.seconds ≤ s)
    (hnext : ∀ v : AgeUnit, u.seconds < v.seconds → s < v.seconds) : d.age = toString (s / u.seconds) ++ u.letter := by
  have hnonneg : 0 ≤ s := u.seconds_pos.le.trans hfits
  simp only [age, minutes, hours, hs, Int.tdiv_eq_ediv_of_nonneg hnonneg]
  -- Up to that branch the tests fail, since the unit fits; there the next unit does not fit.
  cases u with
  | second =>
    have hlt := hnext .minute (by decide)
    simp only [AgeUnit.seconds, AgeUnit.letter] at hfits hlt ⊢
    rw [if_neg (by omega), if_neg (by omega), if_pos (by omega), Int.ediv_one]
  | minute =>
    have hlt := hnext .hour (by decide)
    simp only [AgeUnit.seconds, AgeUnit.letter] at hfits hlt ⊢
    rw [if_neg (by omega), if_neg (by omega), if_neg (by omega), if_pos (by omega)]
  | hour =>
    have hlt := hnext .day (by decide)
    simp only [AgeUnit.seconds, AgeUnit.letter] at hfits hlt ⊢
    rw [if_neg (by omega), if_neg (by omega), if_neg (by omega), if_neg (by omega), if_pos (by omega)]
  | day =>
    have hlt := hnext .year (by decide)
    simp only [AgeUnit.seconds, AgeUnit.letter] at hfits hlt ⊢
    rw [if_neg (by omega), if_neg (by omega), if_neg (by omega), if_neg (by omega), if_neg (by omega), if_pos (by omega)]
    rw [show s / 3600 / 24 = s / (24 * 3600) by omega]
  | year =>
    simp only [AgeUnit.seconds, AgeUnit.letter] at hfits ⊢
    rw [if_neg (by omega), if_neg (by omega), if_neg (by omega), if_neg (by omega), if_neg (by omega), if_neg (by omega)]
    rw [show s / 3600 / 24 / 365 = s / (365 * 24 * 3600) by omega]

/-- From a second on an age is how often the coarsest unit fits, and that unit. -/
theorem age_of_isCoarsest (h : u.IsCoarsest d) : d.age = toString (d.nanos / u.nanos) ++ u.letter := by
  have hsecond : 0 < secondNanos := by decide
  have hseconds := seconds_of_nonneg (u.nanos_pos.le.trans h.fits)
  have hfits : u.seconds ≤ d.nanos / secondNanos := (Int.le_ediv_iff_mul_le hsecond).2 h.fits
  rw [age_of_seconds hseconds hfits fun v hv => ?_, Int.ediv_ediv_of_nonneg hsecond.le, Int.mul_comm, AgeUnit.nanos]
  exact (Int.ediv_lt_iff_lt_mul hsecond).2 (h.lt_of_lt (Int.mul_lt_mul_of_pos_right hv hsecond))

/-- From a second on an age is written as it is. -/
theorem exists_isAge (h : secondNanos ≤ d.nanos) :
    ∃ (n : ℕ) (u : AgeUnit), AgeUnit.IsAge n u d ∧ d.age = toString n ++ u.letter := by
  obtain ⟨u, hu⟩ := AgeUnit.exists_isCoarsest h
  have hnonneg : 0 ≤ d.nanos / u.nanos := Int.ediv_nonneg (u.nanos_pos.le.trans hu.fits) u.nanos_pos.le
  obtain ⟨n, hn⟩ := Int.eq_ofNat_of_zero_le hnonneg
  obtain ⟨hle, hlt⟩ := (AgeUnit.floor_iff d u n).2 hn.symm
  refine ⟨n, u, ⟨hu, hle, hlt⟩, ?_⟩
  rw [age_of_isCoarsest hu, hn]
  rfl

end Duration

open Duration (secondNanos)

/-- Two seconds or more in the future there is no age, and then up to a second in the past it is `0s`. From there on it is a whole number
and the largest unit that is no longer than the duration, and the number is the only one whose multiple of the unit the duration reaches
without the next. Of two durations the longer one is never shown with a shorter age. -/
theorem ages_floored (d : Duration) :
    (d.nanos ≤ -2 * secondNanos → d.age = "<invalid>") ∧
    (-2 * secondNanos < d.nanos → d.nanos < secondNanos → d.age = "0s") ∧
    (secondNanos ≤ d.nanos → ∃ (n : ℕ) (u : AgeUnit), u.IsCoarsest d ∧ d.age = toString n ++ u.letter ∧
      ∀ k : Int, k * u.nanos ≤ d.nanos ∧ d.nanos < (k + 1) * u.nanos ↔ k = n) ∧
    (0 ≤ d.nanos → ∀ e : Duration, d.nanos ≤ e.nanos → ∀ (n k : ℕ) (u v : AgeUnit),
      d.age = toString n ++ u.letter → e.age = toString k ++ v.letter → n * u.nanos ≤ k * v.nanos) := by
  refine ⟨Duration.age_of_le, Duration.age_of_lt, fun h => ?_, fun hnonneg e hle n k u v hd he => ?_⟩
  · obtain ⟨n, u, hage, htext⟩ := Duration.exists_isAge h
    refine ⟨n, u, hage.coarsest, htext, fun k => ?_⟩
    rw [AgeUnit.floor_iff, (AgeUnit.floor_iff d u n).1 ⟨hage.le, hage.lt⟩]
  · rcases Int.lt_or_le d.nanos secondNanos with hlt | hge
    · have hzero : d.age = toString 0 ++ AgeUnit.second.letter := Duration.age_of_lt (by rw [secondNanos]; omega) hlt
      obtain ⟨rfl, -⟩ := AgeUnit.text_inj (hd.symm.trans hzero)
      rw [Nat.cast_zero, Int.zero_mul]
      exact Int.mul_nonneg (Int.natCast_nonneg k) v.nanos_pos.le
    · obtain ⟨n', u', hage, htext⟩ := Duration.exists_isAge hge
      obtain ⟨k', v', hage', htext'⟩ := Duration.exists_isAge (hge.trans hle)
      obtain ⟨rfl, rfl⟩ := AgeUnit.text_inj (hd.symm.trans htext)
      obtain ⟨rfl, rfl⟩ := AgeUnit.text_inj (he.symm.trans htext')
      exact hage.mul_le_mul hage' hle

/-- A nanosecond below a year is the last of 364 days, and a year and a half is one year. -/
theorem ages_floored_below_a_year :
    Duration.age ⟨365 * 24 * 3600 * secondNanos - 1⟩ = "364d" ∧
      (∀ k : Int, k * AgeUnit.day.nanos ≤ 365 * 24 * 3600 * secondNanos - 1 ∧
        365 * 24 * 3600 * secondNanos - 1 < (k + 1) * AgeUnit.day.nanos ↔ k = 364) ∧
      364 * AgeUnit.day.nanos ≤ 1 * AgeUnit.year.nanos := by
  obtain ⟨-, -, hfloor, hlonger⟩ := ages_floored ⟨365 * 24 * 3600 * secondNanos - 1⟩
  have htext : Duration.age ⟨365 * 24 * 3600 * secondNanos - 1⟩ = toString 364 ++ AgeUnit.day.letter := by decide
  obtain ⟨n, u, -, hage, hiff⟩ := hfloor (by decide)
  obtain ⟨rfl, rfl⟩ := AgeUnit.text_inj (htext.symm.trans hage)
  exact ⟨htext, hiff, hlonger (by decide) ⟨(365 + 182) * 24 * 3600 * secondNanos⟩ (by decide) 364 1 .day .year htext (by decide)⟩

end TrainingJobs
