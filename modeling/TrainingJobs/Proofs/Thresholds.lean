import TrainingJobs.CommandLine.Run

/-!
# Thresholds of prunings

Durations of days and hours, and their sum, are exact or refused (`ofHours?_eq_some_iff`, `ageOf?_eq_some_iff`). So a pruning has
exactly the threshold that is asked for, or fails with the reason why there is none (`threshold_exact_or_refused`).
-/

namespace TrainingJobs

namespace Duration

variable {d : Duration} {nanos hours days : Int}

/-- The nanoseconds of an hour. -/
def hourNanos : Int := 3600 * secondNanos

/-- So many hours are within the range of durations. -/
def HoursFit (hours : Int) : Prop := -greatestMillis ≤ hours * 3600000 ∧ hours * 3600000 ≤ greatestMillis

instance : Decidable (HoursFit hours) := inferInstanceAs (Decidable (_ ∧ _))

theorem inRange_hours_iff : inRange (hours * hourNanos) = true ↔ HoursFit hours := by
  rw [inRange, Bool.and_eq_true, decide_eq_true_iff, decide_eq_true_iff, HoursFit, hourNanos, secondNanos, greatestMillis]
  omega

theorem ofNanos?_eq_some_iff : ofNanos? nanos = some d ↔ inRange nanos = true ∧ d.nanos = nanos := by
  rw [ofNanos?, Option.ite_none_right_eq_some, Option.some.injEq]
  refine and_congr_right fun _ => ⟨fun h => h ▸ rfl, fun h => ?_⟩
  cases d
  exact congrArg mk h.symm

/-- Hours make a duration when they are within its range, and then exactly. -/
theorem ofHours?_eq_some_iff : ofHours? hours = some d ↔ HoursFit hours ∧ d.nanos = hours * hourNanos := by
  rw [ofHours?, ofSeconds?, Int.mul_assoc, ofNanos?_eq_some_iff, ← inRange_hours_iff, hourNanos]

/-- So do days, as 24 hours each. -/
theorem ofDays?_eq_some_iff : ofDays? days = some d ↔ HoursFit (24 * days) ∧ d.nanos = 24 * days * hourNanos := by
  have hhours : ofDays? days = ofHours? (24 * days) := by
    rw [ofDays?, ofHours?]
    congr 1
    omega
  rw [hhours, ofHours?_eq_some_iff]

end Duration

open Duration

variable {days hours : Int} {t : Duration}

/-- The days, the hours and both together are within the range of durations. -/
structure ThresholdFits (days hours : Int) : Prop where
  ofDays : HoursFit (24 * days)
  ofHours : HoursFit hours
  both : HoursFit (24 * days + hours)

/-- Days and hours make a threshold when all of it is within the range of durations, and then exactly. -/
theorem ageOf?_eq_some_iff :
    ageOf? days hours = some t ↔ ThresholdFits days hours ∧ t.nanos = (24 * days + hours) * hourNanos := by
  have hsum : ∀ {a b : Duration}, a.nanos = 24 * days * hourNanos → b.nanos = hours * hourNanos →
      (a.add? b = some t ↔ HoursFit (24 * days + hours) ∧ t.nanos = (24 * days + hours) * hourNanos) := by
    intro a b ha hb
    rw [add?, ha, hb, ← Int.add_mul, ofNanos?_eq_some_iff, inRange_hours_iff]
  simp only [ageOf?, bind, Option.bind_eq_some_iff, ofDays?_eq_some_iff, ofHours?_eq_some_iff]
  constructor
  · rintro ⟨a, ⟨hdays, ha⟩, b, ⟨hhours, hb⟩, hadd⟩
    obtain ⟨hboth, ht⟩ := (hsum ha hb).1 hadd
    exact ⟨⟨hdays, hhours, hboth⟩, ht⟩
  · rintro ⟨hfits, ht⟩
    exact ⟨⟨24 * days * hourNanos⟩, ⟨hfits.ofDays, rfl⟩, ⟨hours * hourNanos⟩, ⟨hfits.ofHours, rfl⟩,
      (hsum rfl rfl).2 ⟨hfits.both, ht⟩⟩

theorem ageOf?_eq_none_iff : ageOf? days hours = none ↔ ¬ ThresholdFits days hours := by
  rw [Option.eq_none_iff_forall_ne_some]
  constructor
  · intro h hfits
    exact h ⟨(24 * days + hours) * hourNanos⟩ (ageOf?_eq_some_iff.2 ⟨hfits, rfl⟩)
  · intro h t ht
    exact h (ageOf?_eq_some_iff.1 ht).1

/-- The failure of days and hours that are out of range. -/
def outOfRange (days hours : Int) : Failure :=
  .of ("--days " ++ toString days ++ " --hours " ++ toString hours ++ " is out of range")

/-- The failure of days and hours that select nothing. -/
def nothingSelected : Failure := .of "Pass --days or --hours to select the jobs to prune"

theorem outOfRange_ne_nothingSelected (days hours : Int) : outOfRange days hours ≠ nothingSelected := by
  intro h
  have htext := congrArg (fun f => f.text.toList.head?) h
  simp [outOfRange, nothingSelected, Failure.text, Failure.of, Cause.text, String.toList_append] at htext

/-- A threshold that fits is refused when it is not positive. -/
theorem pruneThreshold_of_fits (h : ThresholdFits days hours) :
    pruneThreshold days hours =
      if 24 * days + hours ≤ 0 then .error nothingSelected else .ok ⟨(24 * days + hours) * hourNanos⟩ := by
  have hage : ageOf? days hours = some ⟨(24 * days + hours) * hourNanos⟩ := ageOf?_eq_some_iff.2 ⟨h, rfl⟩
  have hsign : (24 * days + hours) * hourNanos ≤ 0 ↔ 24 * days + hours ≤ 0 := by
    rw [hourNanos, secondNanos]
    omega
  rw [pruneThreshold, hage]
  simp only [hsign]
  rfl

theorem pruneThreshold_of_not_fits (h : ¬ ThresholdFits days hours) : pruneThreshold days hours = .error (outOfRange days hours) := by
  rw [pruneThreshold, ageOf?_eq_none_iff.2 h]
  rfl

/-- In words of 64 bits the seconds of a threshold that fits are worked out without overflow. -/
theorem toInt_seconds {days hours : Int64} (h : ThresholdFits days.toInt hours.toInt) :
    (days * 86400).toInt = days.toInt * 86400 ∧ (hours * 3600).toInt = hours.toInt * 3600 ∧
      (days * 86400 + hours * 3600).toInt = (24 * days.toInt + hours.toInt) * 3600 := by
  obtain ⟨⟨hdays, hdays'⟩, ⟨hhours, hhours'⟩, ⟨hboth, hboth'⟩⟩ := h
  rw [greatestMillis] at hdays hdays' hhours hhours' hboth hboth'
  have hday : (days * 86400).toInt = days.toInt * 86400 := by
    rw [Int64.toInt_mul]
    exact Int.bmod_eq_of_le (by change _ ≤ days.toInt * 86400; omega) (by change days.toInt * 86400 < _; omega)
  have hhour : (hours * 3600).toInt = hours.toInt * 3600 := by
    rw [Int64.toInt_mul]
    exact Int.bmod_eq_of_le (by change _ ≤ hours.toInt * 3600; omega) (by change hours.toInt * 3600 < _; omega)
  refine ⟨hday, hhour, ?_⟩
  rw [Int64.toInt_add, hday, hhour, Int.bmod_eq_of_le (by omega) (by omega)]
  omega

/-- A pruning of so many days and hours has a threshold just when the days, the hours and both together are within the range of
durations and both together are positive, and then it is exactly as long. Out of range it is refused for that, and otherwise for
selecting nothing. What is not refused was worked out without overflow, also in words of 64 bits. -/
theorem threshold_exact_or_refused (days hours : Int64) :
    (∀ t, pruneThreshold days.toInt hours.toInt = .ok t ↔ ThresholdFits days.toInt hours.toInt ∧
      0 < 24 * days.toInt + hours.toInt ∧ t.nanos = (24 * days.toInt + hours.toInt) * hourNanos) ∧
    (pruneThreshold days.toInt hours.toInt = .error (outOfRange days.toInt hours.toInt) ↔
      ¬ ThresholdFits days.toInt hours.toInt) ∧
    (pruneThreshold days.toInt hours.toInt = .error nothingSelected ↔
      ThresholdFits days.toInt hours.toInt ∧ 24 * days.toInt + hours.toInt ≤ 0) ∧
    (ThresholdFits days.toInt hours.toInt → (days * 86400).toInt = days.toInt * 86400 ∧ (hours * 3600).toInt = hours.toInt * 3600 ∧
      (days * 86400 + hours * 3600).toInt = (24 * days.toInt + hours.toInt) * 3600) := by
  have hne := outOfRange_ne_nothingSelected days.toInt hours.toInt
  by_cases hfits : ThresholdFits days.toInt hours.toInt
  · by_cases hpos : 0 < 24 * days.toInt + hours.toInt
    · rw [pruneThreshold_of_fits hfits, if_neg (Int.not_le.2 hpos)]
      refine ⟨fun t => ⟨fun h => ⟨hfits, hpos, ?_⟩, fun h => ?_⟩, ⟨nofun, fun h => absurd hfits h⟩,
        ⟨nofun, fun h => absurd hpos (Int.not_lt.2 h.2)⟩, toInt_seconds⟩
      · rw [← Except.ok.inj h]
      · rw [← h.2.2]
    · rw [pruneThreshold_of_fits hfits, if_pos (Int.not_lt.1 hpos)]
      refine ⟨fun t => ⟨nofun, fun h => absurd h.2.1 hpos⟩, ⟨fun h => ?_, fun h => absurd hfits h⟩,
        ⟨fun _ => ⟨hfits, Int.not_lt.1 hpos⟩, fun _ => rfl⟩, toInt_seconds⟩
      exact absurd (Except.error.inj h).symm hne
  · rw [pruneThreshold_of_not_fits hfits]
    refine ⟨fun t => ⟨nofun, fun h => absurd h.1 hfits⟩, ⟨fun _ => hfits, fun _ => rfl⟩, ⟨fun h => ?_, fun h => absurd h.1 hfits⟩,
      toInt_seconds⟩
    exact absurd (Except.error.inj h) hne

/-- The greatest threshold is exact, an hour more is out of range, and 24 hours less a day select nothing. -/
theorem threshold_exact_or_refused_at_the_end :
    pruneThreshold (106751991167 : Int64).toInt (7 : Int64).toInt = .ok ⟨2562047788015 * hourNanos⟩ ∧
      pruneThreshold (106751991167 : Int64).toInt (8 : Int64).toInt = .error (outOfRange 106751991167 8) ∧
      pruneThreshold (-1 : Int64).toInt (24 : Int64).toInt = .error nothingSelected := by
  have hgreatest : ThresholdFits 106751991167 7 := ⟨by decide, by decide, by decide⟩
  have hbeyond : ¬ ThresholdFits 106751991167 8 := fun h => absurd h.both (by decide)
  have hnothing : ThresholdFits (-1) 24 := ⟨by decide, by decide, by decide⟩
  obtain ⟨hok, -⟩ := threshold_exact_or_refused 106751991167 7
  obtain ⟨-, hrefused, -⟩ := threshold_exact_or_refused 106751991167 8
  obtain ⟨-, -, hnone, -⟩ := threshold_exact_or_refused (-1) 24
  exact ⟨(hok _).2 ⟨hgreatest, by decide, rfl⟩, hrefused.2 hbeyond, hnone.2 ⟨hnothing, by decide⟩⟩

end TrainingJobs
