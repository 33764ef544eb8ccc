import Mathlib.Tactic.IntervalCases
import Xrss.Calendar
import Xrss.Datetime

namespace Xrss.Datetime

open Zig Calendar

section March

/-- The months from March on come to 153 days for every five. -/
theorem daysBeforeMonth_march (year : Nat) {month : Nat} (march_le : 3 ≤ month)
    (month_le : month ≤ 12) :
    daysBeforeMonth year month + 306 = daysInYear year + (153 * (month - 3) + 2) / 5 := by
  by_cases leap : IsLeap year <;> interval_cases month <;>
    simp [daysBeforeMonth, daysInMonth, daysInYear, leap]

/-- The day count from the first of March of year 0, by years that start in March
with the leap day at their end, and the day of the year. -/
def marchCount (y mAdj d : Int) : Int :=
  365 * y + y / 4 - y / 100 + y / 400 + (153 * mAdj + 2) / 5 + d - 1

theorem dayCount_march (year : Nat) {month : Nat} (day : Nat) (march_le : 3 ≤ month)
    (month_le : month ≤ 12) :
    dayCount year month day = marchCount year ((month : Int) - 3) day + 60 := by
  have years := daysBeforeYear_eq (year + 1)
  have months := daysBeforeMonth_march year march_le month_le
  rw [daysBeforeYear] at years
  unfold dayCount marchCount
  omega

/-- January and February end the year before. -/
theorem dayCount_winter (year : Nat) {month : Nat} (day : Nat) (month_pos : 1 ≤ month)
    (winter : month ≤ 2) :
    dayCount year month day = marchCount ((year : Int) - 1) ((month : Int) + 9) day + 60 := by
  have years := daysBeforeYear_eq year
  have months : daysBeforeMonth year month = 31 * (month - 1) := by
    interval_cases month <;> rfl
  unfold dayCount marchCount
  rw [months]
  omega

theorem exists_march {year month : Nat} (day : Nat) (year_lt : year < 65536)
    (month_pos : 1 ≤ month) (month_le : month ≤ 12) : ∃ y mAdj : Int,
      (if (month : Int) ≤ 2 then signed 32 ((year : Int) - 1) else pure (year : Int) :
        Outcome DateParseError Int) = .ok y ∧
      (if (month : Int) > 2 then signed 32 ((month : Int) - 3) else signed 32 ((month : Int) + 9) :
        Outcome DateParseError Int) = .ok mAdj ∧
      (-1 ≤ y ∧ y < 65536) ∧ (0 ≤ mAdj ∧ mAdj ≤ 11) ∧
      dayCount year month day = marchCount y mAdj day + 60 := by
  by_cases winter : month ≤ 2
  · refine ⟨year - 1, month + 9, ?_, ?_, by omega, by omega,
      dayCount_winter year day month_pos winter⟩
    · rw [if_pos (by omega), signed_of_range (by omega) (by omega)]
    · rw [if_neg (by omega), signed_of_range (by omega) (by omega)]
  · refine ⟨year, month - 3, ?_, ?_, by omega, by omega, dayCount_march year day (by omega) month_le⟩
    · rw [if_neg (by omega), Outcome.pure_eq_ok]
    · rw [if_pos (by omega), signed_of_range (by omega) (by omega)]

end March

section Steps

variable {ε α : Type} {value : Int} {next : Int → Outcome ε α} {result : Outcome ε α}

theorem signed_32_bind (range : -2147483648 ≤ value ∧ value < 2147483648)
    (later : ∀ computed, computed = value → next computed = result) :
    (signed 32 value >>= next) = result := by
  rw [signed_of_range range.1 range.2, Outcome.ok_bind]
  exact later value rfl

theorem signed_64_bind (range : -9223372036854775808 ≤ value ∧ value < 9223372036854775808)
    (later : ∀ computed, computed = value → next computed = result) :
    (signed 64 value >>= next) = result := by
  rw [signed_of_range range.1 range.2, Outcome.ok_bind]
  exact later value rfl

end Steps

theorem secondCount_eq (year month day hour minute second : Nat) :
    secondCount year month day hour minute second =
      86400 * (dayCount year month day - 719528) + 3600 * hour + 60 * minute + second := by
  rw [secondCount, Date.epoch_number]

/-- No step leaves its type on the fields' types, and the result is the calendar's
second count. -/
theorem datetimeToEpochSeconds_eq {year month day hour minute second : Nat}
    (year_lt : year < 65536) (month_pos : 1 ≤ month) (month_le : month ≤ 12) (day_lt : day < 256)
    (hour_lt : hour < 256) (minute_lt : minute < 256) (second_lt : second < 256) :
    datetimeToEpochSeconds year month day hour minute second =
      .ok (secondCount year month day hour minute second) := by
  obtain ⟨y, mAdj, shiftedYear, shiftedMonth, y_range, m_range, counted⟩ :=
    exists_march day year_lt month_pos month_le
  rw [secondCount_eq, counted, marchCount]
  rw [datetimeToEpochSeconds, shiftedYear, Outcome.ok_bind]
  refine signed_32_bind (by omega) fun eraYears isEraYears => ?_
  refine signed_32_bind (by omega) fun yoe isYoe => ?_
  have yoe_range : 0 ≤ yoe ∧ yoe ≤ 399 := by omega
  have fourths : y / 4 = 100 * (y / 400) + yoe / 4 := by omega
  have hundredths : y / 100 = 4 * (y / 400) + yoe / 100 := by omega
  rw [shiftedMonth, Outcome.ok_bind]
  refine signed_32_bind (by omega) fun scaled isScaled => ?_
  refine signed_32_bind (by omega) fun shifted isShifted => ?_
  rw [← isScaled, ← isShifted, fourths, hundredths]
  refine signed_32_bind (by omega) fun monthDays isMonthDays => ?_
  refine signed_32_bind (by omega) fun doy isDoy => ?_
  have doy_range : -1 ≤ doy ∧ doy ≤ 600 := by omega
  refine signed_32_bind (by omega) fun yearDays isYearDays => ?_
  refine signed_32_bind (by omega) fun leapDays isLeapDays => ?_
  refine signed_32_bind (by omega) fun yearsDays isYearsDays => ?_
  refine signed_32_bind (by omega) fun doe isDoe => ?_
  have doe_range : -1 ≤ doe ∧ doe ≤ 146700 := by omega
  refine signed_64_bind (by omega) fun eraDays isEraDays => ?_
  refine signed_64_bind (by omega) fun days isDays => ?_
  refine signed_64_bind (by omega) fun daysSinceEpoch isDaysSinceEpoch => ?_
  have days_range : -800000 ≤ daysSinceEpoch ∧ daysSinceEpoch ≤ 25000000 := by omega
  refine signed_64_bind (by omega) fun hours isHours => ?_
  refine signed_64_bind (by omega) fun hours' isHours' => ?_
  refine signed_64_bind (by omega) fun minutes isMinutes => ?_
  refine signed_64_bind (by omega) fun minutes' isMinutes' => ?_
  refine signed_64_bind (by omega) fun secs isSecs => ?_
  rw [signed_of_range (by omega) (by omega), Outcome.ok.injEq]
  omega

/-- Every day of the calendar up to year 65535, at every time of day of the
parameters' types. -/
theorem epoch_seconds_step_days (date : Date) (year_lt : date.year < 65536)
    (hour minute second : UInt8) :
    ∃ days : Int, (∀ count, Date.epoch.Steps date count ↔ count = days) ∧
      datetimeToEpochSeconds date.year date.month date.day hour.toNat minute.toNat second.toNat =
        .ok (86400 * days + 3600 * hour.toNat + 60 * minute.toNat + second.toNat) := by
  refine ⟨Date.epoch.daysUntil date, fun count => (Date.steps_iff _ _ _).trans eq_comm, ?_⟩
  have day_lt : date.day < 256 := by
    have last := date.day_le.trans (daysInMonth_le _ _)
    omega
  exact datetimeToEpochSeconds_eq year_lt date.month_pos date.month_le day_lt hour.toNat_lt
    minute.toNat_lt second.toNat_lt

theorem epoch_seconds_new_year_zero :
    ∃ days : Int, Date.epoch.Steps ⟨0, 1, 1, by decide, by decide, by decide, by decide⟩ days ∧
      datetimeToEpochSeconds 0 1 1 0 0 59 = .ok (86400 * days + 59) := by
  obtain ⟨days, steps, counted⟩ := epoch_seconds_step_days
    ⟨0, 1, 1, by decide, by decide, by decide, by decide⟩ (by decide) 0 0 59
  exact ⟨days, (steps days).mpr rfl, by simpa using counted⟩

end Xrss.Datetime
