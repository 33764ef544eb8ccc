import Mathlib.Data.Prod.Lex
import Mathlib.Logic.Function.Iterate
import Mathlib.Order.Monotone.Basic

/-! The proleptic Gregorian calendar from year 0 on: its dates, the day after a
date, and how many days and seconds lie between two of them. -/

namespace Xrss.Calendar

def IsLeap (year : Nat) : Prop := year % 4 = 0 ∧ (year % 100 ≠ 0 ∨ year % 400 = 0)

instance (year : Nat) : Decidable (IsLeap year) :=
  inferInstanceAs (Decidable (year % 4 = 0 ∧ (year % 100 ≠ 0 ∨ year % 400 = 0)))

def daysInYear (year : Nat) : Nat := if IsLeap year then 366 else 365

def daysInMonth (year month : Nat) : Nat :=
  if month = 2 then if IsLeap year then 29 else 28
  else if month = 4 ∨ month = 6 ∨ month = 9 ∨ month = 11 then 30
  else 31

@[ext] structure Date where
  year : Nat
  month : Nat
  day : Nat
  month_pos : 1 ≤ month
  month_le : month ≤ 12
  day_pos : 1 ≤ day
  day_le : day ≤ daysInMonth year month

theorem daysInMonth_pos (year month : Nat) : 1 ≤ daysInMonth year month := by
  unfold daysInMonth
  split
  · split <;> omega
  · split <;> omega

theorem daysInMonth_le (year month : Nat) : daysInMonth year month ≤ 31 := by
  unfold daysInMonth
  split
  · split <;> omega
  · split <;> omega

def daysBeforeYear : Nat → Nat
  | 0 => 0
  | year + 1 => daysBeforeYear year + daysInYear year

def daysBeforeMonth (year : Nat) : Nat → Nat
  | 0 => 0
  | 1 => 0
  | month + 2 => daysBeforeMonth year (month + 1) + daysInMonth year (month + 1)

theorem daysBeforeMonth_succ (year : Nat) {month : Nat} (positive : 1 ≤ month) :
    daysBeforeMonth year (month + 1) = daysBeforeMonth year month + daysInMonth year month := by
  obtain ⟨before, rfl⟩ := Nat.exists_eq_add_of_le' positive
  rfl

theorem daysBeforeMonth_thirteen (year : Nat) : daysBeforeMonth year 13 = daysInYear year := by
  by_cases leap : IsLeap year <;> simp [daysBeforeMonth, daysInMonth, daysInYear, leap]

theorem daysBeforeMonth_mono (year : Nat) : Monotone (daysBeforeMonth year) := by
  refine monotone_nat_of_le_succ fun month => ?_
  cases month with
  | zero => exact le_refl 0
  | succ before => exact Nat.le_add_right _ _

theorem daysBeforeYear_mono : Monotone daysBeforeYear :=
  monotone_nat_of_le_succ fun _ => Nat.le_add_right _ _

/-- Every fourth year has a leap day, but of the hundredth ones only every fourth. -/
theorem daysInYear_eq (year : Nat) :
    daysInYear year + (if year % 100 = 0 then 1 else 0) =
      365 + (if year % 4 = 0 then 1 else 0) + if year % 400 = 0 then 1 else 0 := by
  unfold daysInYear IsLeap
  by_cases fourth : year % 4 = 0
  · by_cases hundredth : year % 100 = 0
    · by_cases fourHundredth : year % 400 = 0 <;> simp [fourth, hundredth, fourHundredth]
    · have regular : year % 400 ≠ 0 := by omega
      simp [fourth, hundredth, regular]
  · have regular : year % 100 ≠ 0 ∧ year % 400 ≠ 0 := by omega
    simp [fourth, regular]

theorem daysBeforeYear_eq (year : Nat) :
    daysBeforeYear year + (year + 99) / 100 = 365 * year + (year + 3) / 4 + (year + 399) / 400 := by
  induction year with
  | zero => rfl
  | succ year ih =>
    have fourth : (year + 1 + 3) / 4 = (year + 3) / 4 + if year % 4 = 0 then 1 else 0 := by
      split <;> omega
    have hundredth : (year + 1 + 99) / 100 = (year + 99) / 100 + if year % 100 = 0 then 1 else 0 := by
      split <;> omega
    have fourHundredth :
        (year + 1 + 399) / 400 = (year + 399) / 400 + if year % 400 = 0 then 1 else 0 := by
      split <;> omega
    have days := daysInYear_eq year
    rw [daysBeforeYear, fourth, hundredth, fourHundredth]
    omega

/-- The day count of a date, from the first of January of year 0. -/
def dayCount (year month day : Nat) : Int :=
  daysBeforeYear year + daysBeforeMonth year month + day - 1

namespace Date

def key (date : Date) : Nat ×ₗ Nat ×ₗ Nat := toLex (date.year, toLex (date.month, date.day))

theorem key_injective : Function.Injective key := by
  intro left right same
  have years : left.year = right.year := congrArg (fun key => (ofLex key).1) same
  have months : left.month = right.month := congrArg (fun key => (ofLex (ofLex key).2).1) same
  have days : left.day = right.day := congrArg (fun key => (ofLex (ofLex key).2).2) same
  exact Date.ext years months days

/-- Dates in the order of the calendar. -/
instance : LinearOrder Date := LinearOrder.lift' key key_injective

theorem lt_iff {left right : Date} : left < right ↔
    left.year < right.year ∨ left.year = right.year ∧
      (left.month < right.month ∨ left.month = right.month ∧ left.day < right.day) := by
  show left.key < right.key ↔ _
  simp only [key, Prod.Lex.toLex_lt_toLex]

def next (date : Date) : Date :=
  if later : date.day < daysInMonth date.year date.month then
    ⟨date.year, date.month, date.day + 1, date.month_pos, date.month_le, by omega, later⟩
  else if within : date.month < 12 then
    ⟨date.year, date.month + 1, 1, by omega, within, by omega, daysInMonth_pos _ _⟩
  else
    ⟨date.year + 1, 1, 1, by omega, by omega, by omega, daysInMonth_pos _ _⟩

def number (date : Date) : Int := dayCount date.year date.month date.day

theorem number_next (date : Date) : date.next.number = date.number + 1 := by
  have positive := date.month_pos
  have last := date.day_le
  have filled := date.month_le
  unfold next number dayCount
  split
  · simp only
    omega
  · split
    · simp only [daysBeforeMonth_succ _ positive]
      omega
    · have december : date.month = 12 := by omega
      have year := daysBeforeMonth_thirteen date.year
      rw [daysBeforeMonth_succ _ (by omega)] at year
      simp only [daysBeforeYear, daysBeforeMonth, december] at *
      omega

theorem number_iterate_next (date : Date) (count : Nat) :
    (next^[count] date).number = date.number + count := by
  induction count with
  | zero => simp
  | succ count ih =>
    rw [Function.iterate_succ_apply', number_next, ih]
    omega

theorem number_lt_newYear (date : Date) : date.number < daysBeforeYear (date.year + 1) := by
  have months := daysBeforeMonth_mono date.year (Nat.succ_le_succ date.month_le)
  rw [daysBeforeMonth_thirteen, daysBeforeMonth_succ _ date.month_pos] at months
  have last := date.day_le
  unfold number dayCount
  rw [daysBeforeYear]
  omega

theorem number_lt_of_lt {left right : Date} (before : left < right) : left.number < right.number := by
  have first := right.day_pos
  rcases lt_iff.mp before with year | ⟨year, month | ⟨month, day⟩⟩
  · have years := daysBeforeYear_mono (show left.year + 1 ≤ right.year from year)
    have within := number_lt_newYear left
    unfold number dayCount at *
    omega
  · have months := daysBeforeMonth_mono right.year (show left.month + 1 ≤ right.month from month)
    rw [daysBeforeMonth_succ _ left.month_pos] at months
    have last := left.day_le
    unfold number dayCount
    rw [year] at *
    omega
  · unfold number dayCount
    rw [year, month]
    omega

theorem number_injective : Function.Injective number := by
  intro left right same
  rcases lt_trichotomy left right with before | equal | after
  · have := number_lt_of_lt before
    omega
  · exact equal
  · have := number_lt_of_lt after
    omega

def daysUntil (start stop : Date) : Int := stop.number - start.number

theorem daysUntil_eq_iff (start stop : Date) (count : Nat) :
    start.daysUntil stop = count ↔ next^[count] start = stop := by
  have steps := number_iterate_next start count
  rw [← number_injective.eq_iff, daysUntil]
  omega

theorem daysUntil_neg (start stop : Date) : stop.daysUntil start = -start.daysUntil stop := by
  unfold daysUntil
  omega

/-- The signed number of days from one date to another, one day at a time. -/
inductive Steps (start stop : Date) : Int → Prop where
  | forward (count : Nat) (reached : next^[count] start = stop) : Steps start stop count
  | backward (count : Nat) (reached : next^[count] stop = start) : Steps start stop (-count)

theorem steps_iff (start stop : Date) (days : Int) :
    Steps start stop days ↔ start.daysUntil stop = days := by
  constructor
  · intro steps
    cases steps with
    | forward count reached => exact (daysUntil_eq_iff start stop count).mpr reached
    | backward count reached =>
      rw [daysUntil_neg, (daysUntil_eq_iff stop start count).mpr reached]
  · intro counted
    obtain ⟨count, rfl | rfl⟩ := Int.eq_nat_or_neg days
    · exact .forward count ((daysUntil_eq_iff start stop count).mp counted)
    · rw [daysUntil_neg, Int.neg_inj] at counted
      exact .backward count ((daysUntil_eq_iff stop start count).mp counted)

/-- The first of January 1970. -/
def epoch : Date := ⟨1970, 1, 1, by decide, by decide, by decide, by decide⟩

theorem epoch_number : epoch.number = 719528 := by
  have before := daysBeforeYear_eq 1970
  unfold number dayCount
  simp only [epoch, daysBeforeMonth]
  omega

end Date

/-- The seconds from the start of 1970 to a time of the day that the number of a
day in a month stands for, whether the month has that day or not. -/
def secondCount (year month day hour minute second : Nat) : Int :=
  86400 * (dayCount year month day - Date.epoch.number) + 3600 * hour + 60 * minute + second

/-- A date and a time of the day. Second 60 is a leap second. -/
@[ext] structure CivilTime where
  date : Date
  hour : Nat
  minute : Nat
  second : Nat
  hour_le : hour ≤ 23
  minute_le : minute ≤ 59
  second_le : second ≤ 60

namespace CivilTime

def key (time : CivilTime) : Date ×ₗ Nat ×ₗ Nat ×ₗ Nat :=
  toLex (time.date, toLex (time.hour, toLex (time.minute, time.second)))

theorem key_injective : Function.Injective key := by
  intro left right same
  have dates : left.date = right.date := congrArg (fun key => (ofLex key).1) same
  have hours : left.hour = right.hour := congrArg (fun key => (ofLex (ofLex key).2).1) same
  have minutes : left.minute = right.minute :=
    congrArg (fun key => (ofLex (ofLex (ofLex key).2).2).1) same
  have seconds : left.second = right.second :=
    congrArg (fun key => (ofLex (ofLex (ofLex key).2).2).2) same
  exact CivilTime.ext dates hours minutes seconds

/-- Chronological order. -/
instance : LinearOrder CivilTime := LinearOrder.lift' key key_injective

theorem lt_iff {left right : CivilTime} : left < right ↔
    left.date < right.date ∨ left.date = right.date ∧
      (left.hour < right.hour ∨ left.hour = right.hour ∧
        (left.minute < right.minute ∨ left.minute = right.minute ∧ left.second < right.second)) := by
  show left.key < right.key ↔ _
  simp only [key, Prod.Lex.toLex_lt_toLex]

/-- The seconds since the start of 1970, in days of 86400 seconds. -/
def seconds (time : CivilTime) : Int :=
  86400 * Date.epoch.daysUntil time.date + 3600 * time.hour + 60 * time.minute + time.second

/-- Times come in the order of their seconds, but a leap second counts like the
second after it. -/
theorem seconds_lt_of_lt {left right : CivilTime} (before : left < right) :
    left.seconds < right.seconds + left.second / 60 := by
  have hour := left.hour_le
  have minute := left.minute_le
  have second := left.second_le
  unfold seconds Date.daysUntil
  rcases lt_iff.mp before with earlier | ⟨sameDate, earlier⟩
  · have days := Date.number_lt_of_lt earlier
    omega
  · rw [sameDate]
    rcases earlier with earlier | ⟨sameHour, earlier | ⟨sameMinute, earlier⟩⟩ <;> omega

theorem seconds_lt_iff {left right : CivilTime} (regular : left.second ≤ 59) :
    left.seconds < right.seconds ↔ left < right := by
  have second := right.second_le
  constructor
  · intro less
    rcases lt_trichotomy left right with before | rfl | after
    · exact before
    · omega
    · have := seconds_lt_of_lt after
      omega
  · intro before
    have := seconds_lt_of_lt before
    omega

end CivilTime

end Xrss.Calendar
