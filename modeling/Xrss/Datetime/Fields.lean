import Mathlib.Data.List.Nodup
import Xrss.Datetime.EpochSeconds
import Xrss.Zig.Decimal

namespace Xrss.Datetime

open Zig Calendar

/-- The numbers in a date string, whether they make a date or not. -/
@[ext] structure Fields where
  year : Nat
  month : Nat
  day : Nat
  hour : Nat
  minute : Nat
  second : Nat

def Fields.seconds (fields : Fields) : Int :=
  secondCount fields.year fields.month fields.day fields.hour fields.minute fields.second

def Fields.nanos (fields : Fields) : Int := fields.seconds * NS_PER_S

def part (dateStr : Bytes) (start stop : Nat) : Bytes := (dateStr.take stop).drop start

def IsMonthName (name : Bytes) (month : Nat) : Prop :=
  1 ≤ month ∧ monthNames[month - 1]? = some name

theorem length_part_le (dateStr : Bytes) (start stop : Nat) :
    (part dateStr start stop).length ≤ stop - start := by
  simp only [part, List.length_drop, List.length_take]
  omega

theorem slice_eq_part {ε : Type} {dateStr : Bytes} {start stop : Nat} (order : start ≤ stop)
    (within : stop ≤ dateStr.length) :
    (slice dateStr start stop : Outcome ε Bytes) = .ok (part dateStr start stop) :=
  if_pos ⟨order, within⟩

/-- No slice of the parser goes beyond the shortest string it takes. -/
theorem slice_fixed {ε : Type} {dateStr : Bytes} (long : 29 ≤ dateStr.length) (start stop : Nat)
    (bounds : start ≤ stop ∧ stop ≤ 29) :
    (slice dateStr start stop : Outcome ε Bytes) = .ok (part dateStr start stop) :=
  slice_eq_part bounds.1 (bounds.2.trans long)

theorem parseMonth_eq_ok {name : Bytes} {month : Nat} :
    parseMonth name = .ok month ↔ IsMonthName name month := by
  have distinct : monthNames.Nodup := by decide
  unfold parseMonth IsMonthName
  split
  · rename_i index found
    obtain ⟨bound, same, _⟩ := List.findIdx?_eq_some_iff_getElem.mp found
    have named : monthNames[index] = name := by simpa using same
    rw [Outcome.ok.injEq]
    constructor
    · intro same
      subst same
      exact ⟨by omega, by simp [bound, named]⟩
    · intro isName
      obtain ⟨positive, other⟩ := isName
      obtain ⟨within, same⟩ := List.getElem?_eq_some_iff.mp other
      have := (List.Nodup.getElem_inj_iff distinct).mp (named.trans same.symm)
      omega
  · rename_i missing
    simp only [reduceCtorEq, false_iff, not_and]
    intro _ named
    have absent := List.findIdx?_eq_none_iff.mp missing name (List.mem_of_getElem? named)
    simp at absent

theorem IsMonthName.le {name : Bytes} {month : Nat} (named : IsMonthName name month) : month ≤ 12 := by
  obtain ⟨within, _⟩ := List.getElem?_eq_some_iff.mp named.2
  have twelve : monthNames.length = 12 := rfl
  omega

theorem parseField_eq_ok {bits : Nat} {field : Bytes} {value : Nat} (numeral : Numeral field value)
    (fits : value < 2 ^ bits) : parseField bits field = .ok value :=
  Outcome.mapError_eq_ok.mpr (parseInt_eq_ok.mpr ⟨numeral, fits⟩)

/-- The two spellings of the only time zone. -/
def HasZone (dateStr : Bytes) : Prop :=
  part dateStr 26 29 = bytes "GMT" ∨ dateStr.length = 31 ∧ part dateStr 26 31 = bytes "+0000"

instance (dateStr : Bytes) : Decidable (HasZone dateStr) :=
  inferInstanceAs (Decidable (part dateStr 26 29 = bytes "GMT" ∨
    dateStr.length = 31 ∧ part dateStr 26 31 = bytes "+0000"))

theorem checkTimeZone_eq {dateStr : Bytes} (length : 29 ≤ dateStr.length) :
    checkTimeZone dateStr =
      if HasZone dateStr then .ok () else .error .unsupportedTimeZone := by
  unfold checkTimeZone HasZone
  rw [slice_eq_part (by omega) length, Outcome.ok_bind]
  by_cases short : part dateStr 26 29 = bytes "GMT"
  · simp [short]
  · by_cases full : dateStr.length = 31
    · rw [if_neg short, if_pos full, slice_eq_part (by omega) (by omega), Outcome.ok_bind]
      simp [short, full]
    · simp [short, full]

/-- A string with numerals, a month name and a time zone where the parser looks
for them. It looks at nothing else. -/
structure Readable (dateStr : Bytes) (fields : Fields) : Prop where
  length_ge : 29 ≤ dateStr.length
  length_le : dateStr.length ≤ 31
  day : Numeral (trim (· == 0x20) (part dateStr 5 7)) fields.day
  month : IsMonthName (part dateStr 8 11) fields.month
  year : Numeral (part dateStr 12 16) fields.year
  hour : Numeral (part dateStr 17 19) fields.hour
  minute : Numeral (part dateStr 20 22) fields.minute
  second : Numeral (part dateStr 23 25) fields.second
  zone : HasZone dateStr

namespace Readable

variable {dateStr : Bytes} {fields : Fields} (readable : Readable dateStr fields)

include readable

theorem year_lt : fields.year < 10000 :=
  readable.year.lt_of_length_le (length_part_le dateStr 12 16)

theorem day_lt : fields.day < 100 :=
  readable.day.lt_of_length_le ((length_trim_le _ _).trans (length_part_le dateStr 5 7))

theorem hour_lt : fields.hour < 100 := readable.hour.lt_of_length_le (length_part_le dateStr 17 19)

theorem minute_lt : fields.minute < 100 :=
  readable.minute.lt_of_length_le (length_part_le dateStr 20 22)

theorem second_lt : fields.second < 100 :=
  readable.second.lt_of_length_le (length_part_le dateStr 23 25)

/-- Every step before the scaling to nanoseconds stays in range. -/
theorem parse_eq : parseRfc1123ToNanos dateStr = signed 64 fields.nanos := by
  have long := readable.length_ge
  have year := readable.year_lt
  have day := readable.day_lt
  have hour := readable.hour_lt
  have minute := readable.minute_lt
  have second := readable.second_lt
  have window : ¬ (dateStr.length < 29 ∨ dateStr.length > 31) := by
    have := readable.length_le
    omega
  have seconds : datetimeToEpochSeconds fields.year fields.month fields.day fields.hour fields.minute
      fields.second = .ok fields.seconds :=
    datetimeToEpochSeconds_eq (by omega) readable.month.1 readable.month.le (by omega) (by omega)
      (by omega) (by omega)
  unfold parseRfc1123ToNanos
  rw [if_neg window]
  simp (disch := decide) only [slice_fixed long, Outcome.ok_bind]
  rw [parseField_eq_ok readable.day (by omega), Outcome.ok_bind,
    parseMonth_eq_ok.mpr readable.month, Outcome.ok_bind,
    parseField_eq_ok readable.year (by omega), Outcome.ok_bind,
    parseField_eq_ok readable.hour (by omega), Outcome.ok_bind,
    parseField_eq_ok readable.minute (by omega), Outcome.ok_bind,
    parseField_eq_ok readable.second (by omega), Outcome.ok_bind,
    checkTimeZone_eq long, if_pos readable.zone, Outcome.ok_bind, seconds, Outcome.ok_bind]
  rfl

theorem unique {other : Fields} (again : Readable dateStr other) : fields = other := by
  have month : fields.month = other.month := by
    have first := parseMonth_eq_ok.mpr readable.month
    rw [parseMonth_eq_ok.mpr again.month] at first
    exact (Outcome.ok.inj first).symm
  exact Fields.ext (readable.year.unique again.year) month (readable.day.unique again.day)
    (readable.hour.unique again.hour) (readable.minute.unique again.minute)
    (readable.second.unique again.second)

end Readable

/-- A call that cannot abort either ends the function with its error or goes on. -/
theorem exists_error_of_bind {ε α β : Type} {outcome : Outcome ε α} {next : α → Outcome ε β}
    (avoids : ∀ reason, outcome.Avoids reason)
    (later : ∀ value, outcome = .ok value → ∃ failure, next value = .error failure) :
    ∃ failure, (outcome >>= next) = .error failure := by
  cases outcome with
  | ok value => exact later value rfl
  | error failure => exact ⟨failure, rfl⟩
  | panic reason => exact (avoids reason rfl).elim

theorem parseField_numeral {bits : Nat} {field : Bytes} {value : Nat}
    (parsed : parseField bits field = .ok value) : Numeral field value :=
  (parseInt_eq_ok.mp (Outcome.mapError_eq_ok.mp parsed)).1

theorem exists_error_of_unreadable {dateStr : Bytes}
    (unreadable : ∀ fields, ¬ Readable dateStr fields) :
    ∃ failure, parseRfc1123ToNanos dateStr = .error failure := by
  unfold parseRfc1123ToNanos
  by_cases window : dateStr.length < 29 ∨ dateStr.length > 31
  · exact ⟨_, if_pos window⟩
  rw [if_neg window]
  have long : 29 ≤ dateStr.length := by omega
  have field (bits : Nat) (text : Bytes) (reason : Panic) : (parseField bits text).Avoids reason :=
    parseField_avoids bits text
  simp (disch := decide) only [slice_fixed long, Outcome.ok_bind]
  refine exists_error_of_bind (field _ _) fun day isDay => ?_
  refine exists_error_of_bind (fun _ => parseMonth_avoids _) fun month isMonth => ?_
  refine exists_error_of_bind (field _ _) fun year isYear => ?_
  refine exists_error_of_bind (field _ _) fun hour isHour => ?_
  refine exists_error_of_bind (field _ _) fun minute isMinute => ?_
  refine exists_error_of_bind (field _ _) fun second isSecond => ?_
  have noZone : ¬ HasZone dateStr := fun zone => unreadable ⟨year, month, day, hour, minute, second⟩
    { length_ge := long
      length_le := by omega
      day := parseField_numeral isDay
      month := parseMonth_eq_ok.mp isMonth
      year := parseField_numeral isYear
      hour := parseField_numeral isHour
      minute := parseField_numeral isMinute
      second := parseField_numeral isSecond
      zone := zone }
  rw [checkTimeZone_eq long, if_neg noZone]
  exact ⟨_, rfl⟩

/-- The parser returns or fails on every string but those whose second count, in
nanoseconds, leaves an `i64`. -/
theorem parse_completes_iff (dateStr : Bytes) :
    ((∃ value, parseRfc1123ToNanos dateStr = .ok value) ∨
        ∃ failure, parseRfc1123ToNanos dateStr = .error failure) ↔
      ∀ fields, Readable dateStr fields →
        -9223372036 ≤ fields.seconds ∧ fields.seconds ≤ 9223372036 := by
  by_cases read : ∃ fields, Readable dateStr fields
  · obtain ⟨fields, readable⟩ := read
    have only : (∀ other, Readable dateStr other →
        -9223372036 ≤ other.seconds ∧ other.seconds ≤ 9223372036) ↔
        -9223372036 ≤ fields.seconds ∧ fields.seconds ≤ 9223372036 :=
      ⟨fun all => all fields readable, fun range other again => readable.unique again ▸ range⟩
    rw [only, readable.parse_eq, signed, Fields.nanos, NS_PER_S]
    split
    · simp
      omega
    · simp
      omega
  · have unreadable := not_exists.mp read
    obtain ⟨failure, refused⟩ := exists_error_of_unreadable unreadable
    simp only [refused]
    exact ⟨fun _ fields readable => (unreadable fields readable).elim, fun _ => .inr ⟨_, rfl⟩⟩

theorem far_date_aborts :
    parseRfc1123ToNanos (bytes "Fri, 31 Dec 9999 23:59:59 GMT") = .panic .overflow := by
  decide +kernel

end Xrss.Datetime
