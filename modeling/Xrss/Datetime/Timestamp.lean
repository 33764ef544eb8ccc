import Xrss.Datetime.Fields

namespace Xrss.Datetime

open Zig Calendar

def epochNanos (time : CivilTime) : Int := time.seconds * NS_PER_S

def monthName (month : Nat) : Bytes := monthNames[month - 1]?.getD []

/-- `Www, DD Mon YYYY HH:MM:SS Z`. -/
def line (weekday day month year hour minute second zone : Bytes) : Bytes :=
  weekday ++ bytes ", " ++ day ++ bytes " " ++ month ++ bytes " " ++ year ++ bytes " " ++
    hour ++ bytes ":" ++ minute ++ bytes ":" ++ second ++ bytes " " ++ zone

/-- The day of the month in two columns. -/
inductive DayText (day : Nat) : Bytes → Prop where
  | zero : DayText day (decimal 2 day)
  | space (single : day ≤ 9) : DayText day (0x20 :: decimal 1 day)

/-- Universal time. -/
inductive Zone : Bytes → Prop where
  | gmt : Zone (bytes "GMT")
  | offset : Zone (bytes "+0000")

/-- A timestamp of a time, under any three bytes of weekday. -/
structure Timestamp (time : CivilTime) (dateStr : Bytes) : Prop where
  year_le : time.date.year ≤ 9999
  shape : ∃ weekday day zone, weekday.length = 3 ∧ DayText time.date.day day ∧ Zone zone ∧
    dateStr = line weekday day (monthName time.date.month) (decimal 4 time.date.year)
      (decimal 2 time.hour) (decimal 2 time.minute) (decimal 2 time.second) zone

structure Separated (dateStr : Bytes) : Prop where
  weekday : part dateStr 3 5 = bytes ", "
  day : part dateStr 7 8 = bytes " "
  month : part dateStr 11 12 = bytes " "
  year : part dateStr 16 17 = bytes " "
  hour : part dateStr 19 20 = bytes ":"
  minute : part dateStr 22 23 = bytes ":"
  second : part dateStr 25 26 = bytes " "

theorem drop_eq_part_append (dateStr : Bytes) {start stop : Nat} (order : start ≤ stop) :
    dateStr.drop start = part dateStr start stop ++ dateStr.drop stop := by
  unfold part
  obtain ⟨width, rfl⟩ := Nat.exists_eq_add_of_le order
  rw [List.drop_take, Nat.add_sub_cancel_left, ← List.drop_drop, List.take_append_drop]

theorem Separated.eq_line {dateStr : Bytes} (separated : Separated dateStr) :
    dateStr = line (part dateStr 0 3) (part dateStr 5 7) (part dateStr 8 11) (part dateStr 12 16)
      (part dateStr 17 19) (part dateStr 20 22) (part dateStr 23 25) (dateStr.drop 26) := by
  have cut (start stop : Nat) (order : start ≤ stop) := drop_eq_part_append dateStr order
  have whole : dateStr = dateStr.drop 0 := rfl
  rw [cut 0 3 (by decide), cut 3 5 (by decide), cut 5 7 (by decide), cut 7 8 (by decide),
    cut 8 11 (by decide), cut 11 12 (by decide), cut 12 16 (by decide), cut 16 17 (by decide),
    cut 17 19 (by decide), cut 19 20 (by decide), cut 20 22 (by decide), cut 22 23 (by decide),
    cut 23 25 (by decide), cut 25 26 (by decide), separated.weekday, separated.day,
    separated.month, separated.year, separated.hour, separated.minute, separated.second] at whole
  simpa only [line, List.append_assoc] using whole

theorem parts_line {dateStr weekday day month year hour minute second zone : Bytes}
    (same : dateStr = line weekday day month year hour minute second zone)
    (weekday_length : weekday.length = 3) (day_length : day.length = 2)
    (month_length : month.length = 3) (year_length : year.length = 4) (hour_length : hour.length = 2)
    (minute_length : minute.length = 2) (second_length : second.length = 2) :
    Separated dateStr ∧ part dateStr 5 7 = day ∧ part dateStr 8 11 = month ∧
      part dateStr 12 16 = year ∧ part dateStr 17 19 = hour ∧ part dateStr 20 22 = minute ∧
      part dateStr 23 25 = second ∧ dateStr.drop 26 = zone := by
  obtain ⟨_, _, _, rfl⟩ := List.length_eq_three.mp weekday_length
  obtain ⟨_, _, rfl⟩ := List.length_eq_two.mp day_length
  obtain ⟨_, _, _, rfl⟩ := List.length_eq_three.mp month_length
  obtain ⟨_, _, _, _, rfl⟩ := List.length_eq_four.mp year_length
  obtain ⟨_, _, rfl⟩ := List.length_eq_two.mp hour_length
  obtain ⟨_, _, rfl⟩ := List.length_eq_two.mp minute_length
  obtain ⟨_, _, rfl⟩ := List.length_eq_two.mp second_length
  have comma : bytes ", " = [0x2c, 0x20] := by decide
  have blank : bytes " " = [0x20] := by decide
  have colon : bytes ":" = [0x3a] := by decide
  simp only [line, comma, blank, colon, List.cons_append, List.nil_append] at same
  subst same
  exact ⟨⟨comma.symm, blank.symm, blank.symm, blank.symm, colon.symm, colon.symm, blank.symm⟩,
    rfl, rfl, rfl, rfl, rfl, rfl, rfl⟩

def fieldsOf (time : CivilTime) : Fields where
  year := time.date.year
  month := time.date.month
  day := time.date.day
  hour := time.hour
  minute := time.minute
  second := time.second

theorem epochNanos_fieldsOf (time : CivilTime) : (fieldsOf time).nanos = epochNanos time := rfl

theorem isMonthName_iff {name : Bytes} {month : Nat} :
    IsMonthName name month ↔ 1 ≤ month ∧ month ≤ 12 ∧ name = monthName month := by
  constructor
  · intro named
    exact ⟨named.1, named.le, by rw [monthName, named.2, Option.getD_some]⟩
  · intro named
    obtain ⟨month_pos, month_le, rfl⟩ := named
    have within : month - 1 < monthNames.length := by
      show month - 1 < 12
      omega
    exact ⟨month_pos, by rw [monthName, List.getElem?_eq_getElem within, Option.getD_some]⟩

theorem length_monthName {month : Nat} (month_pos : 1 ≤ month) (month_le : month ≤ 12) :
    (monthName month).length = 3 := by
  interval_cases month <;> decide

theorem DayText.length {day : Nat} {text : Bytes} (dayText : DayText day text) : text.length = 2 := by
  cases dayText <;> simp

theorem trim_digits {digits : Bytes} (plain : ∀ char ∈ digits, isDigit char) :
    trim (· == 0x20) digits = digits :=
  trim_eq_self fun char member =>
    beq_eq_false_iff_ne.mpr (ne_of_isDigit (plain char member) (by decide))

theorem DayText.numeral {day : Nat} {text : Bytes} (dayText : DayText day text) (day_lt : day < 100) :
    Numeral (trim (· == 0x20) text) day := by
  cases dayText with
  | zero =>
    rw [trim_digits (decimal_digits 2 day)]
    exact numeral_decimal (by decide) day_lt
  | space single =>
    rw [trim_cons (by decide), trim_digits (decimal_digits 1 day)]
    exact numeral_decimal (by decide) (by omega)

def DayDigits (text : Bytes) : Prop :=
  (∀ char ∈ text, isDigit char) ∨ ∃ ones, text = [0x20, ones] ∧ isDigit ones

theorem DayText.digits {day : Nat} {text : Bytes} (dayText : DayText day text) : DayDigits text := by
  cases dayText with
  | zero => exact .inl (decimal_digits 2 day)
  | space single => exact .inr ⟨_, rfl, isDigit_digit (Nat.mod_lt _ (by decide))⟩

/-- What the parser leaves unchecked in a string it reads. -/
structure Exact (dateStr : Bytes) (fields : Fields) : Prop where
  separated : Separated dateStr
  dayDigits : DayDigits (part dateStr 5 7)
  yearDigits : ∀ char ∈ part dateStr 12 16, isDigit char
  hourDigits : ∀ char ∈ part dateStr 17 19, isDigit char
  minuteDigits : ∀ char ∈ part dateStr 20 22, isDigit char
  secondDigits : ∀ char ∈ part dateStr 23 25, isDigit char
  day_pos : 1 ≤ fields.day
  day_le : fields.day ≤ daysInMonth fields.year fields.month
  hour_le : fields.hour ≤ 23
  minute_le : fields.minute ≤ 59
  second_le : fields.second ≤ 60
  ended : part dateStr 26 29 = bytes "GMT" → dateStr.length = 29

theorem part_eq_take (dateStr : Bytes) (start stop : Nat) :
    part dateStr start stop = (dateStr.drop start).take (stop - start) := List.drop_take

theorem Zone.hasZone {dateStr zone : Bytes} (utc : Zone zone) (ended : dateStr.drop 26 = zone) :
    HasZone dateStr ∧ (29 ≤ dateStr.length ∧ dateStr.length ≤ 31) ∧
      (part dateStr 26 29 = bytes "GMT" → dateStr.length = 29) := by
  have length := congrArg List.length ended
  rw [List.length_drop] at length
  unfold HasZone
  rw [part_eq_take, part_eq_take, ended]
  cases utc with
  | gmt =>
    have three : (bytes "GMT").length = 3 := by decide
    exact ⟨.inl (by decide), by omega, fun _ => by omega⟩
  | offset =>
    have five : (bytes "+0000").length = 5 := by decide
    exact ⟨.inr ⟨by omega, by decide⟩, by omega, fun same => absurd same (by decide)⟩

theorem Timestamp.readable {time : CivilTime} {dateStr : Bytes} (timestamp : Timestamp time dateStr) :
    Readable dateStr (fieldsOf time) ∧ Exact dateStr (fieldsOf time) := by
  obtain ⟨year_le, weekday, day, zone, weekday_length, day_text, utc, same⟩ := timestamp
  have month := isMonthName_iff.mpr ⟨time.date.month_pos, time.date.month_le, rfl⟩
  obtain ⟨separated, isDay, isMonth, isYear, isHour, isMinute, isSecond, ended⟩ :=
    parts_line same weekday_length day_text.length
      (length_monthName time.date.month_pos time.date.month_le) (length_decimal 4 time.date.year)
      (length_decimal 2 time.hour) (length_decimal 2 time.minute) (length_decimal 2 time.second)
  obtain ⟨hasZone, length, short⟩ := utc.hasZone ended
  have hour := time.hour_le
  have minute := time.minute_le
  have second := time.second_le
  have day_le := time.date.day_le.trans (daysInMonth_le _ _)
  constructor
  · refine ⟨length.1, length.2, ?_, ?_, ?_, ?_, ?_, ?_, hasZone⟩
    · rw [isDay]
      exact day_text.numeral (by omega)
    · rw [isMonth]
      exact month
    · rw [isYear]
      exact numeral_decimal (by decide) (by omega)
    · rw [isHour]
      exact numeral_decimal (by decide) (by omega)
    · rw [isMinute]
      exact numeral_decimal (by decide) (by omega)
    · rw [isSecond]
      exact numeral_decimal (by decide) (by omega)
  · refine ⟨separated, ?_, ?_, ?_, ?_, ?_, time.date.day_pos, time.date.day_le, hour, minute, second,
      short⟩
    · rw [isDay]
      exact day_text.digits
    · rw [isYear]
      exact decimal_digits _ _
    · rw [isHour]
      exact decimal_digits _ _
    · rw [isMinute]
      exact decimal_digits _ _
    · rw [isSecond]
      exact decimal_digits _ _

theorem length_part {dateStr : Bytes} {start stop : Nat} (within : stop ≤ dateStr.length) :
    (part dateStr start stop).length = stop - start := by
  rw [part, List.length_drop, List.length_take, Nat.min_eq_left within]

theorem DayDigits.dayText {text : Bytes} {day : Nat} (digits : DayDigits text)
    (length : text.length = 2) (numeral : Numeral (trim (· == 0x20) text) day) : DayText day text := by
  rcases digits with plain | ⟨ones, rfl, digit⟩
  · rw [trim_digits plain] at numeral
    rw [numeral_digits numeral plain, length]
    exact .zero
  · have plain : ∀ char ∈ [ones], isDigit char := by simpa using digit
    rw [trim_cons (by decide), trim_digits plain] at numeral
    have single : day < 10 := numeral.value_lt
    rw [numeral_digits numeral plain]
    exact .space (by omega)

theorem HasZone.zone {dateStr : Bytes} (hasZone : HasZone dateStr)
    (ended : part dateStr 26 29 = bytes "GMT" → dateStr.length = 29) : Zone (dateStr.drop 26) := by
  have whole {stop : Nat} (length : dateStr.length = stop) :
      part dateStr 26 stop = dateStr.drop 26 := by
    rw [part, List.take_of_length_le (by omega)]
  rcases hasZone with short | ⟨length, long⟩
  · rw [← whole (ended short), short]
    exact .gmt
  · rw [← whole length, long]
    exact .offset

theorem Readable.timestamp {dateStr : Bytes} {fields : Fields} (readable : Readable dateStr fields)
    (precise : Exact dateStr fields) : ∃ time, Timestamp time dateStr ∧ fieldsOf time = fields := by
  obtain ⟨month_pos, month_le, month⟩ := isMonthName_iff.mp readable.month
  have year_lt := readable.year_lt
  have long := readable.length_ge
  have day := precise.dayDigits.dayText (length_part (by omega)) readable.day
  have year := numeral_digits readable.year precise.yearDigits
  have hour := numeral_digits readable.hour precise.hourDigits
  have minute := numeral_digits readable.minute precise.minuteDigits
  have second := numeral_digits readable.second precise.secondDigits
  rw [length_part (by omega)] at year hour minute second
  have same := precise.separated.eq_line
  rw [month, year, hour, minute, second] at same
  exact ⟨⟨⟨fields.year, fields.month, fields.day, month_pos, month_le, precise.day_pos, precise.day_le⟩,
    fields.hour, fields.minute, fields.second, precise.hour_le, precise.minute_le, precise.second_le⟩,
    ⟨Nat.le_of_lt_succ year_lt, _, _, _, length_part (by omega), day,
      readable.zone.zone precise.ended, same⟩, rfl⟩

/-- A time as the sources of feeds write it. -/
def render (weekday : Bytes) (time : CivilTime) (zone : Bytes) : Bytes :=
  line weekday (decimal 2 time.date.day) (monthName time.date.month) (decimal 4 time.date.year)
    (decimal 2 time.hour) (decimal 2 time.minute) (decimal 2 time.second) zone

/-- What is written with four digits of year and has its nanoseconds in an `i64`. -/
structure Renderable (weekday : Bytes) (time : CivilTime) (zone : Bytes) : Prop where
  weekday_length : weekday.length = 3
  utc : Zone zone
  year_le : time.date.year ≤ 9999
  second_le : time.second ≤ 59
  nanos_ge : -2 ^ 63 ≤ epochNanos time
  nanos_lt : epochNanos time < 2 ^ 63

theorem Renderable.parse_eq {weekday zone : Bytes} {time : CivilTime}
    (renderable : Renderable weekday time zone) :
    parseRfc1123ToNanos (render weekday time zone) = .ok (epochNanos time) := by
  have timestamp : Timestamp time (render weekday time zone) :=
    ⟨renderable.year_le, weekday, _, zone, renderable.weekday_length, .zero, renderable.utc, rfl⟩
  rw [timestamp.readable.1.parse_eq, epochNanos_fieldsOf,
    signed_of_range renderable.nanos_ge renderable.nanos_lt]

theorem epochNanos_lt_iff {time : CivilTime} (other : CivilTime) (regular : time.second ≤ 59) :
    epochNanos time < epochNanos other ↔ time < other := by
  rw [← CivilTime.seconds_lt_iff regular, epochNanos, epochNanos, NS_PER_S]
  omega

/-- Rendered times are parsed to their nanoseconds, which compare as the times
do. -/
theorem parse_render_order {weekday weekday' zone zone' : Bytes} {time time' : CivilTime}
    (renderable : Renderable weekday time zone) (renderable' : Renderable weekday' time' zone') :
    parseRfc1123ToNanos (render weekday time zone) = .ok (epochNanos time) ∧
      parseRfc1123ToNanos (render weekday' time' zone') = .ok (epochNanos time') ∧
      (epochNanos time < epochNanos time' ↔ time < time') ∧
      (epochNanos time = epochNanos time' ↔ time = time') := by
  have less := epochNanos_lt_iff time' renderable.second_le
  have more := epochNanos_lt_iff time renderable'.second_le
  refine ⟨renderable.parse_eq, renderable'.parse_eq, less, fun same => ?_, congrArg epochNanos⟩
  rcases lt_trichotomy time time' with before | equal | after
  · exact absurd (less.mpr before) (by omega)
  · exact equal
  · exact absurd (more.mpr after) (by omega)

def epochHour (hour : Nat) (hour_le : hour ≤ 23) : CivilTime :=
  ⟨Date.epoch, hour, 0, 0, hour_le, by decide, by decide⟩

theorem renderable_epochHour {hour : Nat} (hour_le : hour ≤ 23) {zone : Bytes} (utc : Zone zone) :
    Renderable (bytes "Thu") (epochHour hour hour_le) zone := by
  have counted : epochNanos (epochHour hour hour_le) = 3600 * hour * 1000000000 := by
    simp [epochNanos, epochHour, CivilTime.seconds, Date.daysUntil, NS_PER_S]
  have year : (epochHour hour hour_le).date.year = 1970 := rfl
  refine ⟨by decide, utc, by omega, Nat.zero_le 59, ?_, ?_⟩ <;> rw [counted] <;> omega

theorem parse_render_order_epoch :
    ∃ midnight noon : CivilTime, midnight < noon ∧
      parseRfc1123ToNanos (render (bytes "Thu") midnight (bytes "GMT")) = .ok (epochNanos midnight) ∧
      parseRfc1123ToNanos (render (bytes "Thu") noon (bytes "+0000")) = .ok (epochNanos noon) ∧
      (epochNanos midnight < epochNanos noon ↔ midnight < noon) ∧
      (epochNanos midnight = epochNanos noon ↔ midnight = noon) := by
  have before : epochHour 0 (by decide) < epochHour 12 (by decide) :=
    CivilTime.lt_iff.mpr (.inr ⟨rfl, .inl (show 0 < 12 by decide)⟩)
  exact ⟨_, _, before, parse_render_order (renderable_epochHour (by decide) .gmt)
    (renderable_epochHour (by decide) .offset)⟩

/-- The parser takes a string for a time that is none exactly if it can read the
string without it being exact. -/
theorem accepts_timestamps_iff (dateStr : Bytes) :
    ((∀ value, parseRfc1123ToNanos dateStr = .ok value →
        ∃ time, Timestamp time dateStr ∧ value = epochNanos time) ∧
      ((¬ ∃ time, Timestamp time dateStr) → ∃ failure, parseRfc1123ToNanos dateStr = .error failure)) ↔
    ∀ fields, Readable dateStr fields → Exact dateStr fields := by
  constructor
  · intro property fields readable
    by_cases written : ∃ time, Timestamp time dateStr
    · obtain ⟨time, timestamp⟩ := written
      obtain ⟨again, precise⟩ := timestamp.readable
      exact readable.unique again ▸ precise
    · obtain ⟨failure, refused⟩ := property.2 written
      rw [readable.parse_eq] at refused
      exact (signed_ne_error _ _ _ refused).elim
  · intro precise
    constructor
    · intro value accepted
      by_cases read : ∃ fields, Readable dateStr fields
      · obtain ⟨fields, readable⟩ := read
        obtain ⟨time, timestamp, rfl⟩ := readable.timestamp (precise fields readable)
        refine ⟨time, timestamp, ?_⟩
        rw [readable.parse_eq, epochNanos_fieldsOf] at accepted
        exact (signed_eq_ok.mp accepted).2.symm
      · obtain ⟨failure, refused⟩ := exists_error_of_unreadable (not_exists.mp read)
        rw [refused] at accepted
        cases accepted
    · intro unwritten
      refine exists_error_of_unreadable fun fields readable => unwritten ?_
      obtain ⟨time, timestamp, _⟩ := readable.timestamp (precise fields readable)
      exact ⟨time, timestamp⟩

/-- Whatever follows `GMT` in a string of 31 bytes is ignored. -/
theorem zone_suffix_accepted :
    ∃ dateStr, dateStr = bytes "Sat, 07 Sep 2002 09:42:31 GMT+1" ∧
      parseRfc1123ToNanos dateStr = .ok 1031391751000000000 ∧ ¬ ∃ time, Timestamp time dateStr := by
  refine ⟨_, rfl, by decide +kernel, ?_⟩
  intro written
  obtain ⟨time, timestamp⟩ := written
  exact absurd (timestamp.readable.2.ended (by decide)) (by decide)

end Xrss.Datetime
