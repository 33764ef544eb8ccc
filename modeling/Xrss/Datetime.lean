import Xrss.Zig.Integer
import Xrss.Zig.Trim

/-! The date parser of `datetime.zig`. Every arithmetic step is checked
against the type the source computes it in. -/

namespace Xrss.Datetime

open Zig

inductive DateParseError where
  | invalidLength
  | invalidMonth
  | unsupportedTimeZone
  | overflow
  | invalidCharacter
  deriving Repr, DecidableEq

def DateParseError.ofParseInt : ParseIntError → DateParseError
  | .overflow => .overflow
  | .invalidCharacter => .invalidCharacter

def NS_PER_S : Int := 1000000000

/-- The `@divFloor` calls below all divide by a positive literal, where `Int`
division rounds down as well. -/
def datetimeToEpochSeconds (year month day hour minute second : Nat) :
    Outcome DateParseError Int := do
  let y : Int := year
  let m : Int := month
  let d : Int := day
  let y ← (if m ≤ 2 then signed 32 (y - 1) else pure y)
  let era := y / 400
  let eraYears ← signed 32 (era * 400)
  let yoe ← signed 32 (y - eraYears)
  let mAdj ← (if m > 2 then signed 32 (m - 3) else signed 32 (m + 9))
  let scaled ← signed 32 (153 * mAdj)
  let shifted ← signed 32 (scaled + 2)
  let doy ← signed 32 (shifted / 5 + d)
  let doy ← signed 32 (doy - 1)
  let yearDays ← signed 32 (yoe * 365)
  let doe ← signed 32 (yearDays + yoe / 4)
  let doe ← signed 32 (doe - yoe / 100)
  let doe ← signed 32 (doe + doy)
  let eraDays ← signed 64 (era * 146097)
  let days ← signed 64 (eraDays + doe)
  let daysSinceEpoch ← signed 64 (days - 719468)
  let hours ← signed 64 (daysSinceEpoch * 24)
  let hours ← signed 64 (hours + hour)
  let minutes ← signed 64 (hours * 60)
  let minutes ← signed 64 (minutes + minute)
  let secs ← signed 64 (minutes * 60)
  signed 64 (secs + second)

def monthNames : List Bytes :=
  ["Jan", "Feb", "Mar", "Apr", "May", "Jun", "Jul", "Aug", "Sep", "Oct", "Nov", "Dec"].map bytes

/-- The chain of month comparisons: January is 1. -/
def parseMonth (monthStr : Bytes) : Outcome DateParseError Nat :=
  match monthNames.findIdx? (· == monthStr) with
  | some index => .ok (index + 1)
  | none => .error .invalidMonth

def parseField (bits : Nat) (field : Bytes) : Outcome DateParseError Nat :=
  (parseInt bits field 10).mapError .ofParseInt

/-- `GMT` at offset 26, or `+0000` there in a string of 31 bytes. -/
def checkTimeZone (dateStr : Bytes) : Outcome DateParseError Unit := do
  let short ← slice dateStr 26 29
  if short = bytes "GMT" then .ok ()
  else if dateStr.length = 31 then do
    let long ← slice dateStr 26 31
    if long = bytes "+0000" then .ok () else .error .unsupportedTimeZone
  else .error .unsupportedTimeZone

def parseRfc1123ToNanos (dateStr : Bytes) : Outcome DateParseError Int :=
  if dateStr.length < 29 ∨ dateStr.length > 31 then .error .invalidLength
  else do
    let dayStr ← slice dateStr 5 7
    let day ← parseField 8 (trim (· == 0x20) dayStr)
    let monthStr ← slice dateStr 8 11
    let month ← parseMonth monthStr
    let yearStr ← slice dateStr 12 16
    let year ← parseField 16 yearStr
    let hourStr ← slice dateStr 17 19
    let hour ← parseField 8 hourStr
    let minuteStr ← slice dateStr 20 22
    let minute ← parseField 8 minuteStr
    let secondStr ← slice dateStr 23 25
    let second ← parseField 8 secondStr
    checkTimeZone dateStr
    let epochSeconds ← datetimeToEpochSeconds year month day hour minute second
    signed 64 (epochSeconds * NS_PER_S)

section Avoids

variable {reason : Panic} (overflow : .overflow ≠ reason)

include overflow

theorem datetimeToEpochSeconds_avoids (year month day hour minute second : Nat) :
    (datetimeToEpochSeconds year month day hour minute second).Avoids reason := by
  have step (bits : Nat) (value : Int) :
      (signed bits value : Outcome DateParseError Int).Avoids reason := signed_avoids overflow _ _
  unfold datetimeToEpochSeconds
  refine .bind (.ite (fun _ => step _ _) fun _ => .ok _) fun _ _ => ?_
  refine .bind (step _ _) fun _ _ => .bind (step _ _) fun _ _ => ?_
  refine .bind (.ite (fun _ => step _ _) fun _ => step _ _) fun _ _ => ?_
  iterate 16 refine .bind (step _ _) fun _ _ => ?_
  exact step _ _

omit overflow in
theorem parseField_avoids (bits : Nat) (field : Bytes) : (parseField bits field).Avoids reason :=
  .mapError (parseInt_avoids _ _ _ _) _

omit overflow in
theorem parseMonth_avoids (monthStr : Bytes) : (parseMonth monthStr).Avoids reason := by
  unfold parseMonth
  split
  · exact .ok _
  · exact .error _

theorem parseRfc1123ToNanos_avoids (bounds : .outOfBounds ≠ reason) (dateStr : Bytes) :
    (parseRfc1123ToNanos dateStr).Avoids reason := by
  have part (start stop : Nat) :
      (slice dateStr start stop : Outcome DateParseError Bytes).Avoids reason :=
    slice_avoids bounds _ _ _
  have zone : (checkTimeZone dateStr).Avoids reason :=
    .bind (part _ _) fun _ _ => .ite (fun _ => .ok _) fun _ =>
      .ite (fun _ => .bind (part _ _) fun _ _ => .ite (fun _ => .ok _) fun _ => .error _)
        fun _ => .error _
  unfold parseRfc1123ToNanos
  refine .ite (fun _ => .error _) fun _ => ?_
  refine .bind (part _ _) fun _ _ => .bind (parseField_avoids _ _) fun _ _ => ?_
  refine .bind (part _ _) fun _ _ => .bind (parseMonth_avoids _) fun _ _ => ?_
  iterate 4
    refine .bind (part _ _) fun _ _ => .bind (parseField_avoids _ _) fun _ _ => ?_
  refine .bind zone fun _ _ => ?_
  refine .bind (datetimeToEpochSeconds_avoids overflow _ _ _ _ _ _) fun _ _ => ?_
  exact signed_avoids overflow _ _

end Avoids

example : parseRfc1123ToNanos (bytes "Sat, 07 Sep 2002 09:42:31 GMT") = .ok 1031391751000000000 := by
  decide +kernel

end Xrss.Datetime
