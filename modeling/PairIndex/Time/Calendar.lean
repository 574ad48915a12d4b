import PairIndex.Number.Decimal
import PairIndex.Number.Power

/-! Moments of the calendar, from the year 1 to the year 9999, counted in seconds from the start of 1970, and their
text. -/

namespace PairIndex

def secondsPerDay : Int :=
  86400

/-- A day of the calendar, extended to all years. -/
structure Date where
  year : Int
  month : Nat
  day : Nat
  deriving DecidableEq, Repr

/-- The date that lies a number of days after the first of January 1970. Years are taken to start in March, so that a
leap day ends one; four centuries have 146097 days. -/
def Date.ofDays (days : Int) : Date :=
  let shifted := days + 719468
  let era := shifted.fdiv 146097
  let dayOfEra := (shifted - era * 146097).toNat
  let yearOfEra := (dayOfEra - dayOfEra / 1460 + dayOfEra / 36524 - dayOfEra / 146096) / 365
  let dayOfYear := dayOfEra - (365 * yearOfEra + yearOfEra / 4 - yearOfEra / 100)
  let monthFromMarch := (5 * dayOfYear + 2) / 153
  let day := dayOfYear - (153 * monthFromMarch + 2) / 5 + 1
  let month := if monthFromMarch < 10 then monthFromMarch + 3 else monthFromMarch - 9
  let year := (yearOfEra : Int) + era * 400
  ⟨if month ≤ 2 then year + 1 else year, month, day⟩

/-- A second of a year between 1 and 9999. -/
structure Moment where
  /-- Seconds after the start of 1970. -/
  seconds : Int
  first_le : -62135596800 ≤ seconds
  le_last : seconds ≤ 253402300799
  deriving DecidableEq, Repr

namespace Moment

/-- Why a number of seconds names no moment. -/
inductive RangeError where
  /-- The year, as a 32-bit word, is not one of the calendar. -/
  | year (year : Int)
  /-- The year does not fit a 32-bit word. -/
  | calendar
  /-- The number of seconds does not fit a 64-bit word. -/
  | clock
  deriving DecidableEq, Repr

def RangeError.message : RangeError → String
  | .year y => "year " ++ Number.integerText y ++ " is out of range"
  | .calendar => "[Errno 75] Value too large for defined data type"
  | .clock => "timestamp out of range for platform time_t"

/-- Why a number of seconds outside the calendar is refused. -/
def rangeError (seconds : Int) : RangeError :=
  if seconds < -(Number.twoTo 63 : Int) ∨ Number.twoTo 63 ≤ seconds then .clock
  else if seconds < -67768040609740800 ∨ 67768036191676799 < seconds then .calendar
  else .year ((Date.ofDays (seconds.fdiv secondsPerDay)).year.bmod (Number.twoTo 32))

/-- The moment a number of seconds after the start of 1970. -/
def ofSeconds (seconds : Int) : Except RangeError Moment :=
  if h : -62135596800 ≤ seconds ∧ seconds ≤ 253402300799 then .ok ⟨seconds, h.1, h.2⟩
  else .error (rangeError seconds)

/-- The moment a number of seconds after the start of 1970, if there is one. -/
def ofSeconds? (seconds : Int) : Option Moment :=
  (ofSeconds seconds).toOption

/-- Year, month and day, a `T`, and hour, minute and second. -/
def toText (m : Moment) : String :=
  let days := m.seconds.fdiv secondsPerDay
  let date := Date.ofDays days
  let inDay := (m.seconds - days * secondsPerDay).toNat
  String.ofList
    (Number.paddedChars 4 date.year.toNat ++ '-' :: Number.paddedChars 2 date.month ++
      '-' :: Number.paddedChars 2 date.day ++ 'T' :: Number.paddedChars 2 (inDay / 3600) ++
      ':' :: Number.paddedChars 2 (inDay / 60 % 60) ++ ':' :: Number.paddedChars 2 (inDay % 60))

end Moment
end PairIndex
