import MusicLibrary.Word
import MusicLibrary.Json.Fields
import MusicLibrary.Text.Numeral

/-! Points in time, in milliseconds since the start of 1970, and their calendar dates. The
calendar reaches from the year -262143 to the year 262142; a time outside it has no date. -/

namespace MusicLibrary

/-- Milliseconds since the start of 1970, universal time. -/
structure Timestamp where
  ms : Int64
  deriving DecidableEq, Inhabited

/-- A day of the proleptic Gregorian calendar. -/
structure CalendarDate where
  year : Int
  month : Nat
  day : Nat
  deriving DecidableEq

def msPerDay : Int := 86400000

/-- Days from the start of 1970 to a day. Years run from March, so a leap day comes last, and
every 400 years have the same count of days. -/
def CalendarDate.dayNumber (date : CalendarDate) : Int :=
  let year := if date.month ≤ 2 then date.year - 1 else date.year
  let month : Int := if date.month ≤ 2 then date.month + 9 else date.month - 3
  let era := year.fdiv 400
  let yearOfEra := year - era * 400
  let dayOfYear := (153 * month + 2) / 5 + date.day - 1
  let dayOfEra := yearOfEra * 365 + yearOfEra / 4 - yearOfEra / 100 + dayOfYear
  era * 146097 + dayOfEra - 719468

def CalendarDate.ofDayNumber (days : Int) : CalendarDate :=
  let shifted := days + 719468
  let era := shifted.fdiv 146097
  let dayOfEra := shifted - era * 146097
  let yearOfEra := (dayOfEra - dayOfEra / 1460 + dayOfEra / 36524 - dayOfEra / 146096) / 365
  let dayOfYear := dayOfEra - (365 * yearOfEra + yearOfEra / 4 - yearOfEra / 100)
  let month := (5 * dayOfYear + 2) / 153
  let day := dayOfYear - (153 * month + 2) / 5 + 1
  let civil := if month < 10 then month + 3 else month - 9
  ⟨yearOfEra + era * 400 + (if civil ≤ 2 then 1 else 0), civil.toNat, day.toNat⟩

namespace Timestamp

/-- The first and the last millisecond that have a date. -/
def calendarRange : Int × Int := (-8334601228800000, 8210266876799999)

/-- The time a count of seconds after the start of 1970, stopped at the ends of the range. -/
def ofUnixSeconds (seconds : Int64) : Timestamp := ⟨saturatingMul seconds 1000⟩

/-- Whole seconds since the start of 1970, rounded down. -/
def unixSeconds (t : Timestamp) : Int := t.ms.toInt.fdiv 1000

def addMillis (t : Timestamp) (ms : Int64) : Timestamp := ⟨saturatingAdd t.ms ms⟩

def isInCalendar (t : Timestamp) : Bool :=
  calendarRange.1 ≤ t.ms.toInt && t.ms.toInt ≤ calendarRange.2

/-- A year has four digits at least, and a sign when it lies outside 0 to 9999. -/
def yearChars (year : Int) : List Char :=
  let digits := Text.paddedDecimal 4 year.natAbs
  if year < 0 then '-' :: digits else if 9999 < year then '+' :: digits else digits

/-- Date and time of day with a fixed offset; milliseconds only when they are not zero. -/
def dateTimeChars (t : Timestamp) : List Char :=
  let days := t.ms.toInt.fdiv msPerDay
  let rest := (t.ms.toInt - days * msPerDay).toNat
  let date := CalendarDate.ofDayNumber days
  let two := Text.paddedDecimal 2
  let fraction := if rest % 1000 = 0 then [] else '.' :: Text.paddedDecimal 3 (rest % 1000)
  yearChars date.year ++ '-' :: two date.month ++ '-' :: two date.day ++
    'T' :: two (rest / 3600000) ++ ':' :: two (rest / 60000 % 60) ++
    ':' :: two (rest / 1000 % 60) ++ fraction ++ "+00:00".toList

/-- The written form: date and time, or the bare milliseconds outside the calendar. -/
def display (t : Timestamp) : String :=
  if t.isInCalendar then String.ofList t.dateTimeChars else toString t.ms.toInt ++ "ms"

def endOfYear? (year : Int64) : Option Timestamp :=
  if -262143 ≤ year.toInt ∧ year.toInt ≤ 262142 then
    some ⟨Int64.ofInt ((CalendarDate.dayNumber ⟨year.toInt, 12, 31⟩ + 1) * msPerDay - 1)⟩
  else none

def toJson (t : Timestamp) : Json := .ofInt64 t.ms

def ofJson? (j : Json) : Option Timestamp := j.int64?.map Timestamp.mk

@[simp] theorem ofJson?_toJson (t : Timestamp) : ofJson? t.toJson = some t := by
  simp [ofJson?, toJson]

example : CalendarDate.ofDayNumber (-1) = ⟨1969, 12, 31⟩ := by decide

example : endOfYear? 1970 = some ⟨31535999999⟩ := by decide

/-- The calendar ends with the last day of its last year. -/
example : (CalendarDate.dayNumber ⟨262142, 12, 31⟩ + 1) * msPerDay - 1 = calendarRange.2 := by
  decide

end Timestamp

end MusicLibrary
