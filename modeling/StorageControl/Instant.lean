import StorageControl.Decimal.Shortest

/-! Instants on the UTC clock.

An instant is a date of the Gregorian calendar, extended to the years -262143 to 262142,
and a time of day to the nanosecond. The sixtieth second is a leap second. The written
form shows as many groups of three decimals as the nanoseconds need.
-/

set_option autoImplicit false

namespace StorageControl

namespace Calendar

def isLeapYear (year : Int) : Bool :=
  year % 4 == 0 && (year % 100 != 0 || year % 400 == 0)

def monthLength (year : Int) (month : Nat) : Nat :=
  if month = 2 then if isLeapYear year then 29 else 28
  else if month = 4 ∨ month = 6 ∨ month = 9 ∨ month = 11 then 30
  else 31

def firstYear : Int := -262143
def lastYear : Int := 262142

def isDate (year : Int) (month day : Nat) : Bool :=
  firstYear ≤ year && year ≤ lastYear && 1 ≤ month && month ≤ 12 &&
    1 ≤ day && day ≤ monthLength year month

def isTime (hour minute second nano : Nat) : Bool :=
  hour ≤ 23 && minute ≤ 59 && second ≤ 60 && nano < 1000000000

end Calendar

structure Instant where
  year : Int
  month : Nat
  day : Nat
  hour : Nat
  minute : Nat
  second : Nat
  nano : Nat
  isDate : Calendar.isDate year month day = true
  isTime : Calendar.isTime hour minute second nano = true
  deriving DecidableEq, Repr

namespace Instant

def ofParts? (year : Int) (month day hour minute second nano : Nat) : Option Instant :=
  if d : Calendar.isDate year month day = true then
    if t : Calendar.isTime hour minute second nano = true then
      some ⟨year, month, day, hour, minute, second, nano, d, t⟩
    else none
  else none

def dayBefore? (i : Instant) : Option Instant :=
  if 1 < i.day then ofParts? i.year i.month (i.day - 1) i.hour i.minute i.second i.nano
  else if 1 < i.month then
    ofParts? i.year (i.month - 1) (Calendar.monthLength i.year (i.month - 1))
      i.hour i.minute i.second i.nano
  else ofParts? (i.year - 1) 12 31 i.hour i.minute i.second i.nano

def dayAfter? (i : Instant) : Option Instant :=
  if i.day < Calendar.monthLength i.year i.month then
    ofParts? i.year i.month (i.day + 1) i.hour i.minute i.second i.nano
  else if i.month < 12 then ofParts? i.year (i.month + 1) 1 i.hour i.minute i.second i.nano
  else ofParts? (i.year + 1) 1 1 i.hour i.minute i.second i.nano

def atMinute? (i : Instant) (minutes : Nat) : Option Instant :=
  ofParts? i.year i.month i.day (minutes / 60) (minutes % 60) i.second i.nano

/-- The instant of a clock that runs `offset` minutes ahead of UTC, less than a day. -/
def fromOffset? (i : Instant) (offset : Int) : Option Instant :=
  let minutes : Int := (i.hour * 60 + i.minute : Nat) - offset
  if minutes < 0 then do
    let day ← i.dayBefore?
    day.atMinute? (minutes + 1440).toNat
  else if 1440 ≤ minutes then do
    let day ← i.dayAfter?
    day.atMinute? (minutes - 1440).toNat
  else i.atMinute? minutes.toNat

/-- The instant that stands for an unset time: the first of the year 1. -/
def unset : Instant := ⟨1, 1, 1, 0, 0, 0, 0, by decide, by decide⟩

def padded (width n : Nat) : List Char := Decimal.padLeft width (Decimal.digitTexts n)

/-- A year: four digits, with a sign outside 0 to 9999. -/
def yearText (year : Int) : List Char :=
  if 0 ≤ year ∧ year ≤ 9999 then padded 4 year.toNat
  else (if year < 0 then '-' else '+') :: padded 4 year.natAbs

def decimalsText (nano : Nat) : List Char :=
  if nano = 0 then []
  else if nano % 1000000 = 0 then '.' :: padded 3 (nano / 1000000)
  else if nano % 1000 = 0 then '.' :: padded 6 (nano / 1000)
  else '.' :: padded 9 nano

def clockText (i : Instant) : List Char :=
  yearText i.year ++ '-' :: padded 2 i.month ++ '-' :: padded 2 i.day ++ 'T' ::
    padded 2 i.hour ++ ':' :: padded 2 i.minute ++ ':' :: padded 2 i.second ++ decimalsText i.nano

def text (i : Instant) : String := String.ofList (i.clockText ++ ['Z'])

def display (i : Instant) : String := String.ofList (i.clockText ++ "+00:00".toList)

end Instant

end StorageControl
