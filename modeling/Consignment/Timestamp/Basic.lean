import Consignment.Timestamp.Fault

/-! Points in time as calendar fields in UTC. Only whole minutes are ever added, so nothing needs a
count of days, and a leap second stays the sixtieth second of its minute. -/
namespace Consignment

namespace Calendar

def isLeap (year : Int) : Bool := year % 4 = 0 && (year % 100 ≠ 0 || year % 400 = 0)

def daysIn (year : Int) (month : Nat) : Nat :=
  if month = 2 then if isLeap year then 29 else 28
  else if month = 4 ∨ month = 6 ∨ month = 9 ∨ month = 11 then 30
  else 31

def firstYear : Int := -262143
def lastYear : Int := 262142

end Calendar

structure Date where
  year : Int
  month : Nat
  day : Nat
deriving DecidableEq, Repr

def Date.exists (d : Date) : Bool :=
  Calendar.firstYear ≤ d.year && d.year ≤ Calendar.lastYear
    && 1 ≤ d.month && d.month ≤ 12 && 1 ≤ d.day && d.day ≤ Calendar.daysIn d.year d.month

def Date.next (d : Date) : Date :=
  if d.day < Calendar.daysIn d.year d.month then { d with day := d.day + 1 }
  else if d.month < 12 then ⟨d.year, d.month + 1, 1⟩
  else ⟨d.year + 1, 1, 1⟩

def Date.previous (d : Date) : Date :=
  if 1 < d.day then { d with day := d.day - 1 }
  else if 1 < d.month then ⟨d.year, d.month - 1, Calendar.daysIn d.year (d.month - 1)⟩
  else ⟨d.year - 1, 12, 31⟩

/-- `second` is sixty in a leap second. -/
structure Clock where
  hour : Nat
  minute : Nat
  second : Nat
  nanosecond : Nat
deriving DecidableEq, Repr

def Clock.exists (c : Clock) : Bool :=
  c.hour < 24 && c.minute < 60 && c.second ≤ 60 && c.nanosecond < 1000000000

structure Timestamp where
  date : Date
  clock : Clock
  valid : date.exists && clock.exists
deriving DecidableEq

namespace Timestamp

def padded (width n : Nat) : String :=
  let digits := Nat.repr n
  String.ofList (List.replicate (width - digits.length) '0') ++ digits

/-- Years of four digits stand alone, all others carry their sign. -/
def yearText (year : Int) : String :=
  if 0 ≤ year ∧ year ≤ 9999 then padded 4 year.toNat
  else (if year < 0 then "-" else "+") ++ padded 4 year.natAbs

/-- As many groups of three digits as the fraction needs. -/
def fractionText (nanosecond : Nat) : String :=
  if nanosecond = 0 then ""
  else if nanosecond % 1000000 = 0 then "." ++ padded 3 (nanosecond / 1000000)
  else if nanosecond % 1000 = 0 then "." ++ padded 6 (nanosecond / 1000)
  else "." ++ padded 9 nanosecond

def text (t : Timestamp) : String :=
  yearText t.date.year ++ "-" ++ padded 2 t.date.month ++ "-" ++ padded 2 t.date.day ++ "T"
    ++ padded 2 t.clock.hour ++ ":" ++ padded 2 t.clock.minute ++ ":" ++ padded 2 t.clock.second
    ++ fractionText t.clock.nanosecond ++ "Z"

/-- The same moment in UTC, for a date and clock that run `offset` minutes ahead of it. Less than a
day is moved, so the date changes by at most one. -/
def shifted (date : Date) (clock : Clock) (offset : Int) : Date × Clock :=
  let minute : Int := clock.hour * 60 + clock.minute - offset
  let moved (date : Date) (minute : Int) : Date × Clock :=
    (date, { clock with hour := minute.toNat / 60, minute := minute.toNat % 60 })
  if minute < 0 then moved date.previous (minute + 1440)
  else if 1440 ≤ minute then moved date.next (minute - 1440)
  else moved date minute

end Timestamp
end Consignment
