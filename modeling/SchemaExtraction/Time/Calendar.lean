/-!
# Calendar

Dates of the Gregorian calendar, extended in both directions, counted in days. Both directions
of the count start the year in March, so that a leap day is the last day of its year.
-/

namespace SchemaExtraction.Time

/-- Whether a year has a 29th of February. -/
def isLeap (year : Int) : Bool := year % 4 = 0 && (year % 100 ≠ 0 || year % 400 = 0)

/-- The number of days of a month, counted from one. -/
def daysInMonth (year : Int) (month : Nat) : Nat :=
  match month with
  | 1 | 3 | 5 | 7 | 8 | 10 | 12 => 31
  | 4 | 6 | 9 | 11 => 30
  | 2 => if isLeap year then 29 else 28
  | _ => 0

/-- A date: year, month and day, the latter two counted from one. -/
structure Date where
  year : Int
  month : Nat
  day : Nat
deriving DecidableEq, Repr

namespace Date

/-- Whether the month and the day exist. -/
def valid (d : Date) : Bool := 1 ≤ d.day && d.day ≤ daysInMonth d.year d.month

/-- The days from the first of March of year zero to the date, the year being counted from
    March so that a leap day ends it. -/
def daysFromMarch (d : Date) : Int :=
  let y : Int := if d.month ≤ 2 then d.year - 1 else d.year
  let m : Int := if d.month ≤ 2 then d.month + 9 else d.month - 3
  365 * y + y / 4 - y / 100 + y / 400 + (153 * m + 2) / 5 + d.day - 1

/-- The days from the first of March of year zero to the first of January 1970. -/
def epoch : Int := 719468

/-- The days from the first of January 1970 to the date. -/
def dayNumber (d : Date) : Int := d.daysFromMarch - epoch

/-- The date a number of days after the first of January 1970. -/
def ofDayNumber (n : Int) : Date :=
  let z := n + epoch
  let era := z / 146097
  let doe := z % 146097
  let yoe := (doe - doe / 1460 + doe / 36524 - doe / 146096) / 365
  let doy := doe - (365 * yoe + yoe / 4 - yoe / 100)
  let mp := (5 * doy + 2) / 153
  let month := if mp < 10 then mp + 3 else mp - 9
  let year := yoe + era * 400
  ⟨if month ≤ 2 then year + 1 else year, month.toNat, (doy - (153 * mp + 2) / 5 + 1).toNat⟩

end Date
end SchemaExtraction.Time
