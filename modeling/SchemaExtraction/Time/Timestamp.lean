import SchemaExtraction.Number.Digits
import SchemaExtraction.Text.Blank
import SchemaExtraction.Time.Calendar

/-!
# Timestamps

Instants to the second, read from RFC 3339 text, from plain dates and from milliseconds since
1970, and written as RFC 3339 text in universal time. A leap second is an instant of its own
after the 59th second of any minute.
-/

namespace SchemaExtraction.Time

/-- An instant in universal time: the date, the second of the day, and whether it is the leap
    second that follows it. -/
structure Timestamp where
  date : Date
  second : Nat
  leap : Bool
deriving DecidableEq, Repr

/-- The first and the last year of the calendar. -/
def firstYear : Int := -262143

@[inherit_doc firstYear]
def lastYear : Int := 262142

/-- Whether a date exists and lies in the range of the calendar. -/
def inCalendar (d : Date) : Bool := d.valid && firstYear ≤ d.year && d.year ≤ lastYear

namespace Timestamp

/-- The instant a number of seconds after the start of 1970. -/
def ofSeconds (seconds : Int) (leap : Bool) : Timestamp :=
  ⟨Date.ofDayNumber (seconds / 86400), (seconds % 86400).toNat, leap⟩

/-- The instant a number of milliseconds after the start of 1970, if the calendar has it. -/
def ofMilliseconds? (millis : Int) : Option Timestamp :=
  let t := ofSeconds (millis / 1000) false
  if inCalendar t.date then some t else none

/-- The start of a day. -/
def ofDate (d : Date) : Timestamp := ⟨d, 0, false⟩

/-! ## Writing -/

/-- A number with at least `width` digits. -/
def padded (width n : Nat) : List Char :=
  let ds := decimalDigits n
  List.replicate (width - ds.length) '0' ++ ds

/-- A year: four digits, or with a sign and at least four digits outside `0 … 9999`. -/
def writeYear (year : Int) : List Char :=
  if 0 ≤ year ∧ year ≤ 9999 then padded 4 year.natAbs
  else (if year < 0 then '-' else '+') :: padded 4 year.natAbs

/-- RFC 3339 text in universal time, to the second. -/
def write (t : Timestamp) : List Char :=
  writeYear t.date.year ++ '-' :: padded 2 t.date.month ++ '-' :: padded 2 t.date.day ++
    'T' :: padded 2 (t.second / 3600) ++ ':' :: padded 2 (t.second / 60 % 60) ++
    ':' :: padded 2 (t.second % 60 + if t.leap then 1 else 0) ++ ['Z']

end Timestamp

/-! ## Reading -/

/-- Exactly `n` digits. -/
def takeDigits? (n : Nat) (cs : List Char) : Option (Nat × List Char) :=
  let ds := cs.take n
  if ds.length = n && ds.all Char.isDigit then some (digitsValue ds, cs.drop n) else none

/-- The given character. -/
def takeChar? (c : Char) : List Char → Option (List Char)
  | [] => none
  | d :: cs => if d = c then some cs else none

/-- A decimal fraction of a second, if there is one; its digits do not count. -/
def skipFraction? : List Char → Option (List Char)
  | '.' :: cs =>
    if (cs.takeWhile Char.isDigit).isEmpty then none else some (cs.dropWhile Char.isDigit)
  | cs => some cs

/-- An offset from universal time in minutes: `Z`, or a sign, hours and minutes. The sign may also
    be the minus of mathematics. -/
def takeOffset? : List Char → Option (Int × List Char)
  | [] => none
  | c :: cs =>
    if c = 'Z' ∨ c = 'z' then some (0, cs)
    else if c = '+' ∨ c = '-' ∨ c = '−' then do
      let (h, cs) ← takeDigits? 2 cs
      let (m, cs) ← takeDigits? 2 (← takeChar? ':' cs)
      if h < 24 ∧ m < 60 then
        let minutes : Int := h * 60 + m
        return (if c = '+' then minutes else -minutes, cs)
      else none
    else none

/-- Reads RFC 3339 text: a date with a year of four digits, a time of day and an offset. -/
def readTimestamp (cs : List Char) : Option Timestamp := do
  let (year, cs) ← takeDigits? 4 cs
  let (month, cs) ← takeDigits? 2 (← takeChar? '-' cs)
  let (day, cs) ← takeDigits? 2 (← takeChar? '-' cs)
  match cs with
  | [] => none
  | c :: cs =>
    if c = 'T' ∨ c = 't' ∨ c = ' ' then do
      let (hour, cs) ← takeDigits? 2 cs
      let (minute, cs) ← takeDigits? 2 (← takeChar? ':' cs)
      let (second, cs) ← takeDigits? 2 (← takeChar? ':' cs)
      let (offset, rest) ← takeOffset? (← skipFraction? cs)
      let date : Date := ⟨year, month, day⟩
      if date.valid ∧ hour < 24 ∧ minute < 60 ∧ second ≤ 60 ∧ rest.isEmpty then
        let seconds : Int := date.dayNumber * 86400 + hour * 3600 + minute * 60 + min second 59
        return Timestamp.ofSeconds (seconds - offset * 60) (second = 60)
      else none
    else none

/-- A year: a sign and digits, or up to four digits; blanks may come first. -/
def takeYear? (cs : List Char) : Option (Int × List Char) :=
  match cs.dropWhile Text.isBlank with
  | '-' :: cs =>
    (readDigits (cs.takeWhile Char.isDigit)).map fun n => (-n, cs.dropWhile Char.isDigit)
  | '+' :: cs =>
    (readDigits (cs.takeWhile Char.isDigit)).map fun n => (n, cs.dropWhile Char.isDigit)
  | cs =>
    let ds := (cs.takeWhile Char.isDigit).take 4
    (readDigits ds).map fun n => (n, cs.drop ds.length)

/-- A month or a day: one or two digits; blanks may come first. -/
def takeShort? (cs : List Char) : Option (Nat × List Char) :=
  let cs := cs.dropWhile Text.isBlank
  let ds := (cs.takeWhile Char.isDigit).take 2
  (readDigits ds).map fun n => (n, cs.drop ds.length)

/-- Reads a plain date: year, month and day with hyphens between them. -/
def readDate (cs : List Char) : Option Date := do
  let (year, cs) ← takeYear? cs
  let (month, cs) ← takeShort? (← takeChar? '-' cs)
  let (day, rest) ← takeShort? (← takeChar? '-' cs)
  let date : Date := ⟨year, month, day⟩
  if rest.isEmpty ∧ inCalendar date then some date else none

end SchemaExtraction.Time
