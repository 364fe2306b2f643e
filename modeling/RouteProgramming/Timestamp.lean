import RouteProgramming.Text.Blank
import RouteProgramming.Text.Decimal

/-!
Moments in time and their text: date and time of day in UTC, with as many of three, six or nine
places as the fraction of the second needs. The calendar repeats every 400 years of 146097 days; a
year is counted from March, so that the day that comes and goes is its last. Reading is lax: numbers
need not be padded, and blanks may stand before numbers, marks and the offset.
-/

namespace RouteProgramming

open Text

/-- Seconds and nanoseconds since the start of 1970. From 10^9 on the nanoseconds lie in a leap second. -/
structure Timestamp where
  seconds : Int := 0
  nanoseconds : Nat := 0
deriving DecidableEq, Repr, Inhabited

namespace Timestamp

/-! ### Calendar -/

structure Date where
  year : Int
  month : Nat
  day : Nat
deriving DecidableEq, Repr

namespace Date

/-- The date a number of days after the start of 1970. -/
def ofDays (days : Int) : Date :=
  let shifted := days + 719468
  let dayOfEra := (shifted % 146097).toNat
  let yearOfEra := (dayOfEra - dayOfEra / 1460 + dayOfEra / 36524 - dayOfEra / 146096) / 365
  let dayOfYear := dayOfEra - (365 * yearOfEra + yearOfEra / 4 - yearOfEra / 100)
  let fromMarch := (5 * dayOfYear + 2) / 153
  let month := if fromMarch < 10 then fromMarch + 3 else fromMarch - 9
  let year := shifted / 146097 * 400 + yearOfEra
  ⟨if month ≤ 2 then year + 1 else year, month, dayOfYear - (153 * fromMarch + 2) / 5 + 1⟩

/-- How many days after the start of 1970 a date is. -/
def toDays (d : Date) : Int :=
  let year := if d.month ≤ 2 then d.year - 1 else d.year
  let yearOfEra := (year % 400).toNat
  let fromMarch := if d.month ≤ 2 then d.month + 9 else d.month - 3
  let dayOfYear := (153 * fromMarch + 2) / 5 + d.day - 1
  let dayOfEra : Nat := yearOfEra * 365 + yearOfEra / 4 - yearOfEra / 100 + dayOfYear
  year / 400 * 146097 + dayOfEra - 719468

/-- Whether the calendar has this date: its day number leads back to it. -/
def isValid (d : Date) : Bool := 1 ≤ d.month && d.month ≤ 12 && ofDays d.toDays == d

end Date

/-! ### Text -/

/-- At least `width` digits. -/
def padded (width n : Nat) : List Char :=
  let digits := Decimal.render n
  List.replicate (width - digits.length) '0' ++ digits

/-- Years outside four digits have a sign. -/
def yearText (year : Int) : List Char :=
  if year < 0 then '-' :: padded 4 year.natAbs
  else if 9999 < year then '+' :: padded 5 year.natAbs
  else padded 4 year.natAbs

def fractionText (nanoseconds : Nat) : List Char :=
  if nanoseconds = 0 then []
  else if nanoseconds % 1000000 = 0 then '.' :: padded 3 (nanoseconds / 1000000)
  else if nanoseconds % 1000 = 0 then '.' :: padded 6 (nanoseconds / 1000)
  else '.' :: padded 9 nanoseconds

def text (t : Timestamp) : String :=
  let date := Date.ofDays (t.seconds / 86400)
  let time := (t.seconds % 86400).toNat
  let second := time % 60 + t.nanoseconds / 1000000000
  String.ofList (yearText date.year ++ '-' :: padded 2 date.month ++ '-' :: padded 2 date.day ++
    'T' :: padded 2 (time / 3600) ++ ':' :: padded 2 (time / 60 % 60) ++ ':' :: padded 2 second ++
    fractionText (t.nanoseconds % 1000000000) ++ ['Z'])

/-! ### Reading -/

/-- A number of one to `width` digits. -/
def number? (width : Nat) (cs : List Char) : Option (Nat × List Char) :=
  let cs := Blank.skip cs
  let digits := (cs.take width).takeWhile Char.isDigit
  (Decimal.digits? digits).map (·, cs.drop digits.length)

/-- All digits that follow at once. -/
def digits? (cs : List Char) : Option (Nat × List Char) :=
  (Decimal.digits? (cs.takeWhile Char.isDigit)).map (·, cs.dropWhile Char.isDigit)

/-- A year has up to four digits, with a sign any number of them. -/
def year? (cs : List Char) : Option (Int × List Char) :=
  match Blank.skip cs with
  | '-' :: cs => (digits? cs).map (fun r => (-(r.1 : Int), r.2))
  | '+' :: cs => (digits? cs).map (fun r => ((r.1 : Int), r.2))
  | cs => (number? 4 cs).map (fun r => ((r.1 : Int), r.2))

/-- Passes over a mark between two numbers. -/
def mark? (mark : Char) (cs : List Char) : Option (List Char) :=
  match Blank.skip cs with
  | c :: rest => if c = mark then some rest else none
  | [] => none

/-- What follows a date before its time: a letter or a space. -/
def separator? : List Char → Option (List Char)
  | 'T' :: cs | 't' :: cs | ' ' :: cs => some cs
  | _ => none

/-- The nanoseconds after a point, if there is one. Places after the ninth do not count. -/
def fraction? : List Char → Option (Nat × List Char)
  | '.' :: cs => do
    let digits := cs.takeWhile Char.isDigit
    let n ← Decimal.digits? (digits.take 9)
    return (n * Nat.pow 10 (9 - digits.length), cs.dropWhile Char.isDigit)
  | cs => some (0, cs)

/-- Exactly two digits. -/
def pair? : List Char → Option (Nat × List Char)
  | a :: b :: cs => (Decimal.digits? [a, b]).map (·, cs)
  | _ => none

/-- Seconds of an offset without its sign. Colons and blanks may stand between hours and minutes. -/
def hoursAndMinutes? (cs : List Char) : Option (Nat × List Char) := do
  let (hours, cs) ← pair? cs
  let (minutes, cs) ← pair? (cs.dropWhile (fun c => c == ':' || Blank.isBlank c))
  if hours < 24 ∧ minutes < 60 then some ((hours * 60 + minutes) * 60, cs) else none

/-- Seconds by which local time is ahead. A minus sign may be the true one, U+2212. -/
def offset? : List Char → Option (Int × List Char)
  | '+' :: cs => (hoursAndMinutes? cs).map (fun r => ((r.1 : Int), r.2))
  | '-' :: cs | '\u2212' :: cs => (hoursAndMinutes? cs).map (fun r => (-(r.1 : Int), r.2))
  | 'Z' :: cs | 'z' :: cs => some (0, cs)
  | u :: t :: c :: cs => if [u, t, c].map Char.toUpper = ['U', 'T', 'C'] then some (0, cs) else none
  | _ => none

/-- The years that have a calendar. -/
def inCalendar (year : Int) : Bool := -262143 ≤ year && year ≤ 262142

/-- Reads a date and time with its offset; a sixtieth second is a leap second. The year must be in the
calendar in local time and in UTC. -/
def parse? (s : String) : Option Timestamp := do
  let (year, cs) ← year? s.toList
  let (month, cs) ← number? 2 (← mark? '-' cs)
  let (day, cs) ← number? 2 (← mark? '-' cs)
  let (hour, cs) ← number? 2 (← separator? cs)
  let (minute, cs) ← number? 2 (← mark? ':' cs)
  let (second, cs) ← number? 2 (← mark? ':' cs)
  let (nanoseconds, cs) ← fraction? cs
  let (ahead, cs) ← offset? (Blank.skip cs)
  let date : Date := ⟨year, month, day⟩
  guard ((Blank.skip cs).isEmpty && inCalendar year && date.isValid && hour < 24 && minute < 60 && second ≤ 60)
  let time : Int := (hour * 60 + minute) * 60 + min second 59
  let seconds := date.toDays * 86400 + time - ahead
  guard (inCalendar (Date.ofDays (seconds / 86400)).year)
  return ⟨seconds, nanoseconds + if second = 60 then 1000000000 else 0⟩

end Timestamp

end RouteProgramming
