import RouteProgramming.Text.Decimal
import RouteProgramming.Text.Hexadecimal
import RouteProgramming.Toml.Value

/-!
Numbers, dates and times of TOML. Underscores may stand between digits; a decimal number has no
leading zeros; dates and times must exist.
-/

namespace RouteProgramming.Toml.Scalar

open Text

/-- Digits with single underscores between them; gives the digits alone. -/
def underscored (isDigit : Char → Bool) : (afterDigit : Bool) → List Char → Option (List Char)
  | after, [] => if after then some [] else none
  | after, '_' :: cs => if after then underscored isDigit false cs else none
  | _, c :: cs => if isDigit c then (underscored isDigit true cs).map (c :: ·) else none

def natural? (base : Nat) (isDigit : Char → Bool) (cs : List Char) : Option Nat := do
  let digits ← underscored isDigit false cs
  digits.foldlM (fun n c => (Hexadecimal.digitValue? c).map (base * n + ·)) 0

def decimal? (cs : List Char) : Option Nat := (underscored Char.isDigit false cs).bind Decimal.canonical?

/-! ### Integers -/

def integer? : List Char → Option Int
  | '0' :: 'x' :: cs => (natural? 16 Hexadecimal.isDigit cs).map Int.ofNat
  | '0' :: 'o' :: cs => (natural? 8 (fun c => c.isDigit && c.toNat < 56) cs).map Int.ofNat
  | '0' :: 'b' :: cs => (natural? 2 (fun c => c == '0' || c == '1') cs).map Int.ofNat
  | '+' :: cs => (decimal? cs).map Int.ofNat
  | '-' :: cs => (decimal? cs).map (fun n => -Int.ofNat n)
  | cs => (decimal? cs).map Int.ofNat

/-- Integers are kept as far as 128 bits reach. -/
def inRange (n : Int) : Bool := decide (-(Nat.pow 2 127 : Int) ≤ n ∧ n < Nat.pow 2 128)

/-! ### Floats -/

def unsigned : List Char → List Char
  | '+' :: cs | '-' :: cs => cs
  | cs => cs

/-- Digits after the mark `e`. -/
def exponent? : List Char → Option Int
  | '-' :: cs => (natural? 10 Char.isDigit cs).map (fun n => -Int.ofNat n)
  | '+' :: cs => (natural? 10 Char.isDigit cs).map Int.ofNat
  | cs => (natural? 10 Char.isDigit cs).map Int.ofNat

/-- Whether `digits · 10 ^ exponent` rounds to a finite number of 64 bits. -/
def isFinite (digits : Nat) (exponent : Int) : Bool :=
  let limit := Nat.pow 2 1024 - Nat.pow 2 970
  let magnitude := (Decimal.render digits).length + exponent
  if digits = 0 ∨ magnitude < 300 then true
  else if 320 < magnitude then false
  else if 0 ≤ exponent then decide (digits * Nat.pow 10 exponent.toNat < limit)
  else decide (digits < limit * Nat.pow 10 (-exponent).toNat)

/-- The digits after a point, if there is one, and what follows them. -/
def fraction? : List Char → Option (List Char × List Char)
  | '.' :: cs =>
    let part := cs.takeWhile (fun c => c.isDigit || c == '_')
    (underscored Char.isDigit false part).map (·, cs.drop part.length)
  | cs => some ([], cs)

/-- Reads a number with a fraction, an exponent or both, as its digits and the power of ten they count. -/
def scientific? (cs : List Char) : Option (Nat × Int) := do
  let part := cs.takeWhile (fun c => c.isDigit || c == '_')
  let whole ← decimal? part
  let (fraction, rest) ← fraction? (cs.drop part.length)
  let digits := fraction.foldl (fun n c => 10 * n + (c.toNat - 48)) whole
  match rest with
  | 'e' :: more | 'E' :: more => (exponent? more).map (fun e => (digits, e - fraction.length))
  | [] => if fraction.isEmpty then none else some (digits, -fraction.length)
  | _ => none

/-- A number with a fraction, an exponent or both, or one named as infinite or as no number. -/
def float? (cs : List Char) : Option Value :=
  let cs := unsigned cs
  if cs == "inf".toList || cs == "nan".toList then some .float
  else (scientific? cs).map (fun n => if isFinite n.1 n.2 then .float else .outOfRange)

/-! ### Dates and times -/

/-- Two digits. -/
def pair? : List Char → Option (Nat × List Char)
  | a :: b :: cs => (Decimal.digits? [a, b]).map (·, cs)
  | _ => none

def isLeap (year : Nat) : Bool := year % 4 == 0 && (year % 100 != 0 || year % 400 == 0)

def daysIn (year month : Nat) : Nat :=
  if month = 2 then (if isLeap year then 29 else 28) else if month ∈ [4, 6, 9, 11] then 30 else 31

/-- A calendar day at the start of a text, and what follows it. -/
def date? (cs : List Char) : Option (List Char) := do
  let (century, cs) ← pair? cs
  let (year, cs) ← pair? cs
  let '-' :: cs := cs | none
  let (month, cs) ← pair? cs
  let '-' :: cs := cs | none
  let (day, cs) ← pair? cs
  if 1 ≤ month ∧ month ≤ 12 ∧ 1 ≤ day ∧ day ≤ daysIn (100 * century + year) month then some cs else none

/-- A time of day; seconds and their fraction may be left out. -/
def time? (cs : List Char) : Option (List Char) := do
  let (hour, cs) ← pair? cs
  let ':' :: cs := cs | none
  let (minute, cs) ← pair? cs
  if 23 < hour ∨ 59 < minute then none
  match cs with
  | ':' :: cs => do
    let (second, cs) ← pair? cs
    if 60 < second then none
    match cs with
    | '.' :: cs => if (cs.takeWhile Char.isDigit).isEmpty then none else some (cs.dropWhile Char.isDigit)
    | cs => some cs
  | cs => some cs

def isOffset : List Char → Bool
  | [] | ['Z'] | ['z'] => true
  | '+' :: cs | '-' :: cs =>
    match pair? cs with
    | some (hour, ':' :: cs) =>
      match pair? cs with
      | some (minute, []) => hour < 24 && minute < 60
      | _ => false
    | _ => false
  | _ => false

/-- Whether a text is a date, a time, or a date and a time with or without an offset. -/
def isDatetime (cs : List Char) : Bool :=
  match date? cs with
  | some [] => true
  | some (c :: cs) => (c == 'T' || c == 't' || c == ' ') && (time? cs).any isOffset
  | none => time? cs == some []

/-! ### Any scalar -/

def ofChars? (cs : List Char) : Option Value :=
  match integer? cs, float? cs with
  | some n, _ => some (if inRange n then .integer n else .outOfRange)
  | none, some v => some v
  | none, none =>
    if cs == "true".toList then some (.boolean true)
    else if cs == "false".toList then some (.boolean false)
    else if isDatetime cs then some .datetime
    else none

end RouteProgramming.Toml.Scalar
