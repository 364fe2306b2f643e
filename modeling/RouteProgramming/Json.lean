import RouteProgramming.Text.Decimal
import RouteProgramming.Text.Hexadecimal

/-!
JSON values and their text, on one line (`compact`) or indented by two spaces a level (`pretty`).
A number that is not written as an integer is kept as decimal digits with a count of places.
-/

namespace RouteProgramming

inductive Json where
  | null
  | bool (b : Bool)
  | int (n : Int)
  /-- The number `digits / 10 ^ places`, written with a decimal point. -/
  | decimal (digits : Int) (places : Nat)
  | str (s : String)
  | arr (items : List Json)
  | obj (fields : List (String × Json))
deriving Inhabited

namespace Json

/-! ### Text -/

def escapeChar (c : Char) : List Char :=
  match c with
  | '"' => ['\\', '"']
  | '\\' => ['\\', '\\']
  | '\n' => ['\\', 'n']
  | '\r' => ['\\', 'r']
  | '\t' => ['\\', 't']
  | '\x08' => ['\\', 'b']
  | '\x0c' => ['\\', 'f']
  | c =>
    if c.toNat < 0x20 then
      ['\\', 'u', '0', '0', Text.Hexadecimal.digit (c.toNat / 16), Text.Hexadecimal.digit c.toNat]
    else [c]

def quote (s : String) : String := String.ofList ('"' :: s.toList.flatMap escapeChar ++ ['"'])

def intText : Int → String
  | .ofNat n => Text.Decimal.text n
  | .negSucc n => "-" ++ Text.Decimal.text (n + 1)

/-- At least one digit stands on either side of the point. -/
def decimalText (digits : Int) (places : Nat) : String :=
  let whole := Text.Decimal.render (digits.natAbs / Nat.pow 10 places)
  let rest := Text.Decimal.render (digits.natAbs % Nat.pow 10 places)
  let fraction := if places = 0 then ['0'] else List.replicate (places - rest.length) '0' ++ rest
  (if digits < 0 then "-" else "") ++ String.ofList (whole ++ '.' :: fraction)

mutual

def compact : Json → String
  | .null => "null"
  | .bool b => if b then "true" else "false"
  | .int n => intText n
  | .decimal d p => decimalText d p
  | .str s => quote s
  | .arr xs => "[" ++ ",".intercalate (compactItems xs) ++ "]"
  | .obj fs => "\x7b" ++ ",".intercalate (compactFields fs) ++ "\x7d"

def compactItems : List Json → List String
  | [] => []
  | x :: xs => compact x :: compactItems xs

def compactFields : List (String × Json) → List String
  | [] => []
  | (k, x) :: fs => (quote k ++ ":" ++ compact x) :: compactFields fs

end

def indent (depth : Nat) : String := String.ofList ('\n' :: List.replicate (2 * depth) ' ')

/-- Lays out the parts of an array or object one level below `depth`; without parts it stays closed. -/
def enclose (opening closing : String) (depth : Nat) : List String → String
  | [] => opening ++ closing
  | parts =>
    opening ++ indent (depth + 1) ++ ("," ++ indent (depth + 1)).intercalate parts ++ indent depth ++ closing

mutual

def prettyAt (depth : Nat) : Json → String
  | .null => "null"
  | .bool b => if b then "true" else "false"
  | .int n => intText n
  | .decimal d p => decimalText d p
  | .str s => quote s
  | .arr xs => enclose "[" "]" depth (prettyItems (depth + 1) xs)
  | .obj fs => enclose "\x7b" "\x7d" depth (prettyFields (depth + 1) fs)

def prettyItems (depth : Nat) : List Json → List String
  | [] => []
  | x :: xs => prettyAt depth x :: prettyItems depth xs

def prettyFields (depth : Nat) : List (String × Json) → List String
  | [] => []
  | (k, x) :: fs => (quote k ++ ": " ++ prettyAt depth x) :: prettyFields depth fs

end

def pretty (j : Json) : String := prettyAt 0 j

/-! ### Parts -/

/-- The value of a field; a value that is no object has no fields. -/
def field? (name : String) : Json → Option Json
  | .obj fs => fs.lookup name
  | _ => none

mutual

/-- The value without the named fields, at whatever depth they stand. -/
def without (names : List String) : Json → Json
  | .arr xs => .arr (withoutItems names xs)
  | .obj fs => .obj (withoutFields names fs)
  | j => j

def withoutItems (names : List String) : List Json → List Json
  | [] => []
  | x :: xs => without names x :: withoutItems names xs

def withoutFields (names : List String) : List (String × Json) → List (String × Json)
  | [] => []
  | (k, x) :: fs => if names.contains k then withoutFields names fs else (k, without names x) :: withoutFields names fs

end

end Json

end RouteProgramming
