/-!
Decimal text of natural numbers. `render n` has no leading zero; `canonical?` reads exactly that
form, `unsigned` reads the laxer form with a plus sign and leading zeros, below a bound.
-/

namespace RouteProgramming.Text.Decimal

def digit (n : Nat) : Char := Char.ofNat (48 + n % 10)

def digitValue? (c : Char) : Option Nat :=
  if 48 ≤ c.toNat ∧ c.toNat ≤ 57 then some (c.toNat - 48) else none

/-- The digits of `n`, most significant first; `0` has one digit. -/
def render (n : Nat) : List Char :=
  if n < 10 then [digit n] else render (n / 10) ++ [digit n]
termination_by n

/-- The number written by a non-empty run of digits. -/
def digits? : List Char → Option Nat
  | [] => none
  | cs => cs.foldlM (fun n c => (digitValue? c).map (10 * n + ·)) 0

/-- Reads digits without a leading zero, the form that `render` writes. -/
def canonical? : List Char → Option Nat
  | ['0'] => some 0
  | '0' :: _ => none
  | cs => digits? cs

/-- Why a text is not an unsigned number below a bound. -/
inductive Malformed where
  | blank | badDigit | tooLarge
deriving DecidableEq, Repr

namespace Malformed

def message : Malformed → String
  | .blank => "cannot parse integer from empty string"
  | .badDigit => "invalid digit found in string"
  | .tooLarge => "number too large to fit in target type"

end Malformed

/-- Digits are taken one at a time, so the first digit that is none or that passes the bound decides. -/
def accumulate (bound : Nat) : Nat → List Char → Except Malformed Nat
  | n, [] => .ok n
  | n, c :: cs =>
    match digitValue? c with
    | none => .error .badDigit
    | some d => if 10 * n + d < bound then accumulate bound (10 * n + d) cs else .error .tooLarge

/-- Reads a number below `bound`: an optional plus sign, then digits, leading zeros allowed. -/
def unsigned (bound : Nat) : List Char → Except Malformed Nat
  | [] => .error .blank
  | ['+'] => .error .badDigit
  | '+' :: cs => accumulate bound 0 cs
  | cs => accumulate bound 0 cs

def text (n : Nat) : String := String.ofList (render n)

end RouteProgramming.Text.Decimal
