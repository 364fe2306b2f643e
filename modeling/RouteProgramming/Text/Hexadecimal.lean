/-!
Lower-case hexadecimal text of natural numbers, without leading zeros when written and with either
case when read.
-/

namespace RouteProgramming.Text.Hexadecimal

def digit (n : Nat) : Char :=
  if n % 16 < 10 then Char.ofNat (48 + n % 16) else Char.ofNat (87 + n % 16)

def digitValue? (c : Char) : Option Nat :=
  if 48 ≤ c.toNat ∧ c.toNat ≤ 57 then some (c.toNat - 48)
  else if 97 ≤ c.toNat ∧ c.toNat ≤ 102 then some (c.toNat - 87)
  else if 65 ≤ c.toNat ∧ c.toNat ≤ 70 then some (c.toNat - 55)
  else none

def isDigit (c : Char) : Bool := (digitValue? c).isSome

def render (n : Nat) : List Char :=
  if n < 16 then [digit n] else render (n / 16) ++ [digit n]
termination_by n

/-- The number written by a non-empty run of digits. -/
def digits? : List Char → Option Nat
  | [] => none
  | cs => cs.foldlM (fun n c => (digitValue? c).map (16 * n + ·)) 0

end RouteProgramming.Text.Hexadecimal
