import RouteProgramming.Table

/-!
Tables whose rows count the entries that hold them. A row must exist before it can be held, and a
held row cannot be removed. Counts are natural numbers. A counter of 32 bits is the same as long as
nothing has 2 ^ 32 holders: in the tables of a RIB that have room for fewer than 2 ^ 32 - 1 entries
(`Proofs.Rib.History`), and in tables by themselves for fewer than 2 ^ 32 calls (`Proofs.Aft.Stranded`).
-/

namespace RouteProgramming

open Std

/-- A value and the number of its holders. -/
structure Held (ν : Type) where
  value : ν
  holders : Nat := 0
deriving DecidableEq, Repr

abbrev HeldTable (κ ν : Type) [Ord κ] := Table κ (Held ν)

inductive HoldError where
  | absent
  | notHeld
  | stillHeld (holders : Nat)
deriving DecidableEq, Repr

namespace HoldError

def message : HoldError → String
  | .absent => "key not found"
  | .notHeld => "reference count underflow"
  | .stillHeld n => s!"entry still referenced ({n} references)"

end HoldError

namespace HeldTable

variable {κ ν : Type} [Ord κ]

def holders? (t : HeldTable κ ν) (k : κ) : Option Nat := (t.get? k).map (·.holders)

/-- Counts one more holder of `k`. -/
def hold (t : HeldTable κ ν) (k : κ) : Except HoldError (HeldTable κ ν) :=
  match holders? t k with
  | none => .error .absent
  | some n => .ok (t.modify k (fun h => ⟨h.value, n + 1⟩))

/-- Counts one holder of `k` less. -/
def release (t : HeldTable κ ν) (k : κ) : Except HoldError (HeldTable κ ν) :=
  match holders? t k with
  | none => .error .absent
  | some 0 => .error .notHeld
  | some (n + 1) => .ok (t.modify k (fun h => ⟨h.value, n⟩))

/-- Takes out `k`, which nothing may hold. -/
def remove (t : HeldTable κ ν) (k : κ) : Except HoldError (ν × HeldTable κ ν) :=
  match t.get? k with
  | none => .error .absent
  | some ⟨v, 0⟩ => .ok (v, t.erase k)
  | some ⟨_, n + 1⟩ => .error (.stillHeld (n + 1))

end HeldTable

end RouteProgramming
