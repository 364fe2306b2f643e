import RouteProgramming.Text.Decimal

/-!
Election ids: 128-bit numbers in two words. The client that presents the highest one is primary.
-/

namespace RouteProgramming

structure ElectionId where
  high : UInt64
  low : UInt64
deriving DecidableEq, Repr

namespace ElectionId

def value (e : ElectionId) : Nat := e.high.toNat * 18446744073709551616 + e.low.toNat

def ofValue (n : Nat) : ElectionId :=
  ⟨UInt64.ofNat (n / 18446744073709551616), UInt64.ofNat n⟩

instance : LT ElectionId := ⟨fun a b => a.value < b.value⟩

instance : LE ElectionId := ⟨fun a b => a.value ≤ b.value⟩

instance (a b : ElectionId) : Decidable (a < b) := inferInstanceAs (Decidable (a.value < b.value))

instance (a b : ElectionId) : Decidable (a ≤ b) := inferInstanceAs (Decidable (a.value ≤ b.value))

instance : Ord ElectionId := ⟨compareOn value⟩

instance : Max ElectionId := ⟨fun a b => if a ≤ b then b else a⟩

def isZero (e : ElectionId) : Bool := e.high == 0 && e.low == 0

/-- The next id, with zero after the highest. -/
def increment (e : ElectionId) : ElectionId := ofValue (e.value + 1)

def text (e : ElectionId) : String := s!"{e.high.toNat}:{e.low.toNat}"

instance : ToString ElectionId := ⟨text⟩

end ElectionId

end RouteProgramming
