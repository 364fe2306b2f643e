import RouteProgramming.Binary64
import RouteProgramming.Text.Decimal

/-!
Decimal text of numbers with 53 binary digits: the fewest places after the point that read back as
the number, and of those digits the nearest.
-/

namespace RouteProgramming.Text

/-- The number `digits / 10 ^ places`. -/
structure Shortest where
  digits : Nat
  places : Nat
deriving DecidableEq, Repr

namespace Shortest

/-- The nearest number with that many places, or else the other neighbour, if it reads back as `q`. -/
def withPlaces? (q : Rat) (places : Nat) : Option Nat :=
  let scaled := q * 10 ^ places
  let near := Binary64.nearestInt scaled
  let far := if scaled < near then near - 1 else near + 1
  let readsBack (digits : Int) : Bool := Binary64.round (digits / 10 ^ places) == q
  ([near, far].find? readsBack).map Int.toNat

/-- Tries one place more at a time. -/
def search (q : Rat) : (fuel places : Nat) → Shortest
  | 0, places => ⟨(Binary64.nearestInt (q * 10 ^ places)).toNat, places⟩
  | fuel + 1, places =>
    match withPlaces? q places with
    | some digits => ⟨digits, places⟩
    | none => search q fuel (places + 1)

/-- A denominator `2 ^ n` needs no more than `n` places. -/
def ofRat (q : Rat) : Shortest := search q q.den.log2 0

/-- Positional, with a point only where places follow it. -/
def text (s : Shortest) : String :=
  let fraction := Decimal.render (s.digits % Nat.pow 10 s.places)
  Decimal.text (s.digits / Nat.pow 10 s.places) ++
    if s.places = 0 then ""
    else String.ofList ('.' :: List.replicate (s.places - fraction.length) '0' ++ fraction)

end Shortest

end RouteProgramming.Text
