/-!
Rounding to 53 binary digits. A number is kept as the rational it is, and an operation on such
numbers is the exact operation followed by `round`, which takes the nearest number of 53 digits and
of two equally near the even one. Exponents have no bounds here.
-/

namespace RouteProgramming.Binary64

/-- The nearest integer; of two the even one. -/
def nearestInt (q : Rat) : Int :=
  let below := q.floor
  if q - below < 1 / 2 then below
  else if 1 / 2 < q - below then below + 1
  else if below % 2 = 0 then below
  else below + 1

/-- The value of the last of the 53 digits of a number other than zero. -/
def unit (q : Rat) : Rat :=
  let exponent : Int := q.num.natAbs.log2 - q.den.log2 - 53
  let fine := Rat.zpow 2 exponent
  if q.abs < 9007199254740992 * fine then fine else 2 * fine

def round (q : Rat) : Rat := if q = 0 then 0 else nearestInt (q / unit q) * unit q

end RouteProgramming.Binary64
