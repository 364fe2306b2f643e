/-!
Blanks: the characters with the property `White_Space` of Unicode. They include all that count as
white space in ASCII, and neither joiners nor spaces of no width.
-/

namespace RouteProgramming.Text.Blank

/-- First and last code point of each range of blanks. -/
def ranges : List (Nat × Nat) :=
  [(0x9, 0xd), (0x20, 0x20), (0x85, 0x85), (0xa0, 0xa0), (0x1680, 0x1680), (0x2000, 0x200a), (0x2028, 0x2029),
    (0x202f, 0x202f), (0x205f, 0x205f), (0x3000, 0x3000)]

def isBlank (c : Char) : Bool := ranges.any (fun r => r.1 ≤ c.toNat && c.toNat ≤ r.2)

/-- A text without the blanks that it starts with. -/
def skip (cs : List Char) : List Char := cs.dropWhile isBlank

end RouteProgramming.Text.Blank
