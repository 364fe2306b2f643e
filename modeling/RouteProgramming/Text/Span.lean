import RouteProgramming.Text.Decimal

/-!
Text of a time span given in milliseconds: whole milliseconds below a second, else seconds with only
the places that are needed. No time at all is written in nanoseconds.
-/

namespace RouteProgramming.Text.Span

/-- The three places after the point of a number of thousandths, without zeros at the end. -/
def fraction (thousandths : Nat) : List Char :=
  let digits := [thousandths / 100, thousandths / 10, thousandths].map Decimal.digit
  match (digits.reverse.dropWhile (· == '0')).reverse with
  | [] => []
  | cs => '.' :: cs

def text (milliseconds : Nat) : String :=
  if milliseconds = 0 then "0ns"
  else if milliseconds < 1000 then Decimal.text milliseconds ++ "ms"
  else Decimal.text (milliseconds / 1000) ++ String.ofList (fraction (milliseconds % 1000)) ++ "s"

end RouteProgramming.Text.Span
