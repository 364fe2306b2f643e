import RouteProgramming.Text.Hexadecimal
import RouteProgramming.Text.Hidden

/-!
Text between double quotes with everything that cannot be read as it stands escaped. A quote and
a backslash get a backslash, the common controls their letter, and every other control or hidden
code point its number in hexadecimal.
-/

namespace RouteProgramming.Text.Quoted

def isControl (c : Char) : Bool := c.toNat < 0x20 || c.toNat == 0x7f

def escapeChar (c : Char) : List Char :=
  match c with
  | '\x00' => ['\\', '0']
  | '\t' => ['\\', 't']
  | '\r' => ['\\', 'r']
  | '\n' => ['\\', 'n']
  | '"' => ['\\', '"']
  | '\\' => ['\\', '\\']
  | c => if isControl c || isHidden c then ['\\', 'u', '\x7b'] ++ Hexadecimal.render c.toNat ++ ['\x7d'] else [c]

def quote (s : String) : String := String.ofList ('"' :: s.toList.flatMap escapeChar ++ ['"'])

end RouteProgramming.Text.Quoted
