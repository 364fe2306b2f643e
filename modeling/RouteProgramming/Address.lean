import RouteProgramming.Table
import RouteProgramming.Text.Decimal
import RouteProgramming.Text.Hexadecimal

/-!
IPv4 and IPv6 addresses as words, with their usual text: dotted decimal without leading zeros, and
colon-separated hexadecimal groups with the first longest run of two or more zero groups left out.
An IPv6 address that wraps an IPv4 one is written with the dotted form at its end.
-/

namespace RouteProgramming

open Text

structure Ipv4 where
  bits : BitVec 32
deriving DecidableEq, Repr, Inhabited

structure Ipv6 where
  bits : BitVec 128
deriving DecidableEq, Repr, Inhabited

inductive Address where
  | v4 (a : Ipv4)
  | v6 (a : Ipv6)
deriving DecidableEq, Repr

/-! ### Reading -/

namespace Address.Text

/-- Reads one given character. -/
def expect (c : Char) : List Char → Option (List Char)
  | d :: cs => if d = c then some cs else none
  | [] => none

/-- Reads with `read` after a separator, which only the first part goes without. -/
def separated {α : Type} (first : Bool) (separator : Char) (read : List Char → Option (α × List Char))
    (cs : List Char) : Option (α × List Char) :=
  if first then read cs else (expect separator cs).bind read

/-- A decimal number below 256 without leading zeros. -/
def octet (cs : List Char) : Option (Nat × List Char) := do
  let digits := cs.takeWhile Char.isDigit
  if 3 < digits.length then none
  let n ← Decimal.canonical? digits
  if n < 256 then some (n, cs.dropWhile Char.isDigit) else none

/-- One to four hexadecimal digits. -/
def group (cs : List Char) : Option (Nat × List Char) := do
  let digits := cs.takeWhile Hexadecimal.isDigit
  if 4 < digits.length then none
  let n ← Hexadecimal.digits? digits
  some (n, cs.dropWhile Hexadecimal.isDigit)

end Address.Text

namespace Ipv4

open Address.Text

def ofNat (n : Nat) : Ipv4 := ⟨BitVec.ofNat 32 n⟩

def toNat (a : Ipv4) : Nat := a.bits.toNat

def ofOctets (a b c d : Nat) : Ipv4 := ofNat (((a * 256 + b) * 256 + c) * 256 + d)

def octets (a : Ipv4) : List Nat :=
  [a.toNat / 16777216, a.toNat / 65536 % 256, a.toNat / 256 % 256, a.toNat % 256]

/-- Reads a dotted address at the start of a text and returns what follows it. -/
def read (cs : List Char) : Option (Ipv4 × List Char) := do
  let (a, cs) ← octet cs
  let (b, cs) ← separated false '.' octet cs
  let (c, cs) ← separated false '.' octet cs
  let (d, cs) ← separated false '.' octet cs
  some (ofOctets a b c d, cs)

def ofChars? (cs : List Char) : Option Ipv4 :=
  match read cs with
  | some (a, []) => some a
  | _ => none

def render (a : Ipv4) : List Char := ['.'].intercalate (a.octets.map Decimal.render)

end Ipv4

namespace Ipv6

open Address.Text

def ofNat (n : Nat) : Ipv6 := ⟨BitVec.ofNat 128 n⟩

def toNat (a : Ipv6) : Nat := a.bits.toNat

def ofGroups (groups : List Nat) : Ipv6 := ofNat (groups.foldl (fun n g => n * 65536 + g) 0)

def groups (a : Ipv6) : List Nat := (List.range 8).map (fun i => a.toNat / Nat.pow 65536 (7 - i) % 65536)

/-- Reads up to `left` groups; a dotted address may stand for two groups and ends the run.
Returns the groups, whether a dotted address ended them, and what follows. -/
def readGroups : (left : Nat) → (first : Bool) → List Char → List Nat × Bool × List Char
  | 0, _, cs => ([], false, cs)
  | left + 1, first, cs =>
    match (if left = 0 then none else separated first ':' Ipv4.read cs) with
    | some (a, rest) => ([a.toNat / 65536, a.toNat % 65536], true, rest)
    | none =>
      match separated first ':' group cs with
      | some (g, rest) =>
        let (gs, dotted, rest) := readGroups left false rest
        (g :: gs, dotted, rest)
      | none => ([], false, cs)

/-- Eight groups, or fewer around one `::`, which stands for at least one zero group. -/
def read (cs : List Char) : Option (Ipv6 × List Char) := do
  let (head, dotted, rest) := readGroups 8 true cs
  if head.length = 8 then return (ofGroups head, rest)
  if dotted then none
  let rest ← expect ':' rest
  let rest ← expect ':' rest
  let (tail, _, rest) := readGroups (7 - head.length) true rest
  return (ofGroups (head ++ List.replicate (8 - head.length - tail.length) 0 ++ tail), rest)

def ofChars? (cs : List Char) : Option Ipv6 :=
  match read cs with
  | some (a, []) => some a
  | _ => none

/-- The IPv4 address wrapped in an address of the form `::ffff:a.b.c.d`. -/
def mapped? (a : Ipv6) : Option Ipv4 :=
  if a.toNat / 4294967296 = 65535 then some (Ipv4.ofNat (a.toNat % 4294967296)) else none

/-- Start and length of the first longest run of zeros. -/
def longestZeros (groups : List Nat) : Nat × Nat :=
  (List.range groups.length).foldl
    (fun best i =>
      let run := ((groups.drop i).takeWhile (· == 0)).length
      if best.2 < run then (i, run) else best)
    (0, 0)

def renderGroups (groups : List Nat) : List Char := [':'].intercalate (groups.map Hexadecimal.render)

def render (a : Ipv6) : List Char :=
  match a.mapped? with
  | some v4 => "::ffff:".toList ++ v4.render
  | none =>
    let (start, run) := longestZeros a.groups
    if 1 < run then
      renderGroups (a.groups.take start) ++ "::".toList ++ renderGroups (a.groups.drop (start + run))
    else renderGroups a.groups

end Ipv6

/-! ### Both families -/

/-- Why a text or a pair of numbers is no address or prefix. -/
inductive AddressError where
  | notAnAddress (text : String)
  | notAPrefix (text : String)
  | tooLong (length width : Nat)
deriving DecidableEq, Repr

namespace AddressError

def message : AddressError → String
  | .notAnAddress s => s!"invalid IP address: {s}"
  | .notAPrefix s => s!"invalid IP prefix: {s}"
  | .tooLong n width => s!"prefix length {n} exceeds {width}"

end AddressError

namespace Address

def isV4 : Address → Bool
  | .v4 _ => true
  | .v6 _ => false

/-- Number of bits in an address of this family. -/
def width : Address → Nat
  | .v4 _ => 32
  | .v6 _ => 128

def render : Address → List Char
  | .v4 a => a.render
  | .v6 a => a.render

def text (a : Address) : String := String.ofList a.render

/-- A text with a colon is read as IPv6, any other as IPv4. -/
def ofChars? (cs : List Char) : Option Address :=
  if cs.contains ':' then (Ipv6.ofChars? cs).map .v6 else (Ipv4.ofChars? cs).map .v4

def parse (s : String) : Except AddressError Address :=
  match ofChars? s.toList with
  | some a => .ok a
  | none => .error (.notAnAddress s)

/-- Position in the order of all addresses: IPv4 before IPv6, each by value. -/
def rank : Address → Nat
  | .v4 a => a.toNat
  | .v6 a => 4294967296 + a.toNat

theorem rank_inj {a b : Address} (h : a.rank = b.rank) : a = b := by
  cases a with
  | v4 a =>
    cases b with
    | v4 b => exact congrArg (fun x => Address.v4 ⟨x⟩) (BitVec.eq_of_toNat_eq h)
    | v6 b => have := a.bits.isLt; simp only [rank, Ipv4.toNat, Ipv6.toNat] at h; omega
  | v6 a =>
    cases b with
    | v4 b => have := b.bits.isLt; simp only [rank, Ipv4.toNat, Ipv6.toNat] at h; omega
    | v6 b =>
      simp only [rank, Ipv6.toNat] at h
      exact congrArg (fun x => Address.v6 ⟨x⟩) (BitVec.eq_of_toNat_eq (by omega))

instance : Ord Address := ⟨compareOn rank⟩

instance : Std.TransOrd Address := inferInstanceAs (Std.TransCmp (compareOn rank))

instance : Std.LawfulEqOrd Address where
  compare_self := Std.ReflOrd.compare_self (α := Nat)
  eq_of_compare h := rank_inj (Std.LawfulEqOrd.eq_of_compare (α := Nat) h)

instance : ToString Address := ⟨text⟩

end Address

namespace Ipv4

def text (a : Ipv4) : String := String.ofList a.render

instance : ToString Ipv4 := ⟨text⟩

def parse (s : String) : Except AddressError Ipv4 :=
  match ofChars? s.toList with
  | some a => .ok a
  | none => .error (.notAnAddress s)

end Ipv4

namespace Ipv6

def text (a : Ipv6) : String := String.ofList a.render

instance : ToString Ipv6 := ⟨text⟩

def parse (s : String) : Except AddressError Ipv6 :=
  match ofChars? s.toList with
  | some a => .ok a
  | none => .error (.notAnAddress s)

end Ipv6

end RouteProgramming
