import RouteProgramming.Address

/-!
Address prefixes. A prefix keeps the address it was written with, host bits included; `network`
clears them, `contains` compares the first `length` bits, and `hosts` runs through the addresses of
an IPv4 prefix in order.
-/

namespace RouteProgramming

open Text

structure Cidr where
  address : Address
  length : Nat
  length_le : length ≤ address.width
deriving DecidableEq, Repr

namespace Cidr

def ofParts (address : Address) (length : Nat) : Except AddressError Cidr :=
  if h : length ≤ address.width then .ok ⟨address, length, h⟩ else .error (.tooLong length address.width)

/-! ### Text -/

def render (c : Cidr) : List Char := c.address.render ++ '/' :: Decimal.render c.length

def text (c : Cidr) : String := String.ofList c.render

instance : ToString Cidr := ⟨text⟩

/-- The address ends at the first slash and the length, a number below 256, follows it. -/
def parse (s : String) : Except AddressError Cidr :=
  match s.toList.dropWhile (· != '/') with
  | [] => .error (.notAPrefix s)
  | _ :: digits =>
    match Address.ofChars? (s.toList.takeWhile (· != '/')), Decimal.unsigned 256 digits with
    | some a, .ok n => ofParts a n
    | _, _ => .error (.notAPrefix s)

/-! ### Order: by address, then by length -/

instance : Ord Cidr := ⟨compareLex (compareOn address) (compareOn length)⟩

instance : Std.TransOrd Cidr := inferInstanceAs (Std.TransCmp (compareLex (compareOn address) (compareOn length)))

instance : Std.LawfulEqOrd Cidr where
  compare_self := (inferInstance : Std.ReflOrd Cidr).compare_self
  eq_of_compare {a b} h := by
    cases a; cases b
    obtain ⟨ha, hn⟩ := Ordering.then_eq_eq.1 h
    cases Std.LawfulEqOrd.eq_of_compare (α := Address) ha
    cases Std.LawfulEqOrd.eq_of_compare (α := Nat) hn
    rfl

/-! ### The first bits -/

/-- A word whose first `n` bits are set. -/
def mask (width n : Nat) : BitVec width := BitVec.allOnes width <<< (width - n)

/-- The address with all but its first `n` bits cleared. -/
def masked (n : Nat) : Address → Address
  | .v4 a => .v4 ⟨a.bits &&& mask 32 n⟩
  | .v6 a => .v6 ⟨a.bits &&& mask 128 n⟩

theorem width_masked (n : Nat) (a : Address) : (masked n a).width = a.width := by cases a <;> rfl

def network (c : Cidr) : Cidr :=
  ⟨masked c.length c.address, c.length, (width_masked _ _).symm ▸ c.length_le⟩

/-- Whether `a` is of the prefix's family and agrees with it on the first `length` bits. -/
def contains (c : Cidr) (a : Address) : Bool :=
  a.isV4 == c.address.isV4 && masked c.length a == masked c.length c.address

def isV4 (c : Cidr) : Bool := c.address.isV4

def isDefault (c : Cidr) : Bool := c.length == 0

def isHostRoute (c : Cidr) : Bool := c.length == c.address.width

end Cidr

/-! ### Hosts -/

/-- The IPv4 addresses from `next` up to but not including `stop`. -/
structure Hosts where
  next : Nat
  stop : Nat
deriving DecidableEq, Repr

namespace Hosts

def left (h : Hosts) : Nat := h.stop - h.next

def next? (h : Hosts) : Option (Ipv4 × Hosts) :=
  if h.next < h.stop then some (Ipv4.ofNat h.next, ⟨h.next + 1, h.stop⟩) else none

/-- The first `n` hosts, or all when there are fewer, and the hosts after them. -/
def take : Nat → Hosts → List Ipv4 × Hosts
  | 0, h => ([], h)
  | n + 1, h =>
    match h.next? with
    | none => ([], h)
    | some (a, h) =>
      let (rest, h) := take n h
      (a :: rest, h)

end Hosts

namespace Cidr

/-- Every address of an IPv4 prefix, the first and the last included; none for IPv6. -/
def hosts (c : Cidr) : Hosts :=
  match masked c.length c.address with
  | .v4 base => ⟨base.toNat, base.toNat + Nat.pow 2 (32 - c.length)⟩
  | .v6 _ => ⟨0, 0⟩

end Cidr

end RouteProgramming
