import RouteProgramming.Cidr

/-!
The three kinds of forwarding entries: next-hops, weighted groups of next-hops, and IPv4 prefixes
bound to a group. An entry has a key within its network instance, refers to entries of the kind
below it, and is checked on its own by `Entry.check`.
-/

namespace RouteProgramming

inductive EntryKind where
  | nextHop | nextHopGroup | ipv4
deriving DecidableEq, Repr

inductive EntryKey where
  | nextHop (index : UInt64)
  | nextHopGroup (id : UInt64)
  | ipv4 (destination : Cidr)
deriving DecidableEq, Repr

/-- A forwarding target, reached through an address, an interface or both. -/
structure NextHop where
  index : UInt64
  address : Option Address := none
  interface : Option String := none
deriving DecidableEq, Repr

/-- A set of next-hops, each with its share of the traffic. -/
structure NextHopGroup where
  id : UInt64
  members : Table UInt64 UInt64 := ∅
deriving DecidableEq, Repr

structure Ipv4Entry where
  destination : Cidr
  group : UInt64
deriving DecidableEq, Repr

inductive Entry where
  | nextHop (e : NextHop)
  | nextHopGroup (e : NextHopGroup)
  | ipv4 (e : Ipv4Entry)
deriving DecidableEq, Repr

namespace EntryKind

def text : EntryKind → String
  | .nextHop => "next-hop"
  | .nextHopGroup => "next-hop-group"
  | .ipv4 => "ipv4-entry"

instance : ToString EntryKind := ⟨text⟩

end EntryKind

namespace EntryKey

def kind : EntryKey → EntryKind
  | .nextHop _ => .nextHop
  | .nextHopGroup _ => .nextHopGroup
  | .ipv4 _ => .ipv4

def text : EntryKey → String
  | .nextHop index => s!"next-hop {index.toNat}"
  | .nextHopGroup id => s!"next-hop-group {id.toNat}"
  | .ipv4 destination => s!"ipv4-entry {destination}"

instance : ToString EntryKey := ⟨text⟩

end EntryKey

namespace NextHopGroup

/-- Sum of the members' weights, as an unbounded number. -/
def totalWeight (g : NextHopGroup) : Nat := (g.members.values.map UInt64.toNat).foldr (· + ·) 0

end NextHopGroup

/-- What is wrong with an entry taken on its own. -/
inductive EntryFault where
  | zeroIndex
  | noTarget (index : UInt64)
  | zeroGroupId
  | noMembers (id : UInt64)
  | zeroWeight (id index : UInt64)
  | notIpv4 (destination : Cidr)
  | hostBits (destination : Cidr)
deriving DecidableEq, Repr

namespace EntryFault

def message : EntryFault → String
  | .zeroIndex => "next-hop index must be non-zero"
  | .noTarget index => s!"next-hop {index.toNat} has neither an IP address nor an interface"
  | .zeroGroupId => "next-hop-group id must be non-zero"
  | .noMembers id => s!"next-hop-group {id.toNat} has no next-hops"
  | .zeroWeight id index => s!"next-hop-group {id.toNat} member {index.toNat} has zero weight"
  | .notIpv4 p => s!"ipv4-entry prefix {p} is not IPv4"
  | .hostBits p => s!"ipv4-entry prefix {p} has host bits set, expected {p.network}"

end EntryFault

namespace NextHop

def check (e : NextHop) : Except EntryFault Unit :=
  if e.index = 0 then .error .zeroIndex
  else if e.address.isNone && e.interface.isNone then .error (.noTarget e.index)
  else .ok ()

end NextHop

namespace NextHopGroup

/-- Of several members without weight the one with the lowest index is reported. -/
def check (g : NextHopGroup) : Except EntryFault Unit :=
  if g.id = 0 then .error .zeroGroupId
  else if g.members.isEmpty then .error (.noMembers g.id)
  else
    match g.members.rows.find? (fun r => r.2 == 0) with
    | some (index, _) => .error (.zeroWeight g.id index)
    | none => .ok ()

end NextHopGroup

namespace Ipv4Entry

def check (e : Ipv4Entry) : Except EntryFault Unit :=
  if !e.destination.isV4 then .error (.notIpv4 e.destination)
  else if e.destination ≠ e.destination.network then .error (.hostBits e.destination)
  else .ok ()

end Ipv4Entry

namespace Entry

def key : Entry → EntryKey
  | .nextHop e => .nextHop e.index
  | .nextHopGroup e => .nextHopGroup e.id
  | .ipv4 e => .ipv4 e.destination

def kind (e : Entry) : EntryKind := e.key.kind

/-- Keys of the entries that this one needs, in order. -/
def references : Entry → List EntryKey
  | .nextHop _ => []
  | .nextHopGroup e => e.members.keys.map .nextHop
  | .ipv4 e => [.nextHopGroup e.group]

/-- Checks an entry without looking at any other. -/
def check : Entry → Except EntryFault Unit
  | .nextHop e => e.check
  | .nextHopGroup e => e.check
  | .ipv4 e => e.check

end Entry

end RouteProgramming
