import RouteProgramming.Entry

/-!
The forwarding plane: the entries pushed to hardware, for each network instance, and the device's
interfaces with their connected subnets. `lookup` sends a destination along the longest match of
both; a connected subnet wins over a programmed route of the same length, and a programmed route
that wins but leads nowhere drops the packet.
-/

namespace RouteProgramming

/-- A layer-3 interface with a connected subnet. -/
structure Interface where
  name : String
  address : Ipv4
  /-- The interface address with its length. -/
  subnet : Cidr
  enabled : Bool
deriving DecidableEq, Repr

/-- Where a packet goes. -/
structure Decision where
  interface : String
  /-- The address that the packet is handed to on the egress link. -/
  nextHop : Address
  /-- The route that matched. -/
  route : Cidr
  /-- False when the destination lies in a connected subnet. -/
  programmed : Bool
deriving DecidableEq, Repr

inductive ForwardingError where
  | injected
  | missing (dependency : EntryKey)
  | badInterface (name : String) (cause : AddressError)
deriving DecidableEq, Repr

namespace ForwardingError

def message : ForwardingError → String
  | .injected => "Hardware programming failed: injected failure"
  | .missing dependency => s!"Dependency not programmed: {dependency}"
  | .badInterface name cause => s!"Invalid interface: {name}: {cause.message}"

end ForwardingError

/-! ### The hardware tables of one network instance -/

structure Fib where
  nextHops : Table UInt64 NextHop := ∅
  groups : Table UInt64 NextHopGroup := ∅
  routes : Table Cidr UInt64 := ∅
deriving DecidableEq, Repr, Inhabited

namespace Fib

/-- Writes an entry whose references must be in the tables; of several missing the first is reported. -/
def program (f : Fib) : Entry → Except ForwardingError Fib
  | .nextHop e => .ok { f with nextHops := f.nextHops.insert e.index e }
  | .nextHopGroup e =>
    match e.members.keys.find? (fun index => !f.nextHops.contains index) with
    | some index => .error (.missing (.nextHop index))
    | none => .ok { f with groups := f.groups.insert e.id e }
  | .ipv4 e =>
    if f.groups.contains e.group then .ok { f with routes := f.routes.insert e.destination e.group }
    else .error (.missing (.nextHopGroup e.group))

def remove (f : Fib) : EntryKey → Fib
  | .nextHop index => { f with nextHops := f.nextHops.erase index }
  | .nextHopGroup id => { f with groups := f.groups.erase id }
  | .ipv4 destination => { f with routes := f.routes.erase destination }

/-- The routes that contain a destination, in order. -/
def matching (f : Fib) (destination : Address) : List (Cidr × UInt64) :=
  f.routes.rows.filter (fun r => r.1.contains destination)

end Fib

/-! ### Choosing among the members of a group -/

namespace NextHopGroup

/-- Spreads destinations over 32 bits. -/
def hash (destination : Ipv4) : Nat :=
  (destination.toNat * 0x9E3779B97F4A7C15 % 18446744073709551616) / 4294967296

/-- The member whose share of the weights, laid end to end in index order, covers `point`. -/
def memberAt : List (UInt64 × UInt64) → (point : Nat) → Option UInt64
  | [], _ => none
  | (index, weight) :: rest, point =>
    if point < weight.toNat then some index else memberAt rest (point - weight.toNat)

/-- Picks a member for a destination in proportion to the weights. -/
def pick (g : NextHopGroup) (destination : Ipv4) : Option UInt64 :=
  if g.totalWeight = 0 then none else memberAt g.members.rows (hash destination % g.totalWeight)

end NextHopGroup

/-! ### The plane -/

structure ForwardingPlane where
  interfaces : Table String Interface := ∅
  instances : Table String Fib := ∅
  /-- How many of the next writes fail. -/
  failures : Nat := 0
deriving DecidableEq, Repr, Inhabited

/-- The element with the greatest measure; of several the last. -/
def lastLongest? {α : Type} (measure : α → Nat) (xs : List α) : Option α :=
  xs.foldl
    (fun best x =>
      match best with
      | none => some x
      | some b => if measure b ≤ measure x then some x else some b)
    none

namespace ForwardingPlane

def fib (p : ForwardingPlane) (networkInstance : String) : Fib := (p.instances.get? networkInstance).getD {}

def setFib (p : ForwardingPlane) (networkInstance : String) (f : Fib) : ForwardingPlane :=
  { p with instances := p.instances.insert networkInstance f }

def failNext (p : ForwardingPlane) (count : Nat) : ForwardingPlane := { p with failures := count }

def program (p : ForwardingPlane) (networkInstance : String) (e : Entry) :
    Except ForwardingError Unit × ForwardingPlane :=
  if 0 < p.failures then (.error .injected, { p with failures := p.failures - 1 })
  else
    match (p.fib networkInstance).program e with
    | .error err => (.error err, p)
    | .ok f => (.ok (), p.setFib networkInstance f)

def remove (p : ForwardingPlane) (networkInstance : String) (k : EntryKey) :
    Except ForwardingError Unit × ForwardingPlane :=
  if 0 < p.failures then (.error .injected, { p with failures := p.failures - 1 })
  else (.ok (), p.setFib networkInstance ((p.fib networkInstance).remove k))

/-- Adds or replaces an interface. -/
def configure (p : ForwardingPlane) (name : String) (address : Ipv4) (length : Nat) (enabled : Bool) :
    Except ForwardingError ForwardingPlane :=
  match Cidr.ofParts (.v4 address) length with
  | .error e => .error (.badInterface name e)
  | .ok subnet => .ok { p with interfaces := p.interfaces.insert name ⟨name, address, subnet, enabled⟩ }

def removeInterface (p : ForwardingPlane) (name : String) : Option Interface × ForwardingPlane :=
  (p.interfaces.get? name, { p with interfaces := p.interfaces.erase name })

def routeCount (p : ForwardingPlane) (networkInstance : String) : Nat := (p.fib networkInstance).routes.size

/-! ### Forwarding -/

/-- The enabled interface whose subnet is the longest that contains `a`. -/
def connected? (p : ForwardingPlane) (a : Address) : Option Interface :=
  lastLongest? (·.subnet.length) (p.interfaces.values.filter (fun i => i.enabled && i.subnet.contains a))

/-- Egress interface and hand-over address of a next-hop. -/
def resolve (p : ForwardingPlane) (e : NextHop) (destination : Address) : Option (String × Address) :=
  match e.interface, e.address with
  | some name, address =>
    match p.interfaces.get? name with
    | some i => if i.enabled then some (i.name, address.getD destination) else none
    | none => none
  | none, some address => (p.connected? address).map (fun i => (i.name, address))
  | none, none => none

/-- Follows a programmed route through its group to an interface. -/
def follow (p : ForwardingPlane) (f : Fib) (route : Cidr) (group : UInt64) (destination : Ipv4) :
    Option Decision := do
  let g ← f.groups.get? group
  let index ← g.pick destination
  let e ← f.nextHops.get? index
  let (interface, nextHop) ← p.resolve e (.v4 destination)
  return ⟨interface, nextHop, route, true⟩

/-- The way of a packet to `destination` in a network instance. -/
def lookup (p : ForwardingPlane) (networkInstance : String) (destination : Ipv4) : Option Decision :=
  let f := p.fib networkInstance
  let dst := Address.v4 destination
  match lastLongest? (·.1.length) (f.matching dst), p.connected? dst with
  | none, none => none
  | none, some i => some ⟨i.name, dst, i.subnet.network, false⟩
  | some (route, group), none => p.follow f route group destination
  | some (route, group), some i =>
    if i.subnet.length < route.length then p.follow f route group destination
    else some ⟨i.name, dst, i.subnet.network, false⟩

end ForwardingPlane

end RouteProgramming
