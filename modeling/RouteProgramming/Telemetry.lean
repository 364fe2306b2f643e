import RouteProgramming.Aft

/-!
What the device reports about the tables of a network instance. Rows go by the numbers that the
device gave them; the numbers that clients chose stand beside them.
-/

namespace RouteProgramming

namespace Telemetry

structure NextHopItem where
  id : Nat
  programmedIndex : UInt64
  address : Option Address
  interface : Option String
deriving DecidableEq, Repr

structure Member where
  nextHop : Nat
  weight : UInt64
deriving DecidableEq, Repr

structure GroupItem where
  id : Nat
  programmedId : UInt64
  members : List Member
deriving DecidableEq, Repr

structure Ipv4Item where
  destination : Cidr
  group : Nat
deriving DecidableEq, Repr

namespace GroupItem

def weights (g : GroupItem) : List UInt64 := g.members.map (·.weight)

end GroupItem

end Telemetry

open Telemetry

/-- A snapshot of one network instance. -/
structure Telemetry where
  networkInstance : String
  nextHops : List NextHopItem := []
  groups : List GroupItem := []
  ipv4 : List Ipv4Item := []
deriving DecidableEq, Repr

namespace Aft

/-- The device's number of a next-hop; zero when it is not installed. -/
def nextHopId (a : Aft) (index : UInt64) : Nat := ((a.nextHops.get? index).map (·.value.deviceId)).getD 0

/-- The device's number of a group; zero when it is not installed. -/
def groupId (a : Aft) (id : UInt64) : Nat := ((a.groups.get? id).map (·.value.deviceId)).getD 0

def telemetry (a : Aft) (networkInstance : String) : Telemetry where
  networkInstance
  nextHops := a.nextHops.values.map (fun h =>
    ⟨h.value.deviceId, h.value.entry.index, h.value.entry.address, h.value.entry.interface⟩)
  groups := a.groups.values.map (fun h =>
    ⟨h.value.deviceId, h.value.entry.id, h.value.entry.members.rows.map (fun r => ⟨a.nextHopId r.1, r.2⟩)⟩)
  ipv4 := a.ipv4.values.map (fun h => ⟨h.value.entry.destination, a.groupId h.value.entry.group⟩)

end Aft

namespace Telemetry

/-- The group that a client programmed under `id`. -/
def group? (t : Telemetry) (id : UInt64) : Option GroupItem := t.groups.find? (·.programmedId == id)

def ipv4? (t : Telemetry) (destination : Cidr) : Option Ipv4Item := t.ipv4.find? (·.destination == destination)

end Telemetry

end RouteProgramming
