import RouteProgramming.HeldTable
import RouteProgramming.Operation

/-!
The abstract forwarding tables of one network instance: next-hops, groups that hold next-hops, and
IPv4 entries that hold groups. Every row knows the client that wrote it last and keeps the number
the device gave it when it was first written.
-/

namespace RouteProgramming

open Std

/-- Number of a session, which owns the entries that it wrote. -/
abbrev ClientId := Nat

structure Installed (ε : Type) where
  entry : ε
  /-- The client that wrote the entry last. -/
  owner : ClientId
  /-- Given when the entry was first written; a later write keeps it. -/
  deviceId : Nat
  outcome : Outcome
deriving DecidableEq, Repr

namespace Installed

def map {ε φ : Type} (f : ε → φ) (i : Installed ε) : Installed φ := ⟨f i.entry, i.owner, i.deviceId, i.outcome⟩

end Installed

/-- A row as a reader of the tables sees it, whatever its kind. -/
abbrev InstalledEntry := Held (Installed Entry)

structure Aft where
  nextHops : HeldTable UInt64 (Installed NextHop) := ∅
  groups : HeldTable UInt64 (Installed NextHopGroup) := ∅
  ipv4 : HeldTable Cidr (Installed Ipv4Entry) := ∅
  lastDeviceId : Nat := 0
deriving DecidableEq, Repr, Inhabited

namespace Aft

/-! ### Reading -/

def view {ε : Type} (f : ε → Entry) (h : Held (Installed ε)) : InstalledEntry := ⟨h.value.map f, h.holders⟩

def get? (a : Aft) : EntryKey → Option InstalledEntry
  | .nextHop index => (a.nextHops.get? index).map (view .nextHop)
  | .nextHopGroup id => (a.groups.get? id).map (view .nextHopGroup)
  | .ipv4 destination => (a.ipv4.get? destination).map (view .ipv4)

def contains (a : Aft) (k : EntryKey) : Bool := (a.get? k).isSome

def holders? (a : Aft) (k : EntryKey) : Option Nat := (a.get? k).map (·.holders)

/-- Number of entries of one kind. -/
def sizeOf (a : Aft) : EntryKind → Nat
  | .nextHop => a.nextHops.size
  | .nextHopGroup => a.groups.size
  | .ipv4 => a.ipv4.size

def size (a : Aft) : Nat := a.nextHops.size + a.groups.size + a.ipv4.size

def isEmpty (a : Aft) : Bool := a.size == 0

/-- Every entry, those that others refer to first. -/
def entries (a : Aft) : List InstalledEntry :=
  a.nextHops.values.map (view .nextHop) ++ a.groups.values.map (view .nextHopGroup) ++
    a.ipv4.values.map (view .ipv4)

/-- The keys of `t` whose entries the given client owns; without a client, all keys. -/
def ownedKeys {κ ε : Type} [Ord κ] (t : HeldTable κ (Installed ε)) (owner : Option ClientId) : List κ :=
  (t.filter (fun _ h => owner.all (· == h.value.owner))).keys

def keysOf (a : Aft) (kind : EntryKind) (owner : Option ClientId) : List EntryKey :=
  match kind with
  | .nextHop => (ownedKeys a.nextHops owner).map .nextHop
  | .nextHopGroup => (ownedKeys a.groups owner).map .nextHopGroup
  | .ipv4 => (ownedKeys a.ipv4 owner).map .ipv4

/-! ### Holding -/

def hold (a : Aft) : EntryKey → Except HoldError Aft
  | .nextHop index => (HeldTable.hold a.nextHops index).map ({ a with nextHops := · })
  | .nextHopGroup id => (HeldTable.hold a.groups id).map ({ a with groups := · })
  | .ipv4 destination => (HeldTable.hold a.ipv4 destination).map ({ a with ipv4 := · })

def release (a : Aft) : EntryKey → Except HoldError Aft
  | .nextHop index => (HeldTable.release a.nextHops index).map ({ a with nextHops := · })
  | .nextHopGroup id => (HeldTable.release a.groups id).map ({ a with groups := · })
  | .ipv4 destination => (HeldTable.release a.ipv4 destination).map ({ a with ipv4 := · })

/-- Applies `step` to the keys in turn. The first failure ends the run; what was done before it stays. -/
def forEach (step : Aft → EntryKey → Except HoldError Aft) : Aft → List EntryKey → Except HoldError Unit × Aft
  | a, [] => (.ok (), a)
  | a, k :: ks =>
    match step a k with
    | .error e => (.error e, a)
    | .ok a => forEach step a ks

def holdAll : Aft → List EntryKey → Except HoldError Unit × Aft := forEach hold

def releaseAll : Aft → List EntryKey → Except HoldError Unit × Aft := forEach release

/-! ### Writing -/

/-- Writes a row: the entry it replaced, if any, and the table. A row that is replaced keeps its
holders and its number, a new one gets the number `fresh`. -/
def put {κ ε : Type} [Ord κ] [TransOrd κ] (t : HeldTable κ (Installed ε)) (k : κ) (e : ε) (owner : ClientId)
    (outcome : Outcome) (fresh : Nat) : Option ε × HeldTable κ (Installed ε) :=
  match t.get? k with
  | some old => (some old.value.entry, t.modify k (fun h => ⟨⟨e, owner, h.value.deviceId, outcome⟩, h.holders⟩))
  | none => (none, t.insert k ⟨⟨e, owner, fresh, outcome⟩, 0⟩)

/-- Writes an entry without regard to references: the entry it replaced, if any, and the tables. -/
def write (a : Aft) (e : Entry) (owner : ClientId) (outcome : Outcome) : Option Entry × Aft :=
  let fresh := a.lastDeviceId + 1
  let last (replaced : Bool) := if replaced then a.lastDeviceId else fresh
  match e with
  | .nextHop e =>
    let (old, t) := put a.nextHops e.index e owner outcome fresh
    (old.map .nextHop, { a with nextHops := t, lastDeviceId := last old.isSome })
  | .nextHopGroup e =>
    let (old, t) := put a.groups e.id e owner outcome fresh
    (old.map .nextHopGroup, { a with groups := t, lastDeviceId := last old.isSome })
  | .ipv4 e =>
    let (old, t) := put a.ipv4 e.destination e owner outcome fresh
    (old.map .ipv4, { a with ipv4 := t, lastDeviceId := last old.isSome })

/-- Writes an entry whose references must all exist. The new references are held before those of
the replaced entry are released, so a reference that stays is never without a holder. -/
def install (a : Aft) (e : Entry) (owner : ClientId) (outcome : Outcome) : Except HoldError Unit × Aft :=
  match a.holdAll e.references with
  | (.error err, a) => (.error err, a)
  | (.ok (), a) =>
    match a.write e owner outcome with
    | (none, a) => (.ok (), a)
    | (some old, a) => a.releaseAll old.references

/-- Takes out a row that nothing holds. -/
def take (a : Aft) : EntryKey → Except HoldError (Entry × Aft)
  | .nextHop index =>
    (HeldTable.remove a.nextHops index).map (fun (i, t) => (.nextHop i.entry, { a with nextHops := t }))
  | .nextHopGroup id =>
    (HeldTable.remove a.groups id).map (fun (i, t) => (.nextHopGroup i.entry, { a with groups := t }))
  | .ipv4 destination =>
    (HeldTable.remove a.ipv4 destination).map (fun (i, t) => (.ipv4 i.entry, { a with ipv4 := t }))

/-- Removes an entry that nothing holds and releases its references. -/
def remove (a : Aft) (k : EntryKey) : Except HoldError Entry × Aft :=
  match a.take k with
  | .error e => (.error e, a)
  | .ok (old, a) =>
    match a.releaseAll old.references with
    | (.error e, a) => (.error e, a)
    | (.ok (), a) => (.ok old, a)

end Aft

end RouteProgramming
