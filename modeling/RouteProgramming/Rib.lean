import RouteProgramming.Aft
import RouteProgramming.Forwarding

/-!
The routing information base: the forwarding tables of every network instance, over a forwarding
plane. A batch of operations is applied in order, each one acknowledged on its own; an entry reaches
its table only after the forwarding plane has taken it. Bulk removal goes from IPv4 entries over
groups to next-hops, so that nothing selected is kept back by something else selected.
-/

namespace RouteProgramming

/-- Why an operation was not carried out. -/
inductive Failure where
  | fault (cause : ProtocolFault)
  | unknownNetworkInstance (name : String)
  | strayElectionId
  | holding (key : EntryKey) (cause : HoldError)
  | forwardReference (dependent missing : EntryKey)
  | stillReferenced (key : EntryKey) (holders : Nat)
  | notFound (key : EntryKey)
  | staleId (id last : UInt64)
  | noElectionId
  | notPrimary (id primary : ElectionId)
  | tableFull (kind : EntryKind) (networkInstance : String) (capacity : Nat)
  | rejected (key : EntryKey) (cause : ForwardingError)
deriving DecidableEq, Repr

namespace Failure

def message : Failure → String
  | .fault cause => s!"invalid entry: {cause.message}"
  | .unknownNetworkInstance name => s!"invalid entry: unknown network instance {name}"
  | .strayElectionId => "invalid entry: election id is only valid with SINGLE_ELECTED_PRIMARY"
  | .holding key cause => s!"invalid entry: {key}: {cause.message}"
  | .forwardReference dependent missing => s!"{dependent} references {missing} which is not defined"
  | .stillReferenced key holders => s!"{key} is still referenced by {holders} entries"
  | .notFound key => s!"{key} does not exist"
  | .staleId id last => s!"operation id {id.toNat} is not greater than last id {last.toNat}"
  | .noElectionId => "client is not the elected primary: no election id presented"
  | .notPrimary id primary =>
    s!"client is not the elected primary: election id {id} is lower than primary {primary}"
  | .tableFull kind name capacity => s!"table full: {kind} table of {name} holds {capacity} entries"
  | .rejected key cause => s!"forwarding plane rejected {key}: {cause.message}"

end Failure

/-- What an operation is checked against: the client's session and the election. -/
structure Context where
  client : ClientId
  redundancy : Redundancy := .allPrimary
  ackType : AckType := .rib
  /-- The election id that the client presented last. -/
  clientElectionId : Option ElectionId := none
  /-- The highest election id presented by any client. -/
  primaryElectionId : Option ElectionId := none
  /-- The highest operation id used so far in the session. -/
  lastOperationId : UInt64 := 0
deriving DecidableEq, Repr

namespace Context

/-- How an operation that is carried out is acknowledged. -/
def success (c : Context) : Outcome :=
  match c.ackType with
  | .rib => .installedInRib
  | .ribAndFib => .installedInFib

/-- Ids are above zero and increase within a session. -/
def checkId (c : Context) (o : Operation) : Except Failure Unit :=
  if o.id = 0 ∨ o.id ≤ c.lastOperationId then .error (.staleId o.id c.lastOperationId) else .ok ()

/-- The election id that an operation goes by: its own, or else the client's. -/
def effectiveId (c : Context) (o : Operation) : Option ElectionId := o.electionId <|> c.clientElectionId

def checkElection (c : Context) (o : Operation) : Except Failure Unit :=
  match c.redundancy with
  | .allPrimary => if o.electionId.isSome then .error .strayElectionId else .ok ()
  | .singleElectedPrimary =>
    match c.effectiveId o, c.primaryElectionId with
    | none, _ => .error .noElectionId
    | some _, none => .ok ()
    | some id, some primary => if id < primary then .error (.notPrimary id primary) else .ok ()

end Context

/-- Counts of what was asked and what came of it. -/
structure Stats where
  operations : Nat := 0
  installed : Nat := 0
  failed : Nat := 0
  forwardingFailures : Nat := 0
deriving DecidableEq, Repr, Inhabited

structure Rib where
  /-- How many entries of one kind a network instance can hold. -/
  capacity : Nat
  instances : Table String Aft
  plane : ForwardingPlane := {}
  stats : Stats := {}
deriving DecidableEq, Repr

/-- What a bulk removal did. -/
structure Removal where
  removed : Nat := 0
  /-- Entries left because something still refers to them. -/
  remaining : Nat := 0
deriving DecidableEq, Repr, Inhabited

namespace Removal

instance : Add Removal := ⟨fun a b => ⟨a.removed + b.removed, a.remaining + b.remaining⟩⟩

end Removal

namespace Rib

/-- Empty tables for the named network instances. -/
def create (networkInstances : List String) (capacity : Nat) (plane : ForwardingPlane := {}) : Rib :=
  { capacity, instances := Table.ofList (networkInstances.map (·, {})), plane }

def networkInstances (r : Rib) : List String := r.instances.keys

def has (r : Rib) (networkInstance : String) : Bool := r.instances.contains networkInstance

/-- The entries of a network instance; none when it is unknown. -/
def entries (r : Rib) (networkInstance : String) : List InstalledEntry :=
  match r.instances.get? networkInstance with
  | some aft => aft.entries
  | none => []

def setAft (r : Rib) (networkInstance : String) (a : Aft) : Rib :=
  { r with instances := r.instances.insert networkInstance a }

def countRejection (r : Rib) : Rib :=
  { r with stats := { r.stats with forwardingFailures := r.stats.forwardingFailures + 1 } }

/-! ### One operation -/

/-- Whether an entry may be written: well formed, present where it must be, within the capacity, and
with every reference installed. The first missing reference is reported. -/
def checkWrite (a : Aft) (capacity : Nat) (networkInstance : String) (e : Entry) (mustExist : Bool) :
    Except Failure Unit :=
  match e.validate with
  | .error cause => .error (.fault cause)
  | .ok () =>
    if mustExist && !a.contains e.key then .error (.notFound e.key)
    else if !a.contains e.key && decide (capacity ≤ a.sizeOf e.kind) then
      .error (.tableFull e.kind networkInstance capacity)
    else
      match e.references.find? (fun k => !a.contains k) with
      | some missing => .error (.forwardReference e.key missing)
      | none => .ok ()

/-- Writes an entry to the forwarding plane and then to the tables. -/
def upsert (r : Rib) (c : Context) (networkInstance : String) (e : Entry) (mustExist : Bool) :
    Except Failure Unit × Rib :=
  match r.instances.get? networkInstance with
  | none => (.error (.unknownNetworkInstance networkInstance), r)
  | some a =>
    match checkWrite a r.capacity networkInstance e mustExist with
    | .error f => (.error f, r)
    | .ok () =>
      match r.plane.program networkInstance e with
      | (.error cause, plane) => (.error (.rejected e.key cause), { r with plane }.countRejection)
      | (.ok (), plane) =>
        let (result, a) := a.install e c.client c.success
        (result.mapError (.holding e.key), { r with plane }.setAft networkInstance a)

/-- Removes an entry from the forwarding plane and then from the tables. -/
def delete (r : Rib) (networkInstance : String) (k : EntryKey) : Except Failure Unit × Rib :=
  match r.instances.get? networkInstance with
  | none => (.error (.unknownNetworkInstance networkInstance), r)
  | some a =>
    match a.holders? k with
    | none => (.error (.notFound k), r)
    | some (n + 1) => (.error (.stillReferenced k (n + 1)), r)
    | some 0 =>
      match r.plane.remove networkInstance k with
      | (.error cause, plane) => (.error (.rejected k cause), { r with plane }.countRejection)
      | (.ok (), plane) =>
        let (result, a) := a.remove k
        ((result.map (fun _ => ())).mapError (.holding k), { r with plane }.setAft networkInstance a)

/-- Carries out an operation whose id is in order. -/
def perform (r : Rib) (c : Context) (o : Operation) : Except Failure Unit × Rib :=
  match c.checkElection o with
  | .error f => (.error f, r)
  | .ok () =>
    match o.op with
    | .add => r.upsert c o.networkInstance o.entry false
    | .replace => r.upsert c o.networkInstance o.entry true
    | .delete => r.delete o.networkInstance o.key

/-- Applies one operation. An id that is out of order is not used up; any other is, even when the
operation fails. -/
def apply (r : Rib) (c : Context) (o : Operation) : Except Failure Outcome × Context × Rib :=
  match c.checkId o with
  | .error f => (.error f, c, r)
  | .ok () =>
    let c := { c with lastOperationId := o.id }
    let (result, r) := r.perform c o
    (result.map (fun _ => c.success), c, r)

def acknowledge (o : Operation) : Except Failure Outcome → Acknowledgment
  | .ok outcome => { id := o.id, op := o.op, key := o.key, outcome }
  | .error f => { id := o.id, op := o.op, key := o.key, outcome := .failed, error := some f.message }

def count (r : Rib) (result : Except Failure Outcome) : Rib :=
  { r with
    stats :=
      match result with
      | .ok _ => { r.stats with operations := r.stats.operations + 1, installed := r.stats.installed + 1 }
      | .error _ => { r.stats with operations := r.stats.operations + 1, failed := r.stats.failed + 1 } }

/-- Applies a batch in order, with one acknowledgment for each operation. -/
def applyBatch (r : Rib) (c : Context) : List Operation → List Acknowledgment × Context × Rib
  | [] => ([], c, r)
  | o :: os =>
    let (result, c, r) := r.apply c o
    let (acks, c, r) := (r.count result).applyBatch c os
    (acknowledge o result :: acks, c, r)

/-! ### Bulk removal -/

/-- Removes one selected entry. One that is still referenced stays; one that the forwarding plane
does not let go leaves the tables all the same. -/
def discard (r : Rib) (networkInstance : String) (k : EntryKey) : Removal × Rib :=
  match r.delete networkInstance k with
  | (.ok (), r) => (⟨1, 0⟩, r)
  | (.error (.stillReferenced _ _), r) => (⟨0, 1⟩, r)
  | (.error _, r) =>
    match r.instances.get? networkInstance with
    | none => (⟨0, 0⟩, r)
    | some a =>
      match a.remove k with
      | (.ok _, a) => (⟨1, 0⟩, r.setAft networkInstance a)
      | (.error _, a) => (⟨0, 0⟩, r.setAft networkInstance a)

def discardAll (r : Rib) (networkInstance : String) : List EntryKey → Removal × Rib
  | [] => ({}, r)
  | k :: ks =>
    let (first, r) := r.discard networkInstance k
    let (rest, r) := r.discardAll networkInstance ks
    (first + rest, r)

/-- Removes the entries of one kind, of one owner or of all. -/
def removeKind (r : Rib) (networkInstance : String) (owner : Option ClientId) (kind : EntryKind) :
    Removal × Rib :=
  match r.instances.get? networkInstance with
  | none => ({}, r)
  | some a => r.discardAll networkInstance (a.keysOf kind owner)

/-- Removes the entries of one owner or of all from a network instance. -/
def removeWhere (r : Rib) (networkInstance : String) (owner : Option ClientId) : Removal × Rib :=
  let (routes, r) := r.removeKind networkInstance owner .ipv4
  let (groups, r) := r.removeKind networkInstance owner .nextHopGroup
  let (nextHops, r) := r.removeKind networkInstance owner .nextHop
  (routes + groups + nextHops, r)

def flush (r : Rib) (networkInstance : String) : Removal × Rib := r.removeWhere networkInstance none

def flushAll (r : Rib) : List String → Removal × Rib
  | [] => ({}, r)
  | ni :: nis =>
    let (first, r) := r.flush ni
    let (rest, r) := r.flushAll nis
    (first + rest, r)

def removeOwnedIn (r : Rib) (client : ClientId) : List String → Removal × Rib
  | [] => ({}, r)
  | ni :: nis =>
    let (first, r) := r.removeWhere ni (some client)
    let (rest, r) := r.removeOwnedIn client nis
    (first + rest, r)

/-- Removes what a client owns from every network instance. -/
def removeOwnedBy (r : Rib) (client : ClientId) : Removal × Rib := r.removeOwnedIn client r.networkInstances

end Rib

end RouteProgramming
