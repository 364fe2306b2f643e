import RouteProgramming.Entry

/-!
Entries as a client writes them down: addresses and prefixes are text that is read only when the
batch is sent, and a field may be left out.
-/

namespace RouteProgramming

inductive DraftFields where
  | nextHop (index : Option UInt64) (address interface : Option String)
  | nextHopGroup (id : Option UInt64) (members : Table UInt64 UInt64)
  | ipv4 (destination : Option String) (group : Option UInt64)
deriving DecidableEq, Repr

structure EntryDraft where
  networkInstance : Option String := none
  fields : DraftFields
deriving DecidableEq, Repr

inductive DraftError where
  | noIndex
  | badAddress (index : UInt64) (cause : AddressError)
  | noGroupId
  | noDestination
  | badDestination (text : String) (cause : AddressError)
deriving DecidableEq, Repr

namespace DraftError

def message : DraftError → String
  | .noIndex => "next-hop index not set"
  | .badAddress index cause => s!"next-hop {index.toNat}: {cause.message}"
  | .noGroupId => "next-hop-group id not set"
  | .noDestination => "ipv4-entry prefix not set"
  | .badDestination text cause => s!"ipv4-entry {text}: {cause.message}"

end DraftError

namespace DraftFields

/-- The entry written down. An IPv4 entry may leave out its group, for a delete needs none. -/
def entry : DraftFields → Except DraftError Entry
  | .nextHop none _ _ => .error .noIndex
  | .nextHop (some index) none interface => .ok (.nextHop ⟨index, none, interface⟩)
  | .nextHop (some index) (some address) interface =>
    match Address.parse address with
    | .ok a => .ok (.nextHop ⟨index, some a, interface⟩)
    | .error cause => .error (.badAddress index cause)
  | .nextHopGroup none _ => .error .noGroupId
  | .nextHopGroup (some id) members => .ok (.nextHopGroup ⟨id, members⟩)
  | .ipv4 none _ => .error .noDestination
  | .ipv4 (some destination) group =>
    match Cidr.parse destination with
    | .ok c => .ok (.ipv4 ⟨c, group.getD 0⟩)
    | .error cause => .error (.badDestination destination cause)

end DraftFields

namespace EntryDraft

/-- The network instance and the entry. -/
def build (d : EntryDraft) : Except DraftError (String × Entry) :=
  d.fields.entry.map (d.networkInstance.getD "DEFAULT", ·)

end EntryDraft

end RouteProgramming
