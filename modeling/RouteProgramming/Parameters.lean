import RouteProgramming.Election
import RouteProgramming.Entry

/-!
Parameters of a session: how clients share the device, what happens to a client's entries when its
session ends, and which acknowledgments it wants.
-/

namespace RouteProgramming

/-- Whether every client may program or only the one that holds the highest election id. -/
inductive Redundancy where
  | allPrimary | singleElectedPrimary
deriving DecidableEq, Repr, Inhabited

/-- What becomes of a client's entries when its session ends. -/
inductive Persistence where
  | delete | preserve
deriving DecidableEq, Repr, Inhabited

/-- Whether an entry is acknowledged once it is in the RIB or once it is in the FIB. -/
inductive AckType where
  | rib | ribAndFib
deriving DecidableEq, Repr, Inhabited

structure Parameters where
  redundancy : Redundancy := .allPrimary
  persistence : Persistence := .delete
  ackType : AckType := .rib
deriving DecidableEq, Repr, Inhabited

/-- A message that breaks a rule of the protocol whatever the state of the device. -/
inductive ProtocolFault where
  | entry (fault : EntryFault)
  | preserveWithoutElection
  | zeroElectionId
deriving DecidableEq, Repr

namespace ProtocolFault

def message : ProtocolFault → String
  | .entry fault => s!"invalid entry: {fault.message}"
  | .preserveWithoutElection =>
    "invalid session parameters: PRESERVE persistence requires SINGLE_ELECTED_PRIMARY redundancy"
  | .zeroElectionId => "invalid election id: election id must be greater than zero"

end ProtocolFault

namespace Redundancy

def word : Redundancy → String
  | .allPrimary => "ALL_PRIMARY"
  | .singleElectedPrimary => "SINGLE_ELECTED_PRIMARY"

def label : Redundancy → String
  | .allPrimary => "AllPrimary"
  | .singleElectedPrimary => "SingleElectedPrimary"

end Redundancy

namespace Persistence

def word : Persistence → String
  | .delete => "DELETE"
  | .preserve => "PRESERVE"

def label : Persistence → String
  | .delete => "Delete"
  | .preserve => "Preserve"

instance : ToString Persistence := ⟨word⟩

end Persistence

namespace AckType

def word : AckType → String
  | .rib => "RIB"
  | .ribAndFib => "RIB_AND_FIB"

def label : AckType → String
  | .rib => "Rib"
  | .ribAndFib => "RibAndFib"

end AckType

namespace Parameters

/-- Keeping entries beyond a session needs a single elected client that owns them. -/
def check (p : Parameters) : Except ProtocolFault Unit :=
  if p.persistence = .preserve ∧ p.redundancy ≠ .singleElectedPrimary then .error .preserveWithoutElection
  else .ok ()

def text (p : Parameters) : String :=
  s!"SessionParameters \x7b redundancy: {p.redundancy.label}, persistence: {p.persistence.label}, " ++
    s!"ack_type: {p.ackType.label} \x7d"

instance : ToString Parameters := ⟨text⟩

end Parameters

namespace ElectionId

/-- An id must be above zero when it is presented. -/
def check (e : ElectionId) : Except ProtocolFault Unit :=
  if e.isZero then .error .zeroElectionId else .ok ()

end ElectionId

namespace Entry

def validate (e : Entry) : Except ProtocolFault Unit := e.check.mapError .entry

end Entry

end RouteProgramming
