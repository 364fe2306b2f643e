import RouteProgramming.Parameters

/-!
Operations on entries, the queue in which a batch waits, and the acknowledgment that every
operation gets.
-/

namespace RouteProgramming

/-- `add` writes an entry whether or not it is there, `replace` and `delete` need it to be there. -/
inductive OperationType where
  | add | replace | delete
deriving DecidableEq, Repr

structure Operation where
  /-- Chosen by the client, increasing within a session. -/
  id : UInt64
  networkInstance : String
  op : OperationType
  entry : Entry
  electionId : Option ElectionId := none
deriving DecidableEq, Repr

/-- What became of an operation. -/
inductive Outcome where
  | failed | installedInRib | installedInFib
deriving DecidableEq, Repr

structure Acknowledgment where
  id : UInt64
  op : OperationType
  key : EntryKey
  outcome : Outcome
  /-- Nanoseconds since 1970; zero where no clock is at hand. -/
  timestamp : Int64 := 0
  error : Option String := none
deriving DecidableEq, Repr

namespace OperationType

def word : OperationType → String
  | .add => "ADD"
  | .replace => "REPLACE"
  | .delete => "DELETE"

instance : ToString OperationType := ⟨word⟩

end OperationType

namespace Operation

def key (o : Operation) : EntryKey := o.entry.key

def text (o : Operation) : String := s!"#{o.id.toNat} {o.op} {o.key} in {o.networkInstance}"

instance : ToString Operation := ⟨text⟩

end Operation

namespace Outcome

def word : Outcome → String
  | .failed => "FAILED"
  | .installedInRib => "INSTALLED_IN_RIB"
  | .installedInFib => "INSTALLED_IN_FIB"

def text : Outcome → String
  | .failed => "FAILED"
  | .installedInRib => "RIB_PROGRAMMED"
  | .installedInFib => "FIB_PROGRAMMED"

instance : ToString Outcome := ⟨text⟩

def isInstalled : Outcome → Bool
  | .failed => false
  | _ => true

end Outcome

namespace Acknowledgment

def text (a : Acknowledgment) : String :=
  s!"#{a.id.toNat} {a.op} {a.key} -> {a.outcome}" ++
    match a.error with
    | some e => s!" ({e})"
    | none => ""

instance : ToString Acknowledgment := ⟨text⟩

end Acknowledgment

/-- Operations that wait, oldest first. Several operations on one key all stay. -/
structure OperationQueue where
  pending : List Operation := []
deriving DecidableEq, Repr

namespace OperationQueue

def push (q : OperationQueue) (batch : List Operation) : OperationQueue := ⟨q.pending ++ batch⟩

/-- Everything that waits, and the empty queue. -/
def drain (q : OperationQueue) : List Operation × OperationQueue := (q.pending, ⟨[]⟩)

def clear (_ : OperationQueue) : OperationQueue := ⟨[]⟩

def size (q : OperationQueue) : Nat := q.pending.length

def isEmpty (q : OperationQueue) : Bool := q.pending.isEmpty

end OperationQueue

end RouteProgramming
