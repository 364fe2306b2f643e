import RouteProgramming.Message

/-!
What a client has received: the answer to its parameters, an election id, or an acknowledgment. All
three are kept in one list and share one type, in which fields that do not apply are empty. The same
type serves as a pattern, whose empty fields match anything.
-/

namespace RouteProgramming

structure Received where
  /-- Nanoseconds since 1970; zero where no clock is at hand. -/
  timestamp : Int64 := 0
  operationId : Option UInt64 := none
  op : Option OperationType := none
  key : Option EntryKey := none
  outcome : Option Outcome := none
  params : Option ParametersResult := none
  electionId : Option ElectionId := none
  details : Option String := none
deriving DecidableEq, Repr, Inhabited

namespace Received

def ofAcknowledgment (a : Acknowledgment) : Received where
  timestamp := a.timestamp
  operationId := some a.id
  op := some a.op
  key := some a.key
  outcome := some a.outcome
  details := a.error

/-- Name and text of a field that is set. -/
def part {α : Type} [ToString α] (name : String) (field : Option α) : List String :=
  field.toList.map (fun a => s!"{name}={a}")

def text (r : Received) : String :=
  let parts :=
    part "id" (r.operationId.map UInt64.toNat) ++ part "op" r.op ++ part "entry" r.key ++
      part "result" r.outcome ++ part "params" r.params ++ part "election_id" r.electionId ++
      part "details" r.details
  "<" ++ ", ".intercalate parts ++ ">"

instance : ToString Received := ⟨text⟩

/-! ### Matching -/

def fits {α : Type} [DecidableEq α] (got want : Option α) : Bool := want.isNone || got == want

/-- Whether every field set in `want` is the same in `got`. Timestamp and details do not count. -/
def fitsPattern (got want : Received) : Bool :=
  fits got.operationId want.operationId && fits got.op want.op && fits got.key want.key &&
    fits got.outcome want.outcome && fits got.params want.params && fits got.electionId want.electionId

end Received

/-- No result fits the pattern. -/
structure NoMatch where
  want : Received
  got : List Received
deriving DecidableEq, Repr

namespace NoMatch

def message (e : NoMatch) : String :=
  let got := ", ".intercalate (e.got.map Received.text)
  s!"did not find result {e.want} in {e.got.length} results: [{got}]"

end NoMatch

namespace Received

def expect (results : List Received) (want : Received) : Except NoMatch Unit :=
  if results.any (·.fitsPattern want) then .ok () else .error ⟨want, results⟩

end Received

end RouteProgramming
