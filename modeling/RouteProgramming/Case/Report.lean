import RouteProgramming.Client.Received
import RouteProgramming.Parameters
import RouteProgramming.Testbed.Tester

/-!
The report of one case: how it ended, which checks failed, and what the client received and the
traffic generator counted.
-/

namespace RouteProgramming

inductive CaseOutcome where
  | passed
  /-- The case ran to its end, but a check failed. -/
  | failed
  /-- The case stopped early. -/
  | fatal (reason : String)
deriving DecidableEq, Repr, Inhabited

namespace CaseOutcome

def isPassed (o : CaseOutcome) : Bool := o == .passed

def text : CaseOutcome → String
  | .passed => "PASS"
  | .failed => "FAIL"
  | .fatal reason => s!"FATAL ({reason})"

end CaseOutcome

/-- A check that failed. -/
structure FailedCheck where
  check : String
  message : String
deriving DecidableEq, Repr

structure CaseReport where
  name : String
  description : String
  persistence : Persistence
  outcome : CaseOutcome := .passed
  failures : List FailedCheck := []
  results : List Received := []
  flows : List FlowCounters := []
  durationMs : Nat := 0
deriving DecidableEq, Repr

namespace CaseReport

def isPassed (r : CaseReport) : Bool := r.outcome.isPassed

/-- Sets the outcome: fatal with the reason why the case stopped early, else by the failed checks. -/
def finish (r : CaseReport) (fatal : Option String) (durationMs : Nat) : CaseReport :=
  { r with
    durationMs
    outcome := match fatal with
      | some reason => .fatal reason
      | none => if r.failures.isEmpty then .passed else .failed }

end CaseReport

end RouteProgramming
