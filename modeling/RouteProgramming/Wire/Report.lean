import RouteProgramming.Suite.Report
import RouteProgramming.Case
import RouteProgramming.Wire.Profile
import RouteProgramming.Wire.Received
import RouteProgramming.Wire.Testbed

/-!
JSON form of the reports.
-/

namespace RouteProgramming.Wire

open Codec

/-- The words for the cases. -/
def cases : List (String × Case) := [
  ("ModifyNhg", .group),
  ("ModifyIpv4Nhg", .routeBeforeGroup),
  ("ModifyNhgIpv4", .groupBeforeRoute),
  ("ModifyIpv4AddDelAdd", .addDeleteAdd)]

def encodeOutcome : CaseOutcome → Json
  | .passed => .obj [("status", .str "passed")]
  | .failed => .obj [("status", .str "failed")]
  | .fatal reason => .obj [("status", .str "fatal"), ("reason", .str reason)]

def encodeCheck (c : FailedCheck) : Json := .obj [("check", .str c.check), ("message", .str c.message)]

/-- A case with results and flows in the given forms. -/
def caseFields (result : Received → Json) (flow : FlowCounters → Json) (r : CaseReport) : List (String × Json) := [
  ("name", encode r.name),
  ("description", encode r.description),
  ("persistence", encode r.persistence),
  ("outcome", encodeOutcome r.outcome),
  ("failures", .arr (r.failures.map encodeCheck)),
  ("results", .arr (r.results.map result)),
  ("flows", .arr (r.flows.map flow)),
  ("duration_ms", .int r.durationMs)]

def encodeCase (r : CaseReport) : Json := .obj (caseFields encode encodeCounters r)

/-- A case with the texts of its results and outcome and the loss of its flows. -/
def encodeCaseResult (r : CaseReport) : Json :=
  .obj (caseFields encodeReceived encodeFlow r ++
    [("outcome_text", .str r.outcome.text), ("passed", .bool r.isPassed)])

def encodeRun (r : PersistenceRun) : Json := .obj [
  ("persistence", encode r.persistence),
  ("skipped", encode r.skipped),
  ("cases", .arr (r.cases.map encodeCase))]

def encodeReport (r : SuiteReport) : Json := .obj [
  ("started_at", .str r.startedAt.text),
  ("runs", .arr (r.runs.map encodeRun)),
  ("profiles", .arr (r.profiles.map encodeSupport))]

/-- A line of a report without the time at its end. -/
def untimedLine (line : String) : String :=
  match line.toList.reverse with
  | ')' :: 's' :: 'm' :: ' ' :: cs =>
    match cs.dropWhile Char.isDigit with
    | '(' :: ' ' :: cs => String.ofList cs.reverse
    | _ => line
  | _ => line

end RouteProgramming.Wire
