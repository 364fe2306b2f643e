import RouteProgramming.Case.Report
import RouteProgramming.Profile
import RouteProgramming.Timestamp

/-!
The report of the whole suite and its text: a line for each case, below it a line for each check that
failed, then a line for each profile, and last how many cases passed.
-/

namespace RouteProgramming

/-- All cases under one persistence. -/
structure PersistenceRun where
  persistence : Persistence
  /-- Why the cases were left out. -/
  skipped : Option String := none
  cases : List CaseReport := []
deriving DecidableEq, Repr

namespace PersistenceRun

def isPassed (r : PersistenceRun) : Bool := r.cases.all CaseReport.isPassed

end PersistenceRun

structure SuiteReport where
  startedAt : Timestamp
  runs : List PersistenceRun := []
  profiles : List SupportReport := []
deriving DecidableEq, Repr

namespace SuiteReport

/-- The cases of all runs. -/
def cases (r : SuiteReport) : List CaseReport := r.runs.flatMap (·.cases)

/-- Whether every case that ran passed. What profiles lack does not count. -/
def isPassed (r : SuiteReport) : Bool := r.runs.all PersistenceRun.isPassed

def passedCount (r : SuiteReport) : Nat := r.cases.countP CaseReport.isPassed

/-! ### Text -/

/-- Names are filled up with blanks to 28 characters. -/
def column (name : String) : String := name ++ String.ofList (List.replicate (28 - name.length) ' ')

def caseLines (c : CaseReport) : List String :=
  let name := column c.name
  s!"  {name} {c.outcome.text} ({c.durationMs} ms)" :: c.failures.map (fun f => s!"    {f.check}: {f.message}")

def runLines (r : PersistenceRun) : List String :=
  s!"Persistence={r.persistence}" ::
    match r.skipped with
    | some reason => [s!"  SKIP: {reason}"]
    | none => r.cases.flatMap caseLines

def profileLine (p : SupportReport) : String :=
  let config := p.unsupportedConfig.length
  let telemetry := p.unsupportedTelemetry.length
  s!"Profile {p.profile.text}: {config} unsupported config, {telemetry} unsupported telemetry paths"

def lines (r : SuiteReport) : List String :=
  r.runs.flatMap runLines ++ r.profiles.map profileLine ++ [s!"{r.passedCount}/{r.cases.length} cases passed"]

def text (r : SuiteReport) : String := "\n".intercalate r.lines

end SuiteReport

end RouteProgramming
