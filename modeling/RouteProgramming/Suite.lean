import RouteProgramming.Case.Run
import RouteProgramming.Profile.Registry
import RouteProgramming.Suite.Report

/-!
The suite: all cases on one testbed, once for each persistence asked for, and beside them the feature
profiles, of which the device's gaps are reported.
-/

namespace RouteProgramming

structure Suite where
  config : SuiteConfig
  testbed : Testbed
deriving DecidableEq, Repr

namespace Suite

/-- Checks the settings, then sets up the testbed. -/
def create (config : SuiteConfig) : Except SuiteError Suite := do
  config.check.mapError .config
  return { config, testbed := ← (Testbed.create config).mapError .testbed }

/-- Runs cases one after the other on one testbed. -/
def runCases (s : Suite) (persistence : Persistence) : List Case → List CaseReport × Suite
  | [] => ([], s)
  | case :: rest =>
    let (report, testbed) := s.testbed.runCase s.config persistence case
    let (reports, s) := runCases { s with testbed } persistence rest
    (report :: reports, s)

/-- Whether the device cannot do what a run needs. -/
def skips (s : Suite) (persistence : Persistence) : Bool :=
  persistence == .delete && s.config.deviations.preserveOnly

def runPersistence (s : Suite) (persistence : Persistence) : PersistenceRun × Suite :=
  if s.skips persistence then
    ({ persistence, skipped := some "Skipping due to gribi_preserve_only deviation" }, s)
  else
    let (cases, s) := s.runCases persistence Case.all
    ({ persistence, cases }, s)

def run (s : Suite) : List Persistence → List PersistenceRun × Suite
  | [] => ([], s)
  | persistence :: rest =>
    let (first, s) := s.runPersistence persistence
    let (others, s) := run s rest
    (first :: others, s)

/-- What the device does not support of each profile, if every profile has its dependencies. -/
def checkProfiles (r : Registry) : Except SuiteError (List SupportReport) :=
  match r.problems with
  | e :: _ => .error (.profile e)
  | [] => .ok (r.support Device.supportedPaths)

end Suite

end RouteProgramming
