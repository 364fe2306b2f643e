import RouteProgramming.FileTree
import RouteProgramming.Profile.Bundled
import RouteProgramming.Suite
import RouteProgramming.Wire.Report

/-!
The command line of the suite. An option takes its value attached or from the next word, no option may
be given twice, and words that belong to no option are refused. A run prints its report, and its exit
code says whether all cases passed, a case failed, or the suite could not run at all.
-/

namespace RouteProgramming

/-- An option that takes a value. -/
inductive Setting where
  | config | persistence | profileFolder | logLevel
deriving DecidableEq, Repr

namespace Setting

def ofName? : String → Option Setting
  | "config" => some .config
  | "persistence" => some .persistence
  | "profile-dir" => some .profileFolder
  | "log-level" => some .logLevel
  | _ => none

def ofLetter? : Char → Option Setting
  | 'c' => some .config
  | 'p' => some .persistence
  | 'l' => some .logLevel
  | _ => none

end Setting

/-! ### Words -/

/-- One word of the command line. -/
inductive Word where
  | help | version | json
  | setting (s : Setting) (value : Option String)
  /-- No options follow. -/
  | separator
  | plain (text : String)
  | unknown
deriving DecidableEq, Repr

namespace Word

/-- A word after two dashes: a name, with its value after an equals sign. -/
def long (cs : List Char) : Word :=
  let name := String.ofList (cs.takeWhile (· ≠ '='))
  match cs.dropWhile (· ≠ '='), name with
  | [], "help" => .help
  | [], "version" => .version
  | [], "json" => .json
  | [], name => (Setting.ofName? name).elim .unknown (.setting · none)
  | _ :: value, name => (Setting.ofName? name).elim .unknown (.setting · (some (String.ofList value)))

/-- A word after one dash: a letter, with its value right behind it or after an equals sign. -/
def short (c : Char) (cs : List Char) : Word :=
  match c, cs with
  | 'h', _ => .help
  | 'V', _ => .version
  | c, [] => (Setting.ofLetter? c).elim .unknown (.setting · none)
  | c, '=' :: value => (Setting.ofLetter? c).elim .unknown (.setting · (some (String.ofList value)))
  | c, value => (Setting.ofLetter? c).elim .unknown (.setting · (some (String.ofList value)))

def ofString (s : String) : Word :=
  match s.toList with
  | ['-', '-'] => .separator
  | '-' :: '-' :: cs => long cs
  | '-' :: c :: cs => short c cs
  | _ => .plain s

end Word

/-! ### Arguments -/

/-- What the options of a run have been set to. -/
structure Arguments where
  config : Option String := none
  modes : Option (List Persistence) := none
  profileFolder : Option String := none
  logLevel : Option String := none
  json : Bool := false
deriving DecidableEq, Repr

inductive Command where
  | help | version
  | run (a : Arguments)
deriving DecidableEq, Repr

namespace Arguments

/-- Both kinds of persistence, in the order in which they run. -/
def bothModes : List Persistence := [.preserve, .delete]

def modesNamed? : String → Option (List Persistence)
  | "preserve" => some [.preserve]
  | "delete" => some [.delete]
  | "both" => some bothModes
  | _ => none

/-- Sets what is not set yet. -/
def once {α : Type} (old new : Option α) : Option (Option α) := if old.isSome || new.isNone then none else some new

/-- A path has at least one character. -/
def path? (s : String) : Option String := if s.isEmpty then none else some s

def set (a : Arguments) (value : String) : Setting → Option Arguments
  | .config => (once a.config (path? value)).map ({ a with config := · })
  | .persistence => (once a.modes (modesNamed? value)).map ({ a with modes := · })
  | .profileFolder => (once a.profileFolder (path? value)).map ({ a with profileFolder := · })
  | .logLevel => (once a.logLevel (some value)).map ({ a with logLevel := · })

/-- Reads words from left to right. The first that asks for a page decides, unless one before it was
refused. `waiting` is an option whose value comes next. -/
def read (a : Arguments) (waiting : Option Setting) : List String → Option Command
  | [] => if waiting.isNone then some (.run a) else none
  | word :: rest =>
    match waiting, Word.ofString word with
    | some s, .plain value => (a.set value s).bind (read · none rest)
    | some _, _ => none
    | none, .help => some .help
    | none, .version => some .version
    | none, .json => if a.json then none else read { a with json := true } none rest
    | none, .setting s none => read a (some s) rest
    | none, .setting s (some value) => (a.set value s).bind (read · none rest)
    | none, .separator => if rest.isEmpty then some (.run a) else none
    | none, .plain _ | none, .unknown => none

/-- Where the settings of the suite are. -/
def configPath (a : Arguments) : String := a.config.getD "ordering-ack.toml"

/-- Runs the suite with the files that are there. -/
def perform (a : Arguments) (fileAt : String → Option FileTree) (startedAt : Timestamp) :
    Except SuiteError SuiteReport := do
  let config ← (SuiteConfig.load (fileAt a.configPath)).mapError .config
  let suite ← Suite.create config
  let registry ← match a.profileFolder with
    | none => pure Registry.bundled
    | some folder => (Registry.load (fileAt folder)).mapError .profile
  let profiles ← Suite.checkProfiles registry
  return { startedAt, runs := (suite.run (a.modes.getD bothModes)).1, profiles }

end Arguments

/-! ### Output -/

/-- What is printed. -/
inductive Printed where
  | nothing
  | page (lines : List String)
  | report (r : SuiteReport)
  | json (r : SuiteReport)
deriving Repr

namespace Printed

def text : Printed → String
  | .nothing => ""
  | .page lines => String.join (lines.map (· ++ "\n"))
  | .report r => r.text ++ "\n"
  | .json r => (Wire.encodeReport r).pretty ++ "\n"

end Printed

namespace Command

def parse (words : List String) : Option Command := Arguments.read {} none words

def versionPage : List String := ["ordering-ack 0.1.0"]

def helpPage : List String := [
  "gRIBI operation ordering and acknowledgment conformance suite",
  "",
  "Usage: ordering-ack [OPTIONS]",
  "",
  "Options:",
  "  -c, --config <CONFIG>            Suite configuration file (TOML) [default: ordering-ack.toml]",
  "  -p, --persistence <PERSISTENCE>  Persistence modes to run [default: both] " ++
    "[possible values: preserve, delete, both]",
  "      --profile-dir <PROFILE_DIR>  Directory of feature profiles to check against the DUT",
  "  -l, --log-level <LOG_LEVEL>      Log level (trace, debug, info, warn, error) [default: info]",
  "      --json                       Print the report as JSON",
  "  -h, --help                       Print help",
  "  -V, --version                    Print version"]

/-- Carries out a command: the exit code and what is printed. Without a command there is nothing to do. -/
def execute (fileAt : String → Option FileTree) (startedAt : Timestamp) : Option Command → UInt32 × Printed
  | none => (2, .nothing)
  | some .help => (0, .page helpPage)
  | some .version => (0, .page versionPage)
  | some (.run a) =>
    match a.perform fileAt startedAt with
    | .error _ => (2, .nothing)
    | .ok r => (if r.isPassed then 0 else 1, if a.json then .json r else .report r)

end Command

end RouteProgramming
