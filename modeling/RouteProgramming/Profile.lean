import RouteProgramming.SchemaPath
import RouteProgramming.Table
import RouteProgramming.Text.Decimal
import RouteProgramming.TextFormat

/-!
Feature profiles: the configuration and telemetry paths that a feature needs of a device, and the
features it builds on. A profile is written as a message in text form.
-/

namespace RouteProgramming

open TextFormat

structure FeatureId where
  name : String
  version : UInt32
deriving DecidableEq, Repr

namespace FeatureId

def text (i : FeatureId) : String := s!"{i.name}/v{i.version.toNat}"

instance : ToString FeatureId := ⟨text⟩

/-! By name, then by version. -/

instance : Ord FeatureId := ⟨compareLex (compareOn name) (compareOn version)⟩

instance : Std.TransOrd FeatureId := inferInstanceAs (Std.TransCmp (compareLex (compareOn name) (compareOn version)))

instance : Std.LawfulEqOrd FeatureId where
  compare_self := (inferInstance : Std.ReflOrd FeatureId).compare_self
  eq_of_compare {a b} h := by
    cases a; cases b
    obtain ⟨hn, hv⟩ := Ordering.then_eq_eq.1 h
    cases Std.LawfulEqOrd.eq_of_compare (α := String) hn
    cases Std.LawfulEqOrd.eq_of_compare (α := UInt32) hv
    rfl

end FeatureId

structure Profile where
  id : FeatureId
  configPaths : List String
  telemetryPaths : List String
  dependencies : List FeatureId
deriving DecidableEq, Repr

/-! ### Errors -/

/-- What is wrong with a line of a profile's text. -/
inductive LineFault where
  | text (fault : TextFault)
  | notMessage (field : String)
  | notString (field : String)
  | badNumber (field : String) (cause : Text.Decimal.Malformed)
  | notInteger (field : String)
deriving DecidableEq, Repr

inductive ProfileError where
  /-- Line zero stands for a value of the wrong shape, whose line is not kept. -/
  | parse (line : Nat) (fault : LineFault)
  | invalidPath (path : String) (fault : SchemaPath.PathFault)
  | missingField (field : String)
  | unknownField (field context : String)
  | unreadable (path : String)
  | duplicate (id : FeatureId)
  | notFound (id : FeatureId)
  | missingDependency (profile missing : FeatureId)
  | dependencyCycle (path : List FeatureId)
deriving DecidableEq, Repr

namespace LineFault

def message : LineFault → String
  | .text fault => fault.message
  | .notMessage field => s!"{field} must be a message"
  | .notString field => s!"{field} must be a string"
  | .badNumber field cause => s!"{field}: {cause.message}"
  | .notInteger field => s!"{field} must be an integer"

end LineFault

namespace ProfileError

def message : ProfileError → String
  | .parse line fault => s!"Parse error at line {line}: {fault.message}"
  | .invalidPath path fault => s!"Invalid path {path}: {fault.message}"
  | .missingField field => s!"Missing field: {field}"
  | .unknownField field context => s!"Unknown field {field} in {context}"
  | .unreadable path => s!"Failed to read {path}"
  | .duplicate id => s!"Duplicate profile {id}"
  | .notFound id => s!"Profile {id} not found"
  | .missingDependency profile missing => s!"Profile {profile} depends on {missing} which is not loaded"
  | .dependencyCycle path => "Dependency cycle: " ++ " -> ".intercalate (path.map FeatureId.text)

end ProfileError

/-! ### Reading -/

namespace Profile

def messageOf (context : String) : Value → Except ProfileError Message
  | .message fields => .ok fields
  | .scalar _ _ => .error (.parse 0 (.notMessage context))

def stringOf (context : String) : Value → Except ProfileError String
  | .scalar text true => .ok text
  | _ => .error (.parse 0 (.notString context))

def versionOf (context : String) (line : Nat) : Value → Except ProfileError UInt32
  | .scalar text false =>
    match Text.Decimal.unsigned 4294967296 text.toList with
    | .ok n => .ok (UInt32.ofNat n)
    | .error cause => .error (.parse line (.badNumber context cause))
  | _ => .error (.parse line (.notInteger context))

/-- A value that a message must hold, or the name of the field that is missing. -/
def demand {α : Type} (field : String) : Option α → Except ProfileError α
  | some a => .ok a
  | none => .error (.missingField field)

/-- Of a field given more than once the last value counts. -/
def readId (context : String) (v : Value) : Except ProfileError FeatureId := do
  let fields ← messageOf context v
  let (name, version) ← fields.foldlM
    (fun (name, version) f =>
      match f.name with
      | "name" => (stringOf (context ++ ".name") f.value).map (some ·, version)
      | "version" => (versionOf (context ++ ".version") f.line f.value).map (name, some ·)
      | other => .error (.unknownField other context))
    ((none : Option String), (none : Option UInt32))
  return ⟨← demand (context ++ ".name") name, ← demand (context ++ ".version") version⟩

def readPath (context : String) (v : Value) : Except ProfileError String := do
  let fields ← messageOf context v
  let path ← fields.foldlM
    (fun _ f =>
      match f.name with
      | "path" => (stringOf (context ++ ".path") f.value).map some
      | other => .error (.unknownField other context))
    (none : Option String)
  demand (context ++ ".path") path

/-- A profile whose id has not been read yet. -/
structure Draft where
  id : Option FeatureId := none
  configPaths : List String := []
  telemetryPaths : List String := []
  dependencies : List FeatureId := []

def readField (d : Draft) (f : TextFormat.Field Value) : Except ProfileError Draft :=
  match f.name with
  | "id" => (readId "id" f.value).map ({ d with id := some · })
  | "config_path" =>
    (readPath "config_path" f.value).map (fun p => { d with configPaths := d.configPaths ++ [p] })
  | "telemetry_path" =>
    (readPath "telemetry_path" f.value).map (fun p => { d with telemetryPaths := d.telemetryPaths ++ [p] })
  | "feature_profile_dependency" =>
    (readId "feature_profile_dependency" f.value).map (fun i => { d with dependencies := d.dependencies ++ [i] })
  | other => .error (.unknownField other "FeatureProfile")

def ofMessage (m : Message) : Except ProfileError Profile := do
  let d ← m.foldlM readField {}
  return ⟨← demand "id" d.id, d.configPaths, d.telemetryPaths, d.dependencies⟩

def checkPaths : List String → Except ProfileError Unit
  | [] => .ok ()
  | path :: rest =>
    match SchemaPath.check path with
    | .ok () => checkPaths rest
    | .error fault => .error (.invalidPath path fault)

/-- A profile has a name and only valid paths. -/
def check (p : Profile) : Except ProfileError Unit :=
  if p.id.name.isEmpty then .error (.missingField "id.name")
  else checkPaths (p.configPaths ++ p.telemetryPaths)

/-- Reads a profile and checks it. -/
def parse (text : String) : Except ProfileError Profile :=
  match Message.parse text with
  | .error e => .error (.parse e.line (.text e.fault))
  | .ok m =>
    match ofMessage m with
    | .error e => .error e
    | .ok p => p.check.map (fun _ => p)

end Profile

/-! ### Support -/

/-- The paths of a profile that a device does not support. -/
structure SupportReport where
  profile : FeatureId
  unsupportedConfig : List String
  unsupportedTelemetry : List String
deriving DecidableEq, Repr

namespace SupportReport

def isFull (r : SupportReport) : Bool := r.unsupportedConfig.isEmpty && r.unsupportedTelemetry.isEmpty

end SupportReport

namespace Profile

/-- The paths that no supported path covers, in order. -/
def uncovered (supported : List String) (paths : List String) : List String :=
  paths.filter (fun p => !supported.any (SchemaPath.covers · p))

def support (p : Profile) (supported : List String) : SupportReport :=
  ⟨p.id, uncovered supported p.configPaths, uncovered supported p.telemetryPaths⟩

end Profile

end RouteProgramming
