import RouteProgramming.FileTree
import RouteProgramming.Text.Decimal
import RouteProgramming.Text.Span
import RouteProgramming.Toml

/-!
Settings of the suite: how a device deviates from the reference, how long to wait, and how much
traffic to send. Every setting has a default. The file form is TOML, in which settings that nobody
knows are passed over.
-/

namespace RouteProgramming

/-- Known differences between a device and the reference. -/
structure Deviations where
  defaultNetworkInstance : String := "DEFAULT"
  /-- The device acknowledges the RIB only. -/
  ribAckOnly : Bool := false
  /-- The device knows no persistence but `preserve`. -/
  preserveOnly : Bool := false
  /-- Interfaces must be enabled explicitly. -/
  interfaceEnabled : Bool := false
deriving DecidableEq, Repr, Inhabited

structure Timing where
  /-- The bound on every wait for acknowledgments. -/
  awaitSeconds : UInt64 := 120
deriving DecidableEq, Repr, Inhabited

structure TrafficSettings where
  durationMs : UInt64 := 15000
  /-- Frames per second of every flow. -/
  ratePps : UInt64 := 1000
deriving DecidableEq, Repr, Inhabited

structure SuiteConfig where
  deviations : Deviations := {}
  timing : Timing := {}
  traffic : TrafficSettings := {}
deriving DecidableEq, Repr, Inhabited

inductive ConfigFault where
  | unreadable
  | malformed
  | noDefaultNetworkInstance
  | noAwaitTime
  | noRate
deriving DecidableEq, Repr

namespace ConfigFault

def message : ConfigFault → String
  | .unreadable => "cannot be read"
  | .malformed => "cannot be parsed"
  | .noDefaultNetworkInstance => "default_network_instance must not be empty"
  | .noAwaitTime => "await_timeout_secs must be > 0"
  | .noRate => "rate_pps must be > 0"

end ConfigFault

namespace SuiteConfig

def awaitMs (c : SuiteConfig) : Nat := c.timing.awaitSeconds.toNat * 1000

def trafficMs (c : SuiteConfig) : Nat := c.traffic.durationMs.toNat

def check (c : SuiteConfig) : Except ConfigFault Unit :=
  if c.deviations.defaultNetworkInstance.isEmpty then .error .noDefaultNetworkInstance
  else if c.timing.awaitSeconds = 0 then .error .noAwaitTime
  else if c.traffic.ratePps = 0 then .error .noRate
  else .ok ()

/-! ### Reading -/

def readString : Toml.Value → Option String
  | .string s => some s
  | _ => none

def readBool : Toml.Value → Option Bool
  | .boolean b => some b
  | _ => none

def readWord : Toml.Value → Option UInt64
  | .integer n => if 0 ≤ n ∧ n < 18446744073709551616 then some (UInt64.ofNat n.toNat) else none
  | _ => none

/-- A setting that may be missing. -/
def setting {α : Type} (read : Toml.Value → Option α) (fallback : α) : Option Toml.Value → Option α
  | none => some fallback
  | some v => read v

def readDeviations (v : Toml.Value) : Option Deviations := do
  let [instance?, ribAckOnly, preserveOnly, interfaceEnabled] ←
    v.record? ["default_network_instance", "gribi_rib_ack_only", "gribi_preserve_only", "interface_enabled"] | none
  return ⟨← setting readString "DEFAULT" instance?, ← setting readBool false ribAckOnly,
    ← setting readBool false preserveOnly, ← setting readBool false interfaceEnabled⟩

def readTiming (v : Toml.Value) : Option Timing := do
  let [awaitSeconds] ← v.record? ["await_timeout_secs"] | none
  return ⟨← setting readWord 120 awaitSeconds⟩

def readTraffic (v : Toml.Value) : Option TrafficSettings := do
  let [durationMs, ratePps] ← v.record? ["duration_ms", "rate_pps"] | none
  return ⟨← setting readWord 15000 durationMs, ← setting readWord 1000 ratePps⟩

def read (v : Toml.Value) : Option SuiteConfig := do
  let [deviations, timing, traffic] ← v.record? ["deviations", "timing", "traffic"] | none
  return ⟨← setting readDeviations {} deviations, ← setting readTiming {} timing, ← setting readTraffic {} traffic⟩

def parse (text : String) : Except ConfigFault SuiteConfig :=
  match (Toml.parse text).bind read with
  | some c => .ok c
  | none => .error .malformed

/-- Reads a file; one that is not there stands for the defaults. -/
def load : Option FileTree → Except ConfigFault SuiteConfig
  | none => .ok {}
  | some (.file (some text)) => parse text
  | some _ => .error .unreadable

/-! ### Writing -/

def boolText (b : Bool) : String := if b then "true" else "false"

def wordText (n : UInt64) : String := Text.Decimal.text n.toNat

def lines (c : SuiteConfig) : List String := [
  "[deviations]",
  "default_network_instance = " ++ Toml.quote c.deviations.defaultNetworkInstance,
  "gribi_rib_ack_only = " ++ boolText c.deviations.ribAckOnly,
  "gribi_preserve_only = " ++ boolText c.deviations.preserveOnly,
  "interface_enabled = " ++ boolText c.deviations.interfaceEnabled,
  "",
  "[timing]",
  "await_timeout_secs = " ++ wordText c.timing.awaitSeconds,
  "",
  "[traffic]",
  "duration_ms = " ++ wordText c.traffic.durationMs,
  "rate_pps = " ++ wordText c.traffic.ratePps]

/-- Every setting, the defaults included. -/
def text (c : SuiteConfig) : String := String.join (c.lines.map (· ++ "\n"))

end SuiteConfig

end RouteProgramming
