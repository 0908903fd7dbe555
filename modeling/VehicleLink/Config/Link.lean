import VehicleLink.Config.Value
import VehicleLink.LinkSettings

/-!
# Link settings from a value

A table of settings by name, or a list of them in order. What is left out has its default; a value
of another kind is not converted. Unknown names are ignored.
-/

namespace VehicleLink.Config

/-- The settings in the order of a list. -/
inductive LinkField where
  | deviceName
  | outboundCapacity
  | maxFragment
  | writeDelay
  | scanWindow
  | pollInterval
  | fastPollInterval
  | automaticScan
  deriving DecidableEq

namespace LinkField

/-- All settings in order, each with its name. -/
def all : List (String × LinkField) :=
  [ ("device_name_prefix", .deviceName),
    ("outbound_capacity", .outboundCapacity),
    ("max_fragment_len", .maxFragment),
    ("inter_write_delay", .writeDelay),
    ("scan_window", .scanWindow),
    ("poll_interval", .pollInterval),
    ("fast_poll_interval", .fastPollInterval),
    ("automatic_scan", .automaticScan) ]

def ofName? (name : String) : Option LinkField := (all.find? (·.1 == name)).map (·.2)

end LinkField

def exactNat? : Value → Option Nat
  | .int n => if 0 ≤ n ∧ n < UInt64.size then some n.toNat else none
  | _ => none

def exactText? : Value → Option String
  | .text s => some s
  | _ => none

def exactBool? : Value → Option Bool
  | .bool b => some b
  | _ => none

def exactDuration? (v : Value) : Option Nanos := (exactText? v).bind Duration.parse?

/-- Takes the value of one setting. -/
def setLinkField (f : LinkField) (v : Value) (s : LinkSettings) : Option LinkSettings :=
  match f with
  | .deviceName => (exactText? v).map fun deviceName => { s with deviceName }
  | .outboundCapacity => (exactNat? v).map fun outboundCapacity => { s with outboundCapacity }
  | .maxFragment => (exactNat? v).map fun maxFragment => { s with maxFragment }
  | .writeDelay => (exactDuration? v).map fun writeDelay => { s with writeDelay }
  | .scanWindow => (exactDuration? v).map fun scanWindow => { s with scanWindow }
  | .pollInterval => (exactDuration? v).map fun pollInterval => { s with pollInterval }
  | .fastPollInterval => (exactDuration? v).map fun fastPollInterval => { s with fastPollInterval }
  | .automaticScan => (exactBool? v).map fun automaticScan => { s with automaticScan }

def setLinkFields : List (LinkField × Value) → LinkSettings → Option LinkSettings
  | [], s => some s
  | (f, v) :: rest, s => (setLinkField f v s).bind (setLinkFields rest)

/-- The settings that a value holds. -/
def linkSettings? : Value → Option LinkSettings
  | .table entries =>
    setLinkFields (entries.filterMap fun (name, v) => (LinkField.ofName? name).map (·, v)) {}
  | .list items =>
    if LinkField.all.length < items.length then none
    else setLinkFields ((LinkField.all.map (·.2)).zip items) {}
  | _ => none

end VehicleLink.Config
