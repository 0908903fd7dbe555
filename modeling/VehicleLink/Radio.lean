import VehicleLink.Device
import VehicleLink.Duration

/-!
# The radio

What a transport asks of a radio and what a radio reports. A call only starts something; its
answer says whether the radio took it up, and what comes of it is reported by events. A radio is
any state that answers calls.
-/

namespace VehicleLink

/-- A request to the radio. -/
inductive Call where
  | scan (window : Nanos)
  | stopScan
  | connect (a : Address)
  | disconnect
  | discover
  | enableNotify (c : Characteristic)
  | write (c : Characteristic) (bytes : List UInt8)
  deriving DecidableEq

/-- A report of the radio. -/
inductive Event where
  | scanResult (d : Device)
  | scanComplete
  | linkUp
  | linkDown
  | servicesDiscovered (success : Bool)
  | writeComplete (success : Bool)
  | received (bytes : List UInt8)
  deriving DecidableEq

/-- What a radio makes of a call. -/
structure Answer where
  /-- Whether the radio took the request up. -/
  accepted : Bool
  /-- The events that it raises at once, in order. -/
  raised : List Event := []

/-- A radio: a state that answers calls. -/
class Radio (ρ : Type) where
  /-- Whether the host has a usable radio at all. -/
  available : ρ → Bool
  /-- The devices that are bonded with the host. -/
  bonded : ρ → List Device
  submit : Call → ρ → Answer × ρ

end VehicleLink
