import VehicleLink.Duration
import VehicleLink.Gatt

/-!
# Settings of a link
-/

namespace VehicleLink

structure LinkSettings where
  /-- How the name of a vehicle interface begins. -/
  deviceName : String := Gatt.deviceName
  outboundCapacity : Nat := Gatt.outboundCapacity
  maxFragment : Nat := Gatt.maxFragment
  /-- The least time between two fragments. -/
  writeDelay : Nanos := Duration.ofMillis 50
  scanWindow : Nanos := Duration.ofSeconds 10
  /-- The time between attempts while idle. -/
  pollInterval : Nanos := Duration.ofSeconds 5
  /-- The time between attempts after a loss. -/
  fastPollInterval : Nanos := Duration.ofSeconds 1
  /-- Whether candidates are ranked when no address is configured. -/
  automaticScan : Bool := true

/-- The settings with no time between fragments. -/
def LinkSettings.unpaced : LinkSettings := { writeDelay := 0 }

end VehicleLink
