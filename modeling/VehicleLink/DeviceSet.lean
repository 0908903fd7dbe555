import VehicleLink.Address.Set

/-!
# Remembered devices

The address that a link was last established to, and every address worth trying again.
-/

namespace VehicleLink

/-- What is remembered from one run to the next. -/
structure DeviceSet where
  lastConnected : Option Address := none
  known : AddressSet := {}
  deriving DecidableEq, Inhabited

namespace DeviceSet

/-- Records that a link was established. -/
def recordConnected (a : Address) (d : DeviceSet) : DeviceSet :=
  ⟨some a, d.known.insert a⟩

/-- Adds an address worth trying. -/
def remember (a : Address) (d : DeviceSet) : DeviceSet := { d with known := d.known.insert a }

/-- Whether recording a link to an address changes anything. -/
def newlyConnected (a : Address) (d : DeviceSet) : Bool :=
  a ∉ d.known || d.lastConnected ≠ some a

end DeviceSet

end VehicleLink
