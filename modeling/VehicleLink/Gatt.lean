import VehicleLink.Uuid

/-!
# The service of a vehicle interface

The attributes that an OpenXC vehicle interface exposes: one service with a characteristic to
write to and one that notifies, and the limits of the link.
-/

namespace VehicleLink

/-- The two characteristics of the service, by their role. -/
inductive Characteristic where
  /-- Outbound fragments are written to it. -/
  | write
  /-- Inbound fragments are notified on it. -/
  | notify
  deriving DecidableEq

namespace Gatt

/-- The service that every vehicle interface exposes. -/
def service : Uuid :=
  ⟨[0x68, 0x00, 0xd3, 0x8b, 0x42, 0x3d, 0x4b, 0xdb,
    0xba, 0x05, 0xc9, 0x27, 0x6d, 0x84, 0x53, 0xe1]⟩

/-- The identifier of each characteristic of the service. -/
def characteristic : Characteristic → Uuid
  | .write =>
    ⟨[0x68, 0x00, 0xd3, 0x8b, 0x52, 0x62, 0x11, 0xe5,
      0x88, 0x5d, 0xfe, 0xff, 0x81, 0x9c, 0xdc, 0xe2]⟩
  | .notify =>
    ⟨[0x68, 0x00, 0xd3, 0x8b, 0x52, 0x62, 0x11, 0xe5,
      0x88, 0x5d, 0xfe, 0xff, 0x81, 0x9c, 0xdc, 0xe3]⟩

/-- The most bytes that one write to a characteristic carries. -/
def maxFragment : Nat := 20

/-- How many outbound bytes are queued at most, unless configured otherwise. -/
def outboundCapacity : Nat := 1024

/-- How the advertised name of a vehicle interface begins. -/
def deviceName : String := "OpenXC"

end Gatt

end VehicleLink
