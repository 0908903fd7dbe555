import VehicleLink.Device
import VehicleLink.Error

/-!
# Vehicle interfaces

The contract between a byte stream to a vehicle and whoever reads and writes messages on it. A
link that comes and goes is not an error: it shows in `isConnected` and in what reads and writes
return.
-/

namespace VehicleLink

/-- Counters on the health of a link. -/
structure Health where
  connected : Bool := false
  queued : Nat := 0
  submitted : Nat := 0
  acknowledged : Nat := 0
  failed : Nat := 0
  /-- Inbound bytes over all links. -/
  received : Nat := 0
  buffered : Nat := 0
  attempts : Nat := 0
  lastError : Option LinkError := none

/-- A byte stream to a vehicle. What an interface does not say about its data and its health is
that it has none. -/
class VehicleInterface (ι : Type) where
  /-- Asks for a connection, to one address only or to the best candidate. -/
  connect : Option Address → ι → ι
  disconnect : ι → ι
  isConnected : ι → Bool
  /-- Queues bytes; false means that none were queued. -/
  write : List UInt8 → ι → Bool × ι
  /-- Takes at most so many received bytes. -/
  read : Nat → ι → List UInt8 × ι
  hasData : ι → Bool := fun _ => false
  /-- Takes another address to insist on; tells whether the link has to be established anew. -/
  setTarget : Option String → ι → Except LinkError Bool × ι
  health : ι → Health := fun _ => {}

end VehicleLink
