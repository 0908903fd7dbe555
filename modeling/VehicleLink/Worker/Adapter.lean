import VehicleLink.Device
import VehicleLink.Duration

/-!
# Bluetooth adapters

What a worker asks of the host's adapter. A request starts to act and tells whether it succeeded;
a query only looks. An adapter is any state that answers them.
-/

namespace VehicleLink

/-- A remote device as the adapter knows it. -/
structure Peripheral where
  /-- The adapter's own name for it. -/
  id : String
  address : Address
  deriving DecidableEq

structure Advertisement where
  address : Address
  name : Option String
  services : List Uuid

/-- A request to the adapter or, through it, to a peripheral. -/
inductive Request where
  | startScan
  | stopScan
  /-- A connection that has failed if it is not there within the limit. -/
  | connect (id : String) (limit : Nanos)
  | disconnect (id : String)
  | discover (id : String)
  | subscribe (id : String) (characteristic : Uuid)
  /-- Opens a stream of the notifications of a peripheral. -/
  | notifications (id : String)
  | write (id : String) (characteristic : Uuid) (bytes : List UInt8)
  deriving DecidableEq

/-- A report of the adapter about a peripheral. -/
inductive AdapterEvent where
  | discovered (id : String)
  | updated (id : String)
  | connected (id : String)
  | disconnected (id : String)
  deriving DecidableEq

/-- An adapter: a state that answers requests and queries. -/
class Adapter (α : Type) where
  /-- Whether its reports can be subscribed to. -/
  reports : α → Bool
  request : Request → α → Bool × α
  /-- The peripherals it knows, in order. -/
  peripherals : α → Option (List Peripheral)
  advertisement : String → α → Option Advertisement
  /-- The characteristics of a peripheral, each with its service. -/
  characteristics : String → α → List (Uuid × Uuid)

end VehicleLink
