import VehicleLink.Worker.Adapter

/-!
# A scripted adapter

An adapter without hardware, whose answers are written down beforehand. It keeps a record of the
requests.
-/

namespace VehicleLink

/-- How a scripted connection attempt ends. -/
inductive ConnectScript where
  | succeeds
  | fails
  /-- It never ends by itself, so the limit ends it. -/
  | hangs
  deriving DecidableEq

/-- A peripheral and its answers; what is not said otherwise succeeds. -/
structure ScriptedPeripheral where
  id : String
  address : Address
  name : Option String := none
  services : List Uuid := []
  /-- Its characteristics, each with its service. -/
  characteristics : List (Uuid × Uuid) := []
  connect : ConnectScript := .succeeds
  disconnect : Bool := true
  discover : Bool := true
  write : Bool := true
  subscribe : Bool := true
  notifications : Bool := true
  /-- Whether it tells what it advertises. -/
  properties : Bool := true

/-- An adapter whose answers are written down. -/
structure ScriptedAdapter where
  peripherals : List ScriptedPeripheral := []
  reports : Bool := true
  startScan : Bool := true
  stopScan : Bool := true
  /-- Whether it lists its peripherals. -/
  listing : Bool := true
  requests : List Request := []

namespace ScriptedAdapter

def find (id : String) (a : ScriptedAdapter) : Option ScriptedPeripheral :=
  a.peripherals.find? (·.id == id)

/-- What a peripheral answers; one that is not there answers nothing. -/
def answer (id : String) (f : ScriptedPeripheral → Bool) (a : ScriptedAdapter) : Bool :=
  (a.find id).any f

def respond (r : Request) (a : ScriptedAdapter) : Bool :=
  match r with
  | .startScan => a.startScan
  | .stopScan => a.stopScan
  | .connect id _ => a.answer id fun p => p.connect == .succeeds
  | .disconnect id => a.answer id (·.disconnect)
  | .discover id => a.answer id (·.discover)
  | .subscribe id _ => a.answer id (·.subscribe)
  | .notifications id => a.answer id (·.notifications)
  | .write id _ _ => a.answer id (·.write)

instance : Adapter ScriptedAdapter where
  reports := reports
  request r a := (a.respond r, { a with requests := a.requests ++ [r] })
  peripherals a := if a.listing then some (a.peripherals.map fun p => ⟨p.id, p.address⟩) else none
  advertisement id a :=
    ((a.find id).filter (·.properties)).map fun p => ⟨p.address, p.name, p.services⟩
  characteristics id a := ((a.find id).map (·.characteristics)).getD []

/-- Changes the answers of a peripheral. -/
def adjust (id : String) (f : ScriptedPeripheral → ScriptedPeripheral) (a : ScriptedAdapter) :
    ScriptedAdapter :=
  { a with peripherals := a.peripherals.map fun p => if p.id == id then f p else p }

/-- The record with an empty one left behind. -/
def takeRequests (a : ScriptedAdapter) : List Request × ScriptedAdapter :=
  (a.requests, { a with requests := [] })

end ScriptedAdapter

end VehicleLink
