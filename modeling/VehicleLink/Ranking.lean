import VehicleLink.Device
import VehicleLink.DeviceSet

/-!
# Ranking of candidates

The order in which candidates are tried: bonded low-energy devices with the right name, then the
remembered ones, then the vehicle interfaces that the last scan saw; each address once, where it
comes first. The device that a link was last established to goes to the front.
-/

namespace VehicleLink.Ranking

/-- Bonded low-energy devices with the right name. -/
def paired (start : String) (bonded : List Device) : List Candidate :=
  (bonded.filter fun d => d.nameBegins start && d.link == .le).map (Candidate.ofDevice .paired)

/-- Remembered addresses, ascending. -/
def remembered (devices : DeviceSet) : List Candidate :=
  devices.known.toList.map Candidate.persisted

/-- Vehicle interfaces among the observed devices. -/
def scanned (start : String) (observed : List Device) : List Candidate :=
  (observed.filter fun d => d.isVehicleInterface start).map (Candidate.ofDevice .scan)

/-- Moves the first candidate with an address to the front; without one the list stays. -/
def toFront (a : Address) (cs : List Candidate) : List Candidate :=
  match cs.find? (·.address == a) with
  | some c => c :: cs.eraseP (·.address == a)
  | none => cs

/-- All candidates by source, each address once. -/
def bySource (start : String) (bonded observed : List Device) (devices : DeviceSet) :
    List Candidate :=
  Candidate.distinct (paired start bonded ++ remembered devices ++ scanned start observed)

/-- The candidates in the order in which to try them. -/
def order (start : String) (bonded observed : List Device) (devices : DeviceSet) :
    List Candidate :=
  match devices.lastConnected with
  | some last => toFront last (bySource start bonded observed devices)
  | none => bySource start bonded observed devices

/-- What is remembered after a ranking: where no link was ever established, the head of the
ranking becomes the one to begin with. -/
def remember (ranked : List Candidate) (devices : DeviceSet) : DeviceSet :=
  match devices.lastConnected, ranked with
  | none, first :: _ => { devices with lastConnected := some first.address }
  | _, _ => devices

/-- The candidates in order, and what is remembered then. -/
def rank (start : String) (bonded observed : List Device) (devices : DeviceSet) :
    List Candidate × DeviceSet :=
  let ranked := order start bonded observed devices
  (ranked, remember ranked devices)

end VehicleLink.Ranking
