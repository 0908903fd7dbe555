import VehicleLink.Address
import VehicleLink.Gatt

/-!
# Devices and candidates

A device is a report of the radio, from its bonded list or from a scan. A candidate is a device
that may be tried, with the place it was found in; two candidates are the same if they have one
address.
-/

namespace VehicleLink

inductive LinkType where
  | classic
  | le
  | dual
  | unknown
  deriving DecidableEq

/-- A device as the radio reports it. -/
structure Device where
  address : Address
  name : Option String
  bonded : Bool := false
  link : LinkType := .le
  /-- The services named in its advertisement. -/
  services : List Uuid := []
  deriving DecidableEq

namespace Device

/-- Whether the device has a name and the name begins so. -/
def nameBegins (start : String) (d : Device) : Bool :=
  match d.name with
  | some name => start.toList.isPrefixOf name.toList
  | none => false

/-- Whether the device looks like a vehicle interface: by its name, or by the service it offers. -/
def isVehicleInterface (start : String) (d : Device) : Bool :=
  d.nameBegins start || d.services.contains Gatt.service

/-- A name with the address behind it. -/
def label (name : String) (a : Address) : String := name ++ " (" ++ a.text ++ ")"

/-- The name and the address for a reader; a device without a name is "unknown". -/
def summary (d : Device) : String := label (d.name.getD "unknown") d.address

end Device

/-- Where a candidate comes from. -/
inductive Source where
  | scan
  | paired
  | persisted
  deriving DecidableEq

/-- A device that a connection may be tried to. -/
structure Candidate where
  address : Address
  name : String
  bonded : Bool
  source : Source

namespace Candidate

/-- A candidate of which only the address is remembered. -/
def persisted (a : Address) : Candidate := ⟨a, a.text, false, .persisted⟩

/-- The candidate that a reported device is; without a name it goes by its address. -/
def ofDevice (source : Source) (d : Device) : Candidate :=
  ⟨d.address, d.name.getD d.address.text, d.bonded, source⟩

/-- Candidates are compared by address alone. -/
instance : BEq Candidate := ⟨fun a b => a.address == b.address⟩

def text (c : Candidate) : String := Device.label c.name c.address

/-- The list without those that an earlier one equals. -/
def distinct : List Candidate → List Candidate
  | [] => []
  | c :: rest => c :: (distinct rest).filter fun d => !(d == c)

end Candidate

end VehicleLink
