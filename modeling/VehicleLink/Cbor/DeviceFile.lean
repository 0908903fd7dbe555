import VehicleLink.Cbor.Item
import VehicleLink.DeviceSet
import VehicleLink.Error

/-!
# The device file

Remembered devices as one CBOR map of two text keys, the last connected address and the list of
known ones. Reading takes the keys in any order, as texts or as byte strings, skips keys it does
not know, and refuses a known key that comes twice. Bytes behind the map are not looked at.
-/

namespace VehicleLink.DeviceFile

open Cbor

def lastKey : List Char := "last_connected".toList

def knownKey : List Char := "known_candidates".toList

/-! ## Writing -/

def writeLast : Option Address → List UInt8
  | some a => writeText a.chars
  | none => writeNull

/-- The file for a set of devices. -/
def encode (devices : DeviceSet) : List UInt8 :=
  head 5 2 ++ writeText lastKey ++ writeLast devices.lastConnected ++ writeText knownKey ++
    head 4 devices.known.size ++ devices.known.toList.flatMap fun a => writeText a.chars

/-! ## Reading -/

/-- How deep an item behind an unknown key may be nested. -/
def nestingLimit : Nat := 255

/-- Whether an item behind an unknown key can be skipped. -/
def isSkippable (item : Item) : Bool := item.nesting ≤ nestingLimit && item.inRange

/-- How long a key may be, in bytes. -/
def keyLimit : Nat := 4096

/-- A key of the map. -/
inductive Key where
  | last
  | known
  /-- Any other key; its value is skipped. -/
  | other
  deriving DecidableEq

/-- The key with a name in bytes, if the name is not too long. -/
def keyOfBytes (name : List UInt8) : Option Key :=
  if keyLimit < name.length then none
  else if name = Utf8.encode lastKey then some .last
  else if name = Utf8.encode knownKey then some .known
  else some .other

/-- The key that an item is: a text or a byte string, in one piece. -/
def key? (item : Item) : Option Key :=
  match item.untagged with
  | .text true s => keyOfBytes (Utf8.encode s)
  | .bytes true b => keyOfBytes b
  | _ => none

/-- The address that a text item spells. -/
def address? (item : Item) : Option Address :=
  match item.untagged with
  | .text _ s => Address.parse? (String.ofList s)
  | _ => none

/-- The value of the last connected address. Null and undefined stand for none, but not behind a
tag. -/
def last? : Item → Option (Option Address)
  | .null => some none
  | .undefined => some none
  | item => (address? item).map some

/-- The value of the known addresses. A byte string is a list of its bytes, none of which is an
address, so it has to be empty. -/
def known? (item : Item) : Option AddressSet :=
  match item.untagged with
  | .array items => (items.mapM address?).map AddressSet.ofList
  | .bytes _ [] => some .empty
  | _ => none

structure Fields where
  last : Option (Option Address) := none
  known : Option AddressSet := none

/-- Reads the entries of the map, each known key once. -/
def fields? : List Item → Fields → Option Fields
  | [], f => some f
  | [_], _ => none
  | key :: value :: rest, f =>
    match key? key with
    | some .last =>
      if f.last.isSome then none
      else (last? value).bind fun last => fields? rest { f with last := some last }
    | some .known =>
      if f.known.isSome then none
      else (known? value).bind fun known => fields? rest { f with known := some known }
    | some .other => if isSkippable value then fields? rest f else none
    | none => none

/-- The devices of the fields: the known addresses have to be there. -/
def Fields.devices? (f : Fields) : Option DeviceSet :=
  f.known.map fun known => ⟨f.last.join, known⟩

def ofItem? (item : Item) : Option DeviceSet :=
  match item.untagged with
  | .map entries => (fields? entries {}).bind Fields.devices?
  | _ => none

def decode? (bytes : List UInt8) : Option DeviceSet :=
  (read (nestingLimit + 1) bytes).bind fun (item, _) => ofItem? item

/-- The devices of a file, or the error that it holds none. -/
def decode (bytes : List UInt8) : Except StoreError DeviceSet :=
  match decode? bytes with
  | some devices => .ok devices
  | none => .error (.decode "not a device map")

end VehicleLink.DeviceFile
