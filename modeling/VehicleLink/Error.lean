import VehicleLink.Address

/-!
# Failures

Everything that can go wrong on a link or with the device file, and its wording.
-/

namespace VehicleLink

/-- Why remembered devices could not be stored or read. The texts are the reasons that the codec
or the file system gives. -/
inductive StoreError where
  | encode (reason : String)
  | decode (reason : String)
  | read (reason : String)
  | write (reason : String)
  deriving DecidableEq

def StoreError.message : StoreError → String
  | .encode reason => "failed to encode device set: " ++ reason
  | .decode reason => "failed to decode device set: " ++ reason
  | .read reason => "failed to read device file: " ++ reason
  | .write reason => "failed to write device file: " ++ reason

/-- Why an operation on a link failed. -/
inductive LinkError where
  | invalidAddress (text : String)
  | adapterUnavailable
  | notConnected
  /-- So many more bytes do not fit. -/
  | bufferOverflow (capacity requested : Nat)
  | connectFailed (a : Address)
  | writeFailed
  | persistence (e : StoreError)
  deriving DecidableEq

def LinkError.message : LinkError → String
  | .invalidAddress text => "\"" ++ text ++ "\" is not a valid Bluetooth address"
  | .adapterUnavailable => "no Bluetooth LE adapter available"
  | .notConnected => "not connected to a vehicle interface"
  | .bufferOverflow capacity requested =>
    "outbound queue full (" ++ toString requested ++ " bytes requested, capacity "
      ++ toString capacity ++ ")"
  | .connectFailed a => "unable to connect to " ++ a.text
  | .writeFailed => "fragment write failed; queued bytes discarded"
  | .persistence e => e.message

/-- The address that a text spells, or the error that quotes it. -/
def Address.parse (s : String) : Except LinkError Address :=
  match Address.parse? s with
  | some a => .ok a
  | none => .error (.invalidAddress s)

/-- The address that an optional text spells. -/
def Address.parseOptional : Option String → Except LinkError (Option Address)
  | none => .ok none
  | some s => (Address.parse s).map some

end VehicleLink
