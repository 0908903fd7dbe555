import VehicleLink.Radio

/-!
# A simulated radio

A radio without hardware: its behaviour says which requests it takes up and which events it raises
on them at once. It keeps a record of the requests.
-/

namespace VehicleLink.Radio

/-- How a simulated radio answers. -/
structure Behaviour where
  available : Bool := true
  acceptConnects : Bool := true
  /-- An accepted attempt is reported up at once. -/
  autoConnect : Bool := true
  /-- A disconnect is reported down at once. -/
  autoDisconnect : Bool := true
  autoDiscover : Bool := true
  acceptNotify : Bool := true
  autoAcknowledge : Bool := true
  /-- The outcome reported for acknowledged writes. -/
  writeSuccess : Bool := true
  /-- Attempts to these addresses are taken up and reported down. -/
  unreachable : List Address := []
  refuseScan : Bool := false
  refuseDiscover : Bool := false
  refuseWrite : Bool := false

/-- Whether a request is turned away before the radio looks at it. -/
def Behaviour.turnsAway (b : Behaviour) : Call → Bool
  | .scan _ => b.refuseScan
  | .discover => b.refuseDiscover
  | .write .. => b.refuseWrite
  | _ => false

/-- The answer to a request that is not turned away. -/
def Behaviour.answer (b : Behaviour) : Call → Answer
  | .scan _ => ⟨true, []⟩
  | .stopScan => ⟨true, []⟩
  | .connect a =>
    if !b.acceptConnects then ⟨false, []⟩
    else if b.unreachable.contains a then ⟨true, [.linkDown]⟩
    else ⟨true, if b.autoConnect then [.linkUp] else []⟩
  | .disconnect => ⟨true, if b.autoDisconnect then [.linkDown] else []⟩
  | .discover => ⟨true, if b.autoDiscover then [.servicesDiscovered true] else []⟩
  | .enableNotify _ => ⟨b.acceptNotify, []⟩
  | .write .. => ⟨true, if b.autoAcknowledge then [.writeComplete b.writeSuccess] else []⟩

/-- A request in the record of a simulated radio. -/
structure Recorded where
  call : Call
  /-- Whether the request was turned away. -/
  turnedAway : Bool := false

/-- A radio without hardware. -/
structure Simulated where
  behaviour : Behaviour := {}
  bonded : List Device := []
  calls : List Recorded := []

namespace Simulated

/-- Answers a request by the behaviour and records it. -/
def submit (c : Call) (r : Simulated) : Answer × Simulated :=
  let away := r.behaviour.turnsAway c
  (if away then ⟨false, []⟩ else r.behaviour.answer c,
    { r with calls := r.calls ++ [⟨c, away⟩] })

instance : Radio Simulated := ⟨fun r => r.behaviour.available, Simulated.bonded, submit⟩

/-- The answer to a call is the one of the behaviour unless the call is turned away. -/
theorem answer_eq (c : Call) (r : Simulated) :
    (Radio.submit c r).1 =
      if r.behaviour.turnsAway c then ⟨false, []⟩ else r.behaviour.answer c := rfl

/-- The payloads written so far. -/
def writes (r : Simulated) : List (List UInt8) :=
  r.calls.filterMap fun entry =>
    match entry.call with
    | .write _ bytes => if entry.turnedAway then none else some bytes
    | _ => none

/-- The record with an empty one left behind. -/
def takeCalls (r : Simulated) : List Recorded × Simulated := (r.calls, { r with calls := [] })

end Simulated

end VehicleLink.Radio
