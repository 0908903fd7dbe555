import VehicleLink.Address.Map
import VehicleLink.Connection
import VehicleLink.FragmentQueue
import VehicleLink.Inbound
import VehicleLink.Interface
import VehicleLink.LinkSettings
import VehicleLink.Radio
import VehicleLink.Ranking
import VehicleLink.Reconnect
import VehicleLink.Store

/-!
# The transport

A transport keeps one link to a vehicle interface. Its state is what it knows by itself; with the
radio, the store, the events that wait to be handled and the clock it makes an endpoint, on which
all operations are functions. Nothing happens but by them, so a run is a sequence of operations
with whatever the radio and the store answer.
-/

namespace VehicleLink

/-- Outbound bytes with what paces and reports their fragments. -/
structure Outbound where
  queue : FragmentQueue
  /-- The instant before which the next fragment may not go out. -/
  notBefore : Option Nanos := none
  /-- A fragment failed and no write has reported it yet. -/
  failed : Bool := false

namespace Outbound

/-- Whether the delay after the last fragment is over. -/
def isDue (now : Nanos) (o : Outbound) : Bool :=
  match o.notBefore with
  | none => true
  | some t => t ≤ now

/-- The time that holds back a queued fragment, if nothing else does. -/
def heldBack (now : Nanos) (o : Outbound) : Option Nanos :=
  if o.queue.bytes.isEmpty || o.queue.inFlight then none
  else
    match o.notBefore with
    | some t => if now < t then some (t - now) else none
    | none => none

/-- Drops what is queued and in flight. -/
def reset (o : Outbound) : Outbound := { o with queue := o.queue.reset }

end Outbound

/-- What happened so far, in numbers. -/
structure Tally where
  submitted : Nat := 0
  acknowledged : Nat := 0
  failed : Nat := 0
  attempts : Nat := 0
  lastError : Option LinkError := none

/-- What a transport knows by itself. -/
structure Transport where
  settings : LinkSettings
  policy : Reconnect.Policy
  outbound : Outbound
  devices : DeviceSet := {}
  running : Bool := false
  connection : Connection := .disconnected
  inbound : Inbound := {}
  /-- Candidates still to be tried if the attempt fails. -/
  candidates : List Candidate := []
  /-- The devices that the last scan saw, each with its latest report. -/
  observed : List Device := []
  scanning : Bool := false
  /-- A summary of every device ever seen. -/
  discovered : AddressMap String := {}
  tally : Tally := {}

namespace Transport

def isBusy (t : Transport) : Bool := t.connection.isConnected || t.connection.isConnecting

def noteError (e : LinkError) (t : Transport) : Transport :=
  { t with tally := { t.tally with lastError := some e } }

/-- Turns fast polling on or off. -/
def setFast (on : Bool) (t : Transport) : Transport :=
  { t with policy := { t.policy with fast := on } }

/-- A report of a device takes the place of an earlier one of the same address, or goes to the
end. -/
def observe (d : Device) : List Device → List Device
  | [] => [d]
  | e :: rest => if e.address = d.address then d :: rest else e :: observe d rest

def health (t : Transport) : Health :=
  { connected := t.connection.isConnected
    queued := t.outbound.queue.queued
    submitted := t.tally.submitted
    acknowledged := t.tally.acknowledged
    failed := t.tally.failed
    received := t.inbound.received
    buffered := t.inbound.available
    attempts := t.tally.attempts
    lastError := t.tally.lastError }

def hasData (t : Transport) : Bool := t.connection.isConnected && t.inbound.hasData

/-- The transport for a reader: the device it is linked to and the one it insists on. -/
def text (t : Transport) : String :=
  let name (a : Option Address) : String := (a.map Address.text).getD "none"
  "BleVehicleInterface\x7bdevice_address=" ++ name t.connection.peer? ++
    ", explicit_device_address=" ++ name t.policy.target ++ "\x7d"

end Transport

/-- A transport with the radio and the store it works with. -/
structure Endpoint (ρ σ : Type) where
  transport : Transport
  radio : ρ
  store : σ
  /-- The events that the radio raised and that wait to be handled. -/
  inbox : List Event := []
  now : Nanos := 0

namespace Endpoint

variable {ρ σ : Type}

/-- Changes what the transport knows, and nothing else. -/
def update (f : Transport → Transport) (w : Endpoint ρ σ) : Endpoint ρ σ :=
  { w with transport := f w.transport }

/-- Makes a call to the radio; the events that it raises go to the end of the inbox. -/
def submit [Radio ρ] (c : Call) (w : Endpoint ρ σ) : Bool × Endpoint ρ σ :=
  let (answer, radio) := Radio.submit c w.radio
  (answer.accepted, { w with radio, inbox := w.inbox ++ answer.raised })

/-- Makes a call of which the answer does not matter. -/
def issue [Radio ρ] (c : Call) (w : Endpoint ρ σ) : Endpoint ρ σ := (w.submit c).2

/-- Saves the remembered devices; a save that fails is not repeated. -/
def persist [DeviceStore σ] (w : Endpoint ρ σ) : Endpoint ρ σ :=
  { w with store := (DeviceStore.save w.transport.devices w.store).2 }

/-- A stopped transport. It remembers what the store holds, or nothing if the store cannot be
loaded. There has to be a radio, and a target has to be an address. -/
def create [Radio ρ] [DeviceStore σ] (settings : LinkSettings) (target : Option String)
    (radio : ρ) (store : σ) : Except LinkError (Endpoint ρ σ) :=
  if !Radio.available radio then .error .adapterUnavailable
  else
    match Address.parseOptional target with
    | .error e => .error e
    | .ok target =>
      let devices := match DeviceStore.load store with
        | .ok devices => devices
        | .error _ => {}
      .ok
        { radio, store
          transport :=
            { settings, devices
              policy :=
                { target, automatic := settings.automaticScan, interval := settings.pollInterval
                  fastInterval := settings.fastPollInterval }
              outbound :=
                { queue := .create settings.outboundCapacity settings.maxFragment } } }

/-- The radio raises an event of its own accord. -/
def raise (e : Event) (w : Endpoint ρ σ) : Endpoint ρ σ := { w with inbox := w.inbox ++ [e] }

def wait (d : Nanos) (w : Endpoint ρ σ) : Endpoint ρ σ := { w with now := w.now + d }

end Endpoint

end VehicleLink
