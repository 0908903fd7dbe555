import VehicleLink.Radio.Channel
import VehicleLink.Worker.Adapter

/-!
# The radio worker

A worker turns the calls of a transport into requests to the host's adapter, one after the other,
and reports what came of them as events. It holds at most one link and reads the notifications of
that link alone.

Five things move it: a call, a report of the adapter, the end of a scan window, a notification,
and the end of a stream of them.
-/

namespace VehicleLink

/-- A stream of notifications that is read, and the characteristic whose values are passed on. -/
structure Subscription where
  peripheral : String
  characteristic : Uuid
  deriving DecidableEq

/-- A worker with its adapter. -/
structure Worker (α : Type) where
  adapter : α
  connectTimeout : Nanos
  /-- The peripheral of the link that is open. -/
  current : Option Peripheral := none
  /-- Whether a scan window is open. -/
  scanning : Bool := false
  subscription : Option Subscription := none
  /-- Where its events go. -/
  outbox : Channel := {}

/-- What moves a worker. -/
inductive Stimulus where
  | call (c : Call)
  | report (e : AdapterEvent)
  | scanOver
  | notified (id : String) (characteristic : Uuid) (bytes : List UInt8)
  | streamEnded (id : String)

namespace Worker

variable {α : Type}

/-- Sends an event; one that nobody receives is lost. -/
def emit (e : Event) (w : Worker α) : Worker α := { w with outbox := (w.outbox.send e).2 }

/-- Makes a request to the adapter. -/
def ask [Adapter α] (r : Request) (w : Worker α) : Bool × Worker α :=
  let (ok, adapter) := Adapter.request r w.adapter
  (ok, { w with adapter })

/-- Makes a request of which the answer does not matter. -/
def tell [Adapter α] (r : Request) (w : Worker α) : Worker α := (w.ask r).2

/-! ## The link -/

/-- Stops reading notifications and closes the link; tells whether one was open. -/
def dropLink [Adapter α] (w : Worker α) : Bool × Worker α :=
  let w := { w with subscription := none }
  match w.current with
  | none => (false, w)
  | some p => (true, ({ w with current := none }).tell (.disconnect p.id))

/-- Closes the link and reports it down if one was open. -/
def closeLink [Adapter α] (w : Worker α) : Worker α :=
  let (wasOpen, w) := w.dropLink
  if wasOpen then w.emit .linkDown else w

/-- The first peripheral with an address. -/
def find [Adapter α] (a : Address) (w : Worker α) : Option Peripheral :=
  (Adapter.peripherals w.adapter).bind fun ps => ps.find? (·.address == a)

/-- Closes the link if one is open, to make room for another. -/
def vacate [Adapter α] (w : Worker α) : Worker α :=
  if w.current.isSome then w.dropLink.2 else w

/-- Opens a link in place of one that is open; tells whether it is there. -/
def openLink [Adapter α] (a : Address) (w : Worker α) : Bool × Worker α :=
  let w := w.vacate
  match w.find a with
  | none => (false, w)
  | some p =>
    let (ok, w) := w.ask (.connect p.id w.connectTimeout)
    if ok then (true, { w with current := some p }) else (false, w)

/-- The peripheral of the link and one of its characteristics, if it has it in the service of
vehicle interfaces. -/
def target? [Adapter α] (c : Characteristic) (w : Worker α) : Option (String × Uuid) :=
  w.current.bind fun p =>
    let uuid := Gatt.characteristic c
    if (Adapter.characteristics p.id w.adapter).contains (Gatt.service, uuid) then
      some (p.id, uuid)
    else none

/-- Subscribes to a characteristic and reads its notifications from now on, in place of those
read before; tells whether it does. -/
def subscribe [Adapter α] (c : Characteristic) (w : Worker α) : Bool × Worker α :=
  match w.target? c with
  | none => (false, w)
  | some (id, uuid) =>
    let (ok, w) := w.ask (.subscribe id uuid)
    if !ok then (false, w)
    else
      let (ok, w) := w.ask (.notifications id)
      if ok then (true, { w with subscription := some ⟨id, uuid⟩ }) else (false, w)

/-- Writes to a characteristic; tells whether the peripheral has it. -/
def write [Adapter α] (c : Characteristic) (bytes : List UInt8) (w : Worker α) :
    Bool × Worker α :=
  match w.target? c with
  | none => (false, w)
  | some (id, uuid) => w.ask (.write id uuid bytes)

/-! ## What moves it -/

def obey [Adapter α] (c : Call) (w : Worker α) : Worker α :=
  match c with
  | .scan _ =>
    let (ok, w) := w.ask .startScan
    if ok then { w with scanning := true } else w.emit .scanComplete
  | .stopScan => if w.scanning then ({ w with scanning := false }).tell .stopScan else w
  | .connect a =>
    let (up, w) := w.openLink a
    w.emit (if up then .linkUp else .linkDown)
  | .disconnect => w.closeLink
  | .discover =>
    match w.current with
    | none => w.emit (.servicesDiscovered false)
    | some p =>
      let (ok, w) := w.ask (.discover p.id)
      w.emit (.servicesDiscovered ok)
  | .enableNotify c =>
    let (ok, w) := w.subscribe c
    if ok then w else w.closeLink
  | .write c bytes =>
    let (ok, w) := w.write c bytes
    w.emit (.writeComplete ok)

/-- The device that a peripheral is; an empty name is no name. -/
def describe [Adapter α] (id : String) (w : Worker α) : Option Device :=
  (Adapter.advertisement id w.adapter).map fun ad =>
    { address := ad.address, name := ad.name.filter (· ≠ ""), services := ad.services }

/-- Passes on a sighting while a scan window is open. -/
def sighted [Adapter α] (id : String) (w : Worker α) : Worker α :=
  if w.scanning then
    match w.describe id with
    | some d => w.emit (.scanResult d)
    | none => w
  else w

/-- Takes note of a report of the adapter. -/
def note [Adapter α] (e : AdapterEvent) (w : Worker α) : Worker α :=
  match e with
  | .discovered id => w.sighted id
  | .updated id => w.sighted id
  | .connected _ => w
  | .disconnected id =>
    if w.current.any (·.id == id) then
      ({ w with current := none, subscription := none }).emit .linkDown
    else w

/-- Closes the scan window that is open. -/
def endScan [Adapter α] (w : Worker α) : Worker α :=
  if w.scanning then (({ w with scanning := false }).tell .stopScan).emit .scanComplete else w

/-- Passes on a notification of the subscribed characteristic. When nobody receives it any more
the stream is not read further. -/
def deliver (id : String) (characteristic : Uuid) (bytes : List UInt8) (w : Worker α) :
    Worker α :=
  if w.subscription = some ⟨id, characteristic⟩ then
    let (delivered, outbox) := w.outbox.send (.received bytes)
    if delivered then { w with outbox } else { w with subscription := none }
  else w

/-- The streams of a peripheral end. -/
def endStream (id : String) (w : Worker α) : Worker α :=
  if w.subscription.any (·.peripheral == id) then { w with subscription := none } else w

def step [Adapter α] (s : Stimulus) (w : Worker α) : Worker α :=
  match s with
  | .call c => w.obey c
  | .report e => w.note e
  | .scanOver => w.endScan
  | .notified id characteristic bytes => w.deliver id characteristic bytes
  | .streamEnded id => w.endStream id

/-- The worker ends; no link stays open. -/
def finish [Adapter α] (w : Worker α) : Worker α := w.dropLink.2

end Worker

end VehicleLink
