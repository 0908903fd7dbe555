import VehicleLink.Transport.Connect
import VehicleLink.Transport.Stream

/-!
# Handling events

What each report of the radio does to a transport. Only the reports that the link is up or down
move the connection; the link becomes ready when its services were discovered and notifications
are enabled.
-/

namespace VehicleLink.Endpoint

variable {ρ σ : Type}

/-- A scan saw a device. A vehicle interface that is not bonded is remembered. -/
def onScanResult [DeviceStore σ] (d : Device) (w : Endpoint ρ σ) : Endpoint ρ σ :=
  let w := w.update fun t => { t with discovered := t.discovered.insert d.address d.summary }
  let t := w.transport
  let w :=
    if d.isVehicleInterface t.settings.deviceName && !d.bonded && d.address ∉ t.devices.known then
      (w.update fun t => { t with devices := t.devices.remember d.address }).persist
    else w
  w.update fun t => { t with observed := Transport.observe d t.observed }

/-- The scan is over. Without a link or an attempt, polling becomes fast. -/
def onScanComplete (w : Endpoint ρ σ) : Endpoint ρ σ :=
  w.update fun t =>
    let t := { t with scanning := false }
    if t.connection.phase = .disconnected then t.setFast true else t

/-- Stops the scan under way, if there is one. -/
def endScan [Radio ρ] (w : Endpoint ρ σ) : Endpoint ρ σ :=
  if w.transport.scanning then (w.issue .stopScan).update fun t => { t with scanning := false }
  else w

/-- Asks for a link that has failed its purpose to end. -/
def dropLink [Radio ρ] (w : Endpoint ρ σ) : Endpoint ρ σ :=
  let w := w.update fun t =>
    { t with connection := (t.connection.requestTeardown?).getD t.connection }
  (w.update (Transport.setFast true)).issue .disconnect

/-- A wanted link is up: it is remembered, begins with nothing buffered or queued, and its
services are asked for. -/
def onEstablished [Radio ρ] [DeviceStore σ] (peer : Address) (w : Endpoint ρ σ) :
    Endpoint ρ σ :=
  let w := w.update fun t => ({ t with candidates := [] }).setFast false
  let changed := w.transport.devices.newlyConnected peer
  let w := w.update fun t => { t with devices := t.devices.recordConnected peer }
  let w := if changed then w.persist else w
  let w := w.endScan
  let w := w.update fun t =>
    { t with inbound := t.inbound.clear, outbound := { t.outbound.reset with failed := false } }
  let (accepted, w) := w.submit .discover
  if accepted then w else w.dropLink

/-- The radio reports the link up. -/
def onLinkUp [Radio ρ] [DeviceStore σ] (w : Endpoint ρ σ) : Endpoint ρ σ :=
  match w.transport.connection.up with
  | .error _ => w
  | .ok (outcome, connection) =>
    let w := w.update fun t => { t with connection }
    match outcome with
    | .established peer => w.onEstablished peer
    | .cancelled _ => w.issue .disconnect

/-- The radio reports the link down. A failed attempt goes on with the next candidate; a lost link
makes polling fast. -/
def onLinkDown [Radio ρ] [DeviceStore σ] (w : Endpoint ρ σ) : Endpoint ρ σ :=
  let (outcome, connection) := w.transport.connection.down
  let gone := w.update fun t =>
    { t with connection, outbound := t.outbound.reset, inbound := t.inbound.clear }
  match outcome with
  | .ignored => w
  | .attemptFailed peer => (gone.update (Transport.noteError (.connectFailed peer))).attemptNext
  | .attemptCancelled _ => gone.update fun t => { t with candidates := [] }
  | .lost _ => gone.update (Transport.setFast true)
  | .closed _ => gone

/-- Services were discovered, or could not be. With notifications enabled the link is ready;
otherwise it is dropped. -/
def onServicesDiscovered [Radio ρ] (success : Bool) (w : Endpoint ρ σ) : Endpoint ρ σ :=
  let c := w.transport.connection
  if !c.isConnected || c.teardownRequested then w
  else if success then
    let (accepted, w) := w.submit (.enableNotify .notify)
    if accepted then
      (w.update fun t => { t with connection := t.connection.markReady }).drain.2
    else w.dropLink
  else w.dropLink

/-- A write ended. After a failure nothing is queued any more and the next write reports it. -/
def onWriteComplete [Radio ρ] (success : Bool) (w : Endpoint ρ σ) : Endpoint ρ σ :=
  let (outcome, queue) := w.transport.outbound.queue.complete success
  match outcome with
  | .unexpected => w
  | .acknowledged remaining =>
    let w := w.update fun t =>
      { t with
        outbound := { t.outbound with queue }
        tally := { t.tally with acknowledged := t.tally.acknowledged + 1 } }
    if remaining > 0 then w.drain.2 else w
  | .failed _ =>
    w.update fun t =>
      { t with
        outbound := { t.outbound with queue, failed := true }
        tally := { t.tally with failed := t.tally.failed + 1, lastError := some .writeFailed } }

/-- A fragment arrived; it counts only while the link is up. -/
def onReceived (fragment : List UInt8) (w : Endpoint ρ σ) : Endpoint ρ σ :=
  if w.transport.connection.isConnected then
    w.update fun t => { t with inbound := t.inbound.receive fragment }
  else w

/-- Handles a report of the radio. -/
def handle [Radio ρ] [DeviceStore σ] (e : Event) (w : Endpoint ρ σ) : Endpoint ρ σ :=
  match e with
  | .scanResult d => w.onScanResult d
  | .scanComplete => w.onScanComplete
  | .linkUp => w.onLinkUp
  | .linkDown => w.onLinkDown
  | .servicesDiscovered success => w.onServicesDiscovered success
  | .writeComplete success => w.onWriteComplete success
  | .received fragment => w.onReceived fragment

end VehicleLink.Endpoint
