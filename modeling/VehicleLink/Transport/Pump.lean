import VehicleLink.Transport.Events

/-!
# Pumping

Waiting events are handled one at a time, those that the handling raises included, until none is
left and no fragment is due. Each turn either handles an event or sends a fragment, and
`workload` bounds how many turns there can be: an event weighs more than all that its handling may
raise, a queued candidate more than the events of its attempt, a queued byte more than the
acknowledgement of a fragment it is in.
-/

namespace VehicleLink

/-- How many turns an event may cause, its own included. -/
def Event.weight : Event → Nat
  | .linkUp => 3
  | .servicesDiscovered _ => 2
  | _ => 1

/-- How many turns several events may cause. -/
def Event.weights : List Event → Nat
  | [] => 0
  | e :: rest => e.weight + weights rest

namespace Endpoint

variable {ρ σ : Type} [Radio ρ] [DeviceStore σ]

omit [Radio ρ] [DeviceStore σ] in
/-- A bound on the turns of a pump over a radio that raises no more than the events of an
attempt, a discovery, a write or a disconnect. -/
def workload (w : Endpoint ρ σ) : Nat :=
  Event.weights w.inbox + 4 * w.transport.candidates.length +
    2 * w.transport.outbound.queue.queued

/-- At most `turns` turns; counts the events that were handled. -/
def pumpUpTo : Nat → Endpoint ρ σ → Nat × Endpoint ρ σ
  | 0, w => (0, w)
  | turns + 1, w =>
    match w.inbox with
    | e :: rest =>
      let (handled, w) := pumpUpTo turns (({ w with inbox := rest }).handle e)
      (handled + 1, w)
    | [] =>
      let (sent, w) := w.drain
      if sent then pumpUpTo turns w else (0, w)

/-- Handles all waiting events and sends what is due; counts the events. -/
def pump (w : Endpoint ρ σ) : Nat × Endpoint ρ σ := pumpUpTo (w.workload + 1) w

/-- Waits for a first event, not longer than a limit or until a held-back fragment is due, and
then pumps. -/
def pumpFor (limit : Nanos) (w : Endpoint ρ σ) : Nat × Endpoint ρ σ :=
  match w.inbox with
  | _ :: _ => w.pump
  | [] => (w.wait (min limit (w.pacingRemaining.getD limit))).pump

/-- One round of whoever drives a transport in the background: pump, then poll. -/
def tick (interval : Nanos) (w : Endpoint ρ σ) : Endpoint ρ σ := (w.pumpFor interval).2.poll

/-- The round of a driver that was given no interval lasts so long. -/
def defaultTick : Nanos := Duration.ofMillis 100

instance : VehicleInterface (Endpoint ρ σ) where
  connect := connect
  disconnect := disconnect
  isConnected w := w.transport.connection.isConnected
  write := write
  read := read
  hasData w := w.transport.hasData
  setTarget := setTarget
  health w := w.transport.health

end Endpoint

end VehicleLink
