import VehicleLink.Radio

/-!
# The event channel

Events wait in the order in which they were sent until the receiving side takes them. Once that
side is gone nothing can be sent any more, and what was waiting is lost.
-/

namespace VehicleLink

/-- A first-in first-out channel of events. -/
structure Channel where
  waiting : List Event := []
  /-- Whether the receiving side is there. -/
  isOpen : Bool := true

namespace Channel

/-- Sends an event; tells whether it can be received. -/
def send (e : Event) (c : Channel) : Bool × Channel :=
  if c.isOpen then (true, { c with waiting := c.waiting ++ [e] }) else (false, c)

/-- Sends several events in order. -/
def sendAll (events : List Event) (c : Channel) : Channel :=
  if c.isOpen then { c with waiting := c.waiting ++ events } else c

/-- Takes the next event. -/
def receive (c : Channel) : Option Event × Channel :=
  match c.waiting with
  | [] => (none, c)
  | e :: rest => (some e, { c with waiting := rest })

/-- The receiving side goes away. -/
def close (_ : Channel) : Channel := ⟨[], false⟩

end Channel

end VehicleLink
