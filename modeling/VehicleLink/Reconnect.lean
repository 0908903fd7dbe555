import VehicleLink.Address
import VehicleLink.Duration

/-!
# When and whereto to reconnect

A policy knows the address to insist on, if any, and paces attempts: by the normal interval, or by
the fast one after a loss.
-/

namespace VehicleLink.Reconnect

/-- How the next device is found. -/
inductive Mode where
  /-- Only a configured or remembered address is tried. -/
  | explicit
  /-- Candidates are ranked and tried in order. -/
  | automatic
  deriving DecidableEq

/-- What the next attempt does. -/
inductive Plan where
  | target (a : Address)
  | rank
  /-- There is nothing to try. -/
  | idle
  deriving DecidableEq

/-- When and whereto to reconnect. -/
structure Policy where
  target : Option Address
  /-- Whether candidates are ranked when no address is configured. -/
  automatic : Bool
  interval : Nanos
  fastInterval : Nanos
  fast : Bool := false
  lastAttempt : Option Nanos := none

namespace Policy

/-- The mode follows from the configuration. -/
def mode (p : Policy) : Mode :=
  if p.target.isSome || !p.automatic then .explicit else .automatic

/-- Whether a link to one address has to give way to a new target. -/
def mustMove (target linked : Option Address) : Bool :=
  match linked, target with
  | some current, some next => current ≠ next
  | _, _ => false

/-- Takes a new target. A link elsewhere, or another target than before, calls for fast polling;
having no target any more does not. -/
def retarget (target linked : Option Address) (p : Policy) : Policy :=
  let urgent := mustMove target linked || (p.target ≠ target && target.isSome)
  { p with target, fast := urgent || p.fast }

/-- What the next attempt does. -/
def plan (lastConnected : Option Address) (p : Policy) : Plan :=
  match p.mode with
  | .automatic => .rank
  | .explicit =>
    match p.target.or lastConnected with
    | some a => .target a
    | none => .idle

/-- The interval in force. -/
def currentInterval (p : Policy) : Nanos := if p.fast then p.fastInterval else p.interval

/-- Whether the interval in force has passed since the last attempt; a clock that went back counts
as no time. -/
def isDue (now : Nanos) (p : Policy) : Bool :=
  match p.lastAttempt with
  | none => true
  | some last => p.currentInterval ≤ now - last

/-- Notes an attempt. -/
def recordAttempt (now : Nanos) (p : Policy) : Policy := { p with lastAttempt := some now }

end Policy

end VehicleLink.Reconnect
