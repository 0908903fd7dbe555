import VehicleLink.Address

/-!
# The life of a connection

A connection is idle, attempted or established. It moves only when the radio has accepted an
attempt or reports the link up or down; a wish to tear it down is noted and takes effect with the
radio's next report.
-/

namespace VehicleLink

inductive Phase where
  | disconnected
  | connecting
  | connected
  deriving DecidableEq

def Phase.name : Phase → String
  | .disconnected => "Disconnected"
  | .connecting => "Connecting"
  | .connected => "Connected"

/-- A move between phases that cannot happen. -/
structure TransitionError where
  source : Phase
  target : Phase
  deriving DecidableEq

def TransitionError.message (e : TransitionError) : String :=
  "illegal connection transition " ++ e.source.name ++ " -> " ++ e.target.name

/-- A connection with its peer and what was asked of it. -/
inductive Connection where
  | disconnected
  /-- An attempt was accepted; `teardown` says that it is no longer wanted. -/
  | connecting (peer : Address) (teardown : Bool)
  /-- The link is up; `ready` says that notifications are enabled. -/
  | connected (peer : Address) (ready teardown : Bool)
  deriving DecidableEq

/-- What the report of a link that came up means. -/
inductive LinkUp where
  | established (peer : Address)
  /-- The attempt was no longer wanted, so the link has to be dropped. -/
  | cancelled (peer : Address)
  deriving DecidableEq

/-- What the report of a link that is down means. -/
inductive LinkDown where
  | attemptFailed (peer : Address)
  | attemptCancelled (peer : Address)
  | lost (peer : Address)
  | closed (peer : Address)
  /-- There was no link and no attempt. -/
  | ignored
  deriving DecidableEq

namespace Connection

def phase : Connection → Phase
  | .disconnected => .disconnected
  | .connecting .. => .connecting
  | .connected .. => .connected

def peer? : Connection → Option Address
  | .disconnected => none
  | .connecting p _ => some p
  | .connected p _ _ => some p

def isConnected : Connection → Bool
  | .connected .. => true
  | _ => false

def isConnecting : Connection → Bool
  | .connecting .. => true
  | _ => false

/-- Whether the link is up with notifications enabled. -/
def isReady : Connection → Bool
  | .connected _ ready _ => ready
  | _ => false

/-- Whether the attempt or the link is no longer wanted. -/
def teardownRequested : Connection → Bool
  | .disconnected => false
  | .connecting _ t => t
  | .connected _ _ t => t

/-- The radio accepted an attempt. -/
def begin (peer : Address) : Connection → Except TransitionError Connection
  | .disconnected => .ok (.connecting peer false)
  | c => .error ⟨c.phase, .connecting⟩

/-- The radio reports the link up. -/
def up : Connection → Except TransitionError (LinkUp × Connection)
  | .connecting peer false => .ok (.established peer, .connected peer false false)
  | .connecting peer true => .ok (.cancelled peer, .disconnected)
  | c => .error ⟨c.phase, .connected⟩

/-- The radio reports the link down. -/
def down : Connection → LinkDown × Connection
  | .disconnected => (.ignored, .disconnected)
  | .connecting peer false => (.attemptFailed peer, .disconnected)
  | .connecting peer true => (.attemptCancelled peer, .disconnected)
  | .connected peer _ false => (.lost peer, .disconnected)
  | .connected peer _ true => (.closed peer, .disconnected)

/-- Notifications are enabled on the link. -/
def markReady : Connection → Connection
  | .connected peer _ teardown => .connected peer true teardown
  | c => c

/-- The connection is no longer wanted; nothing if there is none. -/
def requestTeardown? : Connection → Option Connection
  | .disconnected => none
  | .connecting peer _ => some (.connecting peer true)
  | .connected peer _ _ => some (.connected peer false true)

end Connection

end VehicleLink
