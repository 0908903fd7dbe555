import VehicleLink.Probe.CommandLine
import VehicleLink.Probe.Settings
import VehicleLink.Radio.Simulated
import VehicleLink.Store.File
import VehicleLink.Transport.Pump

/-!
# Running the probe

Each round, the probe looks at the link once. The first round that finds it ready writes the
configured commands; a round that finds it down makes it ready for the next link. What was
received is printed a line per read.

Without hardware the probe talks to a simulated vehicle interface that answers every batch of
commands with one message.
-/

namespace VehicleLink.Probe

variable {ρ σ : Type}

/-! ## One round -/

def writeAll [Radio ρ] (commands : List String) (w : Endpoint ρ σ) : Endpoint ρ σ :=
  commands.foldl (fun w command => (w.write (Utf8.ofString command)).2) w

/-- The message of the simulated vehicle interface. -/
def simulatedReply : List UInt8 :=
  Utf8.ofString "\x7b\"command_response\":\"version\",\"message\":\"simulated\"\x7d"

/-- Writes the commands once for each link; `sent` tells whether that was done for the present
one. -/
def sendCommands [Radio ρ] (commands : List String) (sent : Bool) (w : Endpoint ρ σ) :
    Bool × Endpoint ρ σ :=
  if w.transport.connection.isReady && !sent then
    (true, (writeAll commands w).raise (.received simulatedReply))
  else (sent && w.transport.connection.isConnected, w)

/-- One round: what is printed, and whether commands have been sent on the present link. -/
def round [Radio ρ] (s : Settings) (sent : Bool) (w : Endpoint ρ σ) :
    List String × Bool × Endpoint ρ σ :=
  let (sent, w) := sendCommands s.commands sent w
  let (bytes, w) := w.read s.readChunk
  (if bytes.isEmpty then [] else [Utf8.decodeLossy bytes], sent, w)

/-- What the background driver does between two rounds: it handles what waits, polls, and handles
what comes of that. -/
def drive [Radio ρ] [DeviceStore σ] (w : Endpoint ρ σ) : Endpoint ρ σ := w.pump.2.poll.pump.2

/-- A round after the driver has worked. -/
def turn [Radio ρ] [DeviceStore σ] (s : Settings) (sent : Bool) (w : Endpoint ρ σ) :
    List String × Bool × Endpoint ρ σ :=
  round s sent (drive w)

/-- The least time between two rounds. -/
def shortestTick : Nanos := Duration.ofMillis 1

/-- The time between two rounds. -/
def Settings.tick (s : Settings) : Nanos := max s.tickInterval shortestTick

/-- So many rounds with the driver between them, each one interval after the last. -/
def rounds [Radio ρ] [DeviceStore σ] (s : Settings) : Nat → Bool → Endpoint ρ σ →
    List String × Endpoint ρ σ
  | 0, _, w => ([], w)
  | n + 1, sent, w =>
    let (printed, sent, w) := turn s sent w
    let (more, w) := rounds s n sent (w.wait s.tick)
    (printed ++ more, w)

/-! ## The whole run -/

def simulatedAddress : Address := ⟨0x00, 0x0E, 0x5C, 0x00, 0x00, 0x01⟩

/-- The radio of a probe without hardware: one bonded vehicle interface is in reach. -/
def simulatedRadio : Radio.Simulated :=
  { bonded := [{ address := simulatedAddress, name := some "OpenXC-VI-SIM", bonded := true }] }

/-- The settings with what the command line sets in their place. -/
def Settings.override (o : Options) (s : Settings) : Settings :=
  { s with address := o.address.or s.address, storePath := o.store.getD s.storePath }

/-- The transport of a probe, running. -/
def Settings.open (s : Settings) (around : Surroundings) :
    Except LinkError (Endpoint Radio.Simulated Store.File) :=
  (Endpoint.create s.link s.address simulatedRadio
    ({ path := Path.seenFrom around.directory s.storePath, tree := around.tree } : Store.File)).map
      Endpoint.start

/-- How many rounds fit into the time that the probe runs. -/
def Settings.roundCount (s : Settings) : Nat :=
  (s.runFor.getD 0 + s.tick - 1) / s.tick

/-- How a probe ended. -/
structure Outcome where
  code : Nat
  output : String := ""
  tree : FileTree

/-- What the probe prints and leaves when it is called with arguments. -/
def run (arguments : List String) (around : Surroundings) : Outcome :=
  let tree := around.tree
  match Invocation.ofArguments arguments with
  | .help => { code := 0, output := helpText, tree }
  | .version => { code := 0, output := versionText, tree }
  | .mistaken => { code := 2, tree }
  | .run o =>
    match load o.config around with
    | .error _ => { code := 1, tree }
    | .ok s =>
      let s := s.override o
      match s.open around with
      | .error _ => { code := 1, tree }
      | .ok w =>
        let (lines, w) := rounds s s.roundCount false w
        { code := 0
          output := String.join (lines.map (· ++ "\n"))
          tree := w.stop.store.tree }

end VehicleLink.Probe
