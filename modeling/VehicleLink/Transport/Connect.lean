import VehicleLink.Transport

/-!
# Connecting and disconnecting

A plan is a list of candidates; they are tried one after the other until the radio takes an
attempt up. A disconnect only records that the connection is no longer wanted and asks the radio
to end it.

`connect`, `poll` and `stop` are made of sections that nothing else can come between: the check
whether the transport runs, the check whether a poll is due, and the bodies.
-/

namespace VehicleLink.Endpoint

variable {ρ σ : Type} [Radio ρ] [DeviceStore σ]

/-! ## Scanning -/

/-- Asks for a scan, which begins with no observed devices. -/
def beginScan (w : Endpoint ρ σ) : Endpoint ρ σ :=
  let w := w.update fun t => { t with observed := [] }
  let (accepted, w) := w.submit (.scan w.transport.settings.scanWindow)
  w.update fun t => { t with scanning := accepted }

/-- Asks for a scan and tells whether the radio took it up. -/
def startScan (w : Endpoint ρ σ) : Bool × Endpoint ρ σ :=
  let w := w.beginScan
  (w.transport.scanning, w)

/-! ## Attempts -/

/-- Tries candidates in order until the radio takes an attempt up. The others stay queued. -/
def tryCandidates : List Candidate → Endpoint ρ σ → Endpoint ρ σ
  | [], w => w.update fun t => { t with candidates := [] }
  | c :: rest, w =>
    let w := w.update fun t => { t with candidates := rest }
    if w.transport.connection.phase ≠ .disconnected then w
    else
      let w := w.update fun t =>
        { t with tally := { t.tally with attempts := t.tally.attempts + 1 } }
      let (accepted, w) := w.submit (.connect c.address)
      if accepted then
        match w.transport.connection.begin c.address with
        | .ok connection => w.update fun t => { t with connection }
        | .error _ => w
      else tryCandidates rest (w.update (Transport.noteError (.connectFailed c.address)))

def attemptNext (w : Endpoint ρ σ) : Endpoint ρ σ := tryCandidates w.transport.candidates w

/-- Ranks the candidates there are and queues them; without any, asks for a scan unless one is
under way. -/
def rankCandidates (w : Endpoint ρ σ) : Endpoint ρ σ :=
  let t := w.transport
  let (ranked, devices) :=
    Ranking.rank t.settings.deviceName (Radio.bonded w.radio) t.observed t.devices
  let w := w.update fun t => { t with devices }
  let w := if devices ≠ t.devices then w.persist else w
  let w := w.update fun t =>
    { t with discovered := ranked.foldl (fun m c => m.insert c.address c.text) t.discovered }
  let w := if ranked.isEmpty && !w.transport.scanning then w.beginScan else w
  w.update fun t => { t with candidates := ranked }

/-- Queues the candidates of a plan. -/
def follow (plan : Reconnect.Plan) (w : Endpoint ρ σ) : Endpoint ρ σ :=
  match plan with
  | .target a => w.update fun t => { t with candidates := [.persisted a] }
  | .rank => w.rankCandidates
  | .idle => w

/-- The plan for a connection to one address, or for what the policy says. -/
def planFor (target : Option Address) (t : Transport) : Reconnect.Plan :=
  match target with
  | some a => .target a
  | none => t.policy.plan t.devices.lastConnected

/-- Plans and attempts, unless there is a link or an attempt. -/
def connectBody (target : Option Address) (w : Endpoint ρ σ) : Endpoint ρ σ :=
  if w.transport.isBusy then w
  else
    let w := w.update fun t => { t with candidates := [] }
    (w.follow (planFor target w.transport)).attemptNext

/-- Asks for a connection, to one address only or to what the policy says; nothing happens while
stopped. -/
def connect (target : Option Address) (w : Endpoint ρ σ) : Endpoint ρ σ :=
  if w.transport.running then w.connectBody target else w

/-! ## Polling -/

/-- Whether a poll is due now; if so the attempt is noted. -/
def claimPoll (instant : Nanos) (w : Endpoint ρ σ) : Bool × Endpoint ρ σ :=
  if w.transport.isBusy then (false, w)
  else if w.transport.policy.isDue instant then
    (true, w.update fun t => { t with policy := t.policy.recordAttempt instant })
  else (false, w)

/-- Attempts a connection if the transport runs, is idle and the interval has passed. -/
def pollAt (instant : Nanos) (w : Endpoint ρ σ) : Endpoint ρ σ :=
  if w.transport.running then
    let (due, w) := w.claimPoll instant
    if due then w.connect none else w
  else w

def poll (w : Endpoint ρ σ) : Endpoint ρ σ := w.pollAt w.now

/-! ## Ending -/

omit [DeviceStore σ] in
/-- Gives up the queued candidates and asks for the link or the attempt to end. Outbound bytes are
dropped now; the state changes when the radio reports the link down. -/
def disconnect (w : Endpoint ρ σ) : Endpoint ρ σ :=
  let w := w.update fun t => { t with candidates := [] }
  match w.transport.connection.requestTeardown? with
  | none => w
  | some connection =>
    (w.update fun t => { t with connection, outbound := t.outbound.reset }).issue .disconnect

omit [Radio ρ] [DeviceStore σ] in
/-- Lets connections be made. -/
def start (w : Endpoint ρ σ) : Endpoint ρ σ := w.update fun t => { t with running := true }

omit [DeviceStore σ] in
/-- Ends running; tells whether the transport ran, in which case the scan is stopped. -/
def halt (w : Endpoint ρ σ) : Bool × Endpoint ρ σ :=
  if w.transport.running then
    (true, (w.update fun t => { t with running := false }).issue .stopScan)
  else (false, w)

omit [Radio ρ] [DeviceStore σ] in
def forgetScan (w : Endpoint ρ σ) : Endpoint ρ σ := w.update fun t => { t with scanning := false }

omit [DeviceStore σ] in
/-- Stops the scan, ends the link and lets no more connections be made. -/
def stop (w : Endpoint ρ σ) : Endpoint ρ σ :=
  let (ran, w) := w.halt
  if ran then w.forgetScan.disconnect else w

omit [Radio ρ] [DeviceStore σ] in
/-- Insists on another address, or on none. A text that is no address changes nothing. Tells
whether the link that is up has to be established anew. -/
def setTarget (target : Option String) (w : Endpoint ρ σ) :
    Except LinkError Bool × Endpoint ρ σ :=
  match Address.parseOptional target with
  | .error e => (.error e, w)
  | .ok target =>
    let c := w.transport.connection
    let linked := if c.isConnected then c.peer? else none
    (.ok (Reconnect.Policy.mustMove target linked),
      w.update fun t => { t with policy := t.policy.retarget target linked })

end VehicleLink.Endpoint
