import VehicleLink.Proofs.Lifecycle
import VehicleLink.Proofs.Simulation

/-!
# A connection in four fields

A connection can be kept as a phase, a peer and two flags, each of which an operation sets on its
own (`Connection.Fields`). Not every value of the four is a connection: a peer without an attempt,
or a flag that outlives its link, would be none.

From the idle state these operations answer what those on `Connection` answer, and leave the fields
of the connection that those leave (`apply_fields`, `run_fields`). So the states they reach are the
fields of connections and no others, and these are the ones in which the fields agree with the phase
(`reachable_iff_agree`).
-/

namespace VehicleLink.Connection

/-- A connection kept as fields. -/
structure Fields where
  phase : Phase := .disconnected
  peer : Option Address := none
  ready : Bool := false
  teardown : Bool := false
  deriving DecidableEq

namespace Fields

def isConnected (f : Fields) : Bool := f.phase = .connected

def isConnecting (f : Fields) : Bool := f.phase = .connecting

def isReady (f : Fields) : Bool := f.isConnected && f.ready

/-! ## Operations -/

/-- The moves between phases that are taken. -/
def allows : Phase → Phase → Bool
  | .disconnected, .connecting => true
  | .connecting, .connected => true
  | .connected, .disconnected => true
  | .connecting, .disconnected => true
  | _, _ => false

def transition (target : Phase) (f : Fields) : Except TransitionError Fields :=
  if allows f.phase target then .ok { f with phase := target } else .error ⟨f.phase, target⟩

/-- Forgets all but the phase. -/
def reset (f : Fields) : Fields := { f with peer := none, ready := false, teardown := false }

/-- The radio accepted an attempt. -/
def begin (peer : Address) (f : Fields) : Except TransitionError Fields := do
  let f ← f.transition .connecting
  return { f with peer := some peer, ready := false, teardown := false }

/-- The radio reports the link up. -/
def up (f : Fields) : Except TransitionError (LinkUp × Fields) :=
  match f.peer.filter fun _ => f.isConnecting with
  | none => .error ⟨f.phase, .connected⟩
  | some peer =>
    if f.teardown then do
      let f ← f.transition .disconnected
      return (.cancelled peer, f.reset)
    else do
      let f ← f.transition .connected
      return (.established peer, f)

/-- What the report of a link that is down means for a peer. -/
def ending (f : Fields) (peer : Address) : LinkDown :=
  match f.phase, f.teardown with
  | .disconnected, _ => .ignored
  | .connecting, false => .attemptFailed peer
  | .connecting, true => .attemptCancelled peer
  | .connected, false => .lost peer
  | .connected, true => .closed peer

/-- The radio reports the link down. -/
def down (f : Fields) : LinkDown × Fields :=
  match f.peer with
  | none => (.ignored, f)
  | some peer =>
    if f.ending peer = .ignored then (.ignored, f)
    else (f.ending peer, { f with phase := .disconnected }.reset)

/-- Notifications are enabled on the link. Answers whether they are. -/
def markReady (f : Fields) : Bool × Fields :=
  let f := if f.isConnected then { f with ready := true } else f
  (f.ready, f)

/-- The connection is no longer wanted. Answers whether there is one. -/
def requestTeardown (f : Fields) : Bool × Fields :=
  if f.phase = .disconnected then (false, f) else (true, { f with teardown := true, ready := false })

def apply (f : Fields) : Op → Answer × Fields
  | .begin peer =>
    match f.begin peer with
    | .ok f' => (.begin (.ok ()), f')
    | .error e => (.begin (.error e), f)
  | .up =>
    match f.up with
    | .ok (r, f') => (.up (.ok r), f')
    | .error e => (.up (.error e), f)
  | .down => (.down f.down.1, f.down.2)
  | .markReady => (.markReady f.markReady.1, f.markReady.2)
  | .requestTeardown => (.requestTeardown f.requestTeardown.1, f.requestTeardown.2)

end Fields

/-! ## The fields of a connection -/

def fields : Connection → Fields
  | .disconnected => {}
  | .connecting peer teardown => { phase := .connecting, peer := some peer, teardown }
  | .connected peer ready teardown => { phase := .connected, peer := some peer, ready, teardown }

/-- What can be asked of a connection is asked of its fields. -/
theorem queries_fields (c : Connection) :
    c.fields.phase = c.phase ∧ c.fields.peer = c.peer? ∧ c.fields.isConnected = c.isConnected ∧
      c.fields.isConnecting = c.isConnecting ∧ c.fields.isReady = c.isReady ∧
      c.fields.teardown = c.teardownRequested := by
  cases c <;> exact ⟨rfl, rfl, rfl, rfl, rfl, rfl⟩

/-- An operation answers of the fields what it answers of the connection, and leaves the fields of
what it leaves. -/
theorem apply_fields (c : Connection) (op : Op) :
    c.fields.apply op = ((c.apply op).1, (c.apply op).2.fields) := by
  cases c with
  | disconnected => cases op <;> rfl
  | connecting peer teardown =>
    cases op with
    | up => cases teardown <;> rfl
    | down => cases teardown <;> rfl
    | _ => rfl
  | connected peer ready teardown =>
    cases op with
    | down => cases teardown <;> rfl
    | _ => rfl

theorem run_apply (c : Connection) (ops : List Op) :
    Machine.run apply c ops = ((c.history ops).map Applied.answer, c.applyAll ops) := by
  induction ops generalizing c with
  | nil => rfl
  | cons op ops ih =>
    rw [Machine.run, ih]
    rfl

/-- Operations one after the other answer of the fields what they answer in the history of the
connection, and leave the fields of the connection that they leave. -/
theorem run_fields (c : Connection) (ops : List Op) :
    Machine.run Fields.apply c.fields ops =
      ((c.history ops).map Applied.answer, (c.applyAll ops).fields) := by
  rw [Machine.run_image fields apply_fields, run_apply]

/-! ## The fields that are reached -/

/-- There is a peer where there is an attempt or a link, readiness only of a link, and a teardown
only where there is something to tear down. -/
structure Fields.Agree (f : Fields) : Prop where
  peer : f.peer.isSome = true ↔ f.phase ≠ .disconnected
  ready : f.ready = true → f.phase = .connected
  teardown : f.teardown = true → f.phase ≠ .disconnected

theorem agree_fields (c : Connection) : c.fields.Agree := by
  cases c <;> exact ⟨by simp [fields], by simp [fields], by simp [fields]⟩

/-- Fields that agree are those of a connection. -/
theorem Fields.Agree.exists_fields {f : Fields} (h : f.Agree) : ∃ c : Connection, c.fields = f := by
  obtain ⟨phase, peer, ready, teardown⟩ := f
  obtain ⟨hpeer, hready, hteardown⟩ := h
  cases phase with
  | disconnected =>
    obtain rfl : peer = none := by simpa using hpeer
    obtain rfl : ready = false := by simpa using hready
    obtain rfl : teardown = false := by simpa using hteardown
    exact ⟨.disconnected, rfl⟩
  | connecting =>
    obtain ⟨p, rfl⟩ := Option.isSome_iff_exists.1 (hpeer.2 (by simp))
    obtain rfl : ready = false := by simpa using hready
    exact ⟨.connecting p teardown, rfl⟩
  | connected =>
    obtain ⟨p, rfl⟩ := Option.isSome_iff_exists.1 (hpeer.2 (by simp))
    exact ⟨.connected p ready teardown, rfl⟩

/-- Some operations lead to any connection. -/
theorem exists_applyAll_eq (c : Connection) : ∃ ops, disconnected.applyAll ops = c := by
  cases c with
  | disconnected => exact ⟨[], rfl⟩
  | connecting p teardown =>
    cases teardown with
    | false => exact ⟨[.begin p], rfl⟩
    | true => exact ⟨[.begin p, .requestTeardown], rfl⟩
  | connected p ready teardown =>
    -- Readiness is marked after the teardown was noted, which would withdraw it.
    let noted : List Op := if teardown then [.requestTeardown] else []
    let marked : List Op := if ready then [.markReady] else []
    refine ⟨[.begin p, .up] ++ noted ++ marked, ?_⟩
    cases ready <;> cases teardown <;> rfl

/-- The operations reach, from the idle state, exactly the fields that agree. -/
theorem reachable_iff_agree (f : Fields) :
    (∃ ops, (Machine.run Fields.apply {} ops).2 = f) ↔ f.Agree := by
  have hrun (ops : List Op) :
      (Machine.run Fields.apply {} ops).2 = (disconnected.applyAll ops).fields :=
    congrArg Prod.snd (run_fields disconnected ops)
  constructor
  · rintro ⟨ops, rfl⟩
    rw [hrun]
    exact agree_fields _
  · intro h
    obtain ⟨c, rfl⟩ := h.exists_fields
    obtain ⟨ops, rfl⟩ := exists_applyAll_eq c
    exact ⟨ops, hrun ops⟩

end VehicleLink.Connection
