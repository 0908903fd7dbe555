import VehicleLink.Proofs.WorkerRun

/-!
# The tasks that read notifications

A worker reads notifications in tasks of their own. Each reads one stream, an item after the other,
passes on the values of one characteristic, and is over when its stream ends or when nobody receives
what it passes on. The worker keeps the handle of the task that it spawned last, and that is the
only one it can abort (`Readers`).

A `Shift` is a worker with its tasks, over streams that are written down beforehand. A task reads at
any time, but not after it was aborted; what it reads while a call waits for the adapter is read
before that call. The steps of a shift are those of a run of the worker, which keeps one
subscription in place of the tasks: that is the task that is alive, and there is no other
(`tended_play`).
-/

namespace VehicleLink

namespace Worker

/-- An item of a stream of notifications. -/
structure Item where
  characteristic : Uuid
  bytes : List UInt8
  deriving DecidableEq

/-- A task that reads a stream; the streams are numbered in the order in which tasks were spawned on
them. -/
structure Reader where
  stream : Nat
  source : Subscription
  deriving DecidableEq

/-- The tasks that a worker has spawned. -/
structure Readers where
  /-- What each of them was spawned to read. -/
  spawned : List Subscription := []
  alive : List Reader := []
  /-- The task of which the worker keeps the handle. -/
  handle : Option Nat := none

namespace Readers

/-- Aborts the task of which the worker keeps the handle, and drops the handle. -/
def abort (rs : Readers) : Readers :=
  { rs with alive := rs.alive.filter (some ·.stream ≠ rs.handle), handle := none }

/-- Spawns a task and keeps its handle. -/
def spawn (source : Subscription) (rs : Readers) : Readers where
  spawned := rs.spawned ++ [source]
  alive := rs.alive ++ [⟨rs.spawned.length, source⟩]
  handle := some rs.spawned.length

/-- A task is over. -/
def leave (stream : Nat) (rs : Readers) : Readers :=
  { rs with alive := rs.alive.filter (·.stream ≠ stream) }

end Readers

/-- The peripheral of which a request opened a stream. -/
def opened? : Request × Bool → Option String
  | (.notifications id, true) => some id
  | _ => none

/-- What a worker does to its tasks, by its link before a stimulus and the requests that it makes. A
call to connect closes only a link that is open; a call to enable notifications spawns a task in
place of the one there is, or closes the link if no stream was opened. -/
def Readers.after (current : Option Peripheral) (x : Stimulus) (requests : List (Request × Bool))
    (rs : Readers) : Readers :=
  match x with
  | .call (.connect _) => if current.isSome then rs.abort else rs
  | .call .disconnect => rs.abort
  | .call (.enableNotify c) =>
    match requests.findSome? opened? with
    | some id => rs.abort.spawn ⟨id, Gatt.characteristic c⟩
    | none => rs.abort
  | .report (.disconnected id) => if current.any (·.id == id) then rs.abort else rs
  | _ => rs

/-! ## Shifts -/

/-- A worker with its tasks. -/
structure Shift (α : Type) where
  start : Worker (Recording α)
  /-- The steps of the worker so far. -/
  steps : List (Step α) := []
  readers : Readers := {}
  /-- How many items of each stream were read. -/
  position : Nat → Nat := fun _ => 0

/-- What may happen in a shift. -/
inductive Shift.Move (α : Type) where
  | call (c : Call)
  | report (e : AdapterEvent)
  | scanOver
  /-- The adapter changes by itself. -/
  | adapter (f : α → α)
  /-- The receiver of the worker's events changes. -/
  | receiver (f : Channel → Channel)
  /-- A task reads the next item of its stream, or finds its end. -/
  | read (stream : Nat)

namespace Shift

variable {α : Type}

/-- A shift of a worker that has done nothing. -/
def new (adapter : α) (limit : Nanos) : Shift α := { start := fresh adapter limit }

variable [Adapter α]

def worker (x : Shift α) : Worker (Recording α) := x.start.run x.steps

def turns (x : Shift α) : List (Turn α) := Worker.turns x.steps x.start

/-- Something moves the worker, other than a notification. -/
def stimulate (y : Stimulus) (x : Shift α) : Shift α :=
  { x with
    steps := x.steps ++ [.stimulus y]
    readers := x.readers.after x.worker.current y (Turn.requests ⟨x.worker, y⟩) }

/-- A task finds the end of its stream. -/
def exhaust (r : Reader) (x : Shift α) : Shift α :=
  { x with
    steps := x.steps ++ [.stimulus (.streamEnded r.source.peripheral)]
    readers := x.readers.leave r.stream }

/-- A task reads an item. Where nobody receives what it passes on, it is over. -/
def take (r : Reader) (item : Item) (x : Shift α) : Shift α :=
  { x with
    steps := x.steps ++
      [.stimulus (.notified r.source.peripheral item.characteristic item.bytes)]
    readers :=
      if item.characteristic = r.source.characteristic ∧ x.worker.outbox.isOpen = false then
        x.readers.leave r.stream
      else x.readers
    position := Function.update x.position r.stream (x.position r.stream + 1) }

/-- A task reads on. One that was aborted, or is over, does nothing. -/
def read (script : Nat → List Item) (stream : Nat) (x : Shift α) : Shift α :=
  match x.readers.alive.find? (·.stream = stream) with
  | none => x
  | some r =>
    match (script stream)[x.position stream]? with
    | none => x.exhaust r
    | some item => x.take r item

/-- A move of a shift; the items of the streams are given by a script. -/
def move (script : Nat → List Item) (m : Move α) (x : Shift α) : Shift α :=
  match m with
  | .call c => x.stimulate (.call c)
  | .report e => x.stimulate (.report e)
  | .scanOver => x.stimulate .scanOver
  | .adapter f => { x with steps := x.steps ++ [.adapter f] }
  | .receiver f => { x with steps := x.steps ++ [.receiver f] }
  | .read stream => x.read script stream

def play (script : Nat → List Item) (moves : List (Move α)) (x : Shift α) : Shift α :=
  moves.foldl (fun x m => x.move script m) x

theorem play_concat (script : Nat → List Item) (moves : List (Move α)) (m : Move α)
    (x : Shift α) : x.play script (moves ++ [m]) = (x.play script moves).move script m :=
  List.foldl_append ..

theorem start_move (script : Nat → List Item) (m : Move α) (x : Shift α) :
    (x.move script m).start = x.start := by
  cases m with
  | read stream =>
    change (x.read script stream).start = x.start
    unfold read
    split
    · rfl
    · split <;> rfl
  | _ => rfl

theorem start_play (script : Nat → List Item) (moves : List (Move α)) (x : Shift α) :
    (x.play script moves).start = x.start := by
  induction moves using List.reverseRecOn with
  | nil => rfl
  | append_singleton moves m ih => rw [play_concat, start_move, ih]

end Shift

/-! ## One turn -/

/-- How the tasks stand to what the worker holds: none is alive and nothing is subscribed, or one
is, which was spawned last, reads what is subscribed, and belongs to the link. -/
inductive Tended (rs : Readers) (h : Holding) : Prop
  | idle (subscription : h.subscription = none) (alive : rs.alive = [])
  | reading (p : Peripheral) (s : Subscription) (earlier : List Subscription)
      (current : h.current = some p) (peripheral : s.peripheral = p.id)
      (subscription : h.subscription = some s) (spawned : rs.spawned = earlier ++ [s])
      (alive : rs.alive = [⟨earlier.length, s⟩]) (handle : rs.handle = some earlier.length)

namespace Tended

variable {rs : Readers} {h h' : Holding}

theorem of_same (ht : Tended rs h) (hcurrent : h'.current = h.current)
    (hsubscription : h'.subscription = h.subscription) : Tended rs h' := by
  cases ht with
  | idle subscription alive => exact .idle (hsubscription.trans subscription) alive
  | reading p s earlier current peripheral subscription spawned alive handle =>
    exact .reading p s earlier (hcurrent.trans current) peripheral
      (hsubscription.trans subscription) spawned alive handle

/-- An abort leaves no task, because the handle is that of the one there is. -/
theorem alive_abort (ht : Tended rs h) : rs.abort.alive = [] := by
  cases ht with
  | idle subscription alive => simp [Readers.abort, alive]
  | reading p s earlier current peripheral subscription spawned alive handle =>
    simp [Readers.abort, alive, handle]

theorem aborted (ht : Tended rs h) (hnone : h'.subscription = none) : Tended rs.abort h' :=
  .idle hnone ht.alive_abort

theorem of_unlinked (ht : Tended rs h) (hnone : h.current = none) :
    h.subscription = none ∧ rs.alive = [] := by
  cases ht with
  | idle subscription alive => exact ⟨subscription, alive⟩
  | reading p s earlier current => simp [hnone] at current

theorem spawned {p : Peripheral} {s : Subscription} (ht : Tended rs h)
    (hcurrent : h'.current = some p) (hs : s.peripheral = p.id)
    (hsubscription : h'.subscription = some s) : Tended (rs.abort.spawn s) h' := by
  refine .reading p s rs.spawned hcurrent hs hsubscription rfl ?_ rfl
  rw [Readers.spawn, ht.alive_abort]
  rfl

/-- A task that is alive is the one that was spawned last, and reads what is subscribed. -/
theorem found {stream : Nat} {r : Reader} (ht : Tended rs h)
    (hr : rs.alive.find? (·.stream = stream) = some r) :
    ∃ (p : Peripheral) (earlier : List Subscription), h.current = some p ∧
      r.source.peripheral = p.id ∧ h.subscription = some r.source ∧
      rs.spawned = earlier ++ [r.source] ∧ stream = earlier.length ∧ rs.alive = [r] ∧
      r.stream = stream := by
  cases ht with
  | idle subscription alive => simp [alive] at hr
  | reading p s earlier current peripheral subscription spawned alive =>
    rw [alive, List.find?_singleton] at hr
    split at hr
    · rename_i hstream
      cases hr
      have hlast : earlier.length = stream := of_decide_eq_true hstream
      exact ⟨p, earlier, current, peripheral, subscription, spawned, hlast.symm, alive, hlast⟩
    · cases hr

theorem left {stream : Nat} {r : Reader} (ht : Tended rs h)
    (hr : rs.alive.find? (·.stream = stream) = some r) (hnone : h'.subscription = none) :
    Tended (rs.leave stream) h' := by
  obtain ⟨-, -, -, -, -, -, -, halive, hstream⟩ := ht.found hr
  exact .idle hnone (by simp [Readers.leave, halive, hstream])

end Tended

section

variable {α : Type}

theorem Unread.findSome?_opened {id : String} {c : Uuid} {rs : List (Request × Bool)}
    (h : Unread id c rs) (peripheral : String) (ok : Bool) :
    (rs ++ [(Request.disconnect peripheral, ok)]).findSome? opened? = none := by
  cases h <;> rfl

/-- The report that another peripheral is lost is not about the link. -/
theorem any_eq_false_of_kept {current : Option Peripheral} {id : String}
    (kept : ∀ p, current = some p → AdapterEvent.disconnected id ≠ .disconnected p.id) :
    current.any (·.id == id) = false := by
  refine eq_false_of_ne_true fun hany => ?_
  obtain ⟨p, hp, hid⟩ := (Option.any_eq_true _ _).1 hany
  exact kept p hp (by rw [beq_iff_eq.1 hid])

/-- The tasks stay with the link, whatever comes but notifications. -/
theorem Responds.tended {w : Worker α} {x : Stimulus} {rs : List (Request × Bool)} {es : List Event}
    {after : Holding} {readers : Readers} (h : Responds w x rs es after)
    (ht : Tended readers w.holding) (hnotified : ∀ id c bytes, x ≠ .notified id c bytes)
    (hended : ∀ id, x ≠ .streamEnded id) : Tended (readers.after w.current x rs) after := by
  have hconnect {p : Option Peripheral} {a : Address} {requests : List (Request × Bool)} :
      Tended (readers.after w.current (.call (.connect a)) requests)
        { w.holding.vacated with current := p } := by
    have hnone : w.holding.vacated.subscription = none :=
      Holding.vacated_subscription fun hp => (ht.of_unlinked hp).1
    cases hp : w.current with
    | none => exact .idle hnone (ht.of_unlinked hp).2
    | some q => exact ht.aborted hnone
  cases h with
  | connects p closes => exact hconnect
  | connectFails p closes => exact hconnect
  | unknown a closes => exact hconnect
  | disconnects p ok link => exact ht.aborted rfl
  | noLink link => exact ht.aborted rfl
  | notifies c p link => exact ht.spawned link rfl rfl
  | notifyFails c p ok link unread =>
    rw [Readers.after, unread.findSome?_opened]
    exact ht.aborted rfl
  | notifiesNothing c link => exact ht.aborted rfl
  | loses p link =>
    rw [Readers.after, if_pos (by simp [link])]
    exact ht.aborted rfl
  | overlooks e kept =>
    cases e with
    | disconnected id =>
      rw [Readers.after, any_eq_false_of_kept kept, if_neg Bool.false_ne_true]
      exact ht
    | _ => exact ht
  | sees id d he window =>
    rcases he with rfl | rfl
    · exact ht
    · exact ht
  | delivers id c bytes received reads => exact absurd rfl (hnotified id c bytes)
  | unread id c bytes other => exact absurd rfl (hnotified id c bytes)
  | streamEnds id reads => exact absurd rfl (hended id)
  | noStream id other => exact absurd rfl (hended id)
  | _ => exact ht.of_same rfl rfl

variable [Adapter α]

/-- A notification of what is subscribed is the last one that is read if nobody receives it. -/
theorem holding_notified {w : Worker α} {s : Subscription} (hs : w.subscription = some s)
    (item : Item) :
    (w.step (.notified s.peripheral item.characteristic item.bytes)).holding =
      if item.characteristic = s.characteristic ∧ w.outbox.isOpen = false then
        { w.holding with subscription := none }
      else w.holding := by
  obtain ⟨peripheral, characteristic⟩ := s
  by_cases hc : item.characteristic = characteristic
  · cases hopen : w.outbox.isOpen <;> simp [step, deliver, hs, hc, Channel.send, hopen, holding]
  · simp [step, deliver, hs, hc, Ne.symm hc]

theorem holding_streamEnded {w : Worker α} {s : Subscription} (hs : w.subscription = some s) :
    (w.step (.streamEnded s.peripheral)).holding.subscription = none := by
  simp [step, endStream, hs]

end

/-! ## Runs -/

namespace Shift

variable {α : Type} [Adapter α]

theorem worker_stimulate (y : Stimulus) (x : Shift α) :
    (x.stimulate y).worker = x.worker.step y := run_concat ..

theorem worker_exhaust (r : Reader) (x : Shift α) :
    (x.exhaust r).worker = x.worker.step (.streamEnded r.source.peripheral) :=
  run_concat ..

theorem worker_take (r : Reader) (item : Item) (x : Shift α) :
    (x.take r item).worker =
      x.worker.step (.notified r.source.peripheral item.characteristic item.bytes) :=
  run_concat ..

theorem tended_stimulate {x : Shift α} {y : Stimulus} (h : Tended x.readers x.worker.holding)
    (hnotified : ∀ id c bytes, y ≠ .notified id c bytes) (hended : ∀ id, y ≠ .streamEnded id) :
    Tended (x.stimulate y).readers (x.stimulate y).worker.holding := by
  rw [worker_stimulate]
  exact (Turn.responds ⟨x.worker, y⟩).1.tended h hnotified hended

theorem tended_take {x : Shift α} {r : Reader} {stream : Nat}
    (h : Tended x.readers x.worker.holding)
    (hr : x.readers.alive.find? (·.stream = stream) = some r) (item : Item) :
    Tended (x.take r item).readers (x.take r item).worker.holding := by
  obtain ⟨-, -, -, -, hsubscription, -, -, -, hstream⟩ := h.found hr
  have hstep := holding_notified hsubscription item
  rw [worker_take, take]
  dsimp only
  split
  · rename_i hlost
    rw [if_pos hlost] at hstep
    rw [hstream]
    exact h.left hr (congrArg Holding.subscription hstep)
  · rename_i hlost
    rw [if_neg hlost] at hstep
    exact h.of_same (congrArg Holding.current hstep) (congrArg Holding.subscription hstep)

theorem tended_read {script : Nat → List Item} {x : Shift α}
    (h : Tended x.readers x.worker.holding) (stream : Nat) :
    Tended (x.read script stream).readers (x.read script stream).worker.holding := by
  unfold read
  split
  · exact h
  · rename_i r hr
    obtain ⟨-, -, -, -, hsubscription, -, -, -, hstream⟩ := h.found hr
    split
    · rw [worker_exhaust, exhaust, hstream]
      exact h.left hr (holding_streamEnded hsubscription)
    · exact tended_take h hr _

theorem tended_move {script : Nat → List Item} {x : Shift α}
    (h : Tended x.readers x.worker.holding) (m : Move α) :
    Tended (x.move script m).readers (x.move script m).worker.holding := by
  cases m with
  | call c => exact tended_stimulate h nofun nofun
  | report e => exact tended_stimulate h nofun nofun
  | scanOver => exact tended_stimulate h nofun nofun
  | read stream => exact tended_read h stream
  | adapter f =>
    change Tended x.readers (x.start.run (x.steps ++ [_])).holding
    rw [run_concat]
    exact h
  | receiver f =>
    change Tended x.readers (x.start.run (x.steps ++ [_])).holding
    rw [run_concat]
    exact h

theorem tended_play (script : Nat → List Item) (adapter : α) (limit : Nanos)
    (moves : List (Move α)) :
    let x := (new adapter limit).play script moves
    Tended x.readers x.worker.holding := by
  induction moves using List.reverseRecOn with
  | nil => exact .idle rfl rfl
  | append_singleton moves m ih =>
    rw [play_concat]
    exact tended_move ih m

end Shift

end Worker

end VehicleLink
