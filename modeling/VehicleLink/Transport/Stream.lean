import VehicleLink.Transport

/-!
# Writing and reading

Outbound bytes go out a fragment at a time, when the link is ready, no fragment is in flight and
the delay after the last one is over. A fragment that the radio turns away takes the queue with
it, so one attempt to drain makes at most one write (`drain_eq`).
-/

namespace VehicleLink.Endpoint

variable {ρ σ : Type}

/-- Hands a fragment that was cut from the queue to the radio; tells whether the radio took it. -/
def send [Radio ρ] (fragment : List UInt8) (queue : FragmentQueue) (w : Endpoint ρ σ) :
    Bool × Endpoint ρ σ :=
  let w := w.update fun t =>
    { t with outbound :=
        { t.outbound with queue, notBefore := some (w.now + t.settings.writeDelay) } }
  let (accepted, w) := w.submit (.write .write fragment)
  if accepted then
    (true, w.update fun t =>
      { t with tally := { t.tally with submitted := t.tally.submitted + 1 } })
  else
    (false, w.update fun t =>
      { t with
        tally := { t.tally with failed := t.tally.failed + 1, lastError := some .writeFailed }
        outbound :=
          { t.outbound with queue := (t.outbound.queue.complete false).2, failed := true } })

/-- Hands over fragments until the radio takes one or none can be cut; tells whether it took one.
Each try takes bytes from the queue, so there are no more tries than bytes. -/
def sendNext [Radio ρ] : Nat → Endpoint ρ σ → Bool × Endpoint ρ σ
  | 0, w => (false, w)
  | tries + 1, w =>
    match w.transport.outbound.queue.next? with
    | none => (false, w)
    | some (fragment, queue) =>
      let (taken, w) := w.send fragment queue
      if taken then (true, w) else sendNext tries w

/-- Sends the next fragment if it may go out; tells whether one did. -/
def drain [Radio ρ] (w : Endpoint ρ σ) : Bool × Endpoint ρ σ :=
  let t := w.transport
  if t.connection.isReady && t.outbound.isDue w.now then w.sendNext t.outbound.queue.queued
  else (false, w)

/-- Behind a fragment that was turned away there is nothing to send. -/
theorem next?_of_refused [Radio ρ] {w : Endpoint ρ σ} {fragment : List UInt8}
    {queue : FragmentQueue} (hflight : queue.inFlight = true)
    (h : (w.send fragment queue).1 = false) :
    (w.send fragment queue).2.transport.outbound.queue.next? = none := by
  unfold send at h ⊢
  dsimp only at h ⊢
  split at h
  · cases h
  · rename_i hrefused
    rw [if_neg hrefused]
    show (queue.complete false).2.next? = none
    rw [FragmentQueue.complete_false hflight]
    rfl

theorem sendNext_of_none [Radio ρ] {w : Endpoint ρ σ}
    (h : w.transport.outbound.queue.next? = none) (tries : Nat) :
    w.sendNext tries = (false, w) := by
  cases tries with
  | zero => rfl
  | succ tries => rw [sendNext, h]

/-- A drain hands over one fragment at most: one that is turned away takes the queue with it. -/
theorem drain_eq [Radio ρ] (w : Endpoint ρ σ) :
    w.drain =
      if w.transport.connection.isReady && w.transport.outbound.isDue w.now then
        match w.transport.outbound.queue.next? with
        | some (fragment, queue) => w.send fragment queue
        | none => (false, w)
      else (false, w) := by
  unfold drain
  dsimp only
  split
  · cases hnext : w.transport.outbound.queue.next? with
    | none => exact sendNext_of_none hnext _
    | some cut =>
      obtain ⟨fragment, queue⟩ := cut
      obtain ⟨-, hsome, -, hqueue⟩ := FragmentQueue.next?_eq_some hnext
      obtain ⟨tries, htries⟩ : ∃ tries, w.transport.outbound.queue.queued = tries + 1 :=
        Nat.exists_eq_succ_of_ne_zero fun hempty => hsome (List.length_eq_zero_iff.1 hempty)
      rw [htries, sendNext, hnext]
      dsimp only
      cases htaken : (w.send fragment queue).1 with
      | true => exact Prod.ext htaken.symm rfl
      | false =>
        have hnone := next?_of_refused (by rw [hqueue]) htaken
        rw [sendNext_of_none hnone]
        exact Prod.ext htaken.symm rfl
  · rfl

/-- Queues bytes and sends what may go out. Nothing is queued while the link is down, once after a
fragment failed, or beyond the capacity. -/
def write [Radio ρ] (bytes : List UInt8) (w : Endpoint ρ σ) : Bool × Endpoint ρ σ :=
  let t := w.transport
  if !t.connection.isConnected then (false, w.update (Transport.noteError .notConnected))
  else if t.outbound.failed then
    (false, w.update fun t => { t with outbound := { t.outbound with failed := false } })
  else
    match t.outbound.queue.enqueue bytes with
    | .error e => (false, w.update (Transport.noteError e))
    | .ok queue =>
      let w := w.update fun t => { t with outbound := { t.outbound with queue } }
      (true, w.drain.2)

/-- Takes at most `n` received bytes; none while the link is down. -/
def read (n : Nat) (w : Endpoint ρ σ) : List UInt8 × Endpoint ρ σ :=
  if w.transport.connection.isConnected then
    let (bytes, inbound) := w.transport.inbound.read n
    (bytes, w.update fun t => { t with inbound })
  else ([], w)

/-- The time until a held-back fragment may go out; nothing if none is held back by the delay
alone. -/
def pacingRemaining (w : Endpoint ρ σ) : Option Nanos :=
  if w.transport.connection.isReady then w.transport.outbound.heldBack w.now else none

end VehicleLink.Endpoint
