import VehicleLink.Error

/-!
# Outbound fragments

A bounded queue of bytes that leaves in fragments, one at a time: the next fragment is cut only
when the last one was acknowledged. A failed fragment takes all that is queued with it.
-/

namespace VehicleLink

/-- A bounded first-in first-out queue of bytes with at most one fragment in flight. -/
structure FragmentQueue where
  capacity : Nat
  limit : Nat
  limit_pos : 0 < limit
  bytes : List UInt8 := []
  /-- Whether a fragment waits for its acknowledgement. -/
  inFlight : Bool := false

/-- What the end of a write did. -/
inductive WriteOutcome where
  /-- The fragment arrived; so many bytes are still queued. -/
  | acknowledged (remaining : Nat)
  /-- The fragment was lost, and so many queued bytes with it. -/
  | failed (discarded : Nat)
  | unexpected
  deriving DecidableEq

namespace FragmentQueue

/-- An empty queue; fragments have at least one byte whatever limit is asked for. -/
def create (capacity limit : Nat) : FragmentQueue :=
  { capacity, limit := max limit 1, limit_pos := by omega }

def queued (q : FragmentQueue) : Nat := q.bytes.length

def pending (q : FragmentQueue) : Nat := if q.inFlight then 1 else 0

theorem pending_le_one (q : FragmentQueue) : q.pending ≤ 1 := by
  unfold pending
  split <;> omega

/-- Queues all bytes, or none if they do not fit. -/
def enqueue (bytes : List UInt8) (q : FragmentQueue) : Except LinkError FragmentQueue :=
  if q.queued + bytes.length > q.capacity then
    .error (.bufferOverflow q.capacity bytes.length)
  else .ok { q with bytes := q.bytes ++ bytes }

/-- Cuts the next fragment and puts it in flight, if none is and there are bytes. -/
def next? (q : FragmentQueue) : Option (List UInt8 × FragmentQueue) :=
  if q.inFlight || q.bytes.isEmpty then none
  else some (q.bytes.take q.limit, { q with bytes := q.bytes.drop q.limit, inFlight := true })

/-- A fragment is cut only if none is in flight; it is the front of the queue. -/
theorem next?_eq_some {q q' : FragmentQueue} {fragment : List UInt8}
    (h : q.next? = some (fragment, q')) :
    q.inFlight = false ∧ q.bytes ≠ [] ∧ fragment = q.bytes.take q.limit ∧
      q' = { q with bytes := q.bytes.drop q.limit, inFlight := true } := by
  unfold next? at h
  split at h
  · cases h
  · rename_i hidle
    rw [Bool.or_eq_true, not_or] at hidle
    simp only [Option.some.injEq, Prod.mk.injEq] at h
    obtain ⟨rfl, rfl⟩ := h
    refine ⟨by simpa using hidle.1, ?_, rfl, rfl⟩
    intro hempty
    exact hidle.2 (by rw [hempty]; rfl)

theorem next?_eq_none {q : FragmentQueue} (h : q.next? = none) :
    q.inFlight = true ∨ q.bytes = [] := by
  unfold next? at h
  split at h
  · rename_i hidle
    rw [Bool.or_eq_true] at hidle
    exact hidle.imp id List.isEmpty_iff.1
  · cases h

/-- Drops the queued bytes and forgets the fragment in flight. -/
def reset (q : FragmentQueue) : FragmentQueue := { q with bytes := [], inFlight := false }

/-- Ends the write of the fragment in flight. -/
def complete (success : Bool) (q : FragmentQueue) : WriteOutcome × FragmentQueue :=
  if !q.inFlight then (.unexpected, q)
  else if success then (.acknowledged q.queued, { q with inFlight := false })
  else (.failed q.queued, q.reset)

theorem complete_false {q : FragmentQueue} (h : q.inFlight = true) :
    (q.complete false).2 = q.reset := by
  simp [complete, h]

/-- Cuts and acknowledges up to `n` fragments. -/
def sendUpTo : Nat → FragmentQueue → List (List UInt8) × FragmentQueue
  | 0, q => ([], q)
  | n + 1, q =>
    match q.next? with
    | none => ([], q)
    | some (fragment, q) =>
      let (rest, q) := sendUpTo n (q.complete true).2
      (fragment :: rest, q)

/-- Cuts and acknowledges fragments until the queue gives none. -/
def sendAll (q : FragmentQueue) : List (List UInt8) × FragmentQueue := sendUpTo q.queued q

end FragmentQueue

end VehicleLink
