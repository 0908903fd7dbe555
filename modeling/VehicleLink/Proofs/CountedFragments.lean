import VehicleLink.FragmentQueue
import VehicleLink.Proofs.Simulation

/-!
# Fragments in flight, counted

A queue can count its fragments in flight: one more when a fragment is cut, one less when its write
ends (`FragmentQueue.Counted`). A fragment is cut only at zero, so the count says no more than
whether there is one.

From an empty queue these operations answer what those on `FragmentQueue` answer, with the count in
the place of the flag (`apply_counted`, `run_counted`). So whatever is done, and in whatever order
writes end, at most one fragment is counted, and no more bytes are queued than the capacity
(`counted_bounds`).
-/

namespace VehicleLink.FragmentQueue

/-! ## Operations -/

/-- An operation on a queue. -/
inductive Op where
  | enqueue (bytes : List UInt8)
  | next
  | complete (success : Bool)
  | reset

/-- What an operation answers. -/
inductive Answer where
  | enqueue (r : Except LinkError Unit)
  | next (fragment : Option (List UInt8))
  | complete (r : WriteOutcome)
  /-- So many bytes were dropped. -/
  | reset (discarded : Nat)

/-- What an operation answers, and the queue it leaves. -/
def apply (q : FragmentQueue) : Op → Answer × FragmentQueue
  | .enqueue bytes =>
    match q.enqueue bytes with
    | .ok q' => (.enqueue (.ok ()), q')
    | .error e => (.enqueue (.error e), q)
  | .next =>
    match q.next? with
    | some (fragment, q') => (.next (some fragment), q')
    | none => (.next none, q)
  | .complete success => (.complete (q.complete success).1, (q.complete success).2)
  | .reset => (.reset q.queued, q.reset)

/-- A queue that counts the fragments in flight. -/
structure Counted where
  capacity : Nat
  limit : Nat
  bytes : List UInt8 := []
  pending : Nat := 0

namespace Counted

def create (capacity limit : Nat) : Counted := { capacity, limit := max limit 1 }

def queued (q : Counted) : Nat := q.bytes.length

def enqueue (bytes : List UInt8) (q : Counted) : Except LinkError Counted :=
  if q.queued + bytes.length > q.capacity then
    .error (.bufferOverflow q.capacity bytes.length)
  else .ok { q with bytes := q.bytes ++ bytes }

def next? (q : Counted) : Option (List UInt8 × Counted) :=
  if q.pending > 0 || q.bytes.isEmpty then none
  else
    let length := min q.queued q.limit
    some (q.bytes.take length, { q with bytes := q.bytes.drop length, pending := q.pending + 1 })

/-- Drops the queued bytes and tells how many they were. -/
def discard (q : Counted) : Nat × Counted := (q.queued, { q with bytes := [] })

def complete (success : Bool) (q : Counted) : WriteOutcome × Counted :=
  if q.pending = 0 then (.unexpected, q)
  else
    let q := { q with pending := q.pending - 1 }
    if success then (.acknowledged q.queued, q) else (.failed q.discard.1, q.discard.2)

def reset (q : Counted) : Nat × Counted := { q with pending := 0 }.discard

def apply (q : Counted) : Op → Answer × Counted
  | .enqueue bytes =>
    match q.enqueue bytes with
    | .ok q' => (.enqueue (.ok ()), q')
    | .error e => (.enqueue (.error e), q)
  | .next =>
    match q.next? with
    | some (fragment, q') => (.next (some fragment), q')
    | none => (.next none, q)
  | .complete success => (.complete (q.complete success).1, (q.complete success).2)
  | .reset => (.reset q.reset.1, q.reset.2)

end Counted

/-! ## The count and the flag -/

def counted (q : FragmentQueue) : Counted :=
  { capacity := q.capacity, limit := q.limit, bytes := q.bytes, pending := q.pending }

theorem enqueue_counted (q : FragmentQueue) (bytes : List UInt8) :
    q.counted.enqueue bytes = (q.enqueue bytes).map counted := by
  rw [Counted.enqueue, enqueue]
  show (if q.queued + _ > q.capacity then _ else _) = _
  split <;> rfl

theorem next?_counted (q : FragmentQueue) :
    q.counted.next? = q.next?.map fun r => (r.1, r.2.counted) := by
  obtain ⟨capacity, limit, hlimit, bytes, inFlight⟩ := q
  cases inFlight with
  | true => rfl
  | false =>
    rw [Counted.next?, next?]
    show (if bytes.isEmpty then _ else _) = Option.map _ (if bytes.isEmpty then _ else _)
    split
    · rfl
    · -- The fragment is the front of the queue, or all of it where that is shorter.
      have htake : bytes.take (min bytes.length limit) = bytes.take limit := by
        simp [List.take_eq_take_iff, Nat.min_comm]
      have hdrop : bytes.drop (min bytes.length limit) = bytes.drop limit := by
        rcases Nat.le_total bytes.length limit with h | h
        · rw [Nat.min_eq_left h, List.drop_length, List.drop_eq_nil_of_le h]
        · rw [Nat.min_eq_right h]
      show some (bytes.take (min bytes.length limit),
        (⟨capacity, limit, bytes.drop (min bytes.length limit), 1⟩ : Counted)) = _
      rw [htake, hdrop]
      rfl

theorem complete_counted (q : FragmentQueue) (success : Bool) :
    q.counted.complete success =
      ((q.complete success).1, (q.complete success).2.counted) := by
  obtain ⟨capacity, limit, hlimit, bytes, inFlight⟩ := q
  cases inFlight <;> cases success <;> rfl

/-- An operation answers of a count what it answers of the flag, and leaves the count of what it
leaves. -/
theorem apply_counted (q : FragmentQueue) (op : Op) :
    q.counted.apply op = ((q.apply op).1, (q.apply op).2.counted) := by
  cases op with
  | enqueue bytes =>
    rw [Counted.apply, apply, enqueue_counted]
    cases q.enqueue bytes <;> rfl
  | next =>
    rw [Counted.apply, apply, next?_counted]
    cases q.next? <;> rfl
  | complete success => rw [Counted.apply, apply, complete_counted]
  | reset => rfl

theorem run_counted (q : FragmentQueue) (ops : List Op) :
    Machine.run Counted.apply q.counted ops =
      ((Machine.run apply q ops).1, (Machine.run apply q ops).2.counted) :=
  Machine.run_image counted apply_counted q ops

theorem queued_apply_le {q : FragmentQueue} (h : q.queued ≤ q.capacity) (op : Op) :
    (q.apply op).2.queued ≤ (q.apply op).2.capacity := by
  cases op with
  | enqueue bytes =>
    rw [apply, enqueue]
    by_cases hfits : q.queued + bytes.length > q.capacity
    · rw [if_pos hfits]
      exact h
    · rw [if_neg hfits]
      simpa [queued] using hfits
  | next =>
    rw [apply]
    rcases hnext : q.next? with _ | ⟨fragment, q'⟩
    · exact h
    · obtain ⟨-, -, -, rfl⟩ := next?_eq_some hnext
      simp only [queued, List.length_drop] at h ⊢
      omega
  | complete success =>
    rw [apply, complete]
    cases q.inFlight <;> cases success <;> simp_all [queued, reset]
  | reset => simp [apply, reset, queued]

/-- Whatever is done with a queue, at most one fragment is counted, and the queued bytes keep within
the capacity. -/
theorem counted_bounds (capacity limit : Nat) (ops : List Op) :
    let q := (Machine.run Counted.apply (.create capacity limit) ops).2
    q.pending ≤ 1 ∧ q.queued ≤ q.capacity := by
  intro q
  have hq : q = (Machine.run apply (create capacity limit) ops).2.counted :=
    congrArg Prod.snd (run_counted (create capacity limit) ops)
  rw [hq]
  refine ⟨pending_le_one _, ?_⟩
  exact Machine.run_induction (P := fun q : FragmentQueue => q.queued ≤ q.capacity)
    (fun _ op h => queued_apply_le h op) (Nat.zero_le _) ops

end VehicleLink.FragmentQueue
