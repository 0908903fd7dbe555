import VehicleLink.Worker

/-!
# A radio behind a queue

The radio that a transport sees of a worker: calls are accepted as long as the queue has room and
the worker runs, and are carried out in order. Starting it needs a Bluetooth stack with an
adapter, within a time limit.
-/

namespace VehicleLink

/-- Calls that wait for a worker. -/
structure CallQueue where
  capacity : Nat
  waiting : List Call := []
  /-- Whether a worker takes calls from it. -/
  isOpen : Bool := true

namespace CallQueue

/-- Queues a call if there is room. -/
def submit (c : Call) (q : CallQueue) : Answer × CallQueue :=
  if q.isOpen && q.waiting.length < q.capacity then
    (⟨true, []⟩, { q with waiting := q.waiting ++ [c] })
  else (⟨false, []⟩, q)

/-- The adapter does not tell which devices are bonded, so none are listed. -/
instance : Radio CallQueue := ⟨isOpen, fun _ => [], submit⟩

end CallQueue

namespace Worker

/-- What can be configured about a worker. -/
structure Settings where
  connectTimeout : Nanos := Duration.ofSeconds 6
  /-- How long starting may take. -/
  startupTimeout : Nanos := Duration.ofSeconds 5
  queueCapacity : Nat := 256

/-- Why a worker could not be started. -/
inductive StartError where
  | managerUnavailable
  | adapterUnavailable
  | workerFailed
  deriving DecidableEq

def StartError.message : StartError → String
  | .managerUnavailable => "bluetooth manager unavailable"
  | .adapterUnavailable => "no bluetooth adapter found"
  | .workerFailed => "radio worker failed to start"

/-- The host's Bluetooth stack. -/
structure Stack (α : Type) where
  /-- How long its manager takes to answer; nothing if there is none. -/
  manager : Option Nanos
  /-- The adapters it lists; nothing if it cannot list any. -/
  adapters : Option (List α)

/-- A worker with the queue of its calls. -/
structure Remote (α : Type) where
  queue : CallQueue
  worker : Worker α

/-- Starts a worker on the first adapter. A worker that cannot subscribe to the adapter's reports
ends at once. -/
def start {α : Type} [Adapter α] (s : Settings) (stack : Stack α) :
    Except StartError (Remote α) :=
  match stack.manager with
  | none => .error .managerUnavailable
  | some delay =>
    if s.startupTimeout < delay then .error .workerFailed
    else
      match stack.adapters with
      | some (adapter :: _) =>
        .ok
          { queue := { capacity := s.queueCapacity, isOpen := Adapter.reports adapter }
            worker := { adapter, connectTimeout := s.connectTimeout } }
      | _ => .error .adapterUnavailable

namespace Remote

variable {α : Type}

/-- Queues a call for the worker; tells whether it was accepted. -/
def submit (c : Call) (r : Remote α) : Bool × Remote α :=
  let (answer, queue) := r.queue.submit c
  (answer.accepted, { r with queue })

/-- The worker carries out the calls that wait, in order. -/
def settle [Adapter α] (r : Remote α) : Remote α :=
  { queue := { r.queue with waiting := [] }
    worker := r.queue.waiting.foldl (fun w c => w.step (.call c)) r.worker }

/-- Something other than a call moves the worker, if it runs. -/
def stimulate [Adapter α] (s : Stimulus) (r : Remote α) : Remote α :=
  if r.queue.isOpen then { r with worker := r.worker.step s } else r

/-- The worker ends, if it runs. -/
def shutdown [Adapter α] (r : Remote α) : Remote α :=
  if r.queue.isOpen then
    { queue := { r.queue with waiting := [], isOpen := false }, worker := r.worker.finish }
  else r

end Remote

end Worker

end VehicleLink
