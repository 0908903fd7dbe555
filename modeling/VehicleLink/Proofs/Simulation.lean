/-!
# Machines that answer

A machine is a function that takes an operation on a state to an answer and a next state. Two of
them do the same if the states of one have an image among those of the other and each operation
answers of the image what it answers of the state, and leaves the image of what it leaves.
-/

namespace VehicleLink.Machine

variable {S T O A : Type} {apply : S → O → A × S} {apply' : T → O → A × T}

/-- What operations answer one after the other, and the state they leave. -/
def run (apply : S → O → A × S) (s : S) : List O → List A × S
  | [] => ([], s)
  | op :: ops =>
    let rest := run apply (apply s op).2 ops
    ((apply s op).1 :: rest.1, rest.2)

/-- What every operation keeps holds at the end of a run. -/
theorem run_induction {P : S → Prop} (hstep : ∀ s op, P s → P (apply s op).2) {s : S} (h : P s)
    (ops : List O) : P (run apply s ops).2 := by
  induction ops generalizing s with
  | nil => exact h
  | cons op ops ih => exact ih (hstep s op h)

/-- A machine that does the same in one operation does so in a run. -/
theorem run_image (f : S → T)
    (hstep : ∀ s op, apply' (f s) op = ((apply s op).1, f (apply s op).2)) (s : S) (ops : List O) :
    run apply' (f s) ops = ((run apply s ops).1, f (run apply s ops).2) := by
  induction ops generalizing s with
  | nil => rfl
  | cons op ops ih =>
    rw [run, hstep, ih]
    rfl

end VehicleLink.Machine
