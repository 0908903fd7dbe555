import VehicleLink.Proofs.Responses
import Mathlib.Data.List.Induction

/-!
# Runs of a worker

A run of a worker is any sequence of what moves it, with changes of the adapter and of the receiver
of its events between them; an adapter answers as it likes. To speak of the requests, runs are taken
over an adapter that keeps a record of them (`Recording`).

A `Turn` is one stimulus of a run, with the worker before it; it is one of the cases of `Responds`
(`Turn.responds`). What every turn keeps of the turns so far and of what the worker holds is so
after any run (`run_induction`).
-/

namespace VehicleLink

/-! ## An adapter with a record -/

/-- An adapter that keeps a record of the requests, each with its answer. -/
structure Recording (α : Type) where
  adapter : α
  requests : List (Request × Bool) := []

instance {α : Type} [Adapter α] : Adapter (Recording α) where
  reports a := Adapter.reports a.adapter
  request r a :=
    let (ok, adapter) := Adapter.request r a.adapter
    (ok, ⟨adapter, a.requests ++ [(r, ok)]⟩)
  peripherals a := Adapter.peripherals a.adapter
  advertisement id a := Adapter.advertisement id a.adapter
  characteristics id a := Adapter.characteristics id a.adapter

namespace Worker

variable {α : Type}

/-! ## Turns and runs -/

/-- One step of a run: something moves the worker, or the adapter or the receiving side changes by
itself. -/
inductive Step (α : Type) where
  | stimulus (x : Stimulus)
  | adapter (f : α → α)
  | receiver (f : Channel → Channel)

/-- One stimulus of a run, with the worker before it. -/
structure Turn (α : Type) where
  before : Worker (Recording α)
  stimulus : Stimulus

/-- A worker that has done nothing. -/
def fresh (adapter : α) (limit : Nanos) : Worker (Recording α) :=
  { adapter := ⟨adapter, []⟩, connectTimeout := limit }

variable [Adapter α]

def advance (s : Step α) (w : Worker (Recording α)) : Worker (Recording α) :=
  match s with
  | .stimulus x => w.step x
  | .adapter f => { w with adapter := { w.adapter with adapter := f w.adapter.adapter } }
  | .receiver f => w.sendingTo (f w.outbox)

def run (steps : List (Step α)) (w : Worker (Recording α)) : Worker (Recording α) :=
  steps.foldl (fun w s => w.advance s) w

/-- The turns of a run. -/
def turns : List (Step α) → Worker (Recording α) → List (Turn α)
  | [], _ => []
  | .stimulus x :: steps, w => ⟨w, x⟩ :: turns steps (w.step x)
  | .adapter f :: steps, w => turns steps (w.advance (.adapter f))
  | .receiver f :: steps, w => turns steps (w.advance (.receiver f))

namespace Turn

def after (t : Turn α) : Worker (Recording α) := t.before.step t.stimulus

/-- The requests of the turn, each with its answer. -/
def requests (t : Turn α) : List (Request × Bool) :=
  t.after.adapter.requests.drop t.before.adapter.requests.length

/-- The events that the turn sends, whether or not somebody receives them. -/
def events (t : Turn α) : List Event :=
  ((t.before.sendingTo {}).step t.stimulus).outbox.waiting

end Turn

theorem turns_append (first later : List (Step α)) (w : Worker (Recording α)) :
    turns (first ++ later) w = turns first w ++ turns later (w.run first) := by
  induction first generalizing w with
  | nil => rfl
  | cons s first ih =>
    cases s with
    | stimulus x => exact congrArg _ (ih _)
    | adapter f => exact ih _
    | receiver f => exact ih _

theorem run_concat (steps : List (Step α)) (s : Step α) (w : Worker (Recording α)) :
    w.run (steps ++ [s]) = (w.run steps).advance s := List.foldl_append ..

/-- A turn of a run begins where the steps before it end. -/
theorem turns_split {steps : List (Step α)} {w : Worker (Recording α)}
    {before after : List (Turn α)} {t : Turn α} (h : turns steps w = before ++ t :: after) :
    ∃ first, turns first w = before ∧ w.run first = t.before := by
  induction steps generalizing w before with
  | nil => simp [turns] at h
  | cons s steps ih =>
    cases s with
    | stimulus x =>
      rw [turns] at h
      cases before with
      | nil =>
        obtain ⟨rfl, -⟩ := List.cons.inj h
        exact ⟨[], rfl, rfl⟩
      | cons u before =>
        obtain ⟨rfl, hrest⟩ := List.cons.inj h
        obtain ⟨first, hturns, hrun⟩ := ih hrest
        exact ⟨.stimulus x :: first, by rw [turns, hturns], hrun⟩
    | adapter f =>
      obtain ⟨first, hturns, hrun⟩ := ih h
      exact ⟨.adapter f :: first, hturns, hrun⟩
    | receiver f =>
      obtain ⟨first, hturns, hrun⟩ := ih h
      exact ⟨.receiver f :: first, hturns, hrun⟩

/-- What holds at first of the turns so far and of what the worker holds, and is kept by a turn, is
so after every run. -/
theorem run_induction {w : Worker (Recording α)} {P : List (Turn α) → Holding → Prop}
    (start : P [] w.holding)
    (turn : ∀ ts t, P ts t.before.holding → P (ts ++ [t]) t.after.holding)
    (steps : List (Step α)) : P (turns steps w) (w.run steps).holding := by
  induction steps using List.reverseRecOn with
  | nil => exact start
  | append_singleton steps s ih =>
    rw [turns_append, run_concat]
    cases s with
    | stimulus x => exact turn _ ⟨w.run steps, x⟩ ih
    | adapter f => exact (List.append_nil (turns steps w)).symm ▸ ih
    | receiver f => exact (List.append_nil (turns steps w)).symm ▸ ih

/-! ## What a turn comes to -/

theorem requests_of_asked {a b : Recording α} {rs : List (Request × Bool)}
    (h : Asked a rs b) : b.requests = a.requests ++ rs := by
  induction h with
  | none => exact (List.append_nil _).symm
  | more before hr ih =>
    cases hr
    rw [← List.append_assoc, ← ih]

/-- Each turn is one of the ways to respond, and its events go to the receiver if there is one. -/
theorem Turn.responds (t : Turn α) :
    Responds t.before t.stimulus t.requests t.events t.after.holding ∧
      t.after.outbox = t.before.outbox.sendAll t.events := by
  obtain ⟨rs, es, h⟩ := comes t.stimulus t.before
  obtain ⟨hrs, hsent, hresponds⟩ := h t.before.outbox
  have hrequests : t.requests = rs := by
    rw [requests, show t.after.adapter.requests = _ from requests_of_asked hrs, List.drop_left]
  have hevents : t.events = es := by
    rw [events, (h {}).2.1]
    rfl
  rw [hrequests, hevents]
  exact ⟨hresponds, hsent⟩

end Worker

end VehicleLink
