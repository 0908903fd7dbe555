import VehicleLink.Transport.Pump

/-!
# Runs of an endpoint

An `Action` is one thing that a consumer, the clock or the event channel does to an endpoint; a
`Step` is an action, or a change of the radio or the store of their own accord. A run is a list of
steps, with no restriction on their order.

Pumping and the rounds of a driver are runs of smaller actions (`pump_eq_run`, `pumpFor_eq_run`,
`tick_eq_run`), so what holds over all runs holds also in the middle of a pump.

To speak of the calls that a run makes, runs are taken over a radio that keeps a record
(`Logged`): any radio, with a log of every call and of whether it was accepted. A `Turn` is one
step of such a run with the endpoint before it.
-/

namespace VehicleLink

/-! ## Actions and steps -/

/-- What a consumer, the clock or the event channel does to an endpoint. -/
inductive Action where
  | start
  | stop
  | connect (target : Option Address)
  | disconnect
  | pollAt (instant : Nanos)
  | startScan
  | write (bytes : List UInt8)
  | read (n : Nat)
  | setTarget (target : Option String)
  | drainDue
  /-- Handles an event that does not come from the inbox. -/
  | handle (e : Event)
  | next
  /-- The radio raises an event of its own accord. -/
  | raise (e : Event)
  | wait (d : Nanos)

/-- The actions of a consumer and of the clock: all but the reports of a radio. -/
def Action.byConsumer : Action → Bool
  | .handle _ => false
  | .next => false
  | .raise _ => false
  | _ => true

/-- One step of a run: an action, or a change of the radio or of the store by itself. -/
inductive Step (ρ σ : Type) where
  | act (a : Action)
  | radio (f : ρ → ρ)
  | store (f : σ → σ)

namespace Endpoint

variable {ρ σ : Type} [Radio ρ] [DeviceStore σ]

def handleNext (w : Endpoint ρ σ) : Endpoint ρ σ :=
  match w.inbox with
  | [] => w
  | e :: rest => ({ w with inbox := rest }).handle e

theorem handleNext_nil {w : Endpoint ρ σ} (h : w.inbox = []) : w.handleNext = w := by
  rw [handleNext, h]

theorem handleNext_cons {w : Endpoint ρ σ} {e : Event} {rest : List Event}
    (h : w.inbox = e :: rest) : w.handleNext = ({ w with inbox := rest }).handle e := by
  rw [handleNext, h]

def act (a : Action) (w : Endpoint ρ σ) : Endpoint ρ σ :=
  match a with
  | .start => w.start
  | .stop => w.stop
  | .connect target => w.connect target
  | .disconnect => w.disconnect
  | .pollAt instant => w.pollAt instant
  | .startScan => w.startScan.2
  | .write bytes => (w.write bytes).2
  | .read n => (w.read n).2
  | .setTarget target => (w.setTarget target).2
  | .drainDue => w.drain.2
  | .handle e => w.handle e
  | .next => w.handleNext
  | .raise e => w.raise e
  | .wait d => w.wait d

def step (s : Step ρ σ) (w : Endpoint ρ σ) : Endpoint ρ σ :=
  match s with
  | .act a => w.act a
  | .radio f => { w with radio := f w.radio }
  | .store f => { w with store := f w.store }

def run (steps : List (Step ρ σ)) (w : Endpoint ρ σ) : Endpoint ρ σ :=
  steps.foldl (fun w s => w.step s) w

@[simp] theorem run_nil (w : Endpoint ρ σ) : w.run [] = w := rfl

@[simp] theorem run_cons (s : Step ρ σ) (steps : List (Step ρ σ)) (w : Endpoint ρ σ) :
    w.run (s :: steps) = (w.step s).run steps := rfl

theorem run_append (first later : List (Step ρ σ)) (w : Endpoint ρ σ) :
    w.run (first ++ later) = (w.run first).run later := List.foldl_append ..

theorem run_concat (steps : List (Step ρ σ)) (s : Step ρ σ) (w : Endpoint ρ σ) :
    w.run (steps ++ [s]) = (w.run steps).step s := by
  rw [run_append]; rfl

/-- What every step keeps holds at the end of a run. -/
theorem run_induction {P : Endpoint ρ σ → Prop} (hstep : ∀ s w, P w → P (w.step s))
    {w : Endpoint ρ σ} (h : P w) (steps : List (Step ρ σ)) : P (w.run steps) := by
  induction steps generalizing w with
  | nil => exact h
  | cons s steps ih => exact ih (hstep s w h)

/-! ## The first endpoint -/

omit [Radio ρ] [DeviceStore σ] in
/-- A stopped endpoint that has done nothing. -/
def fresh (s : LinkSettings) (target : Option Address) (devices : DeviceSet) (radio : ρ)
    (store : σ) : Endpoint ρ σ :=
  { radio, store
    transport :=
      { settings := s, devices
        policy :=
          { target, automatic := s.automaticScan, interval := s.pollInterval
            fastInterval := s.fastPollInterval }
        outbound := { queue := .create s.outboundCapacity s.maxFragment } } }

theorem create_eq {s : LinkSettings} {target : Option String} {radio : ρ} {store : σ}
    {w : Endpoint ρ σ} (h : create s target radio store = .ok w) :
    ∃ a devices, Address.parseOptional target = .ok a ∧ w = fresh s a devices radio store := by
  unfold create at h
  split at h
  · cases h
  · split at h
    · cases h
    · rename_i a ha
      cases h
      exact ⟨a, _, ha, rfl⟩

/-! ## Pumps and rounds are runs -/

/-- A pump handles waiting events and sends due fragments, one after the other. -/
theorem pumpUpTo_eq_run (turns : Nat) (w : Endpoint ρ σ) :
    ∃ steps : List (Step ρ σ),
      (∀ s ∈ steps, s = .act .next ∨ s = .act .drainDue) ∧ (w.pumpUpTo turns).2 = w.run steps := by
  induction turns generalizing w with
  | zero => exact ⟨[], by simp, rfl⟩
  | succ turns ih =>
    unfold pumpUpTo
    split
    · rename_i e rest hinbox
      obtain ⟨steps, hs, hrun⟩ := ih (({ w with inbox := rest }).handle e)
      refine ⟨.act .next :: steps, ?_, ?_⟩
      · simpa using hs
      · rw [run_cons, step, act, handleNext, hinbox]
        exact hrun
    · rcases hd : w.drain with ⟨sent, w'⟩
      have hw : w' = w.step (.act .drainDue) := (congrArg Prod.snd hd).symm
      cases sent with
      | true =>
        obtain ⟨steps, hs, hrun⟩ := ih w'
        refine ⟨.act .drainDue :: steps, by simpa using hs, ?_⟩
        rw [run_cons, ← hw]
        exact hrun
      | false => exact ⟨[.act .drainDue], by simp, hw⟩

theorem pump_eq_run (w : Endpoint ρ σ) : ∃ steps : List (Step ρ σ), w.pump.2 = w.run steps :=
  let ⟨steps, _, h⟩ := pumpUpTo_eq_run _ w
  ⟨steps, h⟩

theorem pumpFor_eq_run (limit : Nanos) (w : Endpoint ρ σ) :
    ∃ steps : List (Step ρ σ), (w.pumpFor limit).2 = w.run steps := by
  unfold pumpFor
  split
  · exact pump_eq_run w
  · obtain ⟨steps, h⟩ := pump_eq_run (w.wait (min limit (w.pacingRemaining.getD limit)))
    exact ⟨.act (.wait _) :: steps, h⟩

theorem tick_eq_run (interval : Nanos) (w : Endpoint ρ σ) :
    ∃ steps : List (Step ρ σ), w.tick interval = w.run steps := by
  obtain ⟨steps, h⟩ := pumpFor_eq_run interval w
  refine ⟨steps ++ [.act (.pollAt (w.pumpFor interval).2.now)], ?_⟩
  rw [run_concat, ← h]
  rfl

end Endpoint

/-! ## A radio with a log -/

/-- A radio that keeps a record of the calls made to it, each with its answer. -/
structure Logged (ρ : Type) where
  radio : ρ
  log : List (Call × Bool) := []

instance {ρ : Type} [Radio ρ] : Radio (Logged ρ) where
  available r := Radio.available r.radio
  bonded r := Radio.bonded r.radio
  submit c r :=
    let (answer, radio) := Radio.submit c r.radio
    (answer, ⟨radio, r.log ++ [(c, answer.accepted)]⟩)

/-- A step over the radio that the log is kept of; nothing but calls changes the log. -/
def Step.logged {ρ σ : Type} : Step ρ σ → Step (Logged ρ) σ
  | .act a => .act a
  | .radio f => .radio fun r => { r with radio := f r.radio }
  | .store f => .store f

/-! ## Turns -/

/-- One step of a run, with the endpoint before it. -/
structure Turn (ρ σ : Type) where
  before : Endpoint (Logged ρ) σ
  step : Step ρ σ

namespace Turn

variable {ρ σ : Type} [Radio ρ] [DeviceStore σ]

def after (t : Turn ρ σ) : Endpoint (Logged ρ) σ := t.before.step t.step.logged

/-- The calls that the step made, each with its answer. -/
def calls (t : Turn ρ σ) : List (Call × Bool) :=
  t.after.radio.log.drop t.before.radio.log.length

omit [Radio ρ] [DeviceStore σ] in
/-- The event that the step handled. -/
def event? (t : Turn ρ σ) : Option Event :=
  match t.step with
  | .act (.handle e) => some e
  | .act .next => t.before.inbox.head?
  | _ => none

/-- Whether the step established a link. -/
def establishes (t : Turn ρ σ) : Bool :=
  !t.before.transport.connection.isConnected && t.after.transport.connection.isConnected

end Turn

namespace Endpoint

variable {ρ σ : Type} [Radio ρ] [DeviceStore σ]

/-- The turns of a run. -/
def turns : List (Step ρ σ) → Endpoint (Logged ρ) σ → List (Turn ρ σ)
  | [], _ => []
  | s :: steps, w => ⟨w, s⟩ :: turns steps (w.step s.logged)

/-- The end of a run over a radio with a log. -/
def runLogged (steps : List (Step ρ σ)) (w : Endpoint (Logged ρ) σ) : Endpoint (Logged ρ) σ :=
  w.run (steps.map Step.logged)

theorem turns_append (first later : List (Step ρ σ)) (w : Endpoint (Logged ρ) σ) :
    turns (first ++ later) w = turns first w ++ turns later (w.runLogged first) := by
  induction first generalizing w with
  | nil => rfl
  | cons s first ih => exact congrArg _ (ih _)

theorem runLogged_concat (steps : List (Step ρ σ)) (s : Step ρ σ) (w : Endpoint (Logged ρ) σ) :
    w.runLogged (steps ++ [s]) = (w.runLogged steps).step s.logged := by
  rw [runLogged, List.map_append]
  exact run_concat ..

theorem turns_concat (steps : List (Step ρ σ)) (s : Step ρ σ) (w : Endpoint (Logged ρ) σ) :
    turns (steps ++ [s]) w = turns steps w ++ [⟨w.runLogged steps, s⟩] := turns_append ..

/-- The turns before one of a run are the turns of a run, and so are those after it. -/
theorem turns_split {steps : List (Step ρ σ)} {w : Endpoint (Logged ρ) σ}
    {before after : List (Turn ρ σ)} {t : Turn ρ σ} (h : turns steps w = before ++ t :: after) :
    ∃ first later, before = turns first w ∧ t.before = w.runLogged first ∧
      after = turns later t.after := by
  induction before generalizing steps w with
  | nil =>
    cases steps with
    | nil => cases h
    | cons st steps =>
      obtain ⟨rfl, rfl⟩ := List.cons.inj h
      exact ⟨[], steps, rfl, rfl, rfl⟩
  | cons v before ih =>
    cases steps with
    | nil => cases h
    | cons st steps =>
      obtain ⟨rfl, hrest⟩ := List.cons.inj h
      obtain ⟨first, later, hbefore, ht, hafter⟩ := ih hrest
      exact ⟨st :: first, later, congrArg _ hbefore, ht, hafter⟩

theorem step_mem_of_mem_turns {steps : List (Step ρ σ)} {w : Endpoint (Logged ρ) σ}
    {t : Turn ρ σ} (ht : t ∈ turns steps w) : t.step ∈ steps := by
  induction steps generalizing w with
  | nil => cases ht
  | cons s steps ih =>
    rcases List.mem_cons.1 ht with rfl | ht
    · exact List.mem_cons_self
    · exact List.mem_cons_of_mem _ (ih ht)

end Endpoint

end VehicleLink
