import VehicleLink.Proofs.Pumping
import VehicleLink.Proofs.Warrants

/-!
# What a pump handles

`Pumping around w n es u` says that a pump that began in `w` has made `n` turns, has handled the
events `es` one after the other, and is now in `u`; between its turns there were steps within
`around`. To tell what is raised meanwhile the radio keeps a record of it (`Monitored`).

No turn is possible without taking from the workload, whatever the clock, the radio and the store do
in between (`Pumping.bounded`), so a pump returns. What it has handled and what waits are what
waited before and what was raised since, in this order (`Pumping.handled`). So when a pump finds
nothing to handle and nothing to send, it has handled just that (`pump_handles_all`).
-/

namespace VehicleLink

/-! ## A radio that keeps what it raised -/

/-- A radio with a record of the events that it raised on calls. -/
structure Monitored (ρ : Type) where
  radio : ρ
  raised : List Event := []

instance {ρ : Type} [Radio ρ] : Radio (Monitored ρ) where
  available r := Radio.available r.radio
  bonded r := Radio.bonded r.radio
  submit c r :=
    let (answer, radio) := Radio.submit c r.radio
    (answer, ⟨radio, r.raised ++ answer.raised⟩)

instance {ρ : Type} [Radio ρ] [h : Radio.Moderate ρ] : Radio.Moderate (Monitored ρ) where
  weights_raised_le c r := h.weights_raised_le c r.radio
  raised_of_refused hrefused := h.raised_of_refused hrefused

/-- A step over the radio of which the events are recorded; only calls add to the record. -/
def Step.monitored {ρ σ : Type} : Step ρ σ → Step (Monitored ρ) σ
  | .act a => .act a
  | .radio f => .radio fun r => { r with radio := f r.radio }
  | .store f => .store f

namespace Endpoint

variable {ρ σ : Type} [Radio ρ]

/-- From the first endpoint to the second the inbox grew by what the radio raised. -/
def Raises (w w' : Endpoint (Monitored ρ) σ) : Prop :=
  ∃ es, w'.radio.raised = w.radio.raised ++ es ∧ w'.inbox = w.inbox ++ es

theorem Asks.raises {P : Call → Prop} {w w' : Endpoint (Monitored ρ) σ} (h : Asks P w w') :
    Raises w w' := by
  refine h.induction
    (K := fun r i => ∃ es, r.raised = w.radio.raised ++ es ∧ i = w.inbox ++ es) ?_
    ⟨[], by simp, by simp⟩
  rintro c r _ - ⟨es, hraised, rfl⟩
  refine ⟨es ++ (Radio.submit c r.radio).1.raised, ?_, List.append_assoc ..⟩
  rw [← List.append_assoc, ← hraised]
  rfl

variable [DeviceStore σ]

/-! ## Pumps under way -/

/-- A pump that began in `w` has made so many turns and handled these events. -/
inductive Pumping (around : Step ρ σ → Prop) (w : Endpoint (Monitored ρ) σ) :
    Nat → List Event → Endpoint (Monitored ρ) σ → Prop
  | begins : Pumping around w 0 [] w
  | event {n : Nat} {es : List Event} {u : Endpoint (Monitored ρ) σ} (e : Event)
      (rest : List Event) (before : Pumping around w n es u) (waiting : u.inbox = e :: rest) :
      Pumping around w (n + 1) (es ++ [e]) (({ u with inbox := rest }).handle e)
  | fragment {n : Nat} {es : List Event} {u : Endpoint (Monitored ρ) σ}
      (before : Pumping around w n es u) (empty : u.inbox = []) (sent : u.drain.1 = true) :
      Pumping around w (n + 1) es u.drain.2
  | meanwhile {n : Nat} {es : List Event} {u : Endpoint (Monitored ρ) σ} (s : Step ρ σ)
      (before : Pumping around w n es u) (within : around s) :
      Pumping around w n es (u.step s.monitored)

variable {around : Step ρ σ → Prop} {w u : Endpoint (Monitored ρ) σ} {n : Nat} {es : List Event}

theorem air_ambient {s : Step ρ σ} (h : s.isAmbient = true) (u : Endpoint (Monitored ρ) σ) :
    (u.step s.monitored).radio.raised = u.radio.raised ∧
      (u.step s.monitored).inbox = u.inbox ∧
      (u.step s.monitored).transport = u.transport := by
  cases s with
  | radio f => exact ⟨rfl, rfl, rfl⟩
  | store f => exact ⟨rfl, rfl, rfl⟩
  | act a => cases a <;> first | exact ⟨rfl, rfl, rfl⟩ | cases h

theorem workload_ambient {s : Step ρ σ} (h : s.isAmbient = true)
    (u : Endpoint (Monitored ρ) σ) : (u.step s.monitored).workload = u.workload := by
  obtain ⟨-, hinbox, htransport⟩ := air_ambient h u
  rw [workload, hinbox, htransport, workload]

/-- Every turn took from the workload. -/
theorem Pumping.bounded [Radio.Moderate ρ] (h : Pumping around w n es u)
    (haround : ∀ s, around s → s.isAmbient = true) : n + u.workload ≤ w.workload := by
  induction h with
  | begins => omega
  | event e rest _ waiting ih =>
    have hturn := workload_next waiting
    omega
  | @fragment n _ u _ _ sent ih =>
    have hturn := workload_drained (drained_drain u)
    rw [sent, Bool.toNat_true] at hturn
    omega
  | meanwhile s _ within ih =>
    rw [workload_ambient (haround s within)]
    exact ih

omit [DeviceStore σ] in
theorem raises_drain (u : Endpoint (Monitored ρ) σ) : Raises u u.drain.2 :=
  ((drained_drain u).asks (P := fun _ => True) fun _ _ => trivial).raises

/-- What was handled and what waits are what waited at first and what was raised since. -/
theorem Pumping.handled (h : Pumping around w n es u)
    (haround : ∀ s, around s → s.isAmbient = true) :
    ∃ raised, u.radio.raised = w.radio.raised ++ raised ∧ es ++ u.inbox = w.inbox ++ raised := by
  induction h with
  | begins => exact ⟨[], by simp, by simp⟩
  | @event _ es u e rest _ waiting ih =>
    obtain ⟨raised, hradio, hinbox⟩ := ih
    obtain ⟨new, hnew, hgrown⟩ := (warranted_handle e { u with inbox := rest }).raises
    refine ⟨raised ++ new, ?_, ?_⟩
    · rw [hnew, ← List.append_assoc, ← hradio]
    · rw [hgrown, ← List.append_assoc w.inbox, ← hinbox, waiting]
      simp
  | @fragment _ es u _ empty _ ih =>
    obtain ⟨raised, hradio, hinbox⟩ := ih
    obtain ⟨new, hnew, hgrown⟩ := raises_drain u
    refine ⟨raised ++ new, ?_, ?_⟩
    · rw [hnew, ← List.append_assoc, ← hradio]
    · rw [hgrown, ← List.append_assoc es, ← List.append_assoc w.inbox, ← hinbox]
  | @meanwhile _ _ u s _ within ih =>
    obtain ⟨hraised, hinbox, -⟩ := air_ambient (haround s within) u
    rw [hraised, hinbox]
    exact ih

/-! ## Pumps that return -/

/-- What holds when a pump returns in `w'` that began in `w` and handled `es`: it found nothing to
handle and nothing to send in `u`. -/
structure Emptied (w : Endpoint (Monitored ρ) σ) (es : List Event)
    (u w' : Endpoint (Monitored ρ) σ) : Prop where
  handled : ∃ raised, w'.radio.raised = w.radio.raised ++ raised ∧ es = w.inbox ++ raised
  inbox : w'.inbox = []
  /-- A fragment that could go out at this look is queued no more. -/
  submitted : u.transport.connection.isReady = true → u.transport.outbound.isDue u.now = true →
    w'.transport.outbound.queue.next? = none

omit [DeviceStore σ] in
/-- A look that finds nothing to send raises nothing, and leaves nothing that could go out. -/
theorem Drained.found_nothing [Radio.Moderate ρ] {w' : Endpoint (Monitored ρ) σ}
    (h : Drained u false w') : w'.radio.raised = u.radio.raised ∧ w'.inbox = u.inbox ∧
      (u.transport.connection.isReady = true → u.transport.outbound.isDue u.now = true →
        w'.transport.outbound.queue.next? = none) := by
  cases h with
  | idle hidle => exact ⟨rfl, rfl, hidle⟩
  | refused fragment queue ready next refused air now course outbound =>
    have hnone : (Radio.submit (.write .write fragment) u.radio).1.raised = [] :=
      Radio.Moderate.raised_of_refused refused
    have hradio : w'.radio = (u.submit (.write .write fragment)).2.radio := congrArg Prod.fst air
    have hinbox : w'.inbox = (u.submit (.write .write fragment)).2.inbox := congrArg Prod.snd air
    refine ⟨?_, ?_, fun _ _ => ?_⟩
    · rw [hradio]
      show u.radio.raised ++ (Radio.submit (.write .write fragment) u.radio).1.raised = _
      rw [hnone, List.append_nil]
    · rw [hinbox, inbox_of_refused refused]
    · rw [outbound]
      rfl

theorem Pumping.emptied [Radio.Moderate ρ] (h : Pumping around w n es u)
    (haround : ∀ s, around s → s.isAmbient = true) (empty : u.inbox = [])
    (idle : u.drain.1 = false) : Emptied w es u u.drain.2 := by
  have hdrained := drained_drain u
  rw [idle] at hdrained
  obtain ⟨hraised, hinbox, hsubmitted⟩ := hdrained.found_nothing
  obtain ⟨raised, hradio, hall⟩ := h.handled haround
  refine ⟨⟨raised, hraised.trans hradio, ?_⟩, hinbox.trans empty, hsubmitted⟩
  rw [← hall, empty, List.append_nil]

/-- With turns beyond the workload a pump goes on until it returns. -/
theorem Pumping.returns [Radio.Moderate ρ] (h : Pumping around w n es u) (turns : Nat)
    (hturns : u.workload < turns) :
    ∃ m later v, Pumping around w m (es ++ later) v ∧ v.inbox = [] ∧ v.drain.1 = false ∧
      u.pumpUpTo turns = (later.length, v.drain.2) := by
  induction turns generalizing n es u with
  | zero => exact absurd hturns (Nat.not_lt_zero _)
  | succ turns ih =>
    cases hinbox : u.inbox with
    | cons e rest =>
      have hturn := workload_next hinbox
      obtain ⟨m, later, v, hv, hempty, hidle, hpump⟩ := ih (h.event e rest hinbox) (by omega)
      refine ⟨m, e :: later, v, by simpa using hv, hempty, hidle, ?_⟩
      rw [pumpUpTo, hinbox]
      dsimp only
      rw [hpump]
      rfl
    | nil =>
      rw [pumpUpTo, hinbox]
      dsimp only
      cases hsent : u.drain.1 with
      | true =>
        have hturn := workload_drained (drained_drain u)
        rw [hsent, Bool.toNat_true] at hturn
        obtain ⟨m, later, v, hv, hempty, hidle, hpump⟩ := ih (h.fragment hinbox hsent) (by omega)
        exact ⟨m, later, v, hv, hempty, hidle, hpump⟩
      | false => exact ⟨n, [], u, by simpa using h, hinbox, hsent, rfl⟩

/-- A pump over a simulated radio returns, whatever the radio takes up or turns away. It has then
handled what waited and what was raised meanwhile, each event once and in order; it tells how many
these were, nothing waits, and nothing that could go out is queued. Also when the clock, the radio
and the store change between its turns it makes no more of them than the workload allows, and
returns so. -/
theorem pump_handles_all (w : Endpoint (Monitored Radio.Simulated) σ) :
    (∃ n es u, Pumping (fun _ => False) w n es u ∧ Emptied w es u w.pump.2 ∧
      w.pump.1 = es.length) ∧
    ∀ n es u, Pumping (fun s => s.isAmbient = true) w n es u →
      n + u.workload ≤ w.workload ∧
      (u.inbox = [] → u.drain.1 = false → Emptied w es u u.drain.2) := by
  refine ⟨?_, fun n es u h => ⟨h.bounded fun _ hs => hs, h.emptied fun _ hs => hs⟩⟩
  have hbegins : Pumping (fun _ => False) w 0 [] w := .begins
  obtain ⟨n, es, u, hu, hempty, hidle, hpump⟩ :=
    hbegins.returns (w.workload + 1) (Nat.lt_succ_self _)
  refine ⟨n, es, u, hu, ?_, congrArg Prod.fst hpump⟩
  have hreturned : w.pump.2 = u.drain.2 := congrArg Prod.snd hpump
  rw [hreturned]
  exact hu.emptied (fun _ hs => hs.elim) hempty hidle

/-- Four bytes, of which two are in flight. The acknowledgement that waits comes too early for the
others; they go out once the delay is over, and the pump handles their acknowledgement too. -/
theorem pump_handles_all_after_delay :
    ∃ w u : Endpoint (Monitored Radio.Simulated) Store.Memory,
      w.transport.outbound.queue.bytes = [3, 4] ∧ w.inbox = [.writeComplete true] ∧
      Pumping (fun s => s.isAmbient = true) w 3 [.writeComplete true, .writeComplete true] u ∧
      Emptied w [.writeComplete true, .writeComplete true] u u.drain.2 := by
  let settings : LinkSettings := { maxFragment := 2, writeDelay := 5 }
  let w : Endpoint (Monitored Radio.Simulated) Store.Memory :=
    (fresh settings none {} ⟨{}, []⟩ {}).run
      [.act .start, .act (.connect (some ⟨1, 2, 3, 4, 5, 6⟩)), .act .next, .act .next,
        .act (.write [1, 2, 3, 4])]
  have hbegins : Pumping (fun s => s.isAmbient = true) w 0 [] w := .begins
  have hearly := hbegins.event (.writeComplete true) [] (by decide)
  have hdue := hearly.meanwhile (.act (.wait 5)) rfl
  have hsent := hdue.fragment (by decide) (by decide)
  have hpumping := hsent.event (.writeComplete true) [] (by decide)
  exact ⟨w, _, by decide, by decide, hpumping,
    ((pump_handles_all w).2 _ _ _ hpumping).2 (by decide) (by decide)⟩

end Endpoint

end VehicleLink
