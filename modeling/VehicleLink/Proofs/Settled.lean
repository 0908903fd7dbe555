import VehicleLink.Proofs.Live
import VehicleLink.Proofs.Pumping

/-!
# Nothing is stuck after a pump

Every step of a run over a prompt radio keeps `Lively`, the soundness of the transport with the
invariant that what it waits for is in the inbox. A pump is such a run too, and returns with an
empty inbox. So the transport waits for nothing then (`settled_after_pump`).
-/

namespace VehicleLink.Endpoint

open Radio (Simulated)

/-- Nothing is under way: a link, if there is one, is ready, and no byte waits or is in flight. -/
structure Settled {ρ σ : Type} (w : Endpoint ρ σ) : Prop where
  inbox : w.inbox = []
  attempt : w.transport.connection.isConnecting = false
  ready : w.transport.connection.isConnected = true → w.transport.connection.isReady = true
  flight : w.transport.outbound.queue.inFlight = false
  queue : w.transport.outbound.queue.bytes = []

variable {σ : Type} {s : LinkSettings} {w w' : Endpoint Simulated σ}

/-! ## Runs over a prompt radio -/

/-- What holds at every point of a run over a prompt radio without a delay. -/
structure Lively (s : LinkSettings) (w : Endpoint Simulated σ) : Prop where
  sound : Sound s w.transport
  live : Live [] w

section Run

variable [DeviceStore σ]

theorem Lively.step (h : Lively s w) (hdelay : s.writeDelay = 0) (st : Step Simulated σ)
    (hst : st.Within Simulated.Prompt) : Lively s (w.step st) where
  sound := sound_step h.sound st
  live := by
    cases st with
    | act a => exact h.live.act h.sound hdelay a
    | radio f => exact ⟨⟨hst _ h.live.prompt, h.live.due, h.live.flight⟩, h.live.course⟩
    | store f => exact ⟨⟨h.live.prompt, h.live.due, h.live.flight⟩, h.live.course⟩

theorem Lively.run (h : Lively s w) (hdelay : s.writeDelay = 0) (steps : List (Step Simulated σ))
    (hsteps : ∀ st ∈ steps, st.Within Simulated.Prompt) : Lively s (w.run steps) := by
  induction steps generalizing w with
  | nil => exact h
  | cons st steps ih =>
    have hst := h.step hdelay st (hsteps st List.mem_cons_self)
    exact ih hst fun x hx => hsteps x (List.mem_cons_of_mem st hx)

theorem lively_create {target : Option String} {radio : Simulated} {store : σ}
    (h : create s target radio store = .ok w) (hradio : radio.Prompt) : Lively s w := by
  refine ⟨sound_create h, ?_⟩
  obtain ⟨a, devices, -, rfl⟩ := create_eq h
  exact ⟨⟨hradio, rfl, nofun⟩, nofun⟩

/-! ## The end of a pump -/

omit [DeviceStore σ] in
theorem Live.openCall?_eq_none (h : Live [] w) (hempty : w.inbox = []) :
    w.transport.connection.openCall? = none := by
  cases hopen : w.transport.connection.openCall? with
  | none => rfl
  | some c =>
    obtain ⟨e, he, -⟩ := h.course c hopen
    rw [hempty] at he
    cases he

omit [DeviceStore σ] in
theorem Live.inFlight_eq_false (h : Live [] w) (hempty : w.inbox = []) :
    w.transport.outbound.queue.inFlight = false := by
  cases hflight : w.transport.outbound.queue.inFlight with
  | false => rfl
  | true =>
    obtain ⟨success, hmem⟩ := h.flight hflight
    rw [hempty] at hmem
    cases hmem

theorem isConnecting_of_openCall? {c : Connection} (h : c.openCall? = none) :
    c.isConnecting = false := by
  cases c with
  | connecting p teardown => cases h
  | _ => rfl

theorem isReady_of_openCall? {c : Connection} (h : c.openCall? = none)
    (hc : c.isConnected = true) : c.isReady = true := by
  cases c with
  | connected p ready teardown =>
    cases teardown with
    | true => cases h
    | false =>
      cases ready with
      | true => rfl
      | false => cases h
  | _ => cases hc

omit [DeviceStore σ] in
theorem Lively.settled_of_drained (h : Lively s w) (hempty : w.inbox = [])
    (hd : Drained w false w') : w'.Settled := by
  have hopen := h.live.openCall?_eq_none hempty
  have hflight := h.live.inFlight_eq_false hempty
  cases hd with
  | idle hidle =>
    refine ⟨hempty, isConnecting_of_openCall? hopen, isReady_of_openCall? hopen, hflight, ?_⟩
    cases hc : w.transport.connection.isConnected with
    | false => exact h.sound.unqueued hc
    | true =>
      have hnext := hidle (isReady_of_openCall? hopen hc) h.live.due
      rcases FragmentQueue.next?_eq_none hnext with hsent | hbytes
      · rw [hflight] at hsent
        cases hsent
      · exact hbytes
  | refused fragment queue ready next refused air now course outbound =>
    have hinbox : w'.inbox = (w.submit (.write .write fragment)).2.inbox := congrArg Prod.snd air
    rw [← course.connection] at hopen
    refine ⟨?_, isConnecting_of_openCall? hopen, isReady_of_openCall? hopen, ?_, ?_⟩
    · rw [hinbox, inbox_of_refused refused, hempty]
    · rw [outbound]
      rfl
    · rw [outbound]
      rfl

/-- Whatever happens around a pump, it returns with nothing under way. -/
theorem Lively.settled (h : Lively s w) (hdelay : s.writeDelay = 0)
    (hp : Pumped Simulated.Prompt w w') : w'.Settled := by
  induction hp with
  | @done w hempty hidle =>
    have hd := drained_drain w
    rw [hidle] at hd
    exact h.settled_of_drained hempty hd
  | @event w _ e rest hinbox _ ih =>
    have hnext := h.step hdelay (.act .next) trivial
    rw [Endpoint.step, Endpoint.act, handleNext_cons hinbox] at hnext
    exact ih hnext
  | fragment _ _ _ ih => exact ih (h.step hdelay (.act .drainDue) trivial)
  | meanwhile st _ hst _ ih => exact ih (h.step hdelay st hst)

/-- No run over a prompt radio without a delay between fragments gets stuck: a pump always returns,
and with nothing under way, whatever the radio takes up or turns away in the meantime. -/
theorem settled_after_pump {target : Option String} {radio : Simulated} {store : σ}
    (hw : create s target radio store = .ok w) (hdelay : s.writeDelay = 0)
    (hradio : radio.Prompt) (steps : List (Step Simulated σ))
    (hsteps : ∀ st ∈ steps, st.Within Simulated.Prompt) :
    Pumped Simulated.Prompt (w.run steps) (w.run steps).pump.2 ∧
      ∀ w', Pumped Simulated.Prompt (w.run steps) w' → w'.Settled := by
  have hrun : Lively s (w.run steps) := (lively_create hw hradio).run hdelay steps hsteps
  refine ⟨pumped_pump _, fun w' hp => ?_⟩
  exact hrun.settled hdelay hp

/-- A link that is not ready yet, five bytes and a stray acknowledgement, on a radio that turns
scans away from now on: after a pump the bytes have gone out. -/
theorem settled_after_write :
    ∃ (w : Endpoint Simulated Store.Memory) (steps : List (Step Simulated Store.Memory)),
      create { maxFragment := 2, writeDelay := 0 } none {} {} = .ok w ∧
      (∀ st ∈ steps, st.Within Simulated.Prompt) ∧
      (w.run steps).transport.connection = .connected ⟨1, 2, 3, 4, 5, 6⟩ false false ∧
      (w.run steps).transport.outbound.queue.bytes = [1, 2, 3, 4, 5] ∧
      (w.run steps).inbox = [.servicesDiscovered true, .writeComplete true] ∧
      (w.run steps).pump.2.radio.writes = [[1, 2], [3, 4], [5]] ∧
      (w.run steps).pump.2.Settled := by
  let settings : LinkSettings := { maxFragment := 2, writeDelay := 0 }
  let refuse (r : Simulated) : Simulated :=
    { r with behaviour := { r.behaviour with refuseScan := true } }
  let steps : List (Step Simulated Store.Memory) :=
    [.act .start, .radio refuse, .act (.connect (some ⟨1, 2, 3, 4, 5, 6⟩)), .act .next,
      .act (.write [1, 2, 3, 4, 5]), .act (.raise (.writeComplete true))]
  have hw : create settings none ({} : Simulated) ({} : Store.Memory) = .ok _ := rfl
  have hrefuse (r : Simulated) (h : r.Prompt) : (refuse r).Prompt :=
    ⟨h.connect, h.disconnect, h.discover, h.acknowledge⟩
  have hsteps : ∀ st ∈ steps, st.Within Simulated.Prompt := by
    intro st hst
    simp only [steps, List.mem_cons, List.not_mem_nil, or_false] at hst
    rcases hst with rfl | rfl | rfl | rfl | rfl | rfl
    · trivial
    · exact hrefuse
    · trivial
    · trivial
    · trivial
    · trivial
  have hsettled := settled_after_pump hw rfl ⟨rfl, rfl, rfl, rfl⟩ steps hsteps
  exact ⟨_, steps, hw, hsteps, by decide, by decide, by decide, by decide,
    hsettled.2 _ hsettled.1⟩

end Run

end VehicleLink.Endpoint
