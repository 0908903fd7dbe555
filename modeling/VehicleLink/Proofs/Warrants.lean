import VehicleLink.Proofs.Turns

/-!
# Why calls are made

Every call to the radio has its reason in the transport before the operation and in the event that
the operation handles (`Warrant`). The reasons of a turn's calls are those of its operation
(`Turn.warranted`), so what is no reason for a call rules it out in all runs.
-/

namespace VehicleLink

/-- Calls that make a link or use it. -/
def Call.engages : Call → Bool
  | .connect _ => true
  | .discover => true
  | .enableNotify _ => true
  | .write .. => true
  | _ => false

/-- The reason for a call, for a transport that handles the event, if there is one. -/
inductive Warrant (t : Transport) : Option Event → Call → Prop
  | scan {e : Option Event} {c : Call} (h : c.isScan = true) : Warrant t e c
  | disconnect {e : Option Event} : Warrant t e .disconnect
  | connect (a : Address) (running : t.running = true) (h : t.connection = .disconnected) :
      Warrant t none (.connect a)
  /-- The attempt before failed. -/
  | fallback (a p : Address) (h : t.connection = .connecting p false) :
      Warrant t (some .linkDown) (.connect a)
  | discover (p : Address) (h : t.connection = .connecting p false) :
      Warrant t (some .linkUp) .discover
  | notify (k : Characteristic) (p : Address) (r : Bool) (h : t.connection = .connected p r false) :
      Warrant t (some (.servicesDiscovered true)) (.enableNotify k)
  | write {e : Option Event} (k : Characteristic) (fragment : List UInt8)
      (h : t.connection.isReady = true) : Warrant t e (.write k fragment)
  /-- What was queued before the link became ready. -/
  | first (k : Characteristic) (fragment : List UInt8) (p : Address) (r : Bool)
      (h : t.connection = .connected p r false) :
      Warrant t (some (.servicesDiscovered true)) (.write k fragment)

namespace Endpoint

variable {ρ σ : Type} [Radio ρ] {P : Call → Prop} {e : Option Event} {w w' : Endpoint ρ σ}

/-! ## The operations -/

theorem Aside.warranted {t : Transport} (h : Aside w w') : Asks (Warrant t e) w w' :=
  h.asks.mono fun _ hc => .scan hc

theorem Drained.asks {sent : Bool} (h : Drained w sent w')
    (hP : w.transport.connection.isReady = true → ∀ fragment, P (.write .write fragment)) :
    Asks P w w' := by
  cases h with
  | idle => exact .of_air rfl
  | sent fragment queue ready next taken air => exact .of_submit (hP ready fragment) air
  | refused fragment queue ready next refused air => exact .of_submit (hP ready fragment) air

theorem Ended.warranted {t : Transport} (h : Ended w w') : Asks (Warrant t e) w w' := by
  cases h with
  | none hc => exact .of_air rfl
  | asked c hc air => exact .of_submit .disconnect air

theorem Dropped.warranted {t : Transport} {p : Address} (h : Dropped p w w') :
    Asks (Warrant t e) w w' := .of_submit .disconnect h.air

theorem Attempted.asks_connect {cs : List Candidate} (h : Attempted cs w w')
    (hP : ∀ a, P (.connect a)) : Asks P w w' := by
  refine h.asks.mono ?_
  rintro _ ⟨c, -, rfl⟩
  exact hP c.address

theorem Seek.warranted [DeviceStore σ] {target : Option Address} (h : Seek target w w')
    (hrun : w.transport.running = true) : Asks (Warrant w.transport none) w w' := by
  cases h with
  | idle ha => exact ha.warranted
  | tries cs hw hu hcs =>
    have hqueueing : Asks (Warrant w.transport none) w (w.queueing []) := .of_air rfl
    have ha := attempted_tryCandidates cs (hu.link.connection.trans hw)
    exact (hqueueing.trans hu.warranted).trans (ha.asks_connect fun a => .connect a hrun hw)

theorem Opened.warranted {t : Transport} {p : Address} (h : Opened p w w') :
    Asks (Warrant t e) w w' := h.asks.mono fun _ hc => .scan hc

theorem warranted_linkUp [DeviceStore σ] (w : Endpoint ρ σ) :
    Asks (Warrant w.transport (some .linkUp)) w w.onLinkUp := by
  have h := linkUpDone_onLinkUp w
  generalize w.onLinkUp = w' at h ⊢
  cases h with
  | unexpected => exact .of_air rfl
  | cancelled p hc traffic connection candidates air => exact .of_submit .disconnect air
  | kept p hc opened taken => exact opened.warranted.trans (.submit _ (.discover p hc))
  | dropped p hc opened refused dropped =>
    exact (opened.warranted.trans (.submit _ (.discover p hc))).trans dropped.warranted

theorem warranted_linkDown [DeviceStore σ] (w : Endpoint ρ σ) :
    Asks (Warrant w.transport (some .linkDown)) w w.onLinkDown := by
  have h := linkDownDone_onLinkDown w
  generalize w.onLinkDown = w' at h ⊢
  cases h with
  | failed p hc =>
    have ha := attempted_tryCandidates (w := w.gone.update (Transport.noteError (.connectFailed p)))
      w.transport.candidates rfl
    exact (Asks.of_air rfl).trans (ha.asks_connect fun a => .fallback a p hc)
  | _ => exact .of_air rfl

theorem warranted_discovered (success : Bool) (w : Endpoint ρ σ) :
    Asks (Warrant w.transport (some (.servicesDiscovered success))) w
      (w.onServicesDiscovered success) := by
  have h := discoveredDone_onServicesDiscovered success w
  generalize w.onServicesDiscovered success = w' at h ⊢
  cases h with
  | ignored => exact .of_air rfl
  | ready p r hc taken hs =>
    subst hs
    exact ((Asks.submit _ (.notify _ p r hc)).update _).trans
      ((drained_drain _).asks fun _ fragment => .first _ fragment p r hc)
  | refused p r hc refused dropped hs =>
    subst hs
    exact (Asks.submit _ (.notify _ p r hc)).trans dropped.warranted
  | failed p r hc dropped => exact dropped.warranted

theorem warranted_completed (success : Bool) (w : Endpoint ρ σ) :
    Asks (Warrant w.transport e) w (w.onWriteComplete success) := by
  have h := completedDone_onWriteComplete success w
  generalize w.onWriteComplete success = w' at h ⊢
  cases h with
  | unexpected => exact .of_air rfl
  | acknowledged hflight hs =>
    have hdrain : Asks (Warrant w.transport e) w.acknowledged w.acknowledged.drain.2 :=
      (drained_drain _).asks fun ready fragment => .write _ fragment ready
    exact (Asks.of_air rfl).trans hdrain
  | failed hflight hs air => exact .of_air air

theorem Answered.warranted {bytes : List UInt8} {ok : Bool} (h : Answered bytes w ok w') :
    Asks (Warrant w.transport e) w w' := by
  cases h with
  | unlinked => exact .of_air rfl
  | reports => exact .of_air rfl
  | overflows => exact .of_air rfl
  | @accepted queue h failed fits queued =>
    have hdrain : Asks (Warrant w.transport e) (w.withQueue queue) (w.withQueue queue).drain.2 :=
      (drained_drain _).asks fun ready fragment => .write _ fragment ready
    exact (Asks.of_air rfl).trans hdrain

variable [DeviceStore σ]

theorem warranted_act {a : Action} (ha : a.byConsumer = true) (w : Endpoint ρ σ) :
    Asks (Warrant w.transport none) w (w.act a) := by
  have h := acted_act ha w
  generalize w.act a = w' at h ⊢
  cases h with
  | stops hu h => exact ((Asks.of_air rfl).trans hu.warranted).trans h.warranted
  | seeks running h => exact h.warranted running
  | ends h => exact h.warranted
  | aside h => exact h.warranted
  | writes h => exact h.warranted
  | drains h => exact h.asks fun ready fragment => .write _ fragment ready
  | _ => exact .of_air rfl

theorem warranted_handle (e : Event) (w : Endpoint ρ σ) :
    Asks (Warrant w.transport (some e)) w (w.handle e) := by
  cases e with
  | scanResult d => exact (aside_onScanResult d w).warranted
  | scanComplete => exact (aside_onScanComplete w).warranted
  | linkUp => exact warranted_linkUp w
  | linkDown => exact warranted_linkDown w
  | servicesDiscovered success => exact warranted_discovered success w
  | writeComplete success => exact warranted_completed success w
  | received bytes =>
    obtain ⟨inbound, heq⟩ := onReceived_eq bytes w
    exact .of_air (by rw [Endpoint.handle, heq]; rfl)

end Endpoint

/-! ## Turns -/

theorem Turn.warranted {ρ σ : Type} [Radio ρ] [DeviceStore σ] (t : Turn ρ σ) :
    ∀ c ∈ t.calls, Warrant t.before.transport t.event? c.1 := by
  refine Endpoint.Logs.calls ?_
  cases t.kind with
  | still idle event transport log => exact ⟨[], by simp [log], by simp⟩
  | acts a ha hstep =>
    rw [after_of_step hstep, event?_of_consumer ha hstep]
    exact (Endpoint.warranted_act ha t.before).log
  | handles e w idle event transport radio after =>
    obtain ⟨cs, hlog, hcs⟩ := (Endpoint.warranted_handle e w).log
    rw [event, ← transport]
    exact ⟨cs, by rw [after, hlog, radio], hcs⟩

end VehicleLink
