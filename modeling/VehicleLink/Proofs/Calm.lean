import VehicleLink.Proofs.Effects

/-!
# What attempts nothing

All operations except a search, a new target and the reports of a link that came up or went down
are calm: they ask for no connection, keep the target and the phase of the connection with its
peer, and add no candidates.
-/

namespace VehicleLink

/-- Two connections in the same phase to the same peer. -/
structure SamePhase (c c' : Connection) : Prop where
  phase : c'.phase = c.phase
  peer : c'.peer? = c.peer?

theorem SamePhase.of_eq {c c' : Connection} (h : c' = c) : SamePhase c c' := by
  subst h
  exact ⟨rfl, rfl⟩

theorem SamePhase.trans {c c' c'' : Connection} (h₁ : SamePhase c c') (h₂ : SamePhase c' c'') :
    SamePhase c c'' := ⟨h₂.phase.trans h₁.phase, h₂.peer.trans h₁.peer⟩

theorem SamePhase.isConnected {c c' : Connection} (h : SamePhase c c') :
    c'.isConnected = c.isConnected := by
  have := h.phase
  cases c <;> cases c' <;> first | rfl | cases this

theorem SamePhase.isConnecting {c c' : Connection} (h : SamePhase c c') :
    c'.isConnecting = c.isConnecting := by
  have := h.phase
  cases c <;> cases c' <;> first | rfl | cases this

theorem samePhase_markReady (c : Connection) : SamePhase c c.markReady := by
  cases c <;> exact ⟨rfl, rfl⟩

theorem samePhase_requestTeardown {c c' : Connection} (h : c.requestTeardown? = some c') :
    SamePhase c c' := by
  cases c <;> cases h <;> exact ⟨rfl, rfl⟩

namespace Endpoint

variable {ρ σ : Type} [Radio ρ] {w w' : Endpoint ρ σ}

/-- No attempt is made and none is prepared. -/
structure Calm (w w' : Endpoint ρ σ) : Prop where
  target : w'.transport.policy.target = w.transport.policy.target
  candidates : ∀ c ∈ w'.transport.candidates, c ∈ w.transport.candidates
  connection : SamePhase w.transport.connection w'.transport.connection
  asks : Asks (fun c => c.isConnect = false) w w'

theorem Calm.trans {w'' : Endpoint ρ σ} (h₁ : Calm w w') (h₂ : Calm w' w'') : Calm w w'' :=
  ⟨h₂.target.trans h₁.target, fun c hc => h₁.candidates c (h₂.candidates c hc),
    h₁.connection.trans h₂.connection, h₁.asks.trans h₂.asks⟩

/-- A change of nothing that calmness is about. -/
theorem Calm.of_same (hasks : Asks (fun c => c.isConnect = false) w w')
    (htarget : w'.transport.policy.target = w.transport.policy.target)
    (hcands : w'.transport.candidates = w.transport.candidates)
    (hconn : w'.transport.connection = w.transport.connection) : Calm w w' :=
  ⟨htarget, fun _ hc => hcands ▸ hc, .of_eq hconn, hasks⟩

theorem Calm.refl (w : Endpoint ρ σ) : Calm w w := .of_same (.of_air rfl) rfl rfl rfl

theorem no_connect_of_scan (c : Call) (h : c.isScan = true) : c.isConnect = false := by
  cases c <;> first | rfl | cases h

/-! ## The calm operations -/

theorem Aside.calm (h : Aside w w') : Calm w w' :=
  .of_same (h.asks.mono no_connect_of_scan) h.link.target h.link.candidates h.link.connection

theorem calm_submit (w : Endpoint ρ σ) {c : Call} (hc : c.isConnect = false) :
    Calm w (w.submit c).2 := .of_same (.submit c hc) rfl rfl rfl

theorem calm_queueing (w : Endpoint ρ σ) : Calm w (w.queueing []) :=
  ⟨rfl, fun _ hc => absurd hc List.not_mem_nil, .of_eq rfl, .of_air rfl⟩

theorem Drained.calm {sent : Bool} (h : Drained w sent w') : Calm w w' := by
  cases h with
  | idle => exact .refl w
  | sent fragment queue ready next taken air now course outbound =>
    exact .of_same (.of_submit rfl air) course.target course.candidates course.connection
  | refused fragment queue ready next refused air now course outbound =>
    exact .of_same (.of_submit rfl air) course.target course.candidates course.connection

theorem Written.calm {bytes : List UInt8} {ok : Bool} (h : Written bytes w ok w') :
    Calm w w' := by
  cases h with
  | refused air now course queue notBefore =>
    exact .of_same (.of_air air) course.target course.candidates course.connection
  | @accepted queue connected fits queued =>
    have hqueued : Calm w (w.withQueue queue) := .of_same (.of_air rfl) rfl rfl rfl
    exact hqueued.trans (drained_drain _).calm

theorem Ended.calm (h : Ended w w') : Calm w w' := by
  cases h with
  | none hc => exact calm_queueing w
  | asked c hc air now setup connected outbound inbound candidates =>
    refine ⟨setup.target, fun k hk => ?_, ?_, .of_submit rfl air⟩
    · rw [candidates] at hk
      cases hk
    · rw [connected]
      exact samePhase_requestTeardown hc

theorem calm_stop (w : Endpoint ρ σ) : Calm w w.stop := by
  rcases stop_cases w with heq | ⟨u, hu, heq⟩
  · rw [heq]
    exact .refl w
  · rw [heq]
    have hhalted : Calm w w.halted := .of_same (.of_air rfl) rfl rfl rfl
    exact (hhalted.trans hu.calm).trans (ended_disconnect u).calm

theorem Dropped.calm {p : Address} {ready teardown : Bool}
    (hw : w.transport.connection = .connected p ready teardown) (h : Dropped p w w') :
    Calm w w' := by
  refine ⟨h.traffic.target, fun _ hc => h.candidates ▸ hc, ?_, .of_submit rfl h.air⟩
  rw [hw, h.connection]
  exact ⟨rfl, rfl⟩

theorem DiscoveredDone.calm {success : Bool} (h : DiscoveredDone success w w') : Calm w w' := by
  have hasked : Calm w (w.submit (.enableNotify .notify)).2 := calm_submit w rfl
  cases h with
  | ignored => exact .refl w
  | ready p r hc taken =>
    have hready : Calm w (w.submit (.enableNotify .notify)).2.readied :=
      ⟨rfl, fun _ hc => hc, samePhase_markReady _, hasked.asks.update _⟩
    exact hready.trans (drained_drain _).calm
  | refused p r hc refused dropped => exact hasked.trans (dropped.calm hc)
  | failed p r hc dropped => exact dropped.calm hc

theorem CompletedDone.calm {success : Bool} (h : CompletedDone success w w') : Calm w w' := by
  cases h with
  | unexpected => exact .refl w
  | acknowledged hflight hs =>
    have hack : Calm w w.acknowledged := .of_same (.of_air rfl) rfl rfl rfl
    exact hack.trans (drained_drain _).calm
  | failed hflight hs air now course outbound =>
    exact .of_same (.of_air air) course.target course.candidates course.connection

theorem calm_read (n : Nat) (w : Endpoint ρ σ) : Calm w (w.read n).2 := by
  obtain ⟨inbound, heq⟩ := read_eq n w
  rw [heq]
  exact .of_same (.of_air rfl) rfl rfl rfl

variable [DeviceStore σ]

/-- A report other than that of a link that came up or went down. -/
theorem calm_handle (e : Event) (w : Endpoint ρ σ) (hup : e ≠ .linkUp) (hdown : e ≠ .linkDown) :
    Calm w (w.handle e) := by
  cases e with
  | scanResult d => exact (aside_onScanResult d w).calm
  | scanComplete => exact (aside_onScanComplete w).calm
  | linkUp => exact absurd rfl hup
  | linkDown => exact absurd rfl hdown
  | servicesDiscovered success => exact (discoveredDone_onServicesDiscovered success w).calm
  | writeComplete success => exact (completedDone_onWriteComplete success w).calm
  | received fragment =>
    obtain ⟨inbound, heq⟩ := onReceived_eq fragment w
    rw [Endpoint.handle, heq]
    exact .of_same (.of_air rfl) rfl rfl rfl

end Endpoint

end VehicleLink
