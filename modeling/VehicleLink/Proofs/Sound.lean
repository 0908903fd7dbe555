import VehicleLink.Proofs.Effects

/-!
# Sound transports

The invariant of every transport that was created and run, whatever the radio and the store did:
the queue is the one that was configured and keeps within its capacity, nothing is queued or in
flight while the link is down, and candidates wait only while an attempt that is still wanted is
under way (`sound_create`, `sound_step`).
-/

namespace VehicleLink.Endpoint

/-- What holds of every transport with the settings `s`. -/
structure Sound (s : LinkSettings) (t : Transport) : Prop where
  settings : t.settings = s
  capacity : t.outbound.queue.capacity = s.outboundCapacity
  limit : t.outbound.queue.limit = max s.maxFragment 1
  fits : t.outbound.queue.bytes.length ≤ s.outboundCapacity
  unqueued : t.connection.isConnected = false → t.outbound.queue.bytes = []
  unsent : t.connection.isConnected = false → t.outbound.queue.inFlight = false
  waiting : t.candidates ≠ [] → ∃ p, t.connection = .connecting p false

variable {ρ σ : Type} [Radio ρ] {s : LinkSettings} {t t' : Transport} {w w' : Endpoint ρ σ}

/-! ## What it depends on -/

/-- A change of nothing that the invariant speaks of. -/
theorem Sound.of_eq (h : Sound s t) (settings : t'.settings = t.settings)
    (queue : t'.outbound.queue = t.outbound.queue) (connection : t'.connection = t.connection)
    (candidates : t'.candidates = t.candidates) : Sound s t' where
  settings := settings.trans h.settings
  capacity := by rw [queue]; exact h.capacity
  limit := by rw [queue]; exact h.limit
  fits := by rw [queue]; exact h.fits
  unqueued := by rw [queue, connection]; exact h.unqueued
  unsent := by rw [queue, connection]; exact h.unsent
  waiting := by rw [connection, candidates]; exact h.waiting

/-- A change of the link that leaves nothing queued or in flight. -/
theorem Sound.of_reset (h : Sound s t) (settings : t'.settings = t.settings)
    (queue : t'.outbound.queue = t.outbound.queue.reset) (candidates : t'.candidates = []) :
    Sound s t' where
  settings := settings.trans h.settings
  capacity := by rw [queue]; exact h.capacity
  limit := by rw [queue]; exact h.limit
  fits := by rw [queue]; exact Nat.zero_le _
  unqueued := by rw [queue]; intro _; rfl
  unsent := by rw [queue]; intro _; rfl
  waiting := by rw [candidates]; intro h; exact absurd rfl h

/-- A change without a link. -/
theorem Sound.of_down (h : Sound s t) (down : t.connection.isConnected = false)
    (settings : t'.settings = t.settings) (queue : t'.outbound.queue = t.outbound.queue)
    (waiting : t'.candidates ≠ [] → ∃ p, t'.connection = .connecting p false) : Sound s t' where
  settings := settings.trans h.settings
  capacity := by rw [queue]; exact h.capacity
  limit := by rw [queue]; exact h.limit
  fits := by rw [queue]; exact h.fits
  unqueued := by rw [queue]; intro _; exact h.unqueued down
  unsent := by rw [queue]; intro _; exact h.unsent down
  waiting := waiting

/-- A change that leaves the link up. -/
theorem Sound.of_up {q : FragmentQueue} (h : Sound s t) (settings : t'.settings = t.settings)
    (queue : t'.outbound.queue = q) (capacity : q.capacity = t.outbound.queue.capacity)
    (limit : q.limit = t.outbound.queue.limit) (fits : q.bytes.length ≤ s.outboundCapacity)
    (up : t'.connection.isConnected = true) (candidates : t'.candidates = []) : Sound s t' where
  settings := settings.trans h.settings
  capacity := by rw [queue, capacity]; exact h.capacity
  limit := by rw [queue, limit]; exact h.limit
  fits := by rw [queue]; exact fits
  unqueued := by rw [up]; intro h; cases h
  unsent := by rw [up]; intro h; cases h
  waiting := by rw [candidates]; intro h; exact absurd rfl h

theorem connected_of_isReady {c : Connection} (h : c.isReady = true) : c.isConnected = true := by
  cases c with
  | disconnected => cases h
  | connecting p t => cases h
  | connected p r t => rfl

theorem Sound.no_candidates (h : Sound s t) (hc : ∀ p, t.connection ≠ .connecting p false) :
    t.candidates = [] := by
  cases hcand : t.candidates with
  | nil => rfl
  | cons c rest =>
    obtain ⟨p, hp⟩ := h.waiting (by rw [hcand]; exact List.cons_ne_nil _ _)
    exact absurd hp (hc p)

theorem Sound.no_candidates_of_up (h : Sound s t) (hc : t.connection.isConnected = true) :
    t.candidates = [] := by
  refine h.no_candidates fun p hp => ?_
  rw [hp] at hc
  cases hc

/-! ## What keeps it -/

theorem Sound.aside (h : Sound s w.transport) (ha : Aside w w') : Sound s w'.transport :=
  h.of_eq ha.link.settings (congrArg Outbound.queue ha.link.outbound) ha.link.connection
    ha.link.candidates

theorem Sound.drained {sent : Bool} (h : Sound s w.transport) (hd : Drained w sent w') :
    Sound s w'.transport := by
  cases hd with
  | idle => exact h
  | sent fragment queue ready next taken air now course outbound =>
    obtain ⟨-, -, -, rfl⟩ := FragmentQueue.next?_eq_some next
    have hup := connected_of_isReady ready
    refine h.of_up course.settings (congrArg Outbound.queue outbound) rfl rfl ?_
      (course.connection ▸ hup) (course.candidates.trans (h.no_candidates_of_up hup))
    have := h.fits
    show (w.transport.outbound.queue.bytes.drop _).length ≤ _
    rw [List.length_drop]
    omega
  | refused fragment queue ready next refused air now course outbound =>
    obtain ⟨-, -, -, rfl⟩ := FragmentQueue.next?_eq_some next
    have hup := connected_of_isReady ready
    exact h.of_up course.settings (congrArg Outbound.queue outbound) rfl rfl (Nat.zero_le _)
      (course.connection ▸ hup) (course.candidates.trans (h.no_candidates_of_up hup))

theorem Sound.written {bytes : List UInt8} {answer : Bool} (h : Sound s w.transport)
    (hw : Written bytes w answer w') : Sound s w'.transport := by
  cases hw with
  | refused air now course queue notBefore =>
    exact h.of_eq course.settings queue course.connection course.candidates
  | accepted connected fits queued =>
    subst queued
    refine Sound.drained ?_ (drained_drain _)
    refine h.of_up rfl rfl rfl rfl ?_ connected (h.no_candidates_of_up connected)
    rw [h.capacity] at fits
    show (w.transport.outbound.queue.bytes ++ bytes).length ≤ _
    rw [List.length_append]
    exact fits

theorem Sound.ended (h : Sound s w.transport) (he : Ended w w') : Sound s w'.transport := by
  cases he with
  | none hc =>
    have hcand : w.transport.candidates = [] := by
      refine h.no_candidates fun p hp => ?_
      rw [hc] at hp
      cases hp
    exact h.of_eq rfl rfl rfl hcand.symm
  | asked c hc air now setup connected outbound inbound candidates =>
    exact h.of_reset setup.settings (congrArg Outbound.queue outbound) candidates

theorem Sound.dropped {p : Address} (h : Sound s w.transport)
    (hc : w.transport.connection.isConnected = true) (hd : Dropped p w w') :
    Sound s w'.transport :=
  h.of_up hd.traffic.settings (congrArg Outbound.queue hd.traffic.outbound) rfl rfl h.fits
    (by rw [hd.connection]; rfl) (hd.candidates.trans (h.no_candidates_of_up hc))

theorem Sound.attempted {cs : List Candidate} (h : Sound s w.transport)
    (hw : w.transport.connection = .disconnected) (ha : Attempted cs w w') :
    Sound s w'.transport := by
  refine h.of_down (by rw [hw]; rfl) ha.traffic.settings
    (congrArg Outbound.queue ha.traffic.outbound) fun hne => ?_
  rcases ha.outcome with hnone | ⟨_, c, rest, _, _, hconn, _⟩
  · exact absurd hnone.candidates hne
  · exact ⟨c.address, hconn⟩

omit [Radio ρ] in
theorem Sound.queueing (h : Sound s w.transport) : Sound s (w.queueing []).transport :=
  { h with waiting := fun hne => absurd rfl hne }

theorem Sound.seek [DeviceStore σ] {target : Option Address} (h : Sound s w.transport)
    (hs : Seek target w w') : Sound s w'.transport := by
  cases hs with
  | idle ha => exact h.aside ha
  | tries cs hw hu hcs =>
    have hdisc := hu.link.connection.trans hw
    exact (h.queueing.aside hu).attempted hdisc (attempted_tryCandidates cs hdisc)

theorem Sound.stop (h : Sound s w.transport) : Sound s w.stop.transport := by
  rcases stop_cases w with heq | ⟨u, hu, heq⟩
  · rw [heq]; exact h
  · rw [heq]
    have hhalted : Sound s w.halted.transport := h.of_eq rfl rfl rfl rfl
    exact (hhalted.aside hu).ended (ended_disconnect u)

theorem Sound.opened {p : Address} (h : Sound s w.transport) (ho : Opened p w w') :
    Sound s w'.transport :=
  h.of_reset ho.setup.settings (congrArg Outbound.queue ho.outbound) ho.candidates

theorem Sound.linkUp (h : Sound s w.transport) (hup : LinkUpDone w w') :
    Sound s w'.transport := by
  cases hup with
  | unexpected => exact h
  | cancelled p hc traffic connection candidates air now =>
    refine h.of_down (by rw [hc]; rfl) traffic.settings
      (congrArg Outbound.queue traffic.outbound) fun hne => ?_
    rw [candidates] at hne
    obtain ⟨q, hq⟩ := h.waiting hne
    rw [hc] at hq
    cases hq
  | @kept u p hc opened taken =>
    have hu : Sound s u.transport := h.opened opened
    exact hu
  | @dropped u _ p hc opened refused dropped =>
    have hu : Sound s u.transport := h.opened opened
    have hasked : Sound s (u.submit .discover).2.transport := hu
    refine hasked.dropped ?_ dropped
    show u.transport.connection.isConnected = true
    rw [opened.connection]
    rfl

omit [Radio ρ] in
theorem Sound.gone (h : Sound s w.transport) : Sound s (w.gone.queueing []).transport :=
  h.of_reset rfl rfl rfl

theorem Sound.linkDown (h : Sound s w.transport) (hdown : LinkDownDone w w') :
    Sound s w'.transport := by
  cases hdown with
  | ignored => exact h
  | failed p hc =>
    rw [← tryCandidates_queueing _ []]
    let v := (w.gone.update (Transport.noteError (.connectFailed p))).queueing []
    have hv : Sound s v.transport := h.gone.of_eq rfl rfl rfl rfl
    exact hv.attempted rfl (attempted_tryCandidates _ rfl)
  | cancelled p hc => exact h.gone
  | lost p ready hc =>
    exact h.of_reset rfl rfl (h.no_candidates_of_up (by rw [hc]; rfl))
  | closed p ready hc =>
    exact h.of_reset rfl rfl (h.no_candidates_of_up (by rw [hc]; rfl))

theorem Sound.discovered {success : Bool} (h : Sound s w.transport)
    (hd : DiscoveredDone success w w') : Sound s w'.transport := by
  cases hd with
  | ignored => exact h
  | ready p r hc taken =>
    have hup : w.transport.connection.isConnected = true := by rw [hc]; rfl
    refine Sound.drained ?_ (drained_drain _)
    refine h.of_up rfl rfl rfl rfl h.fits ?_ (h.no_candidates_of_up hup)
    show w.transport.connection.markReady.isConnected = true
    rw [hc]
    rfl
  | refused p r hc refused dropped =>
    have hasked : Sound s (w.submit (.enableNotify .notify)).2.transport := h
    refine hasked.dropped ?_ dropped
    show w.transport.connection.isConnected = true
    rw [hc]
    rfl
  | failed p r hc dropped => exact h.dropped (by rw [hc]; rfl) dropped

theorem Sound.completed {success : Bool} (h : Sound s w.transport)
    (hd : CompletedDone success w w') : Sound s w'.transport := by
  have hup (hflight : w.transport.outbound.queue.inFlight = true) :
      w.transport.connection.isConnected = true := by
    cases hc : w.transport.connection.isConnected with
    | true => rfl
    | false => rw [h.unsent hc] at hflight; cases hflight
  cases hd with
  | unexpected => exact h
  | acknowledged hflight hs =>
    refine Sound.drained ?_ (drained_drain _)
    exact h.of_up rfl rfl rfl rfl h.fits (hup hflight) (h.no_candidates_of_up (hup hflight))
  | failed hflight hs air now course outbound =>
    exact h.of_up course.settings (congrArg Outbound.queue outbound) rfl rfl (Nat.zero_le _)
      (course.connection ▸ hup hflight)
      (course.candidates.trans (h.no_candidates_of_up (hup hflight)))

/-! ## Runs -/

section Run

variable [DeviceStore σ]

theorem Sound.handle (h : Sound s w.transport) (e : Event) : Sound s (w.handle e).transport := by
  cases e with
  | scanResult d => exact h.aside (aside_onScanResult d w)
  | scanComplete => exact h.aside (aside_onScanComplete w)
  | linkUp => exact h.linkUp (linkUpDone_onLinkUp w)
  | linkDown => exact h.linkDown (linkDownDone_onLinkDown w)
  | servicesDiscovered success => exact h.discovered (discoveredDone_onServicesDiscovered success w)
  | writeComplete success => exact h.completed (completedDone_onWriteComplete success w)
  | received fragment =>
    obtain ⟨inbound, heq⟩ := onReceived_eq fragment w
    rw [Endpoint.handle, heq]
    exact h.of_eq rfl rfl rfl rfl

theorem Sound.act (h : Sound s w.transport) (a : Action) : Sound s (w.act a).transport := by
  cases a with
  | start => exact h.of_eq rfl rfl rfl rfl
  | stop => exact h.stop
  | connect target => exact h.seek (seek_connect target w)
  | disconnect => exact h.ended (ended_disconnect w)
  | pollAt instant => exact h.seek (seek_pollAt instant w)
  | startScan => exact h.aside (aside_beginScan w)
  | write bytes => exact h.written (written_write bytes w)
  | read n =>
    obtain ⟨inbound, heq⟩ := read_eq n w
    rw [Endpoint.act, heq]
    exact h.of_eq rfl rfl rfl rfl
  | setTarget target =>
    obtain ⟨policy, heq⟩ := setTarget_eq target w
    rw [Endpoint.act, heq]
    exact h.of_eq rfl rfl rfl rfl
  | drainDue => exact h.drained (drained_drain w)
  | handle e => exact h.handle e
  | next =>
    show Sound s w.handleNext.transport
    cases hinbox : w.inbox with
    | nil =>
      rw [handleNext_nil hinbox]
      exact h
    | cons e rest =>
      rw [handleNext_cons hinbox]
      exact Sound.handle (w := { w with inbox := rest }) h e
  | raise e => exact h
  | wait d => exact h

theorem sound_step (h : Sound s w.transport) (st : Step ρ σ) : Sound s (w.step st).transport := by
  cases st with
  | act a => exact h.act a
  | radio f => exact h
  | store f => exact h

theorem sound_run (h : Sound s w.transport) (steps : List (Step ρ σ)) :
    Sound s (w.run steps).transport :=
  run_induction (P := fun w => Sound s w.transport) (fun st _ h => sound_step h st) h steps

theorem sound_create {target : Option String} {radio : ρ} {store : σ}
    (h : create s target radio store = .ok w) : Sound s w.transport := by
  obtain ⟨a, devices, -, rfl⟩ := create_eq h
  exact ⟨rfl, rfl, rfl, Nat.zero_le _, fun _ => rfl, fun _ => rfl, fun hne => absurd rfl hne⟩

end Run

end VehicleLink.Endpoint
