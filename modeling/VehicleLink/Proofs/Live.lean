import VehicleLink.Proofs.Sound
import VehicleLink.Radio.Simulated

/-!
# What a transport waits for

A radio is `Prompt` if it reports at once on every connection, disconnect, discovery and write that
it takes up. Over such a radio, with no delay between fragments, all that the transport waits for
is already in the inbox: the end of the call that the connection is at (`Connection.openCall?`) and
the acknowledgement of the fragment in flight. This is the invariant `Live`, and every action keeps
it (`Live.act`). It speaks of the inbox with the events in `held` before it, so that it holds also
between taking an event and handling it.
-/

namespace VehicleLink

def Call.isReported : Call → Bool
  | .connect _ => true
  | .disconnect => true
  | .discover => true
  | .write .. => true
  | _ => false

/-- A report that ends what a call began. -/
def Call.endedBy : Call → Event → Bool
  | .connect _, .linkUp => true
  | .connect _, .linkDown => true
  | .disconnect, .linkDown => true
  | .discover, .servicesDiscovered _ => true
  | .write .., .writeComplete _ => true
  | _, _ => false

/-- The call that has to end before the connection can go on. -/
def Connection.openCall? : Connection → Option Call
  | .disconnected => none
  | .connecting p _ => some (.connect p)
  | .connected _ _ true => some .disconnect
  | .connected _ false false => some .discover
  | .connected _ true false => none

/-! ## Prompt radios -/

namespace Radio

/-- Every connection, disconnect, discovery and write that is taken up is reported at once. What is
taken up, and what is reported of it, is free. -/
structure Behaviour.Prompt (b : Behaviour) : Prop where
  connect : b.autoConnect = true
  disconnect : b.autoDisconnect = true
  discover : b.autoDiscover = true
  acknowledge : b.autoAcknowledge = true

def Simulated.Prompt (r : Simulated) : Prop := r.behaviour.Prompt

/-- A prompt radio ends the calls that it takes up. -/
theorem Simulated.Prompt.raised {r : Simulated} (h : r.Prompt) {c : Call}
    (hc : c.isReported = true) (taken : (Radio.submit c r).1.accepted = true) :
    ∃ e ∈ (Radio.submit c r).1.raised, c.endedBy e = true := by
  rw [answer_eq] at taken ⊢
  split at taken
  · cases taken
  · rename_i hlooked
    rw [if_neg hlooked]
    cases c with
    | connect a =>
      rw [Behaviour.answer] at taken ⊢
      split at taken
      · cases taken
      · rename_i haccepts
        rw [if_neg haccepts]
        split
        · exact ⟨.linkDown, List.mem_singleton.2 rfl, rfl⟩
        · rw [h.connect]
          exact ⟨.linkUp, List.mem_singleton.2 rfl, rfl⟩
    | disconnect =>
      rw [Behaviour.answer, h.disconnect]
      exact ⟨.linkDown, List.mem_singleton.2 rfl, rfl⟩
    | discover =>
      rw [Behaviour.answer, h.discover]
      exact ⟨.servicesDiscovered true, List.mem_singleton.2 rfl, rfl⟩
    | write k bytes =>
      rw [Behaviour.answer, h.acknowledge]
      exact ⟨.writeComplete r.behaviour.writeSuccess, List.mem_singleton.2 rfl, rfl⟩
    | scan window => cases hc
    | stopScan => cases hc
    | enableNotify k => cases hc

end Radio

namespace Endpoint

open Radio (Simulated)

/-- No delay holds a fragment back, and the acknowledgement of one in flight is waiting. -/
structure Flowing {σ : Type} (held : List Event) (w : Endpoint Simulated σ) : Prop where
  prompt : w.radio.Prompt
  due : w.transport.outbound.isDue w.now = true
  flight : w.transport.outbound.queue.inFlight = true →
    ∃ success, .writeComplete success ∈ held ++ w.inbox

/-- All that the transport waits for is in `held` or in the inbox. -/
structure Live {σ : Type} (held : List Event) (w : Endpoint Simulated σ) : Prop
    extends Flowing held w where
  course : ∀ c, w.transport.connection.openCall? = some c →
    ∃ e ∈ held ++ w.inbox, c.endedBy e = true

variable {σ : Type} {s : LinkSettings} {held : List Event} {w w' : Endpoint Simulated σ}

/-! ## Prompt calls -/

theorem Asks.prompt {P : Call → Prop} (h : Asks P w w') (hw : w.radio.Prompt) : w'.radio.Prompt :=
  h.induction (K := fun r _ => Simulated.Prompt r) (fun _ _ _ _ hr => hr) hw

/-- What ends a call that a prompt radio takes up waits behind what waited before. -/
theorem ended_submit {c : Call} (h : w.radio.Prompt) (hc : c.isReported = true)
    (taken : (w.submit c).1 = true) (air : w'.air = (w.submit c).2.air) :
    ∃ e ∈ held ++ w'.inbox, c.endedBy e = true := by
  obtain ⟨e, he, hend⟩ := h.raised hc taken
  have hinbox : w'.inbox = w.inbox ++ (Radio.submit c w.radio).1.raised := congrArg Prod.snd air
  refine ⟨e, ?_, hend⟩
  rw [hinbox]
  exact List.mem_append_right _ (List.mem_append_right _ he)

theorem Asks.held_subset {P : Call → Prop} (h : Asks P w w') :
    held ++ w.inbox ⊆ held ++ w'.inbox := by
  obtain ⟨later, hlater⟩ := h.inbox_prefix
  rw [← hlater, ← List.append_assoc]
  exact List.subset_append_left _ _

/-! ## Bytes that flow -/

/-- Nothing new is in flight. -/
theorem Flowing.of_asks {P : Call → Prop} (h : Flowing held w) (asks : Asks P w w')
    (due : w'.transport.outbound.isDue w'.now = true)
    (flight : w'.transport.outbound.queue.inFlight = true →
      w.transport.outbound.queue.inFlight = true) : Flowing held w' where
  prompt := asks.prompt h.prompt
  due := due
  flight hflight := by
    obtain ⟨success, hmem⟩ := h.flight (flight hflight)
    exact ⟨success, asks.held_subset hmem⟩

theorem Flowing.of_outbound {P : Call → Prop} (h : Flowing held w) (asks : Asks P w w')
    (now : w'.now = w.now) (outbound : w'.transport.outbound = w.transport.outbound) :
    Flowing held w' := by
  refine h.of_asks asks ?_ ?_
  · rw [outbound, now]
    exact h.due
  · rw [outbound]
    exact id

theorem Flowing.of_idle {P : Call → Prop} (h : Flowing held w) (asks : Asks P w w')
    (now : w'.now = w.now)
    (notBefore : w'.transport.outbound.notBefore = w.transport.outbound.notBefore)
    (flight : w'.transport.outbound.queue.inFlight = false) (later : List Event) :
    Flowing later w' where
  prompt := asks.prompt h.prompt
  due := by
    have hdue := h.due
    unfold Outbound.isDue at hdue ⊢
    rw [notBefore, now]
    exact hdue
  flight hflight := by
    rw [flight] at hflight
    cases hflight

/-- An event that does not acknowledge the fragment in flight may be dropped. -/
theorem Flowing.drop {e : Event} (h : Flowing [e] w)
    (hflight : ∀ success, e = .writeComplete success →
      w.transport.outbound.queue.inFlight = false) : Flowing [] w where
  prompt := h.prompt
  due := h.due
  flight hfly := by
    obtain ⟨success, hmem⟩ := h.flight hfly
    rcases List.mem_cons.1 hmem with heq | hmem
    · rw [hflight success heq.symm] at hfly
      cases hfly
    · exact ⟨success, hmem⟩

/-! ## Frames -/

theorem Flowing.live (h : Flowing held w) (hopen : w.transport.connection.openCall? = none) :
    Live held w where
  toFlowing := h
  course c hc := by
    rw [hopen] at hc
    cases hc

/-- A call that was just taken up has to end. -/
theorem Flowing.live_of_asked {c : Call} (h : Flowing held w')
    (hopen : w'.transport.connection.openCall? = some c) (hw : w.radio.Prompt)
    (hc : c.isReported = true) (taken : (w.submit c).1 = true)
    (air : w'.air = (w.submit c).2.air) : Live held w' where
  toFlowing := h
  course k hk := by
    rw [hopen] at hk
    cases hk
    exact ended_submit hw hc taken air

theorem Live.of_flowing {P : Call → Prop} (h : Live held w) (hw' : Flowing held w')
    (asks : Asks P w w')
    (hopen : w'.transport.connection.openCall? = w.transport.connection.openCall?) :
    Live held w' where
  toFlowing := hw'
  course c hc := by
    rw [hopen] at hc
    obtain ⟨e, he, hend⟩ := h.course c hc
    exact ⟨e, asks.held_subset he, hend⟩

theorem Live.aside (h : Live held w) (ha : Aside w w') : Live held w' := by
  refine h.of_flowing (h.of_outbound ha.asks ha.now ha.link.outbound) ha.asks ?_
  rw [ha.link.connection]

theorem Live.of_same (h : Live held w) (air : w'.air = w.air) (now : w'.now = w.now)
    (outbound : w'.transport.outbound = w.transport.outbound)
    (connection : w'.transport.connection = w.transport.connection) : Live held w' := by
  have hasks : Asks (fun _ => False) w w' := .of_air air
  refine h.of_flowing (h.of_outbound hasks now outbound) hasks ?_
  rw [connection]

/-- An event may be taken ahead of the inbox. -/
theorem Live.hold (h : Live [] w) (e : Event) : Live [e] w where
  prompt := h.prompt
  due := h.due
  flight hflight := by
    obtain ⟨success, hmem⟩ := h.flight hflight
    exact ⟨success, List.mem_cons_of_mem e hmem⟩
  course c hc := by
    obtain ⟨e', he', hend⟩ := h.course c hc
    exact ⟨e', List.mem_cons_of_mem e he', hend⟩

/-- An event that nothing waits for may be dropped. -/
theorem Live.drop {e : Event} (h : Live [e] w)
    (hcourse : ∀ c, w.transport.connection.openCall? = some c → c.endedBy e = false)
    (hflight : ∀ success, e = .writeComplete success →
      w.transport.outbound.queue.inFlight = false) : Live [] w where
  toFlowing := h.toFlowing.drop hflight
  course c hc := by
    obtain ⟨e', he', hend⟩ := h.course c hc
    rcases List.mem_cons.1 he' with rfl | hmem
    · rw [hcourse c hc] at hend
      cases hend
    · exact ⟨e', hmem, hend⟩

/-! ## What keeps it -/

/-- Without a delay a fragment that went out holds nothing back. -/
theorem isDue_leftBehind (hdelay : w.transport.settings.writeDelay = 0) (queue : FragmentQueue) :
    (w.leftBehind queue).isDue w.now = true := by
  rw [Outbound.isDue, leftBehind, hdelay]
  exact decide_eq_true (Nat.le_refl _)

theorem Live.drained {sent : Bool} (h : Live held w)
    (hdelay : w.transport.settings.writeDelay = 0) (hd : Drained w sent w') : Live held w' := by
  cases hd with
  | idle => exact h
  | sent fragment queue ready next taken air now course outbound =>
    have hasks : Asks (fun _ => True) w w' := .of_submit trivial air
    refine h.of_flowing ⟨hasks.prompt h.prompt, ?_, fun _ => ?_⟩ hasks ?_
    · rw [outbound, now]
      exact isDue_leftBehind hdelay queue
    · obtain ⟨e, he, hend⟩ : ∃ e ∈ held ++ w'.inbox,
          (Call.write .write fragment).endedBy e = true := ended_submit h.prompt rfl taken air
      cases e with
      | writeComplete success => exact ⟨success, he⟩
      | _ => cases hend
    · rw [course.connection]
  | refused fragment queue ready next refused air now course outbound =>
    have hasks : Asks (fun _ => True) w w' := .of_submit trivial air
    refine h.of_flowing (h.of_asks hasks ?_ ?_) hasks ?_
    · rw [outbound, now]
      exact isDue_leftBehind hdelay queue.reset
    · rw [outbound]
      exact nofun
    · rw [course.connection]

theorem Live.written {bytes : List UInt8} {answer : Bool} (h : Live held w)
    (hdelay : w.transport.settings.writeDelay = 0) (hw : Written bytes w answer w') :
    Live held w' := by
  cases hw with
  | refused air now course queue notBefore =>
    have hasks : Asks (fun _ => False) w w' := .of_air air
    refine h.of_flowing (h.of_asks hasks ?_ ?_) hasks ?_
    · unfold Outbound.isDue
      rw [notBefore, now]
      exact h.due
    · rw [queue]
      exact id
    · rw [course.connection]
  | accepted connected fits queued =>
    subst queued
    refine Live.drained ?_ ?_ (drained_drain _)
    · have hasks : Asks (fun _ => False) w
          (w.withQueue { w.transport.outbound.queue with
            bytes := w.transport.outbound.queue.bytes ++ bytes }) := .of_air rfl
      exact h.of_flowing (h.of_asks hasks h.due id) hasks rfl
    · exact hdelay

theorem Live.ended (h : Live held w) (he : Ended w w') : Live held w' := by
  cases he with
  | none hc => exact h.of_same rfl rfl rfl rfl
  | asked c hc air now setup connected outbound inbound candidates =>
    have hasks : Asks (fun _ => True) w w' := .of_submit trivial air
    have hflow : Flowing held w' :=
      h.of_idle hasks now (by rw [outbound]; rfl) (by rw [outbound]; rfl) held
    cases hold : w.transport.connection with
    | disconnected =>
      rw [hold] at hc
      cases hc
    | connecting p teardown =>
      -- the attempt goes on, and its end is the same
      rw [hold] at hc
      cases hc
      exact h.of_flowing hflow hasks (by rw [connected, hold]; rfl)
    | connected p ready teardown =>
      rw [hold] at hc
      cases hc
      exact hflow.live_of_asked (by rw [connected]; rfl) h.prompt rfl rfl air

theorem Flowing.dropped {p : Address} (h : Flowing held w) (hd : Dropped p w w') :
    Live held w' := by
  have hasks : Asks (fun _ => True) w w' := .of_submit trivial hd.air
  have hflow := h.of_outbound hasks hd.now hd.traffic.outbound
  exact hflow.live_of_asked (by rw [hd.connection]; rfl) h.prompt rfl rfl hd.air

/-- After attempts, either none is under way or the end of the last is reported. -/
theorem Flowing.attempted {cs : List Candidate} (h : Flowing held w)
    (ha : Attempted cs w w') : Live held w' := by
  have hflow := h.of_outbound ha.asks ha.now ha.traffic.outbound
  rcases ha.outcome with hnone | ⟨_, c, _, -, -, hconn, u, hu, hacc, hair⟩
  · exact hflow.live (by rw [hnone.connection]; rfl)
  · exact hflow.live_of_asked (by rw [hconn]; rfl) (hu.prompt h.prompt) rfl hacc hair

theorem Live.seek [DeviceStore σ] {target : Option Address} (h : Live held w)
    (hs : Seek target w w') : Live held w' := by
  cases hs with
  | idle ha => exact h.aside ha
  | tries cs hw hu hcs =>
    have hqueued : Live held (w.queueing []) := h.of_same rfl rfl rfl rfl
    exact (hqueued.aside hu).attempted
      (attempted_tryCandidates cs (hu.link.connection.trans hw))

theorem Live.stop (h : Live held w) : Live held w.stop := by
  rcases stop_cases w with heq | ⟨u, hu, heq⟩
  · rw [heq]
    exact h
  · rw [heq]
    have hhalted : Live held w.halted := h.of_same rfl rfl rfl rfl
    exact (hhalted.aside hu).ended (ended_disconnect u)

/-! ## Reports -/

theorem not_endedBy_linkUp {c : Connection} (h : c.isConnecting = false) (k : Call)
    (hk : c.openCall? = some k) : k.endedBy .linkUp = false := by
  cases c with
  | disconnected => cases hk
  | connecting p teardown => cases h
  | connected p ready teardown => cases ready <;> cases teardown <;> cases hk <;> rfl

theorem not_endedBy_servicesDiscovered {c : Connection} (success : Bool)
    (h : c.isConnected = true → c.teardownRequested = true) (k : Call)
    (hk : c.openCall? = some k) : k.endedBy (.servicesDiscovered success) = false := by
  cases c with
  | disconnected => cases hk
  | connecting p teardown => cases hk; rfl
  | connected p ready teardown =>
    obtain rfl : teardown = true := h rfl
    cases hk
    rfl

/-- No connection waits for a report on a scan, a write or received bytes. -/
theorem not_endedBy_other {c : Connection} {e : Event} (hup : e ≠ .linkUp) (hdown : e ≠ .linkDown)
    (hservices : ∀ success, e ≠ .servicesDiscovered success) (k : Call)
    (hk : c.openCall? = some k) : k.endedBy e = false := by
  have hwrite : k.isWrite = false := by
    cases c with
    | disconnected => cases hk
    | connecting p teardown => cases hk; rfl
    | connected p ready teardown => cases ready <;> cases teardown <;> cases hk <;> rfl
  cases e with
  | linkUp => exact absurd rfl hup
  | linkDown => exact absurd rfl hdown
  | servicesDiscovered success => exact absurd rfl (hservices success)
  | writeComplete success =>
    cases k with
    | write => cases hwrite
    | _ => rfl
  | _ => cases k <;> rfl

/-- A link that has just come up has nothing in flight. -/
theorem Flowing.opened {p : Address} {u : Endpoint Simulated σ} (h : Flowing held w)
    (ho : Opened p w u) : Flowing [] (u.submit .discover).2 := by
  have hu : Flowing [] u :=
    h.of_idle ho.asks ho.now (by rw [ho.outbound]; rfl) (by rw [ho.outbound]; rfl) []
  exact hu.of_outbound (P := fun _ => True) (.submit _ trivial) rfl rfl

theorem Live.linkUp (h : Live [.linkUp] w) (hsound : Sound s w.transport)
    (hup : LinkUpDone w w') : Live [] w' := by
  cases hup with
  | unexpected hc => exact h.drop (not_endedBy_linkUp hc) nofun
  | cancelled p hc traffic connection candidates air now =>
    have hflight : w.transport.outbound.queue.inFlight = false := hsound.unsent (by rw [hc]; rfl)
    have hasks : Asks (fun _ => True) w w' := .of_submit trivial air
    have hflow : Flowing [] w' :=
      h.of_idle hasks now (by rw [traffic.outbound]) (by rw [traffic.outbound, hflight]) []
    exact hflow.live (by rw [connection]; rfl)
  | kept p hc opened taken =>
    have hopen := congrArg Connection.openCall? opened.connection
    exact (h.opened opened).live_of_asked hopen (opened.asks.prompt h.prompt) rfl taken rfl
  | dropped p hc opened refused dropped => exact (h.opened opened).dropped dropped

theorem Live.linkDown (h : Live [.linkDown] w) (hdown : LinkDownDone w w') : Live [] w' := by
  have hasks : Asks (fun _ => False) w w.gone := .of_air rfl
  have hgone : Flowing [] w.gone := h.of_idle hasks rfl rfl rfl []
  cases hdown with
  | ignored hc =>
    refine h.drop (fun c hopen => ?_) nofun
    rw [hc] at hopen
    cases hopen
  | failed p hc =>
    let v := w.gone.update (Transport.noteError (.connectFailed p))
    have hv : Live [] v := (hgone.live rfl).of_same rfl rfl rfl rfl
    exact hv.attempted (attempted_tryCandidates _ rfl)
  | cancelled p hc => exact (hgone.live rfl).of_same rfl rfl rfl rfl
  | lost p ready hc => exact (hgone.live rfl).of_same rfl rfl rfl rfl
  | closed p ready hc => exact hgone.live rfl

theorem Live.discovered {success : Bool} (h : Live [.servicesDiscovered success] w)
    (hdelay : w.transport.settings.writeDelay = 0) (hd : DiscoveredDone success w w') :
    Live [] w' := by
  have hflow : Flowing [] w := h.toFlowing.drop nofun
  have hasked : Flowing [] (w.submit (.enableNotify .notify)).2 :=
    hflow.of_outbound (P := fun _ => True) (.submit _ trivial) rfl rfl
  cases hd with
  | ignored hc => exact h.drop (not_endedBy_servicesDiscovered success hc) nofun
  | ready p r hc taken =>
    have hready : Flowing [] (w.submit (.enableNotify .notify)).2.readied :=
      hasked.of_outbound (P := fun _ => False) (.of_air rfl) rfl rfl
    have hopen : (w.submit (.enableNotify .notify)).2.readied.transport.connection.openCall? =
        none := by
      show w.transport.connection.markReady.openCall? = none
      rw [hc]
      rfl
    exact (hready.live hopen).drained hdelay (drained_drain _)
  | refused p r hc refused dropped => exact hasked.dropped dropped
  | failed p r hc dropped => exact hflow.dropped dropped

theorem Live.completed {success : Bool} (h : Live [.writeComplete success] w)
    (hdelay : w.transport.settings.writeDelay = 0) (hd : CompletedDone success w w') :
    Live [] w' := by
  cases hd with
  | unexpected hflight => exact h.drop (not_endedBy_other nofun nofun nofun) fun _ _ => hflight
  | acknowledged hflight hs =>
    have hasks : Asks (fun _ => False) w w.acknowledged := .of_air rfl
    have hheld : Live [.writeComplete success] w.acknowledged :=
      h.of_flowing (h.of_idle hasks rfl rfl rfl _) hasks rfl
    have hack : Live [] w.acknowledged :=
      hheld.drop (not_endedBy_other nofun nofun nofun) fun _ _ => rfl
    exact hack.drained hdelay (drained_drain _)
  | failed hflight hs air now course outbound =>
    have hasks : Asks (fun _ => False) w w' := .of_air air
    have hidle : w'.transport.outbound.queue.inFlight = false := by
      rw [outbound]
      rfl
    have hheld : Live [.writeComplete success] w' :=
      h.of_flowing (h.of_idle hasks now (by rw [outbound]; rfl) hidle _) hasks
        (by rw [course.connection])
    exact hheld.drop (not_endedBy_other nofun nofun nofun) fun _ _ => hidle

/-! ## Actions -/

section Run

variable [DeviceStore σ]

theorem Live.handle {e : Event} (h : Live [e] w) (hsound : Sound s w.transport)
    (hdelay : s.writeDelay = 0) : Live [] (w.handle e) := by
  have hzero : w.transport.settings.writeDelay = 0 := by rw [hsound.settings, hdelay]
  cases e with
  | scanResult d =>
    have hdrop : Live [] w := h.drop (not_endedBy_other nofun nofun nofun) nofun
    exact hdrop.aside (aside_onScanResult d w)
  | scanComplete =>
    have hdrop : Live [] w := h.drop (not_endedBy_other nofun nofun nofun) nofun
    exact hdrop.aside (aside_onScanComplete w)
  | linkUp => exact h.linkUp hsound (linkUpDone_onLinkUp w)
  | linkDown => exact h.linkDown (linkDownDone_onLinkDown w)
  | servicesDiscovered success =>
    exact h.discovered hzero (discoveredDone_onServicesDiscovered success w)
  | writeComplete success => exact h.completed hzero (completedDone_onWriteComplete success w)
  | received fragment =>
    have hdrop : Live [] w := h.drop (not_endedBy_other nofun nofun nofun) nofun
    obtain ⟨inbound, heq⟩ := onReceived_eq fragment w
    rw [Endpoint.handle, heq]
    exact hdrop.of_same rfl rfl rfl rfl

theorem Live.act (h : Live [] w) (hsound : Sound s w.transport) (hdelay : s.writeDelay = 0)
    (a : Action) : Live [] (w.act a) := by
  have hzero : w.transport.settings.writeDelay = 0 := by rw [hsound.settings, hdelay]
  cases a with
  | start => exact h.of_same rfl rfl rfl rfl
  | stop => exact h.stop
  | connect target => exact h.seek (seek_connect target w)
  | disconnect => exact h.ended (ended_disconnect w)
  | pollAt instant => exact h.seek (seek_pollAt instant w)
  | startScan => exact h.aside (aside_beginScan w)
  | write bytes => exact h.written hzero (written_write bytes w)
  | read n =>
    obtain ⟨inbound, heq⟩ := read_eq n w
    rw [Endpoint.act, heq]
    exact h.of_same rfl rfl rfl rfl
  | setTarget target =>
    obtain ⟨policy, heq⟩ := setTarget_eq target w
    rw [Endpoint.act, heq]
    exact h.of_same rfl rfl rfl rfl
  | drainDue => exact h.drained hzero (drained_drain w)
  | handle e => exact (h.hold e).handle hsound hdelay
  | next =>
    show Live [] w.handleNext
    cases hinbox : w.inbox with
    | nil =>
      rw [handleNext_nil hinbox]
      exact h
    | cons e rest =>
      rw [handleNext_cons hinbox]
      have hflight := h.flight
      have hcourse := h.course
      rw [hinbox] at hflight hcourse
      have hheld : Live [e] { w with inbox := rest } := ⟨⟨h.prompt, h.due, hflight⟩, hcourse⟩
      exact hheld.handle hsound hdelay
  | raise e =>
    have hmem {x : Event} (hx : x ∈ w.inbox) : x ∈ (w.raise e).inbox :=
      List.mem_append_left _ hx
    refine ⟨⟨h.prompt, h.due, fun hflight => ?_⟩, fun c hc => ?_⟩
    · obtain ⟨success, hx⟩ := h.flight hflight
      exact ⟨success, hmem hx⟩
    · obtain ⟨x, hx, hend⟩ := h.course c hc
      exact ⟨x, hmem hx, hend⟩
  | wait d =>
    refine ⟨⟨h.prompt, ?_, h.flight⟩, h.course⟩
    have hdue := h.due
    show w.transport.outbound.isDue (w.now + d) = true
    unfold Outbound.isDue at hdue ⊢
    split
    · rfl
    · rename_i t ht
      rw [ht] at hdue
      exact decide_eq_true (Nat.le_trans (of_decide_eq_true hdue) (Nat.le_add_right _ _))

end Run

end Endpoint

end VehicleLink
